import RasterStore.SharedFiles
import RasterStore.Proofs.Action.Ends

/-!
# Files and the datasets over them

What a path leads to once a file is there, and what a step of a dataset does that has its file to
itself: the file has the bytes of the storage before and after it.
-/

namespace RasterStore

open RasterStore.Action

namespace FileSystem

variable {system : FileSystem} {path held : String} {bytes old : ByteArray}

/-! ## Finding files -/

private theorem find?_of_entry {directory name : String}
    (h : system.entry directory name = .ok (.file held bytes)) : system.find? held = some bytes := by
  unfold entry at h
  split at h
  · simp at h
  · split at h
    · simp at h
    · split at h
      · simp at h
      · split at h
        · next hfind =>
          simp only [Except.ok.injEq, DirectoryEntry.file.injEq] at h
          rw [← h.1, ← h.2]
          exact hfind
        · simp at h

/-- A file is found under the last name of its path. -/
private theorem entry_of_fileAt (h : system.fileAt path = .ok (held, bytes)) :
    ∃ directory, system.enclosing path = .ok directory ∧
      system.entry directory (lastName path) = .ok (.file held bytes) ∧
      endsInSlash path = false := by
  unfold fileAt locate at h
  -- each step of the look-up has succeeded
  cases hplace : system.enclosing path with
  | error reason => simp [hplace, bind, Except.bind] at h
  | ok directory =>
    refine ⟨directory, rfl, ?_⟩
    cases hentry : system.entry directory (lastName path) with
    | error reason => simp [hplace, hentry, bind, Except.bind] at h
    | ok entry =>
      cases entry with
      | directory reached => simp [hplace, hentry, bind, Except.bind] at h
      | vacant reached => simp [hplace, hentry, bind, Except.bind] at h
      | file found content =>
        cases hslash : endsInSlash path with
        | true => simp [hplace, hentry, hslash, bind, Except.bind] at h
        | false =>
          simp only [hplace, hentry, hslash, bind, Except.bind, Bool.false_eq_true, if_false,
            Except.ok.injEq, Prod.mk.injEq] at h
          rw [h.1, h.2]
          exact ⟨rfl, rfl⟩

/-- The bytes at a path are those of the file that it leads to. -/
theorem find?_of_fileAt (h : system.fileAt path = .ok (held, bytes)) :
    system.find? held = some bytes := by
  obtain ⟨directory, -, hentry, -⟩ := entry_of_fileAt h
  exact find?_of_entry hentry

/-- New bytes in a file are found under its path. -/
theorem fileAt_put_of_fileAt (h : system.fileAt path = .ok (held, old)) (bytes : ByteArray) :
    (system.put held bytes).fileAt path = .ok (held, bytes) := by
  obtain ⟨directory, hplace, hentry, hslash⟩ := entry_of_fileAt h
  apply fileAt_put
  simp [placeFor, hplace, hentry, hslash, bind, Except.bind]

/-- A file is opened with the bytes that it has. -/
theorem openStorage_of_fileAt (h : system.fileAt path = .ok (held, bytes)) (update : Bool) :
    system.openStorage path update = .ok ⟨.file held, bytes, update⟩ := by
  obtain ⟨directory, hplace, hentry, hslash⟩ := entry_of_fileAt h
  simp [openStorage, locate, hplace, hentry, hslash, opening, bind, Except.bind]

/-- The start of a file is read as it is. -/
theorem readStart_of_fileAt (h : system.fileAt path = .ok (held, bytes)) (count : Nat) :
    system.readStart path count = .ok (bytes.slice 0 count) := by
  rw [readStart, h]
  rfl

/-! ## Storages over files -/

/-- A storage that has the bytes of its file is up to date. -/
theorem attach_of_find? {storage : Storage} (hmedium : storage.medium = .file held)
    (hfind : system.find? held = some storage.bytes) : system.attach storage = storage := by
  obtain ⟨medium, bytes, writable⟩ := storage
  obtain rfl : medium = .file held := hmedium
  rw [attach]
  simp only [hfind, Option.getD_some]

/-- A storage on a file is saved to that file. -/
theorem save_of_file {storage : Storage} (hmedium : storage.medium = .file held) :
    system.save storage = system.put held storage.bytes := by
  rw [save, hmedium]

/-- A step on an open storage ends with the bytes that it left put back into the file. -/
theorem ends_onStorage {α : Type} {storage : Storage} {act : Action Storage α}
    {good : α → FileSystem → Prop} {bad : RasterError → FileSystem → Prop}
    (h : act.Ends storage (fun value reached => good value (system.save reached))
      (fun error reached => bad error (system.save reached))) :
    (onStorage storage act).Ends system good bad :=
  h.of_part system.save rfl

/-- A new file is empty. -/
theorem ends_createStorage :
    (createStorage path).Ends system
      (fun storage after => ∃ held, storage = ⟨.file held, ByteArray.empty, true⟩ ∧
        after.fileAt path = .ok (held, ByteArray.empty))
      (fun _ after => after = system) := by
  refine Ends.get_bind (Ends.bind ?_)
  cases hplace : system.placeFor path with
  | error reason => rfl
  | ok held =>
    exact ⟨held, rfl, fileAt_put ByteArray.empty hplace⟩

end FileSystem

namespace Dataset

variable {κ α : Type} [StoredCodec κ] {system : FileSystem} {dataset : Dataset κ}

/-- A dataset whose storage is not changed stays as it is. -/
theorem mapStorage_eq_self {f : Storage → Storage} {storage : Storage}
    (hstorage : dataset.storage? = some storage)
    (hwith : StoredCodec.withStorage dataset.store.codec storage = dataset.store.codec)
    (hf : f storage = storage) : dataset.mapStorage f = dataset := by
  obtain ⟨driver, access, ⟨cache, codec, bands, raster, reports⟩, closed⟩ := dataset
  have hcodec : StoredCodec.storage? codec = some storage := hstorage
  have hself : StoredCodec.withStorage codec storage = codec := hwith
  simp only [mapStorage, mapCodec, hcodec, hf, hself]

/-- After a step the file has the bytes that the storage has then. -/
theorem fileAt_save {storage : Storage} {path held : String} {old : ByteArray}
    (hstorage : dataset.storage? = some storage) (hmedium : storage.medium = .file held)
    (hfile : system.fileAt path = .ok (held, old)) :
    (dataset.storage?.elim system system.save).fileAt path = .ok (held, storage.bytes) := by
  rw [hstorage, Option.elim_some, FileSystem.save_of_file hmedium]
  exact FileSystem.fileAt_put_of_fileAt hfile _

/-- A step of a dataset whose storage is up to date. -/
theorem ends_onFiles {act : Action (Dataset κ) α} {good : α → FileSystem × Dataset κ → Prop}
    {bad : RasterError → FileSystem × Dataset κ → Prop}
    (hattached : dataset.mapStorage system.attach = dataset)
    (h : act.Ends dataset
      (fun value after => good value (after.storage?.elim system system.save, after))
      (fun error after => bad error (after.storage?.elim system system.save, after))) :
    (onFiles act).Ends (system, dataset) good bad := by
  apply h.of_part (fun after => (after.storage?.elim system system.save, after))
  unfold onFiles Action.run
  dsimp only
  rw [hattached]

/-- What a step answers whose storage is up to date. -/
theorem answer_onFiles {act : Action (Dataset κ) α} {value : α}
    (hattached : dataset.mapStorage system.attach = dataset)
    (h : act.Ends dataset (fun answer _ => answer = value) fun _ _ => False) :
    ((onFiles act).run (system, dataset)).1 = .ok value := by
  have hends : (onFiles act).Ends (system, dataset) (fun answer _ => answer = value)
      fun _ _ => False := ends_onFiles hattached h
  obtain ⟨answer, after, hrun, rfl⟩ := hends.exists_ok
  rw [hrun]

end Dataset

end RasterStore
