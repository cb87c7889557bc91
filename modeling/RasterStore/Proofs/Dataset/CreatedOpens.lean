import RasterStore.Proofs.Dataset.ReadOnly
import RasterStore.Proofs.Dted.Files
import RasterStore.Proofs.Tiled.Blank
import RasterStore.Proofs.Tiled.Files

/-!
# What a driver makes can be opened

A dataset that was made in a file and is only read from leaves the file as the driver made it
(`Untouched`), and closing it succeeds. What then decides whether the file can be opened is what the
driver wrote (`MadeInFile`): a matrix is always read back, a tiled file if the bytes of its blocks
can be counted in four bytes. The driver does not check the latter, so it makes files that it does
not open (`created_not_opened`).
-/

namespace RasterStore

open BlockStore Tiled RasterStore.Action

variable {path held : String} {raster : Size} {bands : List BandDescriptor}
variable {codec : FormatCodec} {storage : Storage} {system left : FileSystem}
variable {dataset : Dataset FormatCodec} {access : Access}

/-! ## Calls that only read -/

/-- A storage put back in its place changes nothing. -/
theorem FormatCodec.withStorage_eq (h : StoredCodec.storage? codec = some storage) :
    StoredCodec.withStorage codec storage = codec := by
  rcases codec with memory | tiled | dted
  · contradiction
  · cases h
    rfl
  · cases h
    rfl

/-- No block of the dataset is dirty, and the file at the path has the bytes of its storage. -/
structure Untouched (path held : String) (raster : Size) (bands : List BandDescriptor)
    (codec : FormatCodec) (storage : Storage) (state : FileSystem × Dataset FormatCodec) :
    Prop where
  stored : StoredCodec.storage? codec = some storage
  medium : storage.medium = .file held
  clean : state.2.Meets .update (Clean raster bands (· = codec))
  file : state.1.fileAt path = .ok (held, storage.bytes)

/-- A step that writes no block leaves the file as it is. -/
theorem Untouched.ends_onFiles {α : Type} {act : Action (Dataset FormatCodec) α} {bad : Prop}
    (h : Untouched path held raster bands codec storage (system, dataset))
    (hact : act.Ends dataset
      (fun _ after => after.Meets .update (Clean raster bands (· = codec)))
      (fun _ after => after.Meets .update (Clean raster bands (· = codec)) ∧ bad)) :
    (Dataset.onFiles act).Ends (system, dataset)
      (fun _ after => Untouched path held raster bands codec storage after)
      (fun _ after => Untouched path held raster bands codec storage after ∧ bad) := by
  have hstorage {reached : Dataset FormatCodec}
      (hreached : reached.Meets .update (Clean raster bands (· = codec))) :
      reached.storage? = some storage := by
    -- the file has what the dataset has, so that attaching it changes nothing
    rw [Dataset.storage?, hreached.blocks.holds]
    exact h.stored
  have hattached : dataset.mapStorage system.attach = dataset := by
    apply Dataset.mapStorage_eq_self (hstorage h.clean)
    · rw [h.clean.blocks.holds]
      exact FormatCodec.withStorage_eq h.stored
    · exact FileSystem.attach_of_find? h.medium (FileSystem.find?_of_fileAt h.file)
  -- and saving puts back what is there already
  have huntouched {reached : Dataset FormatCodec}
      (hreached : reached.Meets .update (Clean raster bands (· = codec))) :
      Untouched path held raster bands codec storage
        (reached.storage?.elim system system.save, reached) :=
    ⟨h.stored, h.medium, hreached, Dataset.fileAt_save (hstorage hreached) h.medium h.file⟩
  apply Dataset.ends_onFiles hattached
  apply hact.mono
  · exact fun _ _ hreached => huntouched hreached
  · exact fun _ _ hfailed => ⟨huntouched hfailed.1, hfailed.2⟩

/-- The dataset and the files after some calls, whether they succeeded or failed. -/
def DatasetCall.performOnFiles (calls : List DatasetCall)
    (state : FileSystem × Dataset FormatCodec) : FileSystem × Dataset FormatCodec :=
  calls.foldl (fun reached call => ((Dataset.onFiles call.perform).run reached).2) state

/-- Calls that read leave the file as it is. -/
theorem Untouched.performOnFiles (hblocked : ∀ band ∈ bands, band.Blocked)
    {state : FileSystem × Dataset FormatCodec}
    (h : Untouched path held raster bands codec storage state) {calls : List DatasetCall}
    (hreading : ∀ call ∈ calls, call.IsReading) :
    Untouched path held raster bands codec storage (DatasetCall.performOnFiles calls state) := by
  have hkept : KeptByReading raster bands (Clean (κ := FormatCodec) raster bands (· = codec)) :=
    Clean.keptByReading (fun context => onlyReads_decode context codec) (onlyReads_flush codec)
  -- induction on the calls; each leaves file and dataset untouched, whether it succeeds or not
  induction calls generalizing state with
  | nil => exact h
  | cons call rest ih =>
    obtain ⟨hcall, hrest⟩ := List.forall_mem_cons.mp hreading
    have hperformed : Keeps (Dataset.Meets .update (Clean raster bands (· = codec)))
        (call.perform (κ := FormatCodec)) :=
      DatasetCall.keeps_perform_of_isReading hkept hblocked hcall
    have hreached : (Dataset.onFiles call.perform).Ends state
        (fun _ after => Untouched path held raster bands codec storage after)
        (fun _ after => Untouched path held raster bands codec storage after ∧ True) :=
      h.ends_onFiles ((hperformed state.2 h.clean).mono (fun _ _ hafter => hafter)
        fun _ _ hafter => ⟨hafter, trivial⟩)
    exact ih (hreached.mono (fun _ _ hafter => hafter) fun _ _ hafter => hafter.1).reached hrest

/-- A dataset without dirty blocks is closed, and else is as it was. -/
theorem Clean.ends_close (h : dataset.Meets access (Clean raster bands (· = codec))) :
    (Dataset.close (κ := FormatCodec)).Ends dataset
      (fun _ after => after = { dataset with closed := true }) (fun _ _ => False) := by
  have hblocks : (BlockStore.flush (κ := FormatCodec)).Ends dataset.store
      (fun _ store => store = dataset.store) (fun _ _ => False) := by
    -- there is nothing to write back
    apply Ends.get_bind
    rw [h.blocks.dirtyKeys_eq_nil]
    rfl
  apply Dataset.ends_close
  apply (Dataset.ends_flush_of_blocks hblocks flush_formatCodec).mono _ fun _ _ hnever => hnever
  rintro _ after ⟨store, rfl, rfl⟩
  rfl

/-- Closing succeeds and leaves the file as it is. -/
theorem Untouched.ends_close (h : Untouched path held raster bands codec storage (system, dataset)) :
    (Dataset.onFiles Dataset.close).Ends (system, dataset)
      (fun _ after => Untouched path held raster bands codec storage after) (fun _ _ => False) := by
  have hclose : (Dataset.close (κ := FormatCodec)).Ends dataset
      (fun _ after => after.Meets .update (Clean raster bands (· = codec)))
      (fun _ after => after.Meets .update (Clean raster bands (· = codec)) ∧ False) := by
    apply (Clean.ends_close h.clean).mono
    · rintro _ after rfl
      exact ⟨h.clean.access_eq, h.clean.blocks⟩
    · exact fun _ _ hfalse => hfalse.elim
  exact (h.ends_onFiles hclose).mono (fun _ _ hafter => hafter) fun _ _ hafter => hafter.2

/-! ## Opening -/

section Opening

variable {driver : Driver} {options : OpenOptions} {environment : Option String}

/-- A file is opened by the driver that it is identified for. -/
theorem openFile_of_identify (hallowed : options.allowed = none)
    (hidentify : Driver.identify system path = .ok driver)
    (hopen : driver.openDataset system path options environment = .ok dataset) :
    openFile system path options environment = (.ok dataset, []) := by
  have hprobe : Driver.probe system path options = .ok driver := by
    rw [Driver.probe, hallowed]
    exact hidentify
  simp only [openFile, hprobe, bind, Except.bind, hopen]

/-- A file is refused with the reason that the driver gives. -/
theorem openFile_of_refused {error : RasterError} (hallowed : options.allowed = none)
    (hidentify : Driver.identify system path = .ok driver)
    (hopen : driver.openDataset system path options environment = .error error) :
    (openFile system path options environment).1 = .error error := by
  have hprobe : Driver.probe system path options = .ok driver := by
    rw [Driver.probe, hallowed]
    exact hidentify
  simp only [openFile, hprobe, bind, Except.bind, hopen]

end Opening

/-! ## Files that the drivers made -/

/-- All blocks have so few bytes that four bytes can count them. -/
def BlocksCounted (bands : List BandDescriptor) : Prop :=
  ∀ band ∈ bands, band.blockBytes < byteLimit 4

/-- A driver made a dataset in a file, and will open the file if it can count the bytes of the
    blocks. -/
structure MadeInFile (driver : Driver) (path held : String) (raster : Size)
    (bands : List BandDescriptor) (codec : FormatCodec) (storage : Storage) (system : FileSystem)
    (dataset : Dataset FormatCodec) : Prop where
  isNew : dataset.IsNew codec raster bands .update
  name : Codec.name codec = driver.shortName
  blocked : ∀ band ∈ bands, band.Blocked
  stored : StoredCodec.storage? codec = some storage
  medium : storage.medium = .file held
  file : system.fileAt path = .ok (held, storage.bytes)
  identify : ∀ left : FileSystem, left.fileAt path = .ok (held, storage.bytes) →
    Driver.identify left path = .ok driver
  opens : ∀ left : FileSystem, left.fileAt path = .ok (held, storage.bytes) →
    ∀ (options : OpenOptions) (environment : Option String), BlocksCounted bands →
      ∃ codec reopened, driver.openDataset left path options environment = .ok reopened ∧
        Codec.name codec = driver.shortName ∧
        reopened.IsNew codec raster bands options.flags.access
  refused : ∀ left : FileSystem, left.fileAt path = .ok (held, storage.bytes) →
    ∀ (options : OpenOptions) (environment : Option String), ¬BlocksCounted bands →
      ∃ reason, driver.openDataset left path options environment = .error (.format none reason)

/-- A new dataset has not changed its file. -/
theorem MadeInFile.untouched {driver : Driver}
    (h : MadeInFile driver path held raster bands codec storage system dataset) :
    Untouched path held raster bands codec storage (system, dataset) := by
  refine ⟨h.stored, h.medium, ⟨h.isNew.access, ?_⟩, h.file⟩
  -- a new dataset is clean, since its cache is empty
  constructor
  · exact h.isNew.codec
  · intro key block hmem
    rw [h.isNew.empty] at hmem
    contradiction
  · exact h.isNew.raster
  · rw [h.isNew.bands]
    exact .refl bands

namespace MadeBlank

variable {tiled : TiledCodec} (h : MadeBlank path held raster bands tiled system dataset)
include h

/-- The new file can be loaded just if its blocks can be counted in an entry. -/
theorem loadable_iff : Loadable tiled.storage.bytes ↔ BlocksCounted bands := by
  rw [h.bytes]
  exact loadable_blankFile_iff h.sides h.bands_pos h.bands_lt h.blocks

/-- The file is no longer than files can be. -/
theorem readable (writable : Bool) :
    Storage.Readable ⟨.file held, tiled.storage.bytes, writable⟩ :=
  h.usable.readable.length_lt (by simp [h.medium])

/-- The new file is identified as a tiled one by its first bytes. -/
theorem identify (hfile : left.fileAt path = .ok (held, tiled.storage.bytes)) :
    Driver.identify left path = .ok .tiled := by
  apply Driver.identify_of_magic (FileSystem.readStart_of_fileAt hfile _)
  have hheader := (isHeader_blankFile h.sides h.bands_pos h.bands_lt).1
  rw [← h.bytes] at hheader
  rw [ByteArray.slice_slice (by decide)]
  exact hheader.magic

/-- If its blocks can be counted, the new file is opened as it was made. -/
theorem opens (hfile : left.fileAt path = .ok (held, tiled.storage.bytes)) (options : OpenOptions)
    (environment : Option String) (hcounted : BlocksCounted bands) :
    ∃ codec reopened, Driver.openDataset .tiled left path options environment = .ok reopened ∧
      Codec.name codec = Driver.shortName .tiled ∧
      reopened.IsNew codec raster bands options.flags.access := by
  have hreadable := h.readable options.flags.update
  obtain ⟨tables, hload, -⟩ := TiledCodec.load_of_loadable hreadable (h.loadable_iff.mpr hcounted)
  -- what the file records is what it was created with
  -- the headers of the file say the size and the bands that it was made with
  have hraster : storedRaster tiled.storage.bytes = raster := by
    rw [h.bytes]
    exact (isHeader_blankFile h.sides h.bands_pos h.bands_lt).2.1
  have hbands : storedBands tiled.storage.bytes = bands := by
    rw [h.bytes]
    exact storedBands_blankFile h.sides h.bands_pos h.bands_lt h.blocks
  simp only [hraster, hbands] at hload
  obtain ⟨reopened, hreopened, hnew⟩ := Dataset.ofCodec_of_nonempty
    (.inr (.inl ⟨⟨.file held, tiled.storage.bytes, options.flags.update⟩, tables⟩) : FormatCodec)
    h.sides.isEmpty (List.ne_nil_of_length_pos h.bands_pos)
    (fun band hmem => (h.blocks band hmem).isEmpty) options environment
  refine ⟨_, reopened, ?_, rfl, hnew⟩
  simp only [Driver.openDataset, FileSystem.openStorage_of_fileAt hfile, bind, Except.bind, hload]
  exact hreopened

/-- If some block cannot be counted, the new file is refused as a fault of the format. -/
theorem refused (hfile : left.fileAt path = .ok (held, tiled.storage.bytes)) (options : OpenOptions)
    (environment : Option String) (hcounted : ¬BlocksCounted bands) :
    ∃ reason, Driver.openDataset .tiled left path options environment =
      .error (.format none reason) := by
  -- all of the headers are there, so they are parsed and not missed
  have hlength : headerBytes ≤ tiled.storage.bytes.size := by
    rw [h.bytes, TiledCodec.size_blankFile]
    exact Nat.le_trans (Nat.le_add_right _ _) tablesStart_le
  have hnot : ¬Loadable tiled.storage.bytes := fun hloadable =>
    hcounted (h.loadable_iff.mp hloadable)
  obtain ⟨reason, hload⟩ := TiledCodec.load_of_not_loadable (h.readable options.flags.update)
    hlength hnot
  refine ⟨reason, ?_⟩
  simp only [Driver.openDataset, FileSystem.openStorage_of_fileAt hfile, bind, Except.bind, hload]

/-- A new tiled file is one that was made and not touched since. -/
theorem madeInFile :
    MadeInFile .tiled path held raster bands (.inr (.inl tiled)) tiled.storage system dataset where
  isNew := h.isNew
  name := rfl
  blocked band hmem := ⟨(h.blocks band hmem).width_pos, (h.blocks band hmem).height_pos⟩
  stored := rfl
  medium := h.medium
  file := h.file
  identify _ := h.identify
  opens _ := h.opens
  refused _ := h.refused

end MadeBlank

/-- The columns of a matrix are never too large. -/
theorem Dted.Made.madeInFile (h : Made path held raster storage system dataset) :
    MadeInFile .dted path held raster [DtedCodec.band raster.height]
      (.inr (.inr ⟨storage, headerBytes, raster⟩)) storage system dataset := by
  have hcounted : BlocksCounted [DtedCodec.band raster.height] := by
    intro band hmem
    rw [List.mem_singleton.mp hmem]
    exact Dted.blockBytes_lt h.file.sides
  have hfile {left : FileSystem} (hleft : left.fileAt path = .ok (held, storage.bytes)) :
      MatrixFile left path held raster (fun _ => List.replicate raster.height 0) storage.bytes :=
    { h.file with file := hleft }
  constructor
  · exact h.isNew
  · rfl
  · intro band hmem
    rw [List.mem_singleton.mp hmem]
    exact ⟨Nat.one_pos, h.file.sides.height_pos⟩
  · rfl
  · exact h.medium
  · exact h.file.file
  · exact fun _ hleft => (hfile hleft).identify
  · -- a matrix is always small enough, so that the second case does not arise
    intro left hleft options environment _
    obtain ⟨reopened, hopened, hnew⟩ := (hfile hleft).openDataset options environment
    exact ⟨_, reopened, hopened, rfl, hnew⟩
  · exact fun _ _ _ _ hnot => absurd hcounted hnot

/-- A driver that succeeds has made a file. -/
theorem exists_madeInFile {driver : Driver} {bandCount : Nat} {type : PixelType}
    {options : List (String × String)} {environment : Option String} (hdriver : driver ≠ .memory) :
    (driver.createDataset path raster bandCount type options environment).Ends system
      (fun dataset after => ∃ held bands codec storage, bands.length = bandCount ∧
        (∀ band ∈ bands, band.type = type) ∧
        MadeInFile driver path held raster bands codec storage after dataset)
      (fun _ _ => True) := by
  cases driver with
  | memory => exact absurd rfl hdriver
  | tiled =>
    apply ends_createDataset_blank.imp
    rintro dataset after ⟨list, block, held, tiled, -, -, hmade⟩
    refine ⟨held, List.replicate bandCount ⟨type, block, none⟩, _, _, List.length_replicate, ?_,
      hmade.madeInFile⟩
    -- all bands have the type that was asked for
    intro band hmem
    rw [List.eq_of_mem_replicate hmem]
  | dted =>
    apply Dted.ends_createDataset.imp
    rintro dataset after ⟨rfl, rfl, held, storage, hmade⟩
    refine ⟨held, [DtedCodec.band raster.height], _, _, rfl, ?_, hmade.madeInFile⟩
    intro band hmem
    rw [List.mem_singleton.mp hmem]
    rfl

/-! ## Whole sessions -/

/-- The dataset is what a driver was asked for. -/
structure Dataset.HasForm (driver : Driver) (raster : Size) (bandCount : Nat) (type : PixelType)
    (dataset : Dataset FormatCodec) : Prop where
  driver : dataset.driver = driver.shortName
  size : dataset.size = raster
  bandCount : dataset.bandCount = bandCount
  type : ∀ band ∈ dataset.store.bands.toList, band.type = type

/-- A new dataset has the form that was asked for if its bands have it. -/
theorem Dataset.IsNew.hasForm {driver : Driver} {bandCount : Nat} {type : PixelType}
    (h : dataset.IsNew codec raster bands access) (hname : Codec.name codec = driver.shortName)
    (hcount : bands.length = bandCount) (htype : ∀ band ∈ bands, band.type = type) :
    dataset.HasForm driver raster bandCount type where
  driver := h.driver.trans hname
  size := h.raster
  bandCount := by
    rw [Dataset.bandCount, h.bands]
    exact hcount
  type := by
    rw [h.bands]
    exact htype

/-- A dataset that a driver made in a file, that was only read from and that is closed can be
    closed, and its file is opened by the same driver as a dataset of the same form with the same
    bands, if four bytes can count the bytes of each block. Otherwise the file is refused. -/
theorem created_opens {driver : Driver} {bandCount : Nat} {type : PixelType}
    {options : List (String × String)} {environment : Option String} {started : FileSystem}
    {created : Dataset FormatCodec} {calls : List DatasetCall} (hdriver : driver ≠ .memory)
    (hcreate : (driver.createDataset path raster bandCount type options environment).run system =
      (.ok created, started))
    (hreading : ∀ call ∈ calls, call.IsReading) :
    created.HasForm driver raster bandCount type ∧
    ∃ left closed, (Dataset.onFiles Dataset.close).run
        (DatasetCall.performOnFiles calls (started, created)) = (.ok (), (left, closed)) ∧
      ∀ (opening : OpenOptions) (environment' : Option String), opening.allowed = none →
        (BlocksCounted created.store.bands.toList →
          ∃ reopened, openFile left path opening environment' = (.ok reopened, []) ∧
            reopened.HasForm driver raster bandCount type ∧
            reopened.store.bands = created.store.bands) ∧
        (¬BlocksCounted created.store.bands.toList →
          ∃ reason, (openFile left path opening environment').1 =
            .error (.format none reason)) := by
  obtain ⟨held, bands, codec, storage, hcount, htype, hmade⟩ :=
    (exists_madeInFile hdriver).of_ok hcreate
  have hread := hmade.untouched.performOnFiles hmade.blocked hreading
  -- the calls only read, so that the file is still the one that was created
  obtain ⟨_, ⟨left, closed⟩, hclose, hleft⟩ := hread.ends_close.exists_ok
  have hidentify := hmade.identify left hleft.file
  have hbands : created.store.bands.toList = bands := by
    rw [hmade.isNew.bands]
  refine ⟨hmade.isNew.hasForm hmade.name hcount htype, left, closed, hclose, ?_⟩
  intro opening environment' hallowed
  rw [hbands]
  constructor
  · -- a reader accepts the sizes of the blocks
    intro hcounted
    obtain ⟨codec', reopened, hopen, hname, hnew⟩ :=
      hmade.opens left hleft.file opening environment' hcounted
    refine ⟨reopened, openFile_of_identify hallowed hidentify hopen,
      hnew.hasForm hname hcount htype, ?_⟩
    rw [hnew.bands, hmade.isNew.bands]
  · -- one block is too large for it
    intro hcounted
    obtain ⟨reason, hrefused⟩ := hmade.refused left hleft.file opening environment' hcounted
    exact ⟨reason, openFile_of_refused hallowed hidentify hrefused⟩

/-- Makes a tiled file of one byte whose blocks are squares of this side. -/
def makeSquares (side : String) : Except RasterError (Dataset FormatCodec) × FileSystem :=
  (Driver.createDataset .tiled "/a" ⟨1, 1⟩ 1 .byte [("BLOCKXSIZE", side), ("BLOCKYSIZE", side)]
    none).run ⟨["/"], []⟩

/-- The bands that the files were made with. -/
def bandsOfSquares (side : String) : Option (Array BandDescriptor) :=
  (makeSquares side).1.toOption.map (·.store.bands)

/-- What the bands are known of was created. -/
private theorem exists_squares {side : String} {bands : Array BandDescriptor}
    (h : bandsOfSquares side = some bands) :
    ∃ created started, makeSquares side = (.ok created, started) ∧
      created.store.bands = bands := by
  unfold bandsOfSquares at h
  cases hmade : makeSquares side with
  | mk outcome started =>
    rw [hmade] at h
    cases outcome with
    | error error => contradiction
    | ok created =>
      have hbands : some created.store.bands = some bands := h
      exact ⟨created, started, rfl, Option.some.inj hbands⟩

/-- A file with blocks of two by two bytes, one of which is read, is opened again. -/
theorem created_opens_small : ∃ created started left closed reopened,
    makeSquares "2" = (.ok created, started) ∧
    (Dataset.onFiles Dataset.close).run (DatasetCall.performOnFiles
      [.raster (.readBlock 1 0 0 4)] (started, created)) = (.ok (), (left, closed)) ∧
    openFile left "/a" {} none = (.ok reopened, []) ∧
    reopened.HasForm .tiled ⟨1, 1⟩ 1 .byte ∧ reopened.store.bands = #[⟨.byte, ⟨2, 2⟩, none⟩] := by
  have hbands : bandsOfSquares "2" = some #[⟨.byte, ⟨2, 2⟩, none⟩] := by decide +kernel
  obtain ⟨created, started, hcreate, hcreated⟩ := exists_squares hbands
  have hreading : ∀ call ∈ [DatasetCall.raster (.readBlock 1 0 0 4)], call.IsReading := by
    intro call hmem
    rw [List.mem_singleton.mp hmem]
    trivial
  obtain ⟨-, left, closed, hclose, hopens⟩ := created_opens (by decide) hcreate hreading
  -- four bytes can be counted in an entry
  have hcounted : BlocksCounted created.store.bands.toList := by
    rw [hcreated]
    unfold BlocksCounted
    decide
  obtain ⟨reopened, hopen, hform, hsame⟩ := (hopens {} none rfl).1 hcounted
  exact ⟨created, started, left, closed, reopened, hcreate, hclose, hopen, hform,
    hsame.trans hcreated⟩

/-- Not every file that a driver makes can be opened: with blocks of 65536 by 65536 bytes the file
    is made and closed, but refused as malformed. -/
theorem created_not_opened :
    ¬∀ (driver : Driver) (path : String) (raster : Size) (bandCount : Nat) (type : PixelType)
      (options : List (String × String)) (environment : Option String)
      (system started left : FileSystem) (created closed : Dataset FormatCodec),
      driver ≠ .memory →
      (driver.createDataset path raster bandCount type options environment).run system =
        (.ok created, started) →
      (Dataset.onFiles Dataset.close).run (started, created) = (.ok (), (left, closed)) →
      ∃ reopened notices, openFile left path {} environment = (.ok reopened, notices) := by
  intro h
  -- one block of 65536 by 65536 bytes: its number of bytes does not fit into 32 bits
  have hbands : bandsOfSquares "65536" = some #[⟨.byte, ⟨65536, 65536⟩, none⟩] := by
    decide +kernel
  obtain ⟨created, started, hcreate, hcreated⟩ := exists_squares hbands
  obtain ⟨held, bands, codec, storage, -, -, hmade⟩ := (exists_madeInFile (by decide)).of_ok hcreate
  -- this is the size that the reader does not accept
  have hlarge : ¬BlocksCounted bands := by
    rw [hmade.isNew.bands] at hcreated
    have hlist : bands = [⟨.byte, ⟨65536, 65536⟩, none⟩] := congrArg Array.toList hcreated
    rw [hlist]
    unfold BlocksCounted
    decide
  obtain ⟨_, ⟨left, closed⟩, hclose, hleft⟩ := hmade.untouched.ends_close.exists_ok
  obtain ⟨reason, hrefused⟩ := hmade.refused left hleft.file {} none hlarge
  have herror := openFile_of_refused rfl (hmade.identify left hleft.file) hrefused
  obtain ⟨reopened, notices, hopen⟩ := h .tiled "/a" ⟨1, 1⟩ 1 .byte
    [("BLOCKXSIZE", "65536"), ("BLOCKYSIZE", "65536")] none ⟨["/"], []⟩ started left created closed
    (by decide) hcreate hclose
  rw [hopen] at herror
  contradiction

end RasterStore
