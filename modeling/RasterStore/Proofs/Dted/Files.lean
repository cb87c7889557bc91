import RasterStore.Proofs.Dted.Matrix
import RasterStore.Proofs.Operations
import RasterStore.Proofs.SharedFiles
import RasterStore.Driver

/-!
# Making and opening elevation files

A file that the driver makes is a matrix of zeros (`ends_createDataset`), and the file of a matrix
is recognised and opened as that matrix (`MatrixFile.openDataset`).
-/

namespace RasterStore

open ByteArray Dted RasterStore.Action

/-! ## Recognising -/

/-- A file that starts with the tag of a label is recognised as an elevation file. -/
theorem Driver.identify_of_label {system : FileSystem} {path : String} {start : ByteArray}
    (hread : system.readStart path probeBytes = .ok start)
    (htag : start.slice 0 3 = asciiBytes "UHL") : identify system path = .ok .dted := by
  have hmemory : memory.recognises start = false := rfl
  have htiled : tiled.recognises start = false := by
    -- the magic bytes of the other format begin in another way
    rw [← Bool.not_eq_true]
    intro hmagic
    have hstart : start.slice 0 Tiled.magic.size = Tiled.magic := (beq_iff _ _).mp hmagic
    have hinside : 0 + 3 ≤ Tiled.magic.size := by decide +kernel
    rw [← Nat.zero_add 0, ← slice_slice hinside, hstart] at htag
    exact absurd htag (by decide +kernel)
  have hdted : dted.recognises start = true := by
    show DtedCodec.hasTag start ["UHL", "VOL", "HDR"] = true
    rw [hasTag_of_start htag (by decide +kernel)]
    decide +kernel
  have hfind : all.find? (·.recognises start) = some .dted := by
    simp [all, hmemory, htiled, hdted]
  simp only [identify, hread, bind, Except.bind, hfind]
  rfl

namespace Dted

variable {system : FileSystem} {path held : String} {raster : Size} {bytes : ByteArray}
variable {columns : Nat → List Int}

/-! ## Opening -/

/-- The file at a path holds a matrix. -/
structure MatrixFile (system : FileSystem) (path held : String) (raster : Size)
    (columns : Nat → List Int) (bytes : ByteArray) : Prop where
  file : system.fileAt path = .ok (held, bytes)
  sides : FitsHeaders raster
  stored : Stored raster columns bytes

namespace MatrixFile

theorem identify (h : MatrixFile system path held raster columns bytes) :
    Driver.identify system path = .ok .dted := by
  apply Driver.identify_of_label (FileSystem.readStart_of_fileAt h.file _)
  have hprobe : 0 + 3 ≤ Driver.probeBytes := by decide
  have hheaders : 0 + 3 ≤ headerBytes := by decide
  have htag := slice_headers_tag raster
  rw [← h.stored.headers, slice_slice hheaders] at htag
  rwa [slice_slice hprobe]

/-- The driver opens the file as the matrix in it. -/
theorem openDataset (h : MatrixFile system path held raster columns bytes) (options : OpenOptions)
    (environment : Option String) :
    ∃ dataset, Driver.openDataset .dted system path options environment = .ok dataset ∧
      dataset.IsNew (.inr (.inr ⟨⟨.file held, bytes, options.flags.update⟩, headerBytes, raster⟩))
        raster [DtedCodec.band raster.height] options.flags.access := by
  -- the file has a length that its offsets can reach
  have hreadable : Storage.Readable ⟨.file held, bytes, options.flags.update⟩ := by
    show bytes.size < offsetLimit
    rw [h.stored.size]
    exact recordStart_lt_offsetLimit h.sides (Nat.le_refl _)
  have hload : DtedCodec.load ⟨.file held, bytes, options.flags.update⟩ =
      .ok ⟨⟨.file held, bytes, options.flags.update⟩, headerBytes, raster⟩ :=
    DtedCodec.load_of_stored hreadable h.sides h.stored
  have hblocks : ∀ band ∈ [DtedCodec.band raster.height], band.block.isEmpty = false := by
    intro band hmem
    rw [List.mem_singleton.mp hmem, ← Bool.not_eq_true, Size.isEmpty_iff]
    have hheight : (DtedCodec.band raster.height).block.height = raster.height := rfl
    have hwidth : (DtedCodec.band raster.height).block.width = 1 := rfl
    have := h.sides.height_pos
    omega
  obtain ⟨dataset, hdataset, hnew⟩ := Dataset.ofCodec_of_nonempty
    (.inr (.inr ⟨⟨.file held, bytes, options.flags.update⟩, headerBytes, raster⟩) : FormatCodec)
    h.sides.isEmpty (List.cons_ne_nil _ _) hblocks options environment
  refine ⟨dataset, ?_, hnew⟩
  simp only [Driver.openDataset, FileSystem.openStorage_of_fileAt h.file, bind, Except.bind, hload]
  exact hdataset

end MatrixFile

/-- A matrix that a header can describe has columns whose bytes can be counted in four bytes. -/
theorem blockBytes_lt (h : FitsHeaders raster) :
    (DtedCodec.band raster.height).blockBytes < byteLimit 4 := by
  have hmax : maxCount = 9999 := rfl
  have hlimit : byteLimit 4 = 4294967296 := rfl
  have hbytes : (DtedCodec.band raster.height).blockBytes = 1 * raster.height * 2 := rfl
  have := h.height_le
  omega

/-! ## Creating -/

/-- A matrix is only made of sides that a header can count, in the storage that is given. -/
private theorem ends_create_fits (raster : Size) (storage : Storage) :
    (DtedCodec.create raster).Ends storage
      (fun codec after => FitsHeaders raster ∧ codec.storage = after ∧
        after.medium = storage.medium)
      (fun _ _ => True) := by
  unfold DtedCodec.create
  apply Ends.ite
  · exact fun _ => ends_throw.mpr trivial
  · intro haccepted
    have hsides : FitsHeaders raster := by
      simp only [Bool.or_eq_true, decide_eq_true_eq, Size.isEmpty_iff] at haccepted
      exact ⟨by omega, by omega, by omega, by omega⟩
    -- none of the writes moves the bytes to another place
    apply Ends.bind
    apply (Storage.keeps_medium_setLength _ _ storage rfl).mono _ fun _ _ _ => trivial
    intro _ emptied hemptied
    apply Ends.bind
    apply (Storage.keeps_medium_write _ _ _ emptied hemptied).mono _ fun _ _ _ => trivial
    intro _ started hstarted
    apply Ends.bind
    apply (keeps_forM (fun _ _ => Storage.keeps_medium_write _ _ _) started hstarted).mono _
      fun _ _ _ => trivial
    intro _ after hafter
    exact Ends.get_bind (ends_pure.mpr ⟨hsides, rfl, hafter⟩)

/-- What the driver makes: a matrix of zeros and a dataset over it. -/
structure Made (path held : String) (raster : Size) (storage : Storage) (system : FileSystem)
    (dataset : Dataset FormatCodec) : Prop where
  file : MatrixFile system path held raster (fun _ => List.replicate raster.height 0) storage.bytes
  medium : storage.medium = .file held
  isNew : dataset.IsNew (.inr (.inr ⟨storage, headerBytes, raster⟩)) raster
    [DtedCodec.band raster.height] .update

/-- Whatever it is asked for, the driver makes a matrix of zeros, or fails. -/
theorem ends_createDataset {bandCount : Nat} {type : PixelType}
    {options : List (String × String)} {environment : Option String} :
    (Driver.createDataset .dted path raster bandCount type options environment).Ends system
      (fun dataset after => bandCount = 1 ∧ type = .int16 ∧
        ∃ held storage, Made path held raster storage after dataset)
      (fun _ _ => True) := by
  -- the options are looked through first; the file does not depend on them
  apply Ends.of_lift_bind _ fun _ _ => trivial
  intro list _
  apply Ends.of_lift_bind _ fun _ _ => trivial
  intro _ _
  apply Ends.ite
  · exact fun _ => ends_throw.mpr trivial
  intro hband
  apply Ends.bind
  apply FileSystem.ends_createStorage.mono _ fun _ _ _ => trivial
  intro storage made hmade
  obtain ⟨held, rfl, hfile⟩ := hmade
  have husable : Storage.Usable ⟨.file held, ByteArray.empty, true⟩ :=
    ⟨show 0 < offsetLimit by decide, rfl⟩
  apply Ends.bind
  apply FileSystem.ends_onStorage
  -- the headers are written only if they have room for both sides
  by_cases hsides : FitsHeaders raster
  · apply ((DtedCodec.ends_create husable hsides).and (ends_create_fits raster _)).mono _
      fun _ _ _ => trivial
    rintro codec after ⟨⟨storage, rfl, -, hstored⟩, -, rfl, hmedium⟩
    cases hdataset : Dataset.ofCodec (.inr (.inr ⟨storage, headerBytes, raster⟩) : FormatCodec)
        raster [DtedCodec.band raster.height] { flags := OpenFlags.ofAccess .update }
        environment with
    | error error => trivial
    | ok dataset =>
      apply Ends.lift_ok rfl
      refine ⟨by omega, ?_, held, storage, ⟨?_, hsides, hstored⟩, hmedium,
        (Dataset.isNew_of_ofCodec hdataset).1⟩
      · exact Decidable.not_not.mp fun hne => hband (.inr hne)
      · rw [FileSystem.save_of_file hmedium]
        exact FileSystem.fileAt_put_of_fileAt hfile _
  · apply (ends_create_fits raster _).mono _ fun _ _ _ => trivial
    exact fun _ _ hcreated => absurd hcreated.1 hsides

end Dted

end RasterStore
