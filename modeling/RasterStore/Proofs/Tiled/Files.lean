import RasterStore.Proofs.SharedFiles
import RasterStore.Proofs.Tiled.Create
import RasterStore.Proofs.Tiled.Load
import RasterStore.Proofs.Tiled.Opened

/-!
# Making and opening tiled files

What a driver does with the files of this format: a new dataset is one over an image without tiles
(`ends_createDataset`), and a file that holds an image is recognised and opened with its geometry
(`openFile_of_image`). Reading a block of a dataset that was just opened gives its tile.
-/

namespace RasterStore

open ByteArray BlockStore Tiled RasterStore.Action

/-! ## Recognising -/

namespace Tiled

/-- A tiled file starts with the mark that identifies it. -/
theorem Image.magic {raster : Size} {bands : List BandDescriptor} {tables : Array BlockTable}
    {bytes : ByteArray} (h : Image raster bands tables bytes) :
    (bytes.slice 0 Driver.probeBytes).slice 0 8 = Tiled.magic := by
  rw [← slice_headerRecord_magic raster bands.length, ← h.header, slice_slice (by decide),
    slice_slice (by decide)]

end Tiled

namespace Driver

variable {driver : Driver} {start : ByteArray} {system : FileSystem} {path : String}
variable {options : OpenOptions}

/-- A file with the magic bytes is recognised by its own driver and by no other one. -/
theorem recognises_iff (hmagic : start.slice 0 8 = magic) :
    driver.recognises start = true ↔ driver = .tiled := by
  cases driver with
  | memory => simp [recognises]
  | tiled =>
    have hstart : start.startsWith magic = true := by
      rw [ByteArray.startsWith, size_magic, hmagic]
      decide +kernel
    simp [recognises, hstart]
  | dted =>
    have htag (tag : ByteArray) (hsize : tag.size ≤ 8) :
        start.startsWith tag = magic.startsWith tag := by
      rw [ByteArray.startsWith, ByteArray.startsWith, ← hmagic, slice_slice (by omega)]
    -- none of the tags of the other format begins like the magic bytes
    have hnone : DtedCodec.hasTag start ["UHL", "VOL", "HDR"] = false := by
      simp only [DtedCodec.hasTag, List.any_cons, List.any_nil, Bool.or_false]
      rw [htag _ (by decide +kernel), htag _ (by decide +kernel), htag _ (by decide +kernel)]
      decide +kernel
    simp [recognises, hnone]

/-- A file is identified by the mark at its start. -/
theorem identify_of_magic (hread : system.readStart path probeBytes = .ok start)
    (hmagic : start.slice 0 8 = magic) : identify system path = .ok .tiled := by
  have hmemory : memory.recognises start = false := rfl
  have htiled : tiled.recognises start = true := (recognises_iff hmagic).mpr rfl
  have hfind : all.find? (·.recognises start) = some .tiled := by
    simp [all, hmemory, htiled]
  simp only [identify, hread, bind, Except.bind, hfind]
  rfl

/-- No driver but the tiled one accepts a file with its mark. -/
private theorem firstAllowed_of_magic {names : List String}
    (hread : system.readStart path probeBytes = .ok start) (hmagic : start.slice 0 8 = magic)
    (h : firstAllowed system path names = .ok (some driver)) : driver = .tiled := by
  induction names with
  | nil => simp [firstAllowed] at h
  | cons name rest ih =>
    simp only [firstAllowed, bind, Except.bind] at h
    split at h
    · contradiction
    · next named _ =>
      simp only [identifies, hread, bind, Except.bind, pure, Except.pure] at h
      split at h
      · -- the first driver that recognises the file is chosen
        next hrecognised =>
        cases h
        exact (recognises_iff hmagic).mp hrecognised
      · exact ih h

/-- Whatever drivers are allowed, no other one is chosen. -/
theorem eq_tiled_of_probe (hread : system.readStart path probeBytes = .ok start)
    (hmagic : start.slice 0 8 = magic) (h : probe system path options = .ok driver) :
    driver = .tiled := by
  unfold probe at h
  split at h
  · rw [identify_of_magic hread hmagic] at h
    cases h
    rfl
  · -- with a list of drivers, only those are asked
    simp only [bind, Except.bind] at h
    split at h
    · contradiction
    · next found hfound =>
      cases found with
      | none => contradiction
      | some chosen =>
        cases h
        exact firstAllowed_of_magic hread hmagic hfound

end Driver

/-! ## Opening -/

section Opening

variable {system : FileSystem} {path held : String} {raster : Size} {bands : List BandDescriptor}
variable {tables : Array BlockTable} {bytes : ByteArray}

/-- The file at a path holds the image of a tiled file, and no more than files can. -/
structure TiledFile (system : FileSystem) (path held : String) (raster : Size)
    (bands : List BandDescriptor) (tables : Array BlockTable) (bytes : ByteArray) : Prop where
  file : system.fileAt path = .ok (held, bytes)
  image : Image raster bands tables bytes
  length_lt : bytes.size < offsetLimit

theorem Tiled.Geometry.blocks (h : Geometry raster bands) :
    ∀ band ∈ bands, band.block.isEmpty = false :=
  fun band hmem => (h.block band hmem).isEmpty

theorem Tiled.Geometry.bands_ne_nil (h : Geometry raster bands) : bands ≠ [] :=
  List.ne_nil_of_length_pos h.bands_pos

namespace TiledFile

theorem readStart (h : TiledFile system path held raster bands tables bytes) :
    system.readStart path Driver.probeBytes = .ok (bytes.slice 0 Driver.probeBytes) :=
  FileSystem.readStart_of_fileAt h.file _

/-- The driver opens the file with the geometry and the indexes in it. -/
theorem openDataset (h : TiledFile system path held raster bands tables bytes)
    (options : OpenOptions) (environment : Option String) :
    ∃ dataset, Driver.openDataset .tiled system path options environment = .ok dataset ∧
      dataset.IsNew (.inr (.inl ⟨⟨.file held, bytes, options.flags.update⟩, tables⟩)) raster bands
        options.flags.access := by
  obtain ⟨dataset, hdataset, hnew⟩ := Dataset.ofCodec_of_nonempty
    (.inr (.inl ⟨⟨.file held, bytes, options.flags.update⟩, tables⟩) : FormatCodec)
    h.image.geometry.raster.isEmpty h.image.geometry.bands_ne_nil h.image.geometry.blocks options
    environment
  -- a file is short enough for its offsets
  have hlimit : bytes.size < byteLimit 8 :=
    Nat.lt_of_lt_of_le h.length_lt (Nat.div_le_self _ _)
  have hload : TiledCodec.load ⟨.file held, bytes, options.flags.update⟩ =
      .ok (⟨⟨.file held, bytes, options.flags.update⟩, tables⟩, raster, bands) :=
    TiledCodec.load_of_image h.image h.length_lt hlimit
  refine ⟨dataset, ?_, hnew⟩
  simp only [Driver.openDataset, FileSystem.openStorage_of_fileAt h.file, bind, Except.bind, hload]
  exact hdataset

/-- If all drivers are asked, the file is opened. -/
theorem openFile (h : TiledFile system path held raster bands tables bytes)
    {options : OpenOptions} (hallowed : options.allowed = none) (environment : Option String) :
    ∃ dataset, openFile system path options environment = (.ok dataset, []) ∧
      dataset.IsNew (.inr (.inl ⟨⟨.file held, bytes, options.flags.update⟩, tables⟩)) raster bands
        options.flags.access := by
  obtain ⟨dataset, hdataset, hnew⟩ := h.openDataset options environment
  have hprobe : Driver.probe system path options = .ok .tiled := by
    rw [Driver.probe, hallowed]
    exact Driver.identify_of_magic h.readStart h.image.magic
  refine ⟨dataset, ?_, hnew⟩
  simp only [RasterStore.openFile, hprobe, bind, Except.bind, hdataset]

/-- If the file is opened, whatever drivers are asked, it is so with the geometry in it. -/
theorem isNew_of_openFile (h : TiledFile system path held raster bands tables bytes)
    {options : OpenOptions} {environment : Option String} {dataset : Dataset FormatCodec}
    {notices : List Notice}
    (hopen : RasterStore.openFile system path options environment = (.ok dataset, notices)) :
    dataset.IsNew (.inr (.inl ⟨⟨.file held, bytes, options.flags.update⟩, tables⟩)) raster bands
      options.flags.access := by
  obtain ⟨opened, hopened, hnew⟩ := h.openDataset options environment
  simp only [RasterStore.openFile, bind, Except.bind] at hopen
  cases hprobe : Driver.probe system path options with
  | error error => simp [hprobe] at hopen
  | ok driver =>
    -- no other driver opens a file with this start
    obtain rfl := Driver.eq_tiled_of_probe h.readStart h.image.magic hprobe
    simp only [hprobe, hopened, Prod.mk.injEq, Except.ok.injEq] at hopen
    rw [← hopen.1]
    exact hnew

end TiledFile

/-! ## Creating -/

/-- The file of a dataset that the driver made has no tiles yet. -/
structure Created (path held : String) (raster : Size) (bands : List BandDescriptor)
    (tiled : TiledCodec) (system : FileSystem) (dataset : Dataset FormatCodec) : Prop where
  file : system.fileAt path = .ok (held, tiled.storage.bytes)
  medium : tiled.storage.medium = .file held
  intact : tiled.Intact raster bands
  blank : ∀ block, (tiled.entryOf block).isWritten = false
  isNew : dataset.IsNew (.inr (.inl tiled)) raster bands .update

/-- What the driver makes: a file without tiles and a dataset over it. The blocks may be too large
    for the tiles of a file. -/
structure MadeBlank (path held : String) (raster : Size) (bands : List BandDescriptor)
    (tiled : TiledCodec) (system : FileSystem) (dataset : Dataset FormatCodec) : Prop where
  sides : Storable raster
  bands_pos : 0 < bands.length
  bands_lt : bands.length < byteLimit 4
  blocks : ∀ band ∈ bands, Storable band.block
  file : system.fileAt path = .ok (held, tiled.storage.bytes)
  medium : tiled.storage.medium = .file held
  usable : tiled.storage.Usable
  tables : tiled.tables = TiledCodec.newTables raster bands
  bytes : tiled.storage.bytes = TiledCodec.blankFile raster bands
  isNew : dataset.IsNew (.inr (.inl tiled)) raster bands .update

/-- A dataset over a file whose headers could be written has a raster, bands and blocks that are
    read from the headers again. -/
theorem TiledCodec.Counted.storable {codec : FormatCodec} {options : OpenOptions}
    {environment : Option String} (h : TiledCodec.Counted raster bands)
    (hdataset : Dataset.ofCodec codec raster bands options environment = .ok dataset) :
    Storable raster ∧ 0 < bands.length ∧ ∀ band ∈ bands, Storable band.block := by
  obtain ⟨hraster, hbands⟩ := Dataset.nonempty_of_ofCodec hdataset
  have hblocked := (Dataset.isNew_of_ofCodec hdataset).2
  refine ⟨storable_of_nonempty hraster h.width_lt h.height_lt, List.length_pos_iff.mpr hbands, ?_⟩
  intro band hmem
  obtain ⟨hwidth, hheight⟩ := h.block_lt band hmem
  exact ⟨(hblocked band hmem).1, (hblocked band hmem).2, hwidth, hheight⟩

/-- Whatever it is asked for, the driver makes a file without tiles, or fails. -/
theorem ends_createDataset_blank {bandCount : Nat} {type : PixelType}
    {options : List (String × String)} {environment : Option String} :
    (Driver.createDataset .tiled path raster bandCount type options environment).Ends system
      (fun dataset after => ∃ list block held tiled, OptionList.ofPairs options = .ok list ∧
        Driver.blockSize list ⟨256, 256⟩ = .ok block ∧ MadeBlank path held raster
          (List.replicate bandCount ⟨type, block, none⟩) tiled after dataset)
      (fun _ _ => True) := by
  -- the options and the block size are read before there is a file
  apply Ends.of_lift_bind _ fun _ _ => trivial
  intro list hoptions
  apply Ends.of_lift_bind _ fun _ _ => trivial
  intro block hblock
  apply Ends.bind
  apply FileSystem.ends_createStorage.mono _ fun _ _ _ => trivial
  intro storage made hmade
  obtain ⟨held, rfl, hfile⟩ := hmade
  have husable : Storage.Usable ⟨.file held, ByteArray.empty, true⟩ :=
    ⟨show 0 < offsetLimit by decide, rfl⟩
  apply Ends.bind
  apply FileSystem.ends_onStorage
  -- the file is written into the empty one, and the dataset is made around its codec
  apply (TiledCodec.ends_create_blank husable).mono _ fun _ _ _ => trivial
  intro tiled after hcreated
  obtain ⟨hcounted, rfl, hmedium, husable, htables, hbytes⟩ := hcreated
  cases hdataset : Dataset.ofCodec (.inr (.inl tiled) : FormatCodec) raster
      (List.replicate bandCount ⟨type, block, none⟩)
      { flags := OpenFlags.ofAccess .update } environment with
  | error error => trivial
  | ok dataset =>
    obtain ⟨hsides, hpos, hblocks⟩ := hcounted.storable hdataset
    apply Ends.lift_ok rfl
    refine ⟨list, block, held, tiled, hoptions, hblock, ?_⟩
    constructor
    · exact hsides
    · exact hpos
    · exact hcounted.bands_lt
    · exact hblocks
    · rw [FileSystem.save_of_file hmedium]
      exact FileSystem.fileAt_put_of_fileAt hfile _
    · exact hmedium
    · exact husable
    · exact htables
    · exact hbytes
    · exact (Dataset.isNew_of_ofCodec hdataset).1

/-- The driver makes an image without tiles, and a dataset over it. -/
theorem ends_createDataset {bandCount : Nat} {type : PixelType} {block : Size}
    {options : List (String × String)} {list : OptionList} {environment : Option String}
    (hraster : Storable raster) (hcount : 0 < bandCount)
    (hoptions : OptionList.ofPairs options = .ok list)
    (hblock : Driver.blockSize list ⟨256, 256⟩ = .ok block) (hstorable : Storable block)
    (hbytes : block.area * type.bytes < byteLimit 4) :
    (Driver.createDataset .tiled path raster bandCount type options environment).Ends system
      (fun dataset after => ∃ held tiled, Created path held raster
        (List.replicate bandCount ⟨type, block, none⟩) tiled after dataset)
      (fun _ _ => True) := by
  apply ends_createDataset_blank.imp
  -- the options are read only in one way
  rintro dataset after ⟨list', block', held, tiled, hoptions', hblock', hmade⟩
  rw [hoptions, Except.ok.injEq] at hoptions'
  subst hoptions'
  rw [hblock, Except.ok.injEq] at hblock'
  subst hblock'
  have hgeometry : Geometry raster (List.replicate bandCount ⟨type, block, none⟩) := by
    constructor
    · exact hraster
    · rwa [List.length_replicate]
    · exact hmade.bands_lt
    · intro band hmem
      rw [List.eq_of_mem_replicate hmem]
      exact hstorable
    · intro band hmem
      rw [List.eq_of_mem_replicate hmem]
      exact hbytes
  -- a blank file is the image of tables without tiles
  have himage := TiledCodec.image_blankFile hgeometry
  rw [← hmade.tables, ← hmade.bytes] at himage
  refine ⟨held, tiled, hmade.file, hmade.medium, ⟨hmade.usable, himage⟩, ?_, hmade.isNew⟩
  intro block
  show (entryAt tiled.tables (block.band - 1) _).isWritten = false
  rw [hmade.tables, TiledCodec.entryAt_newTables]
  rfl

/-! ## Reading -/

/-- A block of a dataset that was just opened is read from its tile. -/
theorem ends_readBlock_of_isNew {dataset : Dataset FormatCodec} {tiled : TiledCodec}
    {access : Access} {band x y : Nat} (himage : Image raster bands tiled.tables tiled.storage.bytes)
    (hreadable : tiled.storage.Readable)
    (hnew : dataset.IsNew (.inr (.inl tiled)) raster bands access)
    (hgrid : InGrid raster bands ⟨band, x, y⟩) :
    (Dataset.readBlock band x y (bandOf bands band).blockBytes).Ends dataset
      (fun bytes _ => bytes = tiled.tile (contextOf raster bands ⟨band, x, y⟩))
      (fun _ _ => False) := by
  have hdescriptor := descriptor_of_bands hnew.bands band
  have hcontext : dataset.store.context ⟨band, x, y⟩ = contextOf raster bands ⟨band, x, y⟩ := by
    rw [context, hdescriptor, hnew.raster]
    rfl
  have hread : tiled.readBlock (contextOf raster bands ⟨band, x, y⟩) = _ :=
    TiledCodec.readBlock_of_image himage hreadable rfl
  have hdecode : (Codec.decode (dataset.store.context ⟨band, x, y⟩)).Ends dataset.store.codec
      (fun decoded _ => decoded.bytes = tiled.tile (contextOf raster bands ⟨band, x, y⟩))
      (fun _ _ => False) := by
    -- the context is that of the raster and bands of the file
    rw [hnew.codec, hcontext]
    exact Choice.ends_inr (Choice.ends_inl (Ends.get_bind
      (Ends.lift_bind hread (ends_pure.mpr rfl))))
  obtain ⟨hband, hinside⟩ := (inGrid_iff himage.geometry hnew.raster hnew.bands).mp hgrid
  refine Dataset.ends_onBand (fun _ => ?_) fun hnot => absurd hband hnot
  rw [← hdescriptor]
  -- nothing is in the cache yet, so that the block is decoded
  refine Band.ends_readBlock_of_fetch hinside (held_of_geometry himage.geometry hnew.bands hband)
    (BlockStore.ends_fetch_of_empty hnew.empty hdecode ?_)
  rw [hdescriptor]
  exact TiledCodec.size_tile himage rfl

end Opening

end RasterStore
