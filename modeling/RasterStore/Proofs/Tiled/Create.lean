import RasterStore.Proofs.Storage
import RasterStore.Proofs.Tiled.Image

/-!
# New tiled files

A new file is an image without tiles: its headers, then zeros for all entries of all indexes
(`ends_create`).
-/

namespace RasterStore.TiledCodec

open ByteArray Tiled RasterStore.Action

variable {raster : Size} {bands : List BandDescriptor} {i j : Nat}

/-! ## Band headers -/

/-- The bytes of the headers of several bands. -/
def bandRecords : List BandDescriptor → ByteArray
  | [] => ByteArray.empty
  | band :: rest => bandRecord band ++ bandRecords rest

/-- The headers of bands hold block sizes that fit into four bytes each. -/
theorem bandHeaders_eq_ok_iff {bytes : ByteArray} :
    bandHeaders bands = .ok bytes ↔
      (∀ band ∈ bands, band.block.width < byteLimit 4 ∧ band.block.height < byteLimit 4) ∧
        bandRecords bands = bytes := by
  induction bands generalizing bytes with
  | nil => simp [bandHeaders, bandRecords]
  | cons band rest ih =>
    rw [List.forall_mem_cons]
    constructor
    · -- each header is checked before it is printed
      intro h
      simp only [bandHeaders, bind, Except.bind] at h
      split at h
      · contradiction
      · next hfirst =>
        split at h
        · contradiction
        · next hrest =>
          obtain ⟨hwidth, hheight, rfl⟩ := bandHeader_eq_ok_iff.mp hfirst
          obtain ⟨hblocks, rfl⟩ := ih.mp hrest
          cases h
          exact ⟨⟨⟨hwidth, hheight⟩, hblocks⟩, rfl⟩
    · rintro ⟨⟨⟨hwidth, hheight⟩, hblocks⟩, rfl⟩
      rw [bandHeaders, bandHeader_eq_ok_iff.mpr ⟨hwidth, hheight, rfl⟩, ih.mpr ⟨hblocks, rfl⟩]
      rfl

/-- The headers of the bands have the same size each. -/
theorem size_bandRecords (bands : List BandDescriptor) :
    (bandRecords bands).size = bands.length * bandHeaderBytes := by
  induction bands with
  | nil => simp [bandRecords]
  | cons band rest ih =>
    rw [bandRecords, size_append, size_bandRecord, ih, List.length_cons, Nat.add_mul, Nat.one_mul,
      Nat.add_comm]

/-- The header of a band is found at its number. -/
theorem slice_bandRecords (h : i < bands.length) :
    (bandRecords bands).slice (i * bandHeaderBytes) bandHeaderBytes =
      bandRecord (bandAt bands i) := by
  induction bands generalizing i with
  | nil => simp at h
  | cons band rest ih =>
    rw [bandRecords]
    -- the record of the first band, and those of the others behind it
    cases i with
    | zero =>
      rw [Nat.zero_mul, slice_append_of_le (by simp), ← size_bandRecord band, slice_zero_size]
      rfl
    | succ i =>
      have hrest : i < rest.length := by simpa using h
      have hinside := packed_inside bandHeaderBytes hrest
      rw [Nat.add_mul, Nat.one_mul, slice_append_of_ge (by simp)
        (by rw [size_bandRecord, size_bandRecords]; omega), size_bandRecord,
        Nat.add_sub_cancel, ih hrest]
      rfl

/-! ## Blank indexes -/

/-- A blank index has one entry for each block of the grid. -/
private theorem bytes_blank (offset : Nat) (band : BandDescriptor) :
    (BlockTable.blank offset band raster).bytes = band.blockCount raster * entryBytes := by
  rw [BlockTable.bytes, BlockTable.blank, Array.size_replicate]

/-- The index of a band starts behind those of the bands before it. -/
private theorem blankTables_get? (h : i < bands.length) (offset : Nat) :
    (blankTables raster offset bands)[i]? =
      some (BlockTable.blank (offset + entriesBefore raster bands i * entryBytes)
        (bandAt bands i) raster) := by
  induction bands generalizing i offset with
  | nil => simp at h
  | cons band rest ih =>
    rw [blankTables]
    -- the first index, or one behind the first
    cases i with
    | zero => rw [entriesBefore, Nat.zero_mul]; rfl
    | succ i =>
      rw [List.getElem?_cons_succ, ih (by simpa using h), entriesBefore_cons, bytes_blank,
        Nat.add_mul, Nat.add_assoc]
      rfl

/-- There is one index for each band. -/
private theorem length_blankTables (offset : Nat) :
    (blankTables raster offset bands).length = bands.length := by
  induction bands generalizing offset with
  | nil => rfl
  | cons band rest ih => rw [blankTables, List.length_cons, ih, List.length_cons]

/-- The last index ends behind the entries of all bands. -/
private theorem tablesEnd_blankTables (offset : Nat) :
    tablesEnd offset (blankTables raster offset bands) =
      offset + entriesBefore raster bands bands.length * entryBytes := by
  induction bands generalizing offset with
  | nil => rw [List.length_nil, entriesBefore, Nat.zero_mul]; rfl
  | cons band rest ih =>
    rw [blankTables, tablesEnd, ih, List.length_cons, entriesBefore_cons, bytes_blank,
      Nat.add_mul, Nat.add_assoc]

/-- The indexes of new bands. -/
def newTables (raster : Size) (bands : List BandDescriptor) : Array BlockTable :=
  (blankTables raster (tablesStart bands) bands).toArray

/-- The indexes of a new file stand where the image has them. -/
private theorem tableAt_newTables (h : i < bands.length) :
    tableAt (newTables raster bands) i =
      BlockTable.blank (entryPlace raster bands i 0) (bandAt bands i) raster := by
  rw [tableAt, newTables, Array.getD_eq_getD_getElem?, List.getElem?_toArray, blankTables_get? h]
  rfl

/-- All entries of a new file are blank. -/
theorem entryAt_newTables (i j : Nat) : entryAt (newTables raster bands) i j = {} := by
  by_cases hi : i < bands.length
  · rw [entryAt, tableAt_newTables hi, BlockTable.blank, Array.getD_eq_getD_getElem?]
    by_cases hj : j < (bandAt bands i).blockCount raster
    · rw [Array.getElem?_replicate, if_pos hj, Option.getD_some]
    · rw [Array.getElem?_replicate, if_neg hj, Option.getD_none]
  · have hnone : tableAt (newTables raster bands) i = ⟨0, 0, #[]⟩ := by
      rw [tableAt, newTables, Array.getD_eq_getD_getElem?, List.getElem?_toArray,
        List.getElem?_eq_none (by rw [length_blankTables]; omega), Option.getD_none]
    rw [entryAt, hnone]
    rfl

/-- The indexes of a new file are laid out for its bands. -/
theorem laid_newTables : Laid raster bands (newTables raster bands) := by
  refine ⟨?_, fun i hi => ?_, fun i hi => ?_, fun i hi => ?_⟩
  · rw [newTables, List.size_toArray, length_blankTables]
  · rw [tableAt_newTables hi]
    rfl
  · rw [tableAt_newTables hi]
    rfl
  · rw [tableAt_newTables hi, BlockTable.blank, Array.size_replicate]
    rfl

/-! ## The new file -/

/-- A slice of zeros is one. -/
private theorem slice_zeros {n start length : Nat} (h : start + length ≤ n) :
    (ByteArray.zeros n).slice start length = ByteArray.zeros length := by
  apply ext_byteAt
  · rw [size_slice, size_zeros, size_zeros]
    omega
  · intro i hi
    rw [byteAt_slice, byteAt_zeros, byteAt_zeros, ite_self]

/-- The bytes of a file without tiles: headers, and zeros for the indexes. -/
def blankFile (raster : Size) (bands : List BandDescriptor) : ByteArray :=
  headerRecord raster bands.length ++ bandRecords bands ++
    ByteArray.zeros (tilesStart raster bands - tablesStart bands)

/-- The headers end where the indexes start. -/
private theorem size_headers (raster : Size) (bands : List BandDescriptor) :
    (headerRecord raster bands.length ++ bandRecords bands).size = tablesStart bands := by
  rw [size_append, size_headerRecord, size_bandRecords, tablesStart]

/-- A new file ends where the tiles will start. -/
theorem size_blankFile (raster : Size) (bands : List BandDescriptor) :
    (blankFile raster bands).size = tilesStart raster bands := by
  have hstart : tablesStart bands ≤ tilesStart raster bands := tablesStart_le
  rw [blankFile, size_append, size_headers, size_zeros]
  omega

/-- A new file starts with the header of its raster. -/
theorem slice_blankFile_header (raster : Size) (bands : List BandDescriptor) :
    (blankFile raster bands).slice 0 headerBytes = headerRecord raster bands.length := by
  have hsize := size_headers raster bands
  have hheader : headerBytes ≤ tablesStart bands := Nat.le_add_right _ _
  rw [blankFile, slice_append_of_le (by omega), slice_append_of_le (by simp),
    ← size_headerRecord raster bands.length, slice_zero_size]

/-- A new file has the header of each band at its place. -/
theorem slice_blankFile_bandHeader (raster : Size) (hi : i < bands.length) :
    (blankFile raster bands).slice (headerBytes + i * bandHeaderBytes) bandHeaderBytes =
      bandRecord (bandAt bands i) := by
  have hsize := size_headers raster bands
  have hinside := bandHeader_add_le hi
  have hrecord := packed_inside bandHeaderBytes hi
  rw [blankFile, slice_append_of_le (by omega), slice_append_of_ge (by simp)
    (by rw [size_headerRecord, size_bandRecords]; omega), size_headerRecord,
    Nat.add_sub_cancel_left, slice_bandRecords hi]

/-- The index entries of a new file are blank. -/
theorem slice_blankFile_entry (hj : j < entryCount raster bands i) :
    (blankFile raster bands).slice (entryPlace raster bands i j) entryBytes =
      ({} : IndexEntry).toBytes := by
  have hsize := size_headers raster bands
  have hend := entryPlace_add_le hj
  have hplace : tablesStart bands ≤ entryPlace raster bands i j := tablesStart_le
  rw [toBytes_blank, blankFile, slice_append_of_ge (by omega) (by rw [size_zeros]; omega),
    slice_zeros (by omega)]

/-- A file without tiles is an image. -/
theorem image_blankFile (h : Geometry raster bands) :
    Image raster bands (newTables raster bands) (blankFile raster bands) := by
  refine ⟨h, laid_newTables, Nat.le_of_eq (size_blankFile raster bands).symm,
    slice_blankFile_header raster bands, fun i hi => slice_blankFile_bandHeader raster hi,
    fun i j hj => ?_, fun i j => ?_, fun i j _ _ _ => ?_⟩
  · rw [entryAt_newTables, slice_blankFile_entry hj]
  · exact .inl (entryAt_newTables i j)
  · exact .inl (entryAt_newTables i j)

/-- All numbers that the headers of a file hold fit into four bytes. -/
structure Counted (raster : Size) (bands : List BandDescriptor) : Prop where
  width_lt : raster.width < byteLimit 4
  height_lt : raster.height < byteLimit 4
  bands_lt : bands.length < byteLimit 4
  block_lt : ∀ band ∈ bands, band.block.width < byteLimit 4 ∧ band.block.height < byteLimit 4

/-- Making a file succeeds only for numbers that its headers can hold, and then the file is one
    without tiles, whatever the size of its blocks. In memory there is always room for it. -/
theorem ends_create_blank {storage : Storage} (husable : storage.Usable) :
    (create raster bands).Ends storage
      (fun codec after => Counted raster bands ∧ codec.storage = after ∧
        codec.storage.medium = storage.medium ∧ codec.storage.Usable ∧
        codec.tables = newTables raster bands ∧ codec.storage.bytes = blankFile raster bands)
      (fun _ _ => ¬Counted raster bands ∨ storage.medium ≠ .memory) := by
  -- numbers that a header cannot hold are refused before anything is written
  apply Ends.of_lift_bind
  case error =>
    intro _ herror
    left
    intro h
    rw [header_eq_ok_iff.mpr ⟨h.width_lt, h.height_lt, h.bands_lt, rfl⟩] at herror
    contradiction
  intro header hheader
  apply Ends.of_lift_bind
  case error =>
    intro _ herror
    left
    intro h
    rw [bandHeaders_eq_ok_iff.mpr ⟨h.block_lt, rfl⟩] at herror
    contradiction
  intro bandHeaders hbandHeaders
  obtain ⟨hwidth, hheight, hcount, rfl⟩ := header_eq_ok_iff.mp hheader
  obtain ⟨hblocks, rfl⟩ := bandHeaders_eq_ok_iff.mp hbandHeaders
  have hsize := size_headers raster bands
  have hstart : tablesStart bands ≤ tilesStart raster bands := tablesStart_le
  have hend : tablesEnd (tablesStart bands) (blankTables raster (tablesStart bands) bands) =
      tilesStart raster bands := tablesEnd_blankTables _
  have hheaderBytes : headerBytes ≤ tablesStart bands := Nat.le_add_right _ _
  have hbytes := Storage.written_at_end ByteArray.empty
    (headerRecord raster bands.length ++ bandRecords bands)
  rw [ByteArray.size_empty, empty_append] at hbytes
  simp only [hsize, hend]
  -- the old contents go, the headers are written, and the indexes are zeros behind them
  refine Ends.bind ((Storage.ends_setLength husable 0).mono ?_ fun _ _ h => .inr h.1)
  intro _ emptied hemptied
  obtain ⟨rfl, hemptied⟩ := hemptied
  refine Ends.bind ((Storage.ends_write hemptied ?_).mono ?_ fun _ _ h => .inr h.2.2.2)
  · rw [hsize]
    exact Nat.lt_of_lt_of_le (by decide) hheaderBytes
  intro _ written hwritten
  obtain ⟨rfl, hwritten⟩ := hwritten
  refine Ends.bind ((Storage.ends_setLength hwritten _).mono ?_ fun _ _ h => .inr h.1)
  intro _ extended hextended
  obtain ⟨rfl, hextended⟩ := hextended
  refine Ends.get_bind (ends_pure.mpr ?_)
  have hresized : Storage.resized (Storage.written (Storage.resized storage.bytes 0) 0
      (headerRecord raster bands.length ++ bandRecords bands)) (tilesStart raster bands) =
      blankFile raster bands := by
    rw [Storage.resized_zero, hbytes, Storage.resized_of_le (by omega), hsize]
    rfl
  simp only [hresized] at hextended ⊢
  exact ⟨⟨hwidth, hheight, hcount, hblocks⟩, trivial, trivial, hextended, rfl, trivial⟩

/-- A new file is an image without tiles. In memory there is always room for it. -/
theorem ends_create {storage : Storage} (hgeometry : Geometry raster bands)
    (husable : storage.Usable) :
    (create raster bands).Ends storage
      (fun codec after => codec.storage = after ∧ codec.storage.medium = storage.medium ∧
        codec.storage.Usable ∧ codec.tables = newTables raster bands ∧
        codec.storage.length = tilesStart raster bands ∧
        Image raster bands codec.tables codec.storage.bytes)
      (fun _ _ => storage.medium ≠ .memory) := by
  -- sides that can be stored can be counted
  have hcounted : Counted raster bands := by
    refine ⟨hgeometry.raster.width_lt, hgeometry.raster.height_lt, hgeometry.bands_lt, ?_⟩
    intro band hmem
    have hblock := hgeometry.block band hmem
    exact ⟨hblock.width_lt, hblock.height_lt⟩
  apply (ends_create_blank husable).mono _ fun _ _ hfailed => hfailed.neg_resolve_left hcounted
  intro codec after hcreated
  obtain ⟨-, hafter, hmedium, husable, htables, hbytes⟩ := hcreated
  refine ⟨hafter, hmedium, husable, htables, ?_, ?_⟩
  · rw [Storage.length, hbytes, size_blankFile]
  · rw [htables, hbytes]
    exact image_blankFile hgeometry

end RasterStore.TiledCodec
