import RasterStore.Format.Tiled.Header
import RasterStore.Proofs.Bytes.Numbers

/-!
# The records of tiled files

The file header, the band headers and the index entries as byte strings of fixed size. What is
written of a raster that can be stored is read back:

* `parseHeader_headerRecord`       raster size and number of bands
* `parseBandHeader_bandRecord`     type, block size and no-data value of a band
* `parse_toBytes`                  an index entry
-/

namespace RasterStore.Tiled

open ByteArray

/-- The sides are not zero and fit into four bytes. -/
structure Storable (size : Size) : Prop where
  width_pos : 0 < size.width
  height_pos : 0 < size.height
  width_lt : size.width < byteLimit 4
  height_lt : size.height < byteLimit 4

/-- A number below the limit of four bytes can be written in a header. -/
theorem dimension_of_lt {n : Nat} (h : n < byteLimit 4) : dimension n = .ok (numberBytes 4 n) :=
  if_pos h

/-- Just the numbers below the limit of four bytes can be written in a header. -/
theorem dimension_eq_ok_iff {n : Nat} {bytes : ByteArray} :
    dimension n = .ok bytes ↔ n < byteLimit 4 ∧ numberBytes 4 n = bytes := by
  unfold dimension
  split
  · next h => simp [h]
  · next h => simp [h]

/-- A size that can be stored has pixels. -/
theorem Storable.isEmpty {size : Size} (h : Storable size) : size.isEmpty = false := by
  rw [Bool.eq_false_iff, ne_eq, Size.isEmpty_iff]
  have := h.width_pos
  have := h.height_pos
  omega

/-- A size with pixels can be stored if both sides fit in four bytes. -/
theorem storable_of_nonempty {size : Size} (hempty : size.isEmpty = false)
    (hwidth : size.width < byteLimit 4) (hheight : size.height < byteLimit 4) : Storable size := by
  rw [Bool.eq_false_iff, ne_eq, Size.isEmpty_iff] at hempty
  exact ⟨by omega, by omega, hwidth, hheight⟩

/-! ## The file header -/

/-- The bytes of a file header. -/
def headerRecord (raster : Size) (bands : Nat) : ByteArray :=
  magic ++ numberBytes 4 raster.width ++ numberBytes 4 raster.height ++ numberBytes 4 bands ++
    numberBytes 4 0

/-- The mark of the format takes eight bytes. -/
@[simp] theorem size_magic : magic.size = 8 := by
  decide +kernel

/-- The file header has the same size for all rasters. -/
@[simp] theorem size_headerRecord (raster : Size) (bands : Nat) :
    (headerRecord raster bands).size = headerBytes := by
  simp [headerRecord, headerBytes]

/-- The file header starts with the mark of the format. -/
theorem slice_headerRecord_magic (raster : Size) (bands : Nat) :
    (headerRecord raster bands).slice 0 8 = magic := by
  simp only [headerRecord, append_assoc]
  rw [slice_append_of_le (by simp), ← size_magic, slice_zero_size]

/-- A file header holds a size and a number of bands that fit into four bytes. -/
theorem header_eq_ok_iff {raster : Size} {bands : Nat} {bytes : ByteArray} :
    header raster bands = .ok bytes ↔
      raster.width < byteLimit 4 ∧ raster.height < byteLimit 4 ∧ bands < byteLimit 4 ∧
        headerRecord raster bands = bytes := by
  constructor
  · -- each of the three numbers is checked before it is printed
    intro h
    simp only [header, bind, Except.bind] at h
    split at h
    · contradiction
    · next hwidth =>
      split at h
      · contradiction
      · next hheight =>
        split at h
        · contradiction
        · next hbands =>
          obtain ⟨hwidthLt, rfl⟩ := dimension_eq_ok_iff.mp hwidth
          obtain ⟨hheightLt, rfl⟩ := dimension_eq_ok_iff.mp hheight
          obtain ⟨hbandsLt, rfl⟩ := dimension_eq_ok_iff.mp hbands
          cases h
          exact ⟨hwidthLt, hheightLt, hbandsLt, rfl⟩
  · rintro ⟨hwidth, hheight, hbands, rfl⟩
    rw [header, dimension_of_lt hwidth, dimension_of_lt hheight, dimension_of_lt hbands]
    rfl

/-- A file header is parsed to what it was made of. -/
theorem parseHeader_headerRecord {raster : Size} {bands : Nat} (hraster : Storable raster)
    (hbands : bands < byteLimit 4) (hpos : 0 < bands) :
    parseHeader (headerRecord raster bands) = .ok (raster, bands) := by
  -- the fields stand behind each other, each with its own number of bytes
  have hmagic : ((headerRecord raster bands).slice 0 8 != magic) = false := by
    rw [slice_headerRecord_magic]
    decide +kernel
  have hwidth : numberAt (headerRecord raster bands) 8 4 = raster.width := by
    simp only [headerRecord, append_assoc]
    rw [numberAt_append_of_ge (by simp), size_magic, numberAt_append_of_lt (by simp),
      numberAt_numberBytes, Nat.mod_eq_of_lt hraster.width_lt]
  have hheight : numberAt (headerRecord raster bands) 12 4 = raster.height := by
    simp only [headerRecord, append_assoc]
    rw [numberAt_append_of_ge (by simp), numberAt_append_of_ge (by simp), size_magic,
      size_numberBytes, numberAt_append_of_lt (by simp), numberAt_numberBytes,
      Nat.mod_eq_of_lt hraster.height_lt]
  have hcount : numberAt (headerRecord raster bands) 16 4 = bands := by
    simp only [headerRecord, append_assoc]
    rw [numberAt_append_of_ge (by simp), numberAt_append_of_ge (by simp),
      numberAt_append_of_ge (by simp), size_magic, size_numberBytes, size_numberBytes,
      numberAt_append_of_lt (by simp), numberAt_numberBytes, Nat.mod_eq_of_lt hbands]
  have hzero : (bands == 0) = false := by
    rw [beq_eq_false_iff_ne]
    omega
  simp only [parseHeader, hmagic, hwidth, hheight, hcount, hzero]
  rw [hraster.isEmpty]
  simp

/-! ## Band headers -/

/-- The bytes of a band header. -/
def bandRecord (band : BandDescriptor) : ByteArray :=
  numberBytes 1 band.type.code ++ numberBytes 1 (if band.noData.isSome then 1 else 0) ++
    numberBytes 2 0 ++ numberBytes 4 band.block.width ++ numberBytes 4 band.block.height ++
    numberBytes 4 0 ++ numberBytes 8 (band.noData.getD .zero).bits.toNat

/-- The header of a band has the same size for all bands. -/
@[simp] theorem size_bandRecord (band : BandDescriptor) :
    (bandRecord band).size = bandHeaderBytes := by
  simp [bandRecord, bandHeaderBytes]

/-- A band header holds a block size that fits into four bytes each. -/
theorem bandHeader_eq_ok_iff {band : BandDescriptor} {bytes : ByteArray} :
    bandHeader band = .ok bytes ↔
      band.block.width < byteLimit 4 ∧ band.block.height < byteLimit 4 ∧
        bandRecord band = bytes := by
  constructor
  · -- the two sides are checked before they are printed
    intro h
    simp only [bandHeader, bind, Except.bind] at h
    split at h
    · contradiction
    · next hwidth =>
      split at h
      · contradiction
      · next hheight =>
        obtain ⟨hwidthLt, rfl⟩ := dimension_eq_ok_iff.mp hwidth
        obtain ⟨hheightLt, rfl⟩ := dimension_eq_ok_iff.mp hheight
        cases h
        exact ⟨hwidthLt, hheightLt, rfl⟩
  · rintro ⟨hwidth, hheight, rfl⟩
    rw [bandHeader, dimension_of_lt hwidth, dimension_of_lt hheight]
    rfl

/-- The header of a band can be made if its blocks can be stored. -/
theorem bandHeader_of_storable {band : BandDescriptor} (hblock : Storable band.block) :
    bandHeader band = .ok (bandRecord band) :=
  bandHeader_eq_ok_iff.mpr ⟨hblock.width_lt, hblock.height_lt, rfl⟩

/-- A band header is read from its own bytes. -/
theorem parseBandHeader_slice (bytes : ByteArray) (offset : Nat) :
    parseBandHeader (bytes.slice offset bandHeaderBytes) 0 = parseBandHeader bytes offset := by
  simp only [parseBandHeader, toNat_byteAt, Nat.zero_add]
  rw [numberAt_slice (by decide), numberAt_slice (by decide), numberAt_slice (by decide),
    numberAt_slice (by decide), numberAt_slice (by decide), Nat.add_zero]

/-- The header of a band is parsed to what it was made of. -/
theorem parseBandHeader_bandRecord {band : BandDescriptor} (hblock : Storable band.block) :
    parseBandHeader (bandRecord band) 0 = .ok band := by
  -- the fields stand behind each other, each with its own number of bytes
  have hcode : numberAt (bandRecord band) 0 1 = band.type.code := by
    have := band.type.code_le
    simp only [bandRecord, append_assoc]
    rw [numberAt_append_of_lt (by simp), numberAt_numberBytes, Nat.mod_eq_of_lt]
    simp only [byteLimit]
    omega
  have hflags : numberAt (bandRecord band) 1 1 = if band.noData.isSome then 1 else 0 := by
    simp only [bandRecord, append_assoc]
    rw [numberAt_append_of_ge (by simp), size_numberBytes, numberAt_append_of_lt (by simp),
      numberAt_numberBytes, Nat.mod_eq_of_lt]
    split <;> decide
  have hwidth : numberAt (bandRecord band) 4 4 = band.block.width := by
    simp only [bandRecord, append_assoc]
    iterate 3 rw [numberAt_append_of_ge (by simp), size_numberBytes]
    rw [numberAt_append_of_lt (by simp), numberAt_numberBytes, Nat.mod_eq_of_lt hblock.width_lt]
  have hheight : numberAt (bandRecord band) 8 4 = band.block.height := by
    simp only [bandRecord, append_assoc]
    iterate 4 rw [numberAt_append_of_ge (by simp), size_numberBytes]
    rw [numberAt_append_of_lt (by simp), numberAt_numberBytes, Nat.mod_eq_of_lt hblock.height_lt]
  have hnoData : (numberAt (bandRecord band) 16 8).toUInt64 = (band.noData.getD .zero).bits := by
    simp only [bandRecord, append_assoc]
    iterate 6 rw [numberAt_append_of_ge (by simp), size_numberBytes]
    rw [numberAt_numberBytes, Nat.mod_eq_of_lt]
    · exact UInt64.ofNat_toNat
    · exact (band.noData.getD .zero).bits.toNat_lt
  have hempty := hblock.isEmpty
  obtain ⟨type, ⟨width, height⟩, noData⟩ := band
  simp only [parseBandHeader, toNat_byteAt, Nat.zero_add, hcode, hflags, hwidth, hheight, hnoData,
    PixelType.ofCode_code]
  rw [hempty]
  cases noData <;> rfl

/-! ## Index entries -/

/-- An entry of an index takes the same number of bytes for all tiles. -/
@[simp] theorem size_toBytes (entry : IndexEntry) : entry.toBytes.size = entryBytes := by
  simp [IndexEntry.toBytes, entryBytes]

/-- An entry is parsed from its own bytes. -/
theorem parse_slice {bytes : ByteArray} {start length offset : Nat}
    (h : offset + entryBytes ≤ length) :
    IndexEntry.parse (bytes.slice start length) offset = IndexEntry.parse bytes (start + offset) := by
  have : entryBytes = 12 := rfl
  simp only [IndexEntry.parse]
  rw [numberAt_slice (by omega), numberAt_slice (by omega), Nat.add_assoc]

/-- An entry is parsed to what it was made of. -/
theorem parse_toBytes {entry : IndexEntry} (hoffset : entry.offset < byteLimit 8)
    (hsize : entry.size < byteLimit 4) : IndexEntry.parse entry.toBytes 0 = entry := by
  simp only [IndexEntry.parse, IndexEntry.toBytes]
  rw [numberAt_append_of_lt (by simp), numberAt_append_of_ge (by simp), size_numberBytes,
    numberAt_numberBytes, numberAt_numberBytes, Nat.mod_eq_of_lt hoffset, Nat.mod_eq_of_lt hsize]

/-- The entry of a block that was never written is all zeros. -/
theorem toBytes_blank : ({} : IndexEntry).toBytes = ByteArray.zeros entryBytes := by
  decide +kernel

end RasterStore.Tiled
