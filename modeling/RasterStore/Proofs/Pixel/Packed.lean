import RasterStore.BandDescriptor
import RasterStore.Proofs.Bytes.Numbers

/-!
# Packed pixels

The pixels of a block lie one behind the other, row by row. `BandDescriptor.pixel` is the pixel
in a column and row of a block's bytes; a block is changed pixel by pixel without its pixels
getting into each other's way (`apart_of_ne`).

* `convertPixel_slice`   a conversion depends on the bytes of its pixel only
* `pixel_fillPixels`     a filled block has the value in every pixel
-/

namespace RasterStore

open ByteArray

/-- A pixel has the size of its type. -/
theorem size_pixelBytes (type : PixelType) (value : Binary64) :
    (pixelBytes type value).size = type.bytes :=
  Pixel.size_encode type _

/-- Whole pixels at different places of a packed row do not overlap. -/
theorem packed_apart (width : Nat) {i j : Nat} (h : i ≠ j) :
    i * width + width ≤ j * width ∨ j * width + width ≤ i * width := by
  rcases Nat.lt_or_gt_of_ne h with hlt | hgt
  · left
    calc i * width + width = (i + 1) * width := by rw [Nat.add_mul, Nat.one_mul]
      _ ≤ j * width := Nat.mul_le_mul_right width hlt
  · right
    calc j * width + width = (j + 1) * width := by rw [Nat.add_mul, Nat.one_mul]
      _ ≤ i * width := Nat.mul_le_mul_right width hgt

/-- Items of one width end within the room for all of them. -/
theorem packed_inside (width : Nat) {i count : Nat} (h : i < count) :
    i * width + width ≤ count * width := by
  calc i * width + width = (i + 1) * width := by rw [Nat.add_mul, Nat.one_mul]
    _ ≤ count * width := Nat.mul_le_mul_right width h

/-- The cells of a rectangle that are counted row by row. -/
theorem rowMajor_lt {width height column row : Nat} (hcolumn : column < width)
    (hrow : row < height) : row * width + column < width * height := by
  calc row * width + column < row * width + width := by omega
    _ ≤ height * width := packed_inside _ hrow
    _ = width * height := Nat.mul_comm _ _

/-- Different cells have different numbers. -/
theorem rowMajor_inj {width column row column' row' : Nat} (hcolumn : column < width)
    (hcolumn' : column' < width) (h : row * width + column = row' * width + column') :
    column = column' ∧ row = row' := by
  have hrow : row = row' := by
    have hdiv := congrArg (· / width) h
    simp only [Nat.mul_comm _ width] at hdiv
    rwa [Nat.mul_add_div (by omega), Nat.mul_add_div (by omega), Nat.div_eq_of_lt hcolumn,
      Nat.div_eq_of_lt hcolumn'] at hdiv
  subst hrow
  exact ⟨by omega, rfl⟩

/-- Packed pixels determine the bytes. -/
theorem ext_packed {size : Size} {type : PixelType} {a b : ByteArray}
    (ha : a.size = size.area * type.bytes) (hb : b.size = size.area * type.bytes)
    (hpixels : ∀ column row, column < size.width → row < size.height →
      a.slice ((row * size.width + column) * type.bytes) type.bytes =
        b.slice ((row * size.width + column) * type.bytes) type.bytes) :
    a = b := by
  apply ext_byteAt (ha.trans hb.symm)
  intro i hi
  rw [ha, Size.area] at hi
  -- the pixel that the byte belongs to
  have hpixel : i / type.bytes < size.width * size.height :=
    Nat.div_lt_of_lt_mul (by rwa [Nat.mul_comm])
  have hwidth : 0 < size.width := by
    apply Nat.pos_of_ne_zero
    intro hzero
    rw [hzero, Nat.zero_mul] at hpixel
    exact absurd hpixel (Nat.not_lt_zero _)
  have hcolumn := Nat.mod_lt (i / type.bytes) hwidth
  have hrow : i / type.bytes / size.width < size.height := Nat.div_lt_of_lt_mul hpixel
  have hslice := congrArg (byteAt · (i % type.bytes)) (hpixels _ _ hcolumn hrow)
  simp only [Nat.div_add_mod'] at hslice
  have hbyte : i % type.bytes < type.bytes := Nat.mod_lt i type.bytes_pos
  simpa only [byteAt_slice, if_pos hbyte, Nat.div_add_mod'] using hslice

/-! ## Conversion -/

/-- A converted pixel has the size of the new type. -/
theorem size_convertPixel {source target : PixelType} {bytes : ByteArray} {offset : Nat}
    (h : offset + source.bytes ≤ bytes.size) :
    (convertPixel source target bytes offset).size = target.bytes := by
  unfold convertPixel
  split
  · next heq => rw [size_slice_of_le h, heq]
  · exact Pixel.size_encode target _

/-- A pixel is decoded from its own bytes. -/
theorem decode_slice (type : PixelType) (bytes : ByteArray) (offset : Nat) :
    Pixel.decode type (bytes.slice offset type.bytes) 0 = Pixel.decode type bytes offset := by
  unfold Pixel.decode
  by_cases hcomplex : type.isComplex = true
  · have hbytes : type.bytes = 2 * type.componentBytes := by rw [PixelType.bytes, if_pos hcomplex]
    simp only [hcomplex, if_true]
    rw [numberAt_slice (by omega), numberAt_slice (by omega), Nat.add_zero, Nat.zero_add]
  · have hbytes : type.bytes = type.componentBytes := by rw [PixelType.bytes, if_neg hcomplex]
    simp only [if_neg hcomplex]
    rw [numberAt_slice (by omega), Nat.add_zero]

/-- A conversion reads the bytes of its pixel and no other ones. -/
theorem convertPixel_slice (source target : PixelType) (bytes : ByteArray) (offset : Nat) :
    convertPixel source target (bytes.slice offset source.bytes) 0 =
      convertPixel source target bytes offset := by
  unfold convertPixel
  split
  · rw [slice_slice (by omega), Nat.add_zero]
  · rw [decode_slice]

/-! ## Filling -/

/-- Pixels that fill a buffer end inside it. -/
private theorem fill_inside {type : PixelType} {value : Binary64} {buffer : ByteArray}
    {i : Nat} (hi : i ∈ List.range (buffer.size / type.bytes)) :
    i * type.bytes + (pixelBytes type value).size ≤ buffer.size := by
  rw [size_pixelBytes]
  calc i * type.bytes + type.bytes ≤ buffer.size / type.bytes * type.bytes :=
        packed_inside _ (List.mem_range.mp hi)
    _ ≤ buffer.size := Nat.div_mul_le_self _ _

@[simp] theorem size_fillPixels (type : PixelType) (value : Binary64) (buffer : ByteArray) :
    (fillPixels type value buffer).size = buffer.size :=
  size_overwriteEach fun _ => fill_inside

/-- Each pixel of a filled buffer is the value. -/
theorem slice_fillPixels {type : PixelType} {value : Binary64} {buffer : ByteArray} {i : Nat}
    (hi : i < buffer.size / type.bytes) :
    (fillPixels type value buffer).slice (i * type.bytes) type.bytes = pixelBytes type value := by
  have hapart : (List.range (buffer.size / type.bytes)).Pairwise
      (Apart (· * type.bytes) fun _ => pixelBytes type value) := by
    refine List.nodup_range.imp ?_
    intro first second hne
    simp only [Apart, size_pixelBytes]
    exact packed_apart _ hne
  have hmem := List.mem_range.mpr hi
  have hsize := size_pixelBytes type value
  rw [fillPixels, slice_overwriteEach_of_mem (fun _ => fill_inside) hapart hmem
    (Nat.le_refl _) (by omega), Nat.sub_self, ← hsize, slice_zero_size]

namespace BandDescriptor

@[simp] theorem size_padding (band : BandDescriptor) : band.padding.size = band.blockBytes := by
  unfold padding
  split <;> simp

/-! ## The pixels of a block -/

/-- The pixel in a column and row of a block. -/
def pixel (band : BandDescriptor) (data : ByteArray) (column row : Nat) : ByteArray :=
  data.slice (band.pixelIndex column row * band.type.bytes) band.type.bytes

variable {band : BandDescriptor} {column row : Nat}

/-- A pixel of a block is one of those counted. -/
theorem pixelIndex_lt (hcolumn : column < band.block.width) (hrow : row < band.block.height) :
    band.pixelIndex column row < band.blockPixels :=
  rowMajor_lt hcolumn hrow

/-- The pixels of a block have different numbers. -/
theorem pixelIndex_inj {column' row' : Nat} (hcolumn : column < band.block.width)
    (hcolumn' : column' < band.block.width)
    (h : band.pixelIndex column row = band.pixelIndex column' row') :
    column = column' ∧ row = row' :=
  rowMajor_inj hcolumn hcolumn' h

/-- The bytes of a pixel lie in the block. -/
theorem pixel_inside (hcolumn : column < band.block.width) (hrow : row < band.block.height) :
    band.pixelIndex column row * band.type.bytes + band.type.bytes ≤ band.blockBytes :=
  packed_inside _ (pixelIndex_lt hcolumn hrow)

/-- Blocks with the same pixels are the same. -/
theorem ext_pixel {a b : ByteArray} (ha : a.size = band.blockBytes) (hb : b.size = band.blockBytes)
    (hpixels : ∀ column row, column < band.block.width → row < band.block.height →
      band.pixel a column row = band.pixel b column row) :
    a = b :=
  ext_packed ha hb hpixels

/-- A filled block has the value in every pixel. -/
theorem pixel_fillPixels {data : ByteArray} (value : Binary64) (hsize : data.size = band.blockBytes)
    (hcolumn : column < band.block.width) (hrow : row < band.block.height) :
    band.pixel (fillPixels band.type value data) column row = pixelBytes band.type value := by
  apply slice_fillPixels
  rw [hsize, blockBytes, Nat.mul_div_cancel _ band.type.bytes_pos]
  exact pixelIndex_lt hcolumn hrow

end BandDescriptor

end RasterStore
