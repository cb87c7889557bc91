import RasterStore.Format.Memory
import RasterStore.Proofs.Transfer.Pixels

/-!
# Planes

A `MemoryCodec` keeps the pixels inside the raster, in one plane for each band. `planePixel` is the
pixel in a column and row of a plane:

* `pixel_cut`          a block that is cut from a plane has the plane's pixels
* `planePixel_paste`   pasting a block changes the pixels of the plane that lie in it
* `words_of_held`      if both can be held in memory, then no offset in them exceeds a machine word

Together they make it a codec that keeps pixels, `planeModel`. Its calls cannot fail, and the
no-data values of the bands do not matter to it.
-/

namespace RasterStore.MemoryCodec

open ByteArray RasterStore.Action

variable {raster : Size} {context other : BlockContext} {data plane : ByteArray}
variable {column row x y : Nat}

/-- The pixel in a column and row of a plane. -/
def planePixel (raster : Size) (type : PixelType) (plane : ByteArray) (x y : Nat) : ByteArray :=
  plane.slice ((y * raster.width + x) * type.bytes) type.bytes

/-- Column of the raster that the block starts in. -/
def left (context : BlockContext) : Nat :=
  context.block.x * context.descriptor.block.width

/-- Row of the raster that the block starts in. -/
def top (context : BlockContext) : Nat :=
  context.block.y * context.descriptor.block.height

/-- The pixel lies in the part of the block that is inside the raster. -/
def InBlock (context : BlockContext) (x y : Nat) : Prop :=
  (left context ≤ x ∧ x < left context + context.validSize.width) ∧
    (top context ≤ y ∧ y < top context + context.validSize.height)

instance (context : BlockContext) (x y : Nat) : Decidable (InBlock context x y) :=
  inferInstanceAs (Decidable (_ ∧ _))

/-- The block belongs to the grid of the raster. -/
structure Inside (raster : Size) (context : BlockContext) : Prop where
  sameRaster : context.raster = raster
  left_lt : left context < raster.width
  top_lt : top context < raster.height

/-- The pixels of a block end within the columns of the raster. -/
theorem Inside.right_le (h : Inside raster context) :
    left context + context.validSize.width ≤ raster.width := by
  have hleft := h.left_lt
  obtain ⟨rfl, -, -⟩ := h
  simp only [left, BlockContext.validSize, BandDescriptor.validSize] at hleft ⊢
  omega

/-- The pixels of a block end within the rows of the raster. -/
theorem Inside.bottom_le (h : Inside raster context) :
    top context + context.validSize.height ≤ raster.height := by
  have htop := h.top_lt
  obtain ⟨rfl, -, -⟩ := h
  simp only [top, BlockContext.validSize, BandDescriptor.validSize] at htop ⊢
  omega

/-- The pixels of a block that lie in the raster are no more than the block has. -/
theorem validSize_le (context : BlockContext) :
    context.validSize.width ≤ context.descriptor.block.width ∧
      context.validSize.height ≤ context.descriptor.block.height :=
  ⟨Nat.min_le_left _ _, Nat.min_le_left _ _⟩

/-! ## Rows -/

/-- Spans of packed pixels that follow each other. -/
private theorem span_le (width : Nat) {i n j : Nat} (h : i + n ≤ j) :
    i * width + n * width ≤ j * width := by
  rw [← Nat.add_mul]
  exact Nat.mul_le_mul_right width h

/-- The rows of a block lie in its bytes. -/
theorem blockOffset_inside (hrow : row < context.validSize.height) :
    blockOffset context row + rowBytes context ≤ context.descriptor.blockBytes := by
  have hvalid := validSize_le context
  have hrows := packed_inside context.descriptor.block.width (Nat.lt_of_lt_of_le hrow hvalid.2)
  rw [Nat.mul_comm context.descriptor.block.height] at hrows
  apply span_le
  simp only [BandDescriptor.pixelIndex, BandDescriptor.blockPixels, Size.area]
  omega

/-- The rows of a block do not overlap. -/
private theorem blockOffset_apart {row' : Nat} (hne : row ≠ row') :
    blockOffset context row + rowBytes context ≤ blockOffset context row' ∨
      blockOffset context row' + rowBytes context ≤ blockOffset context row := by
  have hvalid := validSize_le context
  have hrows := packed_apart context.descriptor.block.width hne
  refine hrows.imp (fun hbefore => span_le _ ?_) (fun hbehind => span_le _ ?_)
  · simp only [BandDescriptor.pixelIndex]
    omega
  · simp only [BandDescriptor.pixelIndex]
    omega

/-- The rows of a block lie in the plane. -/
theorem planeOffset_inside (h : Inside raster context)
    (hrow : row < context.validSize.height) :
    planeOffset raster context row + rowBytes context ≤
      raster.area * context.descriptor.type.bytes := by
  have hright := h.right_le
  have hbottom := h.bottom_le
  -- the rows of a plane are packed one after the other
  have hrows := packed_inside raster.width
    (show top context + row < raster.height by omega)
  rw [Nat.mul_comm raster.height] at hrows
  apply span_le
  simp only [left, top, Size.area] at *
  omega

/-- If the block and its plane can be held in memory, then all offsets in them are numbers that a
    machine word has. -/
theorem words_of_held (h : Inside raster context) (hrow : row < context.validSize.height)
    (hblock : context.descriptor.blockBytes < memoryLimit)
    (hplane : raster.area * context.descriptor.type.bytes < memoryLimit) :
    blockOffset context row + rowBytes context < byteLimit 8 ∧
      planeOffset raster context row + rowBytes context < byteLimit 8 := by
  have hlimit : memoryLimit ≤ byteLimit 8 := by decide
  have hinBlock := blockOffset_inside hrow
  have hinPlane := planeOffset_inside h hrow
  omega

/-- The rows of a block do not overlap in the plane. -/
private theorem planeOffset_apart (h : Inside raster context) {row' : Nat} (hne : row ≠ row') :
    planeOffset raster context row + rowBytes context ≤ planeOffset raster context row' ∨
      planeOffset raster context row' + rowBytes context ≤ planeOffset raster context row := by
  have hright := h.right_le
  have hrows := packed_apart raster.width
    (show top context + row ≠ top context + row' by omega)
  simp only [left, top] at hright hrows
  refine hrows.imp (fun hbefore => span_le _ ?_) (fun hbehind => span_le _ ?_)
  · omega
  · omega

/-! ## Cutting -/

/-- A block that is cut out of a plane has its full size. -/
@[simp] theorem size_cut (h : Inside raster context)
    (hplane : plane.size = raster.area * context.descriptor.type.bytes) :
    (cut raster context plane).size = context.descriptor.blockBytes := by
  rw [cut, size_overwriteEach, BandDescriptor.size_padding]
  intro row hrow
  have hlt := List.mem_range.mp hrow
  rw [BandDescriptor.size_padding, size_slice_of_le]
  · exact blockOffset_inside hlt
  · rw [hplane]
    exact planeOffset_inside h hlt

/-- A block that is cut from a plane has the pixels of the plane. -/
theorem pixel_cut (h : Inside raster context)
    (hplane : plane.size = raster.area * context.descriptor.type.bytes)
    (hcolumn : column < context.validSize.width) (hrow : row < context.validSize.height) :
    context.descriptor.pixel (cut raster context plane) column row =
      planePixel raster context.descriptor.type plane (left context + column)
        (top context + row) := by
  -- the rows that are cut lie one behind the other in the block
  have hpiece {row : Nat} (hlt : row < context.validSize.height) :
      (plane.slice (planeOffset raster context row) (rowBytes context)).size = rowBytes context := by
    apply size_slice_of_le
    rw [hplane]
    exact planeOffset_inside h hlt
  have hinside : ∀ row ∈ List.range context.validSize.height,
      blockOffset context row +
        (plane.slice (planeOffset raster context row) (rowBytes context)).size ≤
          context.descriptor.padding.size := by
    intro row hmem
    rw [hpiece (List.mem_range.mp hmem), BandDescriptor.size_padding]
    exact blockOffset_inside (List.mem_range.mp hmem)
  have hapart : (List.range context.validSize.height).Pairwise (Apart (blockOffset context)
      fun row => plane.slice (planeOffset raster context row) (rowBytes context)) := by
    apply List.Pairwise.imp_of_mem _ List.nodup_range
    intro first second hfirst hsecond hne
    rw [Apart, hpiece (List.mem_range.mp hfirst), hpiece (List.mem_range.mp hsecond)]
    exact blockOffset_apart hne
  have hcolumns : column * context.descriptor.type.bytes + context.descriptor.type.bytes ≤
      rowBytes context := packed_inside _ hcolumn
  -- the pixel is a piece of its row
  have hstart : context.descriptor.pixelIndex column row * context.descriptor.type.bytes =
      blockOffset context row + column * context.descriptor.type.bytes := by
    rw [blockOffset, ← Nat.add_mul]
    simp only [BandDescriptor.pixelIndex, Nat.add_zero]
  rw [BandDescriptor.pixel, cut, slice_overwriteEach_of_mem hinside hapart
    (List.mem_range.mpr hrow) (by omega) (by rw [hpiece hrow]; omega), hstart,
    Nat.add_sub_cancel_left, slice_slice hcolumns, planePixel, planeOffset, ← Nat.add_mul,
    Nat.add_assoc]
  rfl

/-! ## Pasting -/

/-- Each row of a block is pasted with all its bytes. -/
private theorem row_pasted (hdata : data.size = context.descriptor.blockBytes)
    (hrow : row < context.validSize.height) :
    (data.slice (blockOffset context row) (rowBytes context)).size = rowBytes context := by
  apply size_slice_of_le
  rw [hdata]
  exact blockOffset_inside hrow

/-- Each row of a block is pasted inside the plane. -/
private theorem pasted_inside (h : Inside raster context)
    (hdata : data.size = context.descriptor.blockBytes)
    (hplane : plane.size = raster.area * context.descriptor.type.bytes) :
    ∀ row ∈ List.range context.validSize.height, planeOffset raster context row +
      (data.slice (blockOffset context row) (rowBytes context)).size ≤ plane.size := by
  intro row hmem
  rw [row_pasted hdata (List.mem_range.mp hmem), hplane]
  exact planeOffset_inside h (List.mem_range.mp hmem)

/-- Pasting a block leaves the size of the plane alone. -/
@[simp] theorem size_paste (h : Inside raster context)
    (hdata : data.size = context.descriptor.blockBytes)
    (hplane : plane.size = raster.area * context.descriptor.type.bytes) :
    (paste raster context data plane).size = plane.size :=
  size_overwriteEach (pasted_inside h hdata hplane)

/-- Each row of the block is pasted into its own row of the plane. -/
private theorem pasted_apart (h : Inside raster context)
    (hdata : data.size = context.descriptor.blockBytes) :
    (List.range context.validSize.height).Pairwise (Apart (planeOffset raster context)
      fun row => data.slice (blockOffset context row) (rowBytes context)) := by
  apply List.Pairwise.imp_of_mem _ List.nodup_range
  intro first second hfirst hsecond hne
  rw [Apart, row_pasted hdata (List.mem_range.mp hfirst),
    row_pasted hdata (List.mem_range.mp hsecond)]
  exact planeOffset_apart h hne

/-- A pixel of the block has its place in the row that is pasted. -/
private theorem pixelOffset_eq (raster : Size) (hleft : left context ≤ x) (htop : top context ≤ y) :
    (y * raster.width + x) * context.descriptor.type.bytes =
      planeOffset raster context (y - top context) +
        (x - left context) * context.descriptor.type.bytes := by
  -- row and column counted from the corner of the block
  have hy : context.block.y * context.descriptor.block.height + (y - top context) = y :=
    Nat.add_sub_of_le htop
  have hindex : y * raster.width + x =
      y * raster.width + context.block.x * context.descriptor.block.width +
        (x - left context) := by
    rw [left] at hleft ⊢
    omega
  simp only [planeOffset]
  rw [hy, ← Nat.add_mul, ← hindex]

/-- The bytes of a pixel outside the block are apart from all rows that are pasted. -/
private theorem outside_apart (h : Inside raster context) (hx : x < raster.width)
    (hblock : ¬InBlock context x y) (hrow : row < context.validSize.height) :
    (y * raster.width + x) * context.descriptor.type.bytes + context.descriptor.type.bytes ≤
        ((top context + row) * raster.width + left context) * context.descriptor.type.bytes ∨
      ((top context + row) * raster.width + left context) * context.descriptor.type.bytes +
          context.validSize.width * context.descriptor.type.bytes ≤
        (y * raster.width + x) * context.descriptor.type.bytes := by
  have hright := h.right_le
  by_cases hsame : y = top context + row
  · -- the pixel is before or behind the piece of its row
    have houtside : x < left context ∨ left context + context.validSize.width ≤ x := by
      unfold InBlock at hblock
      omega
    rw [← hsame]
    exact houtside.imp (fun hbefore => packed_inside _ (by omega))
      fun hbehind => span_le _ (by omega)
  · -- the piece belongs to another row
    rcases packed_apart raster.width hsame with hbefore | hbehind
    · exact .inl (packed_inside _ (by omega))
    · exact .inr (span_le _ (by omega))

/-- Pasting a block changes the pixels of the plane that lie in it, and no other ones. -/
theorem planePixel_paste (h : Inside raster context)
    (hdata : data.size = context.descriptor.blockBytes)
    (hplane : plane.size = raster.area * context.descriptor.type.bytes) (hx : x < raster.width) :
    planePixel raster context.descriptor.type (paste raster context data plane) x y =
      if InBlock context x y then
        context.descriptor.pixel data (x - left context) (y - top context)
      else planePixel raster context.descriptor.type plane x y := by
  have hinside := pasted_inside h hdata hplane
  rw [planePixel, paste]
  split
  · -- inside the block, the pixel is the one of the block at the same distance from its corner
    next hblock =>
    obtain ⟨⟨hleft, hright⟩, htop, hbottom⟩ := hblock
    have hrow : y - top context < context.validSize.height := by omega
    have hcolumns : (x - left context) * context.descriptor.type.bytes +
        context.descriptor.type.bytes ≤ rowBytes context :=
      packed_inside _ (by omega)
    have hstart := pixelOffset_eq raster hleft htop
    -- the pixel is in one of the rows that are pasted
    rw [slice_overwriteEach_of_mem hinside (pasted_apart h hdata) (List.mem_range.mpr hrow)
      (by omega) (by rw [row_pasted hdata hrow]; omega), hstart, Nat.add_sub_cancel_left,
      slice_slice hcolumns, BandDescriptor.pixel, blockOffset, ← Nat.add_mul]
    simp only [BandDescriptor.pixelIndex, Nat.add_zero]
  · -- outside, no pasted row reaches it
    next hblock =>
    apply slice_overwriteEach_of_apart hinside
    intro row hmem
    have hrow := List.mem_range.mp hmem
    rw [row_pasted hdata hrow]
    exact outside_apart h hx hblock hrow

/-! ## The model -/

/-- The block belongs to a band of the raster; its no-data value may be any. -/
structure Shaped (raster : Size) (bands : List BandDescriptor) (context : BlockContext) : Prop
    extends Inside raster context where
  band_pos : 0 < context.block.band
  shape : ∃ band, bands[context.block.band - 1]? = some band ∧
    context.descriptor.type = band.type ∧ context.descriptor.block = band.block

/-- The codec has a plane for each band. -/
structure HasPlanes (raster : Size) (bands : List BandDescriptor) (codec : MemoryCodec) : Prop where
  sameRaster : codec.raster = raster
  count : codec.planes.size = bands.length
  size : ∀ i band, bands[i]? = some band →
    (codec.planes.getD i ByteArray.empty).size = raster.area * band.type.bytes

/-- Blocks of one band have the same shape. -/
theorem Shaped.same_shape {bands : List BandDescriptor} (h : Shaped raster bands context)
    (h' : Shaped raster bands other) (hband : other.block.band = context.block.band) :
    other.descriptor.type = context.descriptor.type ∧
      other.descriptor.block = context.descriptor.block := by
  obtain ⟨band, hget, htype, hblock⟩ := h.shape
  obtain ⟨band', hget', htype', hblock'⟩ := h'.shape
  rw [hband, hget] at hget'
  cases hget'
  exact ⟨htype'.trans htype.symm, hblock'.trans hblock.symm⟩

/-- The plane of a band has the size of the raster. -/
theorem HasPlanes.size_plane {bands : List BandDescriptor} {codec : MemoryCodec}
    (h : HasPlanes raster bands codec) (hshaped : Shaped raster bands context) :
    (codec.planes.getD (context.block.band - 1) ByteArray.empty).size =
      raster.area * context.descriptor.type.bytes := by
  obtain ⟨band, hget, htype, -⟩ := hshaped.shape
  rw [h.size _ band hget, htype]

/-- The pixels of a block, as far as they lie in the raster. -/
def clipped (context : BlockContext) (pixels : Nat → Nat → ByteArray) (column row : Nat) :
    ByteArray :=
  if column < context.validSize.width ∧ row < context.validSize.height then pixels column row
  else ByteArray.empty

/-- Pixels that agree inside the raster are the same when clipped to it. -/
theorem clipped_congr {pixels pixels' : Nat → Nat → ByteArray}
    (h : ∀ column row, column < context.validSize.width → row < context.validSize.height →
      pixels column row = pixels' column row) :
    clipped context pixels = clipped context pixels' := by
  funext column row
  unfold clipped
  split
  · next hvalid => exact h column row hvalid.1 hvalid.2
  · rfl

/-- The pixels that the planes have for a block. -/
def stored (codec : MemoryCodec) (context : BlockContext) : Nat → Nat → ByteArray :=
  clipped context fun column row =>
    planePixel context.raster context.descriptor.type
      (codec.planes.getD (context.block.band - 1) ByteArray.empty)
      (left context + column) (top context + row)

variable {bands : List BandDescriptor} {codec : MemoryCodec}

/-- Decoding cuts the block from its plane. -/
theorem ends_decode (h : HasPlanes raster bands codec) (hshaped : Shaped raster bands context) :
    (Codec.decode context).Ends codec
      (fun decoded reached => reached = codec ∧
        decoded.bytes.size = context.descriptor.blockBytes ∧
        clipped context (context.descriptor.pixel decoded.bytes) = stored codec context)
      (fun _ _ => False) := by
  have hplane := h.size_plane hshaped
  refine Ends.get_bind (ends_pure.mpr ⟨rfl, ?_, ?_⟩)
  · rw [h.sameRaster, size_cut hshaped.toInside hplane]
  · -- only the pixels in the raster are compared
    apply clipped_congr
    intro column row hcolumn hrow
    rw [h.sameRaster, pixel_cut hshaped.toInside hplane hcolumn hrow, hshaped.sameRaster]

/-- The planes after a block was pasted into one of them. -/
theorem getD_modify_paste (codec : MemoryCodec) (raster : Size) (context : BlockContext)
    (data : ByteArray) (hlt : context.block.band - 1 < codec.planes.size) (i : Nat) :
    (codec.planes.modify (context.block.band - 1) (paste raster context data)).getD i
        ByteArray.empty =
      if i = context.block.band - 1 then
        paste raster context data (codec.planes.getD i ByteArray.empty)
      else codec.planes.getD i ByteArray.empty := by
  simp only [Array.getD_eq_getD_getElem?, Array.getElem?_modify]
  by_cases heq : i = context.block.band - 1
  · subst heq
    simp [hlt]
  · rw [if_neg (fun h => heq h.symm), if_neg heq]

/-- Different blocks of a band have different pixels. -/
private theorem not_inBlock (hshaped : Shaped raster bands context)
    (hother : Shaped raster bands other) (hband : other.block.band = context.block.band)
    (hne : other.block ≠ context.block) (hcolumn : column < other.validSize.width)
    (hrow : row < other.validSize.height) :
    ¬InBlock context (left other + column) (top other + row) := by
  intro hin
  obtain ⟨-, hblock⟩ := hshaped.same_shape hother hband
  have hvalid := validSize_le context
  have hvalidOther := validSize_le other
  simp only [InBlock, left, top, hblock] at hin hvalidOther
  -- equal columns and rows: two blocks of one grid that share a pixel are the same
  have hx : other.block.x = context.block.x := by
    by_cases hx : other.block.x = context.block.x
    · exact hx
    · have := packed_apart context.descriptor.block.width hx
      omega
  have hy : other.block.y = context.block.y := by
    by_cases hy : other.block.y = context.block.y
    · exact hy
    · have := packed_apart context.descriptor.block.height hy
      omega
  apply hne
  calc other.block = ⟨other.block.band, other.block.x, other.block.y⟩ := rfl
    _ = ⟨context.block.band, context.block.x, context.block.y⟩ := by rw [hband, hx, hy]
    _ = context.block := rfl

/-- The pixels of a block that was pasted, read back. -/
private theorem pixel_pasted (hshaped : Shaped raster bands context)
    (hother : Shaped raster bands other) (hblock : other.block = context.block)
    (hdata : data.size = context.descriptor.blockBytes)
    (hplane : plane.size = raster.area * context.descriptor.type.bytes)
    (hcolumn : column < other.validSize.width) (hrow : row < other.validSize.height) :
    planePixel other.raster other.descriptor.type (paste raster context data plane)
      (left other + column) (top other + row) = other.descriptor.pixel data column row := by
  -- both contexts are of the same block, so that all places agree
  obtain ⟨htype, hsize⟩ := hshaped.same_shape hother (by rw [hblock])
  have hleft : left other = left context := by rw [left, left, hblock, hsize]
  have htop : top other = top context := by rw [top, top, hblock, hsize]
  have hvalid : other.validSize = context.validSize := by
    simp only [BlockContext.validSize, BandDescriptor.validSize, hblock, hsize,
      hother.sameRaster, hshaped.sameRaster]
  have hright := hshaped.right_le
  rw [hvalid] at hcolumn hrow
  rw [hother.sameRaster, hleft, htop, htype,
    planePixel_paste hshaped.toInside hdata hplane (by omega), if_pos, Nat.add_sub_cancel_left,
    Nat.add_sub_cancel_left]
  · simp only [BandDescriptor.pixel, BandDescriptor.pixelIndex, htype, hsize]
  · rw [InBlock]
    omega

/-- Encoding pastes the block into its plane, and nothing else changes. -/
theorem ends_encode (h : HasPlanes raster bands codec) (hshaped : Shaped raster bands context)
    (hdata : data.size = context.descriptor.blockBytes) :
    (Codec.encode context data).Ends codec
      (fun _ reached => HasPlanes raster bands reached ∧ ∀ other, Shaped raster bands other →
        stored reached other =
          if other.block = context.block then clipped other (other.descriptor.pixel data)
          else stored codec other)
      (fun _ _ => False) := by
  obtain rfl := h.sameRaster
  obtain ⟨band, hget, htype, -⟩ := hshaped.shape
  have hlt : context.block.band - 1 < codec.planes.size := by
    rw [h.count]
    exact (List.getElem?_eq_some_iff.mp hget).1
  have hplane := h.size_plane hshaped
  have hmodify := getD_modify_paste codec codec.raster context data hlt
  refine ends_modify.mpr ⟨⟨rfl, ?_, fun i other hother => ?_⟩, fun other hother => ?_⟩
  · -- the number of planes
    rw [← h.count]
    exact Array.size_modify
  · -- their sizes: only the plane of this band is touched
    show ((codec.planes.modify (context.block.band - 1)
      (paste codec.raster context data)).getD i ByteArray.empty).size = _
    rw [hmodify]
    split
    · next heq =>
      subst heq
      rw [size_paste hshaped.toInside hdata hplane]
      exact h.size _ other hother
    · exact h.size i other hother
  · -- what is stored: a plane holds several blocks, and pasting changes the pixels of one
    have hplanes := hmodify (other.block.band - 1)
    have hpos := hshaped.band_pos
    have hpos' := hother.band_pos
    split
    · -- the block itself, though perhaps seen with another no-data value
      next hblock =>
      apply clipped_congr
      intro column row hcolumn hrow
      rw [hplanes, hblock, if_pos rfl]
      exact pixel_pasted hshaped hother hblock hdata hplane hcolumn hrow
    · next hne =>
      apply clipped_congr
      intro column row hcolumn hrow
      rw [hplanes]
      split
      · next hindex =>
        -- another block of the same plane
        have hband : other.block.band = context.block.band := by omega
        have hnot := not_inBlock hshaped hother hband hne hcolumn hrow
        obtain ⟨htype, -⟩ := hshaped.same_shape hother hband
        have hinside := hother.right_le
        rw [hother.sameRaster, htype, hband,
          planePixel_paste hshaped.toInside hdata hplane (by omega), if_neg hnot]
      · rfl

/-- A `MemoryCodec` keeps the pixels of its blocks that lie in the raster. -/
def planeModel (raster : Size) (bands : List BandDescriptor) : PixelModel MemoryCodec where
  View := Nat → Nat → ByteArray
  view context data := clipped context (context.descriptor.pixel data)
  content := stored
  Given _ _ := True
  Holds := HasPlanes raster bands
  Serves := Shaped raster bands
  Fits context data := data.size = context.descriptor.blockBytes
  MayFail := False
  fits_of_size hsize := hsize
  ends_decode h hshaped := by
    refine (ends_decode h hshaped).mono ?_ fun _ _ hnever => hnever.elim
    intro decoded reached hdecoded
    obtain ⟨rfl, hsize, hcontent⟩ := hdecoded
    refine ⟨⟨h, rfl, rfl⟩, ?_⟩
    rw [if_pos hsize, hcontent]
  ends_encode h hshaped hdata :=
    (ends_encode h hshaped hdata).mono (fun _ _ hencoded => ⟨hencoded.1, fun other hother =>
      ⟨hencoded.2 other hother, iff_of_true trivial (.inr trivial)⟩⟩) fun _ _ hnever => hnever.elim
  pixel _ pixels := pixels
  pixel_view _ hcolumn hrow := if_pos ⟨hcolumn, hrow⟩
  size_of_fits hsize := hsize

/-! ## New planes -/

/-- Planes are made if all of them can be held in memory; so can their pixels then be counted. -/
theorem create_of_held (hbands : bands ≠ [])
    (hplanes : ∀ band ∈ bands, raster.area * band.type.bytes < memoryLimit) :
    create raster bands.toArray = .ok (blank raster bands.toArray) := by
  -- a plane has at least as many bytes as the raster has pixels
  have harea : raster.area < byteLimit 8 := by
    obtain ⟨band, rest, rfl⟩ := List.exists_cons_of_ne_nil hbands
    calc raster.area ≤ raster.area * band.type.bytes := Nat.le_mul_of_pos_right _ band.type.bytes_pos
      _ < memoryLimit := hplanes band List.mem_cons_self
      _ ≤ byteLimit 8 := by decide
  rw [create, if_pos]
  simp only [isHeld, harea, List.all_toArray, decide_true, Bool.true_and, List.all_eq_true,
    decide_eq_true_eq]
  exact hplanes

/-- A plane that is too large ends the program. -/
theorem create_of_not_held {band : BandDescriptor} (hmem : band ∈ bands)
    (htooLarge : memoryLimit ≤ raster.area * band.type.bytes) :
    create raster bands.toArray = .error .capacityOverflow := by
  rw [create, if_neg]
  simp only [isHeld, List.all_toArray, Bool.and_eq_true, List.all_eq_true, decide_eq_true_eq]
  exact fun hheld => Nat.not_lt.mpr htooLarge (hheld.2 band hmem)

/-- New planes have the sizes of their bands. -/
theorem hasPlanes_blank (raster : Size) (bands : List BandDescriptor) :
    HasPlanes raster bands (blank raster bands.toArray) := by
  refine ⟨rfl, by simp [blank], fun i band hget => ?_⟩
  simp [blank, Array.getD_eq_getD_getElem?, hget]

/-- The pixels of new planes are zeros. -/
theorem stored_blank {bands : List BandDescriptor} (hshaped : Shaped raster bands context)
    (hcolumn : column < context.validSize.width) (hrow : row < context.validSize.height) :
    stored (blank raster bands.toArray) context column row =
      ByteArray.zeros context.descriptor.type.bytes := by
  obtain ⟨band, hget, htype, -⟩ := hshaped.shape
  have hright := hshaped.right_le
  have hbottom := hshaped.bottom_le
  have hplane : (blank raster bands.toArray).planes.getD (context.block.band - 1)
      ByteArray.empty = ByteArray.zeros (raster.area * context.descriptor.type.bytes) := by
    simp [blank, Array.getD_eq_getD_getElem?, hget, htype]
  have hindex : (top context + row) * raster.width + (left context + column) <
      raster.width * raster.height := rowMajor_lt (by omega) (by omega)
  have hinside := packed_inside context.descriptor.type.bytes hindex
  rw [stored, clipped, if_pos ⟨hcolumn, hrow⟩, hplane, hshaped.sameRaster, planePixel]
  -- a piece of a plane of zeros
  apply ext_byteAt
  · rw [size_slice_of_le, size_zeros]
    rw [size_zeros]
    exact hinside
  · intro i _
    rw [byteAt_slice, byteAt_zeros, byteAt_zeros, ite_self]

end RasterStore.MemoryCodec
