import RasterStore.Transfer
import RasterStore.Proofs.Cache.WriteBack

/-!
# The pixels of a block store

A `PixelModel` is a `CodecModel` whose contents are blocks of pixels. It makes a plain raster of
each band of a `BlockStore`: `PixelModel.pixelAt` is the pixel in a column and row of a band, in
whatever block it lies and wherever that block is. Transfers are described by it:

* `Fetched.pixel`     a fetched block has the pixels of the raster
* `Changed.pixelAt`   a change of a block changes the pixels in it
-/

namespace RasterStore

open ByteArray BlockStore RasterStore.Action

/-- A codec that keeps pixels: what it keeps of a block determines the pixels inside the raster. -/
structure PixelModel (κ : Type) [Codec κ] extends CodecModel κ where
  /-- The pixel in a column and row of what is kept of a block. -/
  pixel : BlockContext → View → (column row : Nat) → ByteArray
  pixel_view : ∀ {context : BlockContext} {data : ByteArray} {column row : Nat},
    Fits context data → column < context.validSize.width → row < context.validSize.height →
    pixel context (view context data) column row = context.descriptor.pixel data column row
  size_of_fits : ∀ {context : BlockContext} {data : ByteArray}, Fits context data →
    data.size = context.descriptor.blockBytes

/-! ## Pixels of the raster and of blocks -/

namespace BandDescriptor

variable {descriptor : BandDescriptor} {raster : Size} {x y : Nat}

/-- The blocks have pixels. -/
def Blocked (descriptor : BandDescriptor) : Prop :=
  0 < descriptor.block.width ∧ 0 < descriptor.block.height

/-- A pixel of the raster lies in the part of its block that is inside the raster. -/
theorem mod_lt_validSize (h : descriptor.Blocked) (hx : x < raster.width) (hy : y < raster.height) :
    x % descriptor.block.width <
        (descriptor.validSize raster (x / descriptor.block.width)
          (y / descriptor.block.height)).width ∧
      y % descriptor.block.height <
        (descriptor.validSize raster (x / descriptor.block.width)
          (y / descriptor.block.height)).height := by
  -- a quotient and a remainder make up each coordinate
  have hcolumn := Nat.mod_lt x h.1
  have hrow := Nat.mod_lt y h.2
  have hxsum := Nat.div_add_mod' x descriptor.block.width
  have hysum := Nat.div_add_mod' y descriptor.block.height
  simp only [validSize]
  omega

/-- The side of a block divides the place of a pixel in the raster into block and place in it. -/
theorem add_mod (i : Nat) {place side : Nat} (h : place < side) : (i * side + place) % side = place := by
  rw [Nat.mul_comm, Nat.mul_add_mod, Nat.mod_eq_of_lt h]

theorem blockOf_add (key : BlockRef) {column row : Nat} (hcolumn : column < descriptor.block.width)
    (hrow : row < descriptor.block.height) :
    descriptor.blockOf key.band (key.x * descriptor.block.width + column)
      (key.y * descriptor.block.height + row) = key := by
  have hdiv (i : Nat) {place side : Nat} (h : place < side) : (i * side + place) / side = i := by
    rw [Nat.mul_comm, Nat.mul_add_div (by omega), Nat.div_eq_of_lt h, Nat.add_zero]
  rw [blockOf, hdiv key.x hcolumn, hdiv key.y hrow]

/-- A pixel of the raster is read from its block. -/
theorem convertPixel_offsetOf (descriptor : BandDescriptor) (target : PixelType) (data : ByteArray)
    (x y : Nat) :
    convertPixel descriptor.type target data (descriptor.offsetOf x y) =
      convertPixel descriptor.type target (descriptor.pixel data (x % descriptor.block.width)
        (y % descriptor.block.height)) 0 :=
  (convertPixel_slice _ _ _ _).symm

end BandDescriptor

namespace PixelModel

variable {κ : Type} [Codec κ] {P : PixelModel κ} {store before after : BlockStore κ}
variable {key : BlockRef} {band x y : Nat}

variable (P) in
/-- The pixel in a column and row of a band. -/
def pixelAt (store : BlockStore κ) (band x y : Nat) : ByteArray :=
  let descriptor := store.descriptor band
  let key := descriptor.blockOf band x y
  P.pixel (store.context key) (P.logical store key)
    (x % descriptor.block.width) (y % descriptor.block.height)

variable (P) in
/-- The codec may be asked for all blocks of a band. -/
structure Serving (store : BlockStore κ) (band : Nat) : Prop where
  blocked : (store.descriptor band).Blocked
  serves : ∀ x y, x * (store.descriptor band).block.width < store.raster.width →
    y * (store.descriptor band).block.height < store.raster.height →
    P.Serves (store.context ⟨band, x, y⟩)

theorem Serving.of_sameBands (h : P.Serving before band) (hbands : before.SameBands after) :
    P.Serving after band := by
  constructor
  · rw [hbands.descriptor]
    exact h.blocked
  · intro x y hx hy
    rw [hbands.descriptor, hbands.raster] at hx hy
    rw [hbands.context]
    exact h.serves x y hx hy

/-- The codec may be asked for the block of any pixel. -/
theorem Serving.serves_blockOf (h : P.Serving store band) (hx : x < store.raster.width)
    (hy : y < store.raster.height) :
    P.Serves (store.context ((store.descriptor band).blockOf band x y)) := by
  apply h.serves
  · exact Nat.lt_of_le_of_lt (Nat.div_mul_le_self _ _) hx
  · exact Nat.lt_of_le_of_lt (Nat.div_mul_le_self _ _) hy

/-- What changes no content changes no pixel. -/
theorem pixelAt_of_keeps (h : P.Keeps before after) (hserving : P.Serving before band)
    (hx : x < before.raster.width) (hy : y < before.raster.height) :
    P.pixelAt after band x y = P.pixelAt before band x y := by
  simp only [pixelAt, h.bands.descriptor, h.bands.context]
  rw [h.logical _ (hserving.serves_blockOf hx hy)]

/-- The pixel of a content that some bytes have. -/
theorem pixel_of_view {data : ByteArray} (hserving : P.Serving store band)
    (hfits : P.Fits (store.context ((store.descriptor band).blockOf band x y)) data)
    (hx : x < store.raster.width) (hy : y < store.raster.height) :
    P.pixel (store.context ((store.descriptor band).blockOf band x y))
      (P.view (store.context ((store.descriptor band).blockOf band x y)) data)
      (x % (store.descriptor band).block.width) (y % (store.descriptor band).block.height) =
    (store.descriptor band).pixel data (x % (store.descriptor band).block.width)
      (y % (store.descriptor band).block.height) := by
  have hvalid := BandDescriptor.mod_lt_validSize hserving.blocked hx hy
  exact P.pixel_view hfits hvalid.1 hvalid.2

/-- A block that was fetched for reading has the pixels of the raster. -/
theorem pixel_of_fetched {data : ByteArray} (hserving : P.Serving store band)
    (h : P.Fetched store ((store.descriptor band).blockOf band x y) .read data after)
    (hx : x < store.raster.width) (hy : y < store.raster.height) :
    (store.descriptor band).pixel data (x % (store.descriptor band).block.width)
      (y % (store.descriptor band).block.height) = P.pixelAt store band x y := by
  have hview := h.view
  rw [CodecModel.fetchedView, if_neg (fun hboth => by cases hboth.1)] at hview
  rw [← pixel_of_view hserving h.fits hx hy, hview]
  rfl

/-- The pixels of a block that was fetched for reading are whole. -/
theorem size_pixelAt_of_fetched {data : ByteArray} (hserving : P.Serving store band)
    (h : P.Fetched store ((store.descriptor band).blockOf band x y) .read data after)
    (hx : x < store.raster.width) (hy : y < store.raster.height) :
    (P.pixelAt store band x y).size = (store.descriptor band).type.bytes := by
  have hdata := P.size_of_fits h.fits
  rw [← pixel_of_fetched hserving h hx hy]
  apply size_slice_of_le
  rw [hdata]
  exact BandDescriptor.pixel_inside (Nat.mod_lt _ hserving.blocked.1)
    (Nat.mod_lt _ hserving.blocked.2)

/-- A change of a block changes the pixels in it, and no other ones. -/
theorem pixelAt_of_changed {use : BlockUse} {data changed : ByteArray}
    (hserving : P.Serving store band) (h : P.Changed store key use data changed after)
    (hfits : P.Fits (store.context key) changed) (hx : x < store.raster.width)
    (hy : y < store.raster.height) :
    P.pixelAt after band x y =
      if (store.descriptor band).blockOf band x y = key then
        (store.descriptor band).pixel changed (x % (store.descriptor band).block.width)
          (y % (store.descriptor band).block.height)
      else P.pixelAt store band x y := by
  simp only [pixelAt, h.bands.descriptor, h.bands.context]
  -- a pixel of the block is read from the new bytes, and no other one has changed
  split
  · next heq =>
    subst heq
    rw [h.logical]
    exact pixel_of_view hserving hfits hx hy
  · next hne => rw [h.others _ hne (hserving.serves_blockOf hx hy)]

end PixelModel

end RasterStore
