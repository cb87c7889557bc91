import RasterStore.Proofs.Memory.PlainRaster
import RasterStore.Proofs.Tiled.Opened
import RasterStore.Proofs.Transfer.Invariants
import Mathlib.Algebra.BigOperators.Group.Finset.Basic

/-!
# Codecs that store rasters

Planes in memory and tiled files both keep the pixels of a raster; bytes of blocks beyond its edge
are kept by tiles only. `rasterModel` is what they have in common: the pixels inside the raster.
Storing a block fails only if the file could not hold the tiles of all blocks, and how long it
would be with all of them never changes (`TiledCodec.fullLength`).

A new no-data value shows in the blocks that are not stored yet. The others keep their pixels
(`FormatCodec.ends_setNoData`).
-/

namespace RasterStore

open BlockStore Tiled RasterStore.Action

variable {raster : Size} {bands : List BandDescriptor} {context : BlockContext} {key : BlockRef}
variable {band : Nat}

/-! ## The length of a file with all of its tiles -/

/-- The blocks of all bands. -/
def Tiled.gridBlocks (raster : Size) (bands : List BandDescriptor) : Finset BlockRef :=
  (Finset.range bands.length).biUnion fun i =>
    let grid := (bandAt bands i).grid raster
    (Finset.range grid.width ×ˢ Finset.range grid.height).image fun cell =>
      ⟨i + 1, cell.1, cell.2⟩

/-- The blocks of a raster are those of the grids of its bands. -/
theorem Tiled.mem_gridBlocks : key ∈ gridBlocks raster bands ↔ InGrid raster bands key := by
  simp only [gridBlocks, Finset.mem_biUnion, Finset.mem_image, Finset.mem_product, Finset.mem_range]
  constructor
  · rintro ⟨i, hi, ⟨x, y⟩, ⟨hx, hy⟩, rfl⟩
    exact ⟨Nat.succ_pos i, hi, hx, hy⟩
  · intro h
    have hband : key.band - 1 + 1 = key.band := Nat.sub_add_cancel h.band_pos
    refine ⟨key.band - 1, h.lt, (key.x, key.y), ⟨h.x_lt, h.y_lt⟩, ?_⟩
    rw [hband]

namespace TiledCodec

variable {tiled before after : TiledCodec} {data : ByteArray}

/-- The length of the file once all blocks have tiles. -/
def fullLength (raster : Size) (bands : List BandDescriptor) (tiled : TiledCodec) : Nat :=
  tiled.storage.length + ∑ key ∈ gridBlocks raster bands, tiled.growth bands key

/-- There is room for any one block if there is room for all of them. -/
theorem length_add_growth_le (tiled : TiledCodec) (hgrid : InGrid raster bands key) :
    tiled.storage.length + tiled.growth bands key ≤ tiled.fullLength raster bands := by
  have hsum := Finset.add_sum_erase (gridBlocks raster bands) (tiled.growth bands)
    (mem_gridBlocks.mpr hgrid)
  rw [fullLength, ← hsum]
  omega

/-- Storing a block does not change how long the file is with all of its tiles. -/
theorem Encoded.fullLength (h : Encoded raster bands before key data after)
    (hgrid : InGrid raster bands key) :
    after.fullLength raster bands = before.fullLength raster bands := by
  have hbefore := Finset.add_sum_erase (gridBlocks raster bands) (before.growth bands)
    (mem_gridBlocks.mpr hgrid)
  have hafter := Finset.add_sum_erase (gridBlocks raster bands) (after.growth bands)
    (mem_gridBlocks.mpr hgrid)
  have hown : after.growth bands key = 0 := if_pos ((h.isWritten key hgrid).mpr (.inl rfl))
  -- what is missing of the other blocks is still missing
  have hothers : ∑ other ∈ (gridBlocks raster bands).erase key, after.growth bands other =
      ∑ other ∈ (gridBlocks raster bands).erase key, before.growth bands other := by
    apply Finset.sum_congr rfl
    intro other hmem
    obtain ⟨hne, hmem⟩ := Finset.mem_erase.mp hmem
    simp only [growth, h.isWritten other (mem_gridBlocks.mp hmem), or_iff_right hne]
  rw [TiledCodec.fullLength, TiledCodec.fullLength, h.length]
  omega

end TiledCodec

/-! ## Codecs of rasters -/

/-- What a codec of a raster is told of its blocks is enough for the planes. -/
theorem ServedBy.shaped (h : ServedBy raster bands context) :
    MemoryCodec.Shaped raster bands context := by
  obtain ⟨hgrid, hcontext⟩ := h
  have hget := getElem?_of_isBand ⟨hgrid.band_pos, hgrid.band_le⟩
  rw [hcontext]
  exact ⟨⟨rfl, hgrid.left_lt, hgrid.top_lt⟩, hgrid.band_pos, _, hget, rfl, rfl⟩

namespace FormatCodec

/-- The codec keeps a raster with these bands, in memory or in a tiled file. -/
inductive Stores (raster : Size) (bands : List BandDescriptor) : FormatCodec → Prop
  | memory {planes : MemoryCodec} (h : planes.HasPlanes raster bands) : Stores raster bands (.inl planes)
  | tiled {tiled : TiledCodec} (h : tiled.Intact raster bands) :
      Stores raster bands (.inr (.inl tiled))

/-- The length of the file once all blocks have tiles. Planes have no file. -/
def fullLength (raster : Size) (bands : List BandDescriptor) : FormatCodec → Nat
  | .inr (.inl tiled) => tiled.fullLength raster bands
  | .inl _ | .inr (.inr _) => 0

/-- The codec has stored the block. Planes have all blocks from the start. -/
def HasBlock (codec : FormatCodec) (key : BlockRef) : Prop :=
  match codec with
  | .inl _ => True
  | .inr (.inl tiled) => (tiled.entryOf key).isWritten = true
  | .inr (.inr _) => False

/-- The pixels that the codec has for the part of a block inside the raster. -/
def pixels (codec : FormatCodec) (context : BlockContext) : Nat → Nat → ByteArray :=
  match codec with
  | .inl planes => planes.stored context
  | .inr (.inl tiled) =>
    MemoryCodec.clipped context (context.descriptor.pixel (tiled.tile context))
  | .inr (.inr _) => fun _ _ => ByteArray.empty

variable {codec : FormatCodec}

/-- A block that is not stored reads as padding. -/
theorem Stores.pixels_of_not_hasBlock (h : codec.Stores raster bands) (context : BlockContext)
    (hnot : ¬codec.HasBlock context.block) :
    codec.pixels context =
      MemoryCodec.clipped context (context.descriptor.pixel context.descriptor.padding) := by
  cases h with
  | memory => exact absurd trivial hnot
  | tiled =>
    rw [pixels, TiledCodec.tile]
    split
    · next hwritten => exact absurd hwritten hnot
    · rfl

/-- Every block can be read. -/
theorem ends_decode_pixels (h : codec.Stores raster bands) (hserved : ServedBy raster bands context) :
    (Codec.decode context).Ends codec
      (fun decoded reached => reached = codec ∧
        decoded.bytes.size = context.descriptor.blockBytes ∧
        MemoryCodec.clipped context (context.descriptor.pixel decoded.bytes) =
          codec.pixels context)
      (fun _ _ => False) := by
  cases h with
  | memory h =>
    apply Choice.ends_inl
    apply (MemoryCodec.ends_decode h hserved.shaped).imp
    rintro decoded _ ⟨rfl, hsize, hpixels⟩
    exact ⟨rfl, hsize, hpixels⟩
  | tiled h =>
    apply Choice.ends_inr (Choice.ends_inl _)
    apply (TiledCodec.ends_decode h hserved).imp
    rintro decoded _ ⟨rfl, hbytes⟩
    rw [hbytes]
    refine ⟨rfl, TiledCodec.size_tile h.image ?_, rfl⟩
    rw [hserved.2]
    rfl

/-- Storing a block changes its pixels and those of no other block. It fails only if a file could
    not hold all blocks. -/
theorem ends_encode_pixels {data : ByteArray} (h : codec.Stores raster bands)
    (hserved : ServedBy raster bands context) (hsize : data.size = context.descriptor.blockBytes) :
    (Codec.encode context data).Ends codec
      (fun _ reached => (reached.Stores raster bands ∧
          reached.fullLength raster bands = codec.fullLength raster bands) ∧
        ∀ other, ServedBy raster bands other →
          (reached.pixels other = if other.block = context.block then
              MemoryCodec.clipped other (other.descriptor.pixel data)
            else codec.pixels other) ∧
          (reached.HasBlock other.block ↔ other.block = context.block ∨ codec.HasBlock other.block))
      (fun _ reached => reached = codec ∧ offsetLimit ≤ codec.fullLength raster bands) := by
  -- planes take every block, a file of tiles takes one as long as there is room
  cases h with
  | memory h =>
    apply Choice.ends_inl
    apply (MemoryCodec.ends_encode h hserved.shaped hsize).mono _ fun _ _ hnever => hnever.elim
    rintro _ reached ⟨hreached, hstored⟩
    refine ⟨⟨.memory hreached, rfl⟩, fun other hother => ⟨hstored other hother.shaped, ?_⟩⟩
    exact iff_of_true trivial (.inr trivial)
  | tiled h =>
    apply Choice.ends_inr (Choice.ends_inl _)
    apply (TiledCodec.ends_encode h hserved hsize).mono
    · intro _ reached hreached
      refine ⟨⟨.tiled hreached.intact, hreached.fullLength hserved.1⟩, fun other hother => ⟨?_, ?_⟩⟩
      · show MemoryCodec.clipped other (other.descriptor.pixel (reached.tile other)) = _
        rw [hreached.tile other hother]
        split
        · rfl
        · rfl
      · exact hreached.isWritten other.block hother.1
    · -- a full file is left as it was
      rintro _ _ ⟨rfl, hfull⟩
      exact ⟨rfl, Nat.le_trans hfull (TiledCodec.length_add_growth_le _ hserved.1)⟩

end FormatCodec

/-- A codec of a raster keeps the pixels inside it. If a file of `total` bytes is not too long,
    where `total` is what it has with all of its tiles, nothing fails. -/
def rasterModel (total : Nat) (raster : Size) (bands : List BandDescriptor) :
    PixelModel FormatCodec where
  View := Nat → Nat → ByteArray
  view context data := MemoryCodec.clipped context (context.descriptor.pixel data)
  content := FormatCodec.pixels
  Given codec context := codec.HasBlock context.block
  Holds codec := codec.Stores raster bands ∧ codec.fullLength raster bands = total
  Serves := ServedBy raster bands
  Fits context data := data.size = context.descriptor.blockBytes
  MayFail := offsetLimit ≤ total
  fits_of_size hsize := hsize
  ends_decode := by
    intro codec context hholds hserved
    apply (FormatCodec.ends_decode_pixels hholds.1 hserved).mono _ fun _ _ hnever => hnever.elim
    rintro decoded _ ⟨rfl, hsize, hpixels⟩
    rw [if_pos hsize]
    exact ⟨⟨hholds, rfl, rfl⟩, hpixels⟩
  ends_encode := by
    rintro codec context data ⟨hstores, rfl⟩ hserved hsize
    apply (FormatCodec.ends_encode_pixels hstores hserved hsize).mono
    · exact fun _ _ hreached => hreached
    · rintro _ _ ⟨rfl, hfull⟩
      exact ⟨⟨⟨hstores, rfl⟩, fun _ _ => ⟨rfl, Iff.rfl⟩⟩, hfull⟩
  pixel _ pixels := pixels
  pixel_view := (MemoryCodec.planeModel raster bands).pixel_view
  size_of_fits hsize := hsize

/-- The pixel of a raster, in its block. -/
theorem rasterModel_pixelAt {total : Nat} {store : BlockStore FormatCodec}
    {descriptor : BandDescriptor} (hblock : (store.descriptor band).block = descriptor.block)
    (x y : Nat) :
    (rasterModel total raster bands).pixelAt store band x y =
      (rasterModel total raster bands).logical store (descriptor.blockOf band x y)
        (x % descriptor.block.width) (y % descriptor.block.height) := by
  rw [PixelModel.pixelAt, BandDescriptor.blockOf, BandDescriptor.blockOf, hblock]
  rfl

/-! ## Another no-data value -/

/-- What a codec is told of a block differs in the no-data value only. -/
theorem contextOf_withNoData (raster : Size) {i : Nat} (hi : i < bands.length)
    (value : Option Binary64) (key : BlockRef) :
    ∃ noData, contextOf raster (withNoData bands i value) key =
      MemoryCodec.withNoData (contextOf raster bands key) noData := by
  rw [contextOf, bandAt_withNoData hi]
  split
  · next hband =>
    refine ⟨value, ?_⟩
    rw [contextOf, hband]
    rfl
  · exact ⟨_, rfl⟩

/-- The planes do not depend on the no-data values. -/
theorem MemoryCodec.HasPlanes.withNoData {planes : MemoryCodec} (h : planes.HasPlanes raster bands)
    (i : Nat) (value : Option Binary64) :
    planes.HasPlanes raster (Tiled.withNoData bands i value) := by
  refine ⟨h.sameRaster, ?_, fun k band hget => ?_⟩
  · rw [length_withNoData]
    exact h.count
  · rw [Tiled.withNoData, List.getElem?_modify, Option.map_eq_map, Option.map_eq_some_iff] at hget
    obtain ⟨old, hold, rfl⟩ := hget
    -- the size of a plane does not depend on the no-data value
    rw [h.size k old hold]
    split
    · rfl
    · rfl

/-- The grids are those of the bands as they were. -/
theorem Tiled.gridBlocks_withNoData (i : Nat) (value : Option Binary64) :
    gridBlocks raster (withNoData bands i value) = gridBlocks raster bands := by
  have hshapes : SameShapes bands (withNoData bands i value) :=
    .bandsAfter (.setNoData (i + 1) value) bands
  ext key
  rw [mem_gridBlocks, mem_gridBlocks]
  exact ⟨fun h => h.of_sameShapes hshapes.symm, fun h => h.of_sameShapes hshapes⟩

/-- A file that has all its tiles is as long with another no-data value. -/
theorem TiledCodec.fullLength_withNoData {before after : TiledCodec} {i : Nat}
    {value : Option Binary64} (hlength : after.storage.length = before.storage.length)
    (hentries : ∀ key, after.entryOf key = before.entryOf key) :
    after.fullLength raster (withNoData bands i value) = before.fullLength raster bands := by
  have hshapes : SameShapes bands (withNoData bands i value) :=
    .bandsAfter (.setNoData (i + 1) value) bands
  rw [fullLength, fullLength, hlength, gridBlocks_withNoData]
  congr 1
  apply Finset.sum_congr rfl
  -- block by block, the file has to grow by as much as before
  intro key _
  have hbytes : (bandAt (withNoData bands i value) (key.band - 1)).blockBytes = _ :=
    hshapes.blockBytes key.band
  rw [growth, growth, hentries, hbytes]
  rfl

namespace FormatCodec

/-- The codec recorded a no-data value, after which the bands are `bands'`. It has stored the same
    blocks as before, with the same pixels. -/
structure Recorded (raster : Size) (bands bands' : List BandDescriptor)
    (before after : FormatCodec) : Prop where
  stores : after.Stores raster bands'
  fullLength : after.fullLength raster bands' = before.fullLength raster bands
  hasBlock : ∀ key, after.HasBlock key ↔ before.HasBlock key
  pixels : ∀ key, InGrid raster bands key → before.HasBlock key →
    after.pixels (contextOf raster bands' key) = before.pixels (contextOf raster bands key)

/-- Recording a no-data value does not fail, and stored blocks keep their pixels. -/
theorem ends_setNoData {codec : FormatCodec} {band : Nat} (h : codec.Stores raster bands)
    (hband : IsBand bands band) (value : Option Binary64) :
    (Codec.setNoData band value).Ends codec
      (fun _ reached =>
        Recorded raster bands (withNoData bands (band - 1) value) codec reached)
      (fun _ _ => False) := by
  obtain ⟨hpos, hle⟩ := hband
  have hi : band - 1 < bands.length := by omega
  cases h with
  | memory h =>
    -- planes do not know of no-data values
    refine Choice.ends_inl (ends_pure.mpr ⟨.memory (h.withNoData _ value), rfl, fun _ => Iff.rfl,
      fun key _ _ => ?_⟩)
    obtain ⟨noData, hcontext⟩ := contextOf_withNoData raster hi value key
    rw [hcontext]
    rfl
  | @tiled tiled h =>
    apply Choice.ends_inr (Choice.ends_inl _)
    apply (TiledCodec.ends_writeNoData h hpos hle value).imp
    rintro _ after ⟨-, hlength, htables, hafter, htile⟩
    have hentries := TiledCodec.entryOf_congr htables
    refine ⟨.tiled hafter, TiledCodec.fullLength_withNoData hlength hentries, fun key => ?_,
      fun key hgrid hwritten => ?_⟩
    · rw [HasBlock, HasBlock, hentries]
    · obtain ⟨noData, hcontext⟩ := contextOf_withNoData raster hi value key
      have hbytes := htile (contextOf raster (withNoData bands (band - 1) value) key) hgrid
      -- the tile is where it was, so it is read with the same pixels
      have htile : tiled.tile (MemoryCodec.withNoData (contextOf raster bands key) noData) =
          tiled.tile (contextOf raster bands key) :=
        (if_pos hwritten).trans (if_pos hwritten).symm
      rw [hcontext] at hbytes ⊢
      rw [pixels, pixels, hbytes, htile]
      rfl

end FormatCodec

/-! ## The blocks of a band with another no-data value -/

/-- Between the two stores, the codec recorded a no-data value for a band. The blocks of the band
    are still in the cache. -/
structure NoDataChanged (raster : Size) (bands : List BandDescriptor) (band : Nat)
    (value : Option Binary64) (before after : BlockStore FormatCodec) : Prop where
  isBand : IsBand bands band
  cache : after.cache = before.cache
  context : ∀ key, before.context key = contextOf raster bands key
  newContext : ∀ key, after.context key = contextOf raster (withNoData bands (band - 1) value) key
  codec : FormatCodec.Recorded raster bands (withNoData bands (band - 1) value) before.codec
    after.codec

namespace NoDataChanged

variable {total : Nat} {value : Option Binary64} {before after : BlockStore FormatCodec}
variable {key : BlockRef} {block : Block}

/-- The band is one of the list, counted from zero. -/
theorem lt (h : NoDataChanged raster bands band value before after) : band - 1 < bands.length := by
  have := h.isBand.1
  have := h.isBand.2
  omega

/-- Another no-data value leaves all blocks as large as they were. -/
theorem sameShapes : SameShapes bands (withNoData bands (band - 1) value) :=
  .bandsAfter (.setNoData band value) bands

/-- The pixels of some bytes do not depend on the no-data value. -/
theorem clipped_eq (h : NoDataChanged raster bands band value before after) (key : BlockRef)
    (data : ByteArray) :
    MemoryCodec.clipped (after.context key) ((after.context key).descriptor.pixel data) =
      MemoryCodec.clipped (before.context key) ((before.context key).descriptor.pixel data) := by
  obtain ⟨noData, hcontext⟩ := contextOf_withNoData raster h.lt value key
  rw [h.newContext, h.context, hcontext]
  rfl

/-- Blocks of other bands are what they were. -/
theorem context_of_ne (h : NoDataChanged raster bands band value before after)
    (hpos : 0 < key.band) (hne : key.band ≠ band) : after.context key = before.context key := by
  have hother : ¬key.band - 1 = band - 1 := by
    have := h.isBand.1
    omega
  rw [h.newContext, h.context, contextOf, bandAt_withNoData h.lt, if_neg hother, contextOf]

/-- The codec has the same pixels for a stored block. -/
theorem pixels_of_hasBlock (h : NoDataChanged raster bands band value before after)
    (hgrid : InGrid raster bands key) (hblock : before.codec.HasBlock key) :
    after.codec.pixels (after.context key) = before.codec.pixels (before.context key) := by
  rw [h.newContext, h.context]
  exact h.codec.pixels key hgrid hblock

/-- Any other block has the new padding. -/
theorem pixels_of_not_hasBlock (h : NoDataChanged raster bands band value before after)
    (hnot : ¬before.codec.HasBlock key) :
    after.codec.pixels (after.context key) = MemoryCodec.clipped (after.context key)
      ((after.context key).descriptor.pixel (after.context key).descriptor.padding) := by
  apply h.codec.stores.pixels_of_not_hasBlock (after.context key)
  rw [context_block, h.codec.hasBlock]
  exact hnot

/-- The codec has the same pixels for the blocks of other bands. -/
theorem pixels_of_ne (h : NoDataChanged raster bands band value before after)
    (hstores : before.codec.Stores raster bands) (hgrid : InGrid raster bands key)
    (hne : key.band ≠ band) :
    after.codec.pixels (after.context key) = before.codec.pixels (before.context key) := by
  by_cases hblock : before.codec.HasBlock key
  · exact h.pixels_of_hasBlock hgrid hblock
  · rw [h.pixels_of_not_hasBlock hblock, h.context_of_ne hgrid.band_pos hne]
    exact (hstores.pixels_of_not_hasBlock (before.context key) hblock).symm

/-- The blocks that count as written are those that did before. -/
theorem written_iff (h : NoDataChanged raster bands band value before after) :
    (rasterModel total raster (withNoData bands (band - 1) value)).Written after key ↔
      (rasterModel total raster bands).Written before key := by
  rw [CodecModel.Written, CodecModel.Written, h.cache]
  exact or_congr_right (h.codec.hasBlock key)

/-- The bytes in the cache fit the bands as they are now. -/
theorem tidy (h : NoDataChanged raster bands band value before after)
    (hsound : (rasterModel total raster bands).Sound before) :
    (rasterModel total raster (withNoData bands (band - 1) value)).Tidy after := by
  have hgrid {key : BlockRef} {block : Block} (hfind : before.cache.find? key = some block) :
      InGrid raster bands key :=
    (hsound.served hfind).1
  -- a new no-data value changes neither which blocks are served nor how long they are
  constructor
  · exact ⟨h.codec.stores, h.codec.fullLength.trans hsound.holds.2⟩
  · rw [h.cache]
    exact hsound.distinct
  · -- the keys are those of before, and in the same grid
    intro key block hfind
    rw [h.cache] at hfind
    rw [h.newContext]
    exact ⟨(hgrid hfind).of_sameShapes sameShapes, rfl⟩
  · intro key block hfind
    rw [h.cache] at hfind
    have hfits : block.data.size = (before.context key).descriptor.blockBytes := hsound.fits hfind
    rw [h.context] at hfits
    rw [h.newContext]
    exact hfits.trans (sameShapes.blockBytes key.band).symm

/-- Clean blocks of other bands are what the codec has stored. -/
theorem clean_of_ne (h : NoDataChanged raster bands band value before after)
    (hsound : (rasterModel total raster bands).Sound before)
    (hfind : after.cache.find? key = some block) (hclean : block.dirty = false)
    (hne : key.band ≠ band) :
    MemoryCodec.clipped (after.context key) ((after.context key).descriptor.pixel block.data) =
      after.codec.pixels (after.context key) := by
  rw [h.cache] at hfind
  have hgrid : InGrid raster bands key := (hsound.served hfind).1
  rw [h.clipped_eq, h.pixels_of_ne hsound.holds.1 hgrid hne]
  exact hsound.clean hfind hclean

/-- Blocks of other bands have the pixels that they had. -/
theorem logical_of_ne (h : NoDataChanged raster bands band value before after)
    (hstores : before.codec.Stores raster bands) (hgrid : InGrid raster bands key)
    (hne : key.band ≠ band) :
    (rasterModel total raster (withNoData bands (band - 1) value)).logical after key =
      (rasterModel total raster bands).logical before key := by
  rw [CodecModel.logical, CodecModel.logical, h.cache]
  cases before.cache.find? key with
  | none => exact h.pixels_of_ne hstores hgrid hne
  | some block => exact h.clipped_eq key block.data

/-- Once it is written back, a written block of the band still has its pixels. -/
theorem settled_of_written (h : NoDataChanged raster bands band value before after)
    (hsound : (rasterModel total raster bands).Sound before) (hgrid : InGrid raster bands key)
    (hwritten : (rasterModel total raster bands).Written before key) :
    (rasterModel total raster (withNoData bands (band - 1) value)).settled after key =
      (rasterModel total raster bands).logical before key := by
  rw [CodecModel.settled, CodecModel.logical, h.cache]
  -- by where the block is: with the codec, dirty in the cache, clean in the cache
  cases hfind : before.cache.find? key with
  | none =>
    -- a block that is not in the cache was written to the codec
    have hblock : before.codec.HasBlock key := by
      rcases hwritten with ⟨block, hheld, -⟩ | hblock
      · rw [hfind] at hheld
        contradiction
      · exact hblock
    exact h.pixels_of_hasBlock hgrid hblock
  | some block =>
    dsimp only
    split
    · exact h.clipped_eq key block.data
    · -- a clean block is the one that the codec holds
      next hclean =>
      have hblock : before.codec.HasBlock key := by
        rcases hwritten with ⟨held, hheld, hdirty⟩ | hblock
        · rw [hfind] at hheld
          cases hheld
          exact absurd hdirty hclean
        · exact hblock
      exact (h.pixels_of_hasBlock hgrid hblock).trans
        (hsound.clean hfind (Bool.eq_false_iff.mpr hclean)).symm

/-- A block of the band that was not written has the new padding once the cache has dropped it. -/
theorem settled_of_not_written (h : NoDataChanged raster bands band value before after)
    (hnot : ¬(rasterModel total raster bands).Written before key) :
    (rasterModel total raster (withNoData bands (band - 1) value)).settled after key =
      MemoryCodec.clipped (after.context key)
        ((after.context key).descriptor.pixel (after.context key).descriptor.padding) := by
  have hpadding := h.pixels_of_not_hasBlock fun hblock => hnot (.inr hblock)
  rw [CodecModel.settled, h.cache]
  cases hfind : before.cache.find? key with
  | none => exact hpadding
  | some block =>
    -- a dirty block would count as written
    have hclean : ¬block.dirty = true := fun hdirty => hnot (.inl ⟨block, hfind, hdirty⟩)
    exact (if_neg hclean).trans hpadding

/-- The codec serves all blocks with the new no-data value. -/
theorem serves (h : NoDataChanged raster bands band value before after)
    (hgrid : InGrid raster bands key) :
    ServedBy raster (withNoData bands (band - 1) value) (after.context key) := by
  rw [h.newContext]
  exact ⟨hgrid.of_sameShapes sameShapes, rfl⟩

variable {dropped : BlockStore FormatCodec}

/-- When the cache has dropped the blocks of the band, those that were never written are padding. -/
theorem logical_of_not_written (h : NoDataChanged raster bands band value before after)
    (hdropped : (rasterModel total raster (withNoData bands (band - 1) value)).Dropped after band
      dropped)
    (hgrid : InGrid raster bands key) (hband : key.band = band)
    (hnot : ¬(rasterModel total raster bands).Written before key) :
    (rasterModel total raster (withNoData bands (band - 1) value)).logical dropped key =
      MemoryCodec.clipped (after.context key)
        ((after.context key).descriptor.pixel (after.context key).descriptor.padding) := by
  rw [hdropped.logical key (h.serves hgrid), if_pos hband]
  exact h.settled_of_not_written hnot

/-- All other blocks have the pixels that they had. -/
theorem logical_of_written (h : NoDataChanged raster bands band value before after)
    (hsound : (rasterModel total raster bands).Sound before)
    (hdropped : (rasterModel total raster (withNoData bands (band - 1) value)).Dropped after band
      dropped)
    (hgrid : InGrid raster bands key)
    (hwritten : key.band = band → (rasterModel total raster bands).Written before key) :
    (rasterModel total raster (withNoData bands (band - 1) value)).logical dropped key =
      (rasterModel total raster bands).logical before key := by
  rw [hdropped.logical key (h.serves hgrid)]
  by_cases hband : key.band = band
  · rw [if_pos hband]
    exact h.settled_of_written hsound hgrid (hwritten hband)
  · rw [if_neg hband]
    exact h.logical_of_ne hsound.holds.1 hgrid hband

/-- Also without the blocks in the cache, those that count as written did before. -/
theorem written_dropped_iff (h : NoDataChanged raster bands band value before after)
    (hdropped : (rasterModel total raster (withNoData bands (band - 1) value)).Dropped after band
      dropped)
    (hgrid : InGrid raster bands key) :
    (rasterModel total raster (withNoData bands (band - 1) value)).Written dropped key ↔
      (rasterModel total raster bands).Written before key :=
  (hdropped.written key (h.serves hgrid)).trans h.written_iff

end NoDataChanged

end RasterStore
