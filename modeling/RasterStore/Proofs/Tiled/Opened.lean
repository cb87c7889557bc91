import RasterStore.Driver
import RasterStore.Proofs.Calls
import RasterStore.Proofs.Tiled.Encode

/-!
# Open tiled files

A dataset over a tiled file that is open for update. `tiledModel` says what its codec keeps: all
bytes of all blocks, as tiles or, where there is none, as padding. `Opened` is the invariant of
such a dataset, and `Opened.ends_perform` says that every call keeps it: the blocks that have a
tile, or will get one, are those that some call wrote to.
-/

namespace RasterStore

open BlockStore Tiled RasterStore.Action

namespace Choice

variable {κ τ α : Type} {onLeft : Action κ α} {onRight : Action τ α}
variable {good : α → κ ⊕ τ → Prop} {bad : RasterError → κ ⊕ τ → Prop}

/-- What a step on the left codec ends in, it ends in where the choice is the left one. -/
theorem ends_inl {codec : κ}
    (h : onLeft.Ends codec (fun value reached => good value (.inl reached))
      (fun error reached => bad error (.inl reached))) :
    (either onLeft onRight).Ends (.inl codec) good bad :=
  h.of_part Sum.inl rfl

/-- What a step on the right codec ends in, it ends in where the choice is the right one. -/
theorem ends_inr {codec : τ}
    (h : onRight.Ends codec (fun value reached => good value (.inr reached))
      (fun error reached => bad error (.inr reached))) :
    (either onLeft onRight).Ends (.inr codec) good bad :=
  h.of_part Sum.inr rfl

end Choice

/-! ## The model -/

namespace FormatCodec

/-- The bytes that a tiled codec has for a block. -/
def tile : FormatCodec → BlockContext → ByteArray
  | .inr (.inl codec), context => codec.tile context
  | _, _ => ByteArray.empty

/-- A tiled codec has a tile for the block. -/
def HasTile : FormatCodec → BlockContext → Prop
  | .inr (.inl codec), context => (codec.entryOf context.block).isWritten = true
  | _, _ => False

/-- The codec is that of an intact tiled file. -/
def IsTiled (held : String) (raster : Size) (bands : List BandDescriptor) (codec : FormatCodec) :
    Prop :=
  ∃ tiled : TiledCodec, codec = .inr (.inl tiled) ∧ tiled.storage.medium = .file held ∧
    tiled.Intact raster bands

/-- The tiled codec that is inside is the intact one. -/
theorem IsTiled.of_codec {held : String} {raster : Size} {bands : List BandDescriptor}
    {codec : FormatCodec} {tiled : TiledCodec} (h : codec.IsTiled held raster bands)
    (hcodec : codec = .inr (.inl tiled)) :
    tiled.storage.medium = .file held ∧ tiled.Intact raster bands := by
  obtain ⟨tiled', hcodec', hmedium, hintact⟩ := h
  obtain rfl : tiled = tiled' := Sum.inl.inj (Sum.inr.inj (hcodec.symm.trans hcodec'))
  exact ⟨hmedium, hintact⟩

end FormatCodec

/-- The block is in the grid, and this is what the codec is told of it. -/
def ServedBy (raster : Size) (bands : List BandDescriptor) (context : BlockContext) : Prop :=
  InGrid raster bands context.block ∧ context = contextOf raster bands context.block

/-- Bands with other no-data values have the same grids. -/
theorem Tiled.InGrid.of_sameShapes {raster : Size} {bands bands' : List BandDescriptor}
    {key : BlockRef} (h : InGrid raster bands key) (hshapes : SameShapes bands bands') :
    InGrid raster bands' key := by
  have hgrid : (bandAt bands' (key.band - 1)).grid raster = _ := hshapes.grid key.band raster
  refine ⟨h.band_pos, ?_, ?_, ?_⟩
  · rw [hshapes.length]
    exact h.band_le
  · rw [hgrid]
    exact h.x_lt
  · rw [hgrid]
    exact h.y_lt

variable {held : String} {raster : Size} {bands : List BandDescriptor}

namespace TiledCodec

variable {tiled : TiledCodec} {context : BlockContext} {data : ByteArray}

/-- Every block is read as its tile. -/
theorem ends_decode (hintact : tiled.Intact raster bands) (hserved : ServedBy raster bands context) :
    (Codec.decode context).Ends tiled
      (fun decoded reached => reached = tiled ∧ decoded.bytes = tiled.tile context)
      (fun _ _ => False) := by
  have hread : tiled.readBlock context = .ok (tiled.tile context) := by
    refine readBlock_of_image hintact.image hintact.usable.readable ?_
    rw [hserved.2]
    rfl
  exact Ends.get_bind (Ends.lift_bind hread (ends_pure.mpr ⟨rfl, rfl⟩))

/-- The block has a tile with these bytes now, and all others are as before. -/
structure Encoded (raster : Size) (bands : List BandDescriptor) (before : TiledCodec)
    (block : BlockRef) (data : ByteArray) (after : TiledCodec) : Prop where
  medium : after.storage.medium = before.storage.medium
  length : after.storage.length = before.storage.length + before.growth bands block
  intact : after.Intact raster bands
  tile : ∀ other, ServedBy raster bands other →
    after.tile other = if other.block = block then data else before.tile other
  isWritten : ∀ other, InGrid raster bands other → ((after.entryOf other).isWritten = true ↔
    other = block ∨ (before.entryOf other).isWritten = true)

/-- Storing a block fails only if there is no room for its tile, and then nothing changes. -/
theorem ends_encode (hintact : tiled.Intact raster bands) (hserved : ServedBy raster bands context)
    (hsize : data.size = context.descriptor.blockBytes) :
    (Codec.encode context data).Ends tiled
      (fun _ after => Encoded raster bands tiled context.block data after)
      (fun _ after => after = tiled ∧
        offsetLimit ≤ tiled.storage.length + tiled.growth bands context.block) := by
  obtain ⟨hgrid, hcontext⟩ := hserved
  rw [hcontext] at hsize
  apply (ends_writeBlock hintact hgrid hsize).imp
  intro _ after hafter
  obtain ⟨hmedium, hlength, hstage, htile, hwritten⟩ := hafter
  refine ⟨hmedium, hlength, hstage.intact, fun other hother => ?_, fun other hother => ?_⟩
  · -- what a block holds after it, by whether it is the block that was encoded
    obtain ⟨hotherGrid, hotherContext⟩ := hother
    rw [hotherContext]
    split
    · next hblock =>
      -- the same block in the same file has the same context
      have hblock : other.block = context.block := hblock
      rw [hblock]
      exact htile
    · next hblock => exact hstage.others _ hotherGrid hblock
  · -- which blocks have a tile
    by_cases hblock : other = context.block
    · rw [hblock]
      exact iff_of_true hwritten (.inl rfl)
    · rw [hstage.entries _ hother hblock, or_iff_right hblock]

end TiledCodec

/-- Decoding a block of the grid gives the bytes of its tile, and never fails. -/
theorem FormatCodec.ends_decode {codec : FormatCodec} {context : BlockContext}
    (hholds : codec.IsTiled held raster bands) (hserved : ServedBy raster bands context) :
    (Codec.decode context).Ends codec
      (fun decoded reached => reached = codec ∧ decoded.bytes = codec.tile context)
      (fun _ _ => False) := by
  obtain ⟨tiled, rfl, -, hintact⟩ := hholds
  apply Choice.ends_inr (Choice.ends_inl _)
  apply (TiledCodec.ends_decode hintact hserved).imp
  intro decoded reached hdecoded
  obtain ⟨rfl, hbytes⟩ := hdecoded
  exact ⟨rfl, hbytes⟩

/-- Encoding a block gives it a tile of the new bytes and leaves the other tiles as they are; a
    failure changes nothing. -/
private theorem ends_encode {codec : FormatCodec} {context : BlockContext} {data : ByteArray}
    (hholds : codec.IsTiled held raster bands) (hserved : ServedBy raster bands context)
    (hsize : data.size = context.descriptor.blockBytes) :
    (Codec.encode context data).Ends codec
      (fun _ reached => reached.IsTiled held raster bands ∧
        ∀ other, ServedBy raster bands other →
          (reached.tile other = if other.block = context.block then data else codec.tile other) ∧
          (reached.HasTile other ↔ other.block = context.block ∨ codec.HasTile other))
      (fun _ reached => reached = codec) := by
  obtain ⟨tiled, rfl, hmedium, hintact⟩ := hholds
  apply Choice.ends_inr (Choice.ends_inl _)
  apply (TiledCodec.ends_encode hintact hserved hsize).mono
  · intro _ after hafter
    refine ⟨⟨after, rfl, hafter.medium.trans hmedium, hafter.intact⟩, fun other hother => ?_⟩
    exact ⟨hafter.tile other hother, hafter.isWritten other.block hother.1⟩
  · intro _ after hafter
    rw [hafter.1]

/-- A tiled file keeps all bytes of its blocks. Blocks are always read; storing one fails if there
    is no room for it. -/
def tiledModel (held : String) (raster : Size) (bands : List BandDescriptor) :
    PixelModel FormatCodec where
  View := ByteArray
  view _ data := data
  content := FormatCodec.tile
  Given := FormatCodec.HasTile
  Holds := FormatCodec.IsTiled held raster bands
  Serves := ServedBy raster bands
  Fits context data := data.size = context.descriptor.blockBytes
  MayFail := True
  fits_of_size hsize := hsize
  ends_decode := by
    intro codec context hholds hserved
    refine (FormatCodec.ends_decode hholds hserved).mono ?_ fun _ _ hnever => hnever.elim
    intro decoded reached hdecoded
    obtain ⟨rfl, hbytes⟩ := hdecoded
    refine ⟨⟨hholds, rfl, rfl⟩, ?_⟩
    split
    · exact hbytes
    · trivial
  ends_encode := by
    intro codec context data hholds hserved hsize
    refine (ends_encode hholds hserved hsize).mono (fun _ _ h => h) ?_
    intro _ reached hreached
    rw [hreached]
    exact ⟨⟨hholds, fun _ _ => ⟨rfl, Iff.rfl⟩⟩, trivial⟩
  pixel context data column row := context.descriptor.pixel data column row
  pixel_view _ _ _ := rfl
  size_of_fits hsize := hsize

/-! ## Bands and grids -/

section RecordNoData

variable {κ : Type} {store : BlockStore κ}

/-- The recorded no-data value is that of one band of the list. -/
theorem bands_recordNoData (hbands : store.bands = bands.toArray) (codec : κ) (band : Nat)
    (value : Option Binary64) :
    (store.recordNoData codec band value).bands = (withNoData bands (band - 1) value).toArray := by
  rw [recordNoData, hbands, List.modify_toArray]
  rfl

/-- What the codec is told of a block once it has recorded a no-data value. -/
theorem context_recordNoData (hraster : store.raster = raster)
    (hbands : store.bands = bands.toArray) (codec : κ) (band : Nat) (value : Option Binary64)
    (key : BlockRef) :
    (store.recordNoData codec band value).context key =
      contextOf raster (withNoData bands (band - 1) value) key := by
  rw [context, descriptor_of_bands (bands_recordNoData hbands codec band value), ← hraster]
  rfl

end RecordNoData

/-- The blocks whose first pixel lies in the raster are those of the grid. -/
theorem inGrid_iff {dataset : Dataset FormatCodec} {band x y : Nat}
    (hgeometry : Geometry raster bands) (hraster : dataset.store.raster = raster)
    (hbands : dataset.store.bands = bands.toArray) :
    InGrid raster bands ⟨band, x, y⟩ ↔ dataset.HasBand band ∧ Band.InGrid dataset band x y := by
  have hcount : dataset.bandCount = bands.length := by
    rw [Dataset.bandCount, hbands, List.size_toArray]
  have hdescriptor : dataset.descriptor band = bandOf bands band := descriptor_of_bands hbands band
  have hsize : dataset.size = raster := hraster
  rw [Dataset.HasBand, Band.InGrid, hcount, hdescriptor, hsize]
  have hside (hband : band - 1 < bands.length) : Storable (bandOf bands band).block :=
    hgeometry.block _ (bandAt_mem hband)
  constructor
  · -- a block of the raster: its band exists, and its place lies in the grid
    intro hgrid
    have hblock := hside hgrid.lt
    exact ⟨⟨hgrid.band_pos, hgrid.band_le⟩, (lt_partsCovering_iff hblock.width_pos).mp hgrid.x_lt,
      (lt_partsCovering_iff hblock.height_pos).mp hgrid.y_lt⟩
  · intro hplace
    obtain ⟨⟨hpos, hle⟩, hx, hy⟩ := hplace
    have hblock := hside (by omega)
    exact ⟨hpos, hle, (lt_partsCovering_iff hblock.width_pos).mpr hx,
      (lt_partsCovering_iff hblock.height_pos).mpr hy⟩

/-- The blocks of a file can be held in memory, since their lengths fit into four bytes. -/
theorem Tiled.Geometry.blockBytes_lt_memoryLimit {band : Nat} (h : Geometry raster bands)
    (hpos : 0 < band) (hle : band ≤ bands.length) :
    (bandOf bands band).blockBytes < memoryLimit := by
  have hlimit : byteLimit 4 < memoryLimit := by decide
  exact Nat.lt_trans (h.blockBytes_lt _ (bandAt_mem (by omega))) hlimit

/-- The blocks of a band are of a size that can be held. -/
theorem held_of_geometry {dataset : Dataset FormatCodec} {band : Nat}
    (hgeometry : Geometry raster bands) (hbands : dataset.store.bands = bands.toArray)
    (hband : dataset.HasBand band) : Band.Held dataset band := by
  obtain ⟨hpos, hle⟩ := hband
  rw [Dataset.bandCount, hbands, List.size_toArray] at hle
  rw [Band.Held, Dataset.descriptor, descriptor_of_bands hbands]
  exact hgeometry.blockBytes_lt_memoryLimit hpos hle

/-! ## Open datasets -/

/-- A dataset over an intact tiled file, open for update. -/
structure Opened (held : String) (raster : Size) (bands : List BandDescriptor)
    (dataset : Dataset FormatCodec) : Prop where
  access : dataset.access = .update
  sameRaster : dataset.store.raster = raster
  sameBands : dataset.store.bands = bands.toArray
  sound : (tiledModel held raster bands).Sound dataset.store

/-- The block may have been written: the file has a tile for it, or its bytes in the cache are still
    to be stored. -/
def IsWritten (dataset : Dataset FormatCodec) (key : BlockRef) : Prop :=
  (∃ block, dataset.store.cache.find? key = some block ∧ block.dirty = true) ∨
    FormatCodec.HasTile dataset.store.codec (dataset.store.context key)

namespace Opened

variable {dataset : Dataset FormatCodec} {store : BlockStore FormatCodec}
variable {band x y : Nat} {key : BlockRef}

/-- The descriptor of a band is the one that the file has for it. -/
theorem descriptor_eq (h : Opened held raster bands dataset) (band : Nat) :
    dataset.store.descriptor band = bandOf bands band :=
  descriptor_of_bands h.sameBands band

/-- What the codec is told of a block is what the file says of it. -/
theorem context_eq (h : Opened held raster bands dataset) (key : BlockRef) :
    dataset.store.context key = contextOf raster bands key := by
  rw [context, h.descriptor_eq, h.sameRaster]
  rfl

/-- The dataset has the size of the raster in the file. -/
theorem size_eq (h : Opened held raster bands dataset) : dataset.size = raster :=
  h.sameRaster

/-- The bands of an open file are of a shape that fits in one. -/
theorem geometry (h : Opened held raster bands dataset) : Geometry raster bands := by
  obtain ⟨_, -, -, hintact⟩ := h.sound.holds
  exact hintact.image.geometry

/-- A band of the dataset is one of the file. -/
theorem isBand_of_hasBand (h : Opened held raster bands dataset) (hband : dataset.HasBand band) :
    0 < band ∧ band ≤ bands.length := by
  have hcount : dataset.bandCount = bands.length := by
    rw [Dataset.bandCount, h.sameBands, List.size_toArray]
  exact ⟨hband.1, hcount ▸ hband.2⟩

/-- The blocks of a band are of a size that a tile can have. -/
theorem storable (h : Opened held raster bands dataset) (hband : dataset.HasBand band) :
    Storable (bandOf bands band).block := by
  obtain ⟨hpos, hle⟩ := h.isBand_of_hasBand hband
  exact h.geometry.block _ (bandAt_mem (by omega))

/-- A block that the methods of a band accept has a place in the file. -/
theorem inGrid (h : Opened held raster bands dataset) (hband : dataset.HasBand band)
    (hgrid : Band.InGrid dataset band x y) : InGrid raster bands ⟨band, x, y⟩ :=
  (inGrid_iff h.geometry h.sameRaster h.sameBands).mpr ⟨hband, hgrid⟩

/-- The codec serves every block of the file. -/
theorem serves (h : Opened held raster bands dataset) (hgrid : InGrid raster bands key) :
    (tiledModel held raster bands).Serves (dataset.store.context key) := by
  rw [h.context_eq]
  exact ⟨hgrid, rfl⟩

/-- The codec serves every block of a band. -/
theorem serving (h : Opened held raster bands dataset) (hband : dataset.HasBand band) :
    (tiledModel held raster bands).Serving dataset.store band := by
  have hblock := h.storable hband
  refine ⟨?_, fun x y hx hy => h.serves (h.inGrid hband ⟨hx, hy⟩)⟩
  rw [h.descriptor_eq]
  exact ⟨hblock.width_pos, hblock.height_pos⟩

/-- A store with the same bands and raster, and a sound one, is open as well. -/
theorem of_sameBands (h : Opened held raster bands dataset)
    (hbands : dataset.store.SameBands store) (hsound : (tiledModel held raster bands).Sound store) :
    Opened held raster bands { dataset with store } :=
  ⟨h.access, hbands.raster.trans h.sameRaster, hbands.bands.trans h.sameBands, hsound⟩

end Opened

/-- Flushing a codec changes nothing: what is written is final at once. -/
theorem flush_formatCodec (codec : FormatCodec) :
    (Codec.flush : Action FormatCodec Unit).run codec = (.ok (), codec) := by
  rcases codec with memory | tiled | dted
  · rfl
  · rfl
  · rfl

/-! ## Calls -/

/-- The step from `before` to `after` did what a call does: the dataset stays open, with the bands
    that it has after the call, and no other blocks were written than those of the call. -/
structure Performed (held : String) (raster : Size) (bands : List BandDescriptor)
    (call : RasterCall) (before after : Dataset FormatCodec) : Prop where
  opened : Opened held raster (call.bandsAfter bands) after
  written : ∀ key, InGrid raster bands key → IsWritten after key →
    IsWritten before key ∨ call.Writes bands key

namespace Opened

variable {dataset : Dataset FormatCodec} {store : BlockStore FormatCodec} {call : RasterCall}
variable {band : Nat} {key : BlockRef}

/-- A step that changes no content performs any call that does not change the bands. -/
theorem performed_of_keeps (h : Opened held raster bands dataset)
    (hbands : call.bandsAfter bands = bands)
    (hkeeps : (tiledModel held raster bands).Keeps dataset.store store) :
    Performed held raster bands call dataset { dataset with store } := by
  refine ⟨?_, fun key hgrid hwritten => .inl ?_⟩
  · rw [hbands]
    exact h.of_sameBands hkeeps.bands hkeeps.sound
  · exact (hkeeps.written key (h.serves hgrid)).mp hwritten

/-- A step that draws pixels performs a call that writes their blocks. -/
theorem performed_of_drawn (h : Opened held raster bands dataset)
    (hbands : call.bandsAfter bands = bands) {new : Nat → Nat → Option ByteArray}
    (hdrawn : (tiledModel held raster bands).Drawn dataset.store band new store)
    (hwrites : ∀ x y, (new x y).isSome = true →
      call.Writes bands ((bandOf bands band).blockOf band x y)) :
    Performed held raster bands call dataset { dataset with store } := by
  refine ⟨?_, fun key hgrid hwritten => ?_⟩
  · -- the bands are the same, and the blocks still sound
    rw [hbands]
    exact h.of_sameBands hdrawn.bands hdrawn.sound
  · -- a block that was drawn on is one of those that the call writes
    refine ((hdrawn.written key (h.serves hgrid)).mp hwritten).imp_right fun hdrawn => ?_
    obtain ⟨-, x, y, -, hkey, hnew⟩ := hdrawn
    rw [h.descriptor_eq] at hkey
    rw [← hkey]
    exact hwrites x y hnew

/-! ### No-data values -/

/-- The file has the new value, but the blocks of the band are still in the cache. The padding in
    them may be that of the old value, so that only the other bands are as the file has them. -/
private theorem tidy_withNoData {value : Option Binary64} {tiled after : TiledCodec}
    (h : Opened held raster bands dataset) (hpos : 0 < band) (hband : band ≤ bands.length)
    (hcodec : dataset.store.codec = .inr (.inl tiled))
    (hmedium : after.storage.medium = .file held)
    (hintact : after.Intact raster (withNoData bands (band - 1) value))
    (htile : ∀ context, InGrid raster bands context.block → after.tile context = tiled.tile context)
    (hcontext : ∀ key, (dataset.store.recordNoData (.inr (.inl after)) band value).context key =
      contextOf raster (withNoData bands (band - 1) value) key) :
    (tiledModel held raster (withNoData bands (band - 1) value)).Tidy
        (dataset.store.recordNoData (.inr (.inl after)) band value) ∧
      ∀ {key block}, dataset.store.cache.find? key = some block → block.dirty = false →
        key.band ≠ band → block.data =
          after.tile ((dataset.store.recordNoData (.inr (.inl after)) band value).context key) := by
  have hi : band - 1 < bands.length := by omega
  have hshapes : SameShapes bands (withNoData bands (band - 1) value) :=
    .bandsAfter (.setNoData band value) bands
  have hgrid {key : BlockRef} {block : Block} (hfind : dataset.store.cache.find? key = some block) :
      InGrid raster bands key :=
    (h.sound.served hfind).1
  -- the cache is the same, and of the contexts only the no-data value has changed
  refine ⟨⟨⟨after, rfl, hmedium, hintact⟩, h.sound.distinct, fun {key block} hfind => ?_,
    fun {key block} hfind => ?_⟩, fun {key block} hfind hclean hother => ?_⟩
  · -- served: the grid depends on the shapes alone
    rw [hcontext]
    exact ⟨(hgrid hfind).of_sameShapes hshapes, rfl⟩
  · -- of a size that fits: so does that
    rw [hcontext]
    have hfits : block.data.size = (dataset.store.context key).descriptor.blockBytes :=
      h.sound.fits hfind
    rw [h.context_eq] at hfits
    exact hfits.trans (hshapes.blockBytes key.band).symm
  · -- clean and of another band: the context is the same, and so is the tile
    have hkey := hgrid hfind
    have hdata : block.data = FormatCodec.tile dataset.store.codec (dataset.store.context key) :=
      h.sound.clean hfind hclean
    have hne : ¬key.band - 1 = band - 1 := by
      have := hkey.band_pos
      omega
    rw [hdata, hcontext, h.context_eq, hcodec, contextOf, contextOf, bandAt_withNoData hi,
      if_neg hne]
    exact (htile _ hkey).symm

/-- The codec writes the new value into the file and keeps all tiles. -/
private theorem ends_codecSetNoData {codec : FormatCodec} {tiled : TiledCodec}
    (hcodec : codec = .inr (.inl tiled)) (hmedium : tiled.storage.medium = .file held)
    (hintact : tiled.Intact raster bands) (hpos : 0 < band) (hband : band ≤ bands.length)
    (value : Option Binary64) :
    (Codec.setNoData band value).Ends codec
      (fun _ reached => ∃ after : TiledCodec, reached = .inr (.inl after) ∧
        after.storage.medium = .file held ∧ (∀ key, after.entryOf key = tiled.entryOf key) ∧
        after.Intact raster (withNoData bands (band - 1) value) ∧
        ∀ context, InGrid raster bands context.block → after.tile context = tiled.tile context)
      (fun _ _ => False) := by
  rw [hcodec]
  refine Choice.ends_inr (Choice.ends_inl
    ((TiledCodec.ends_writeNoData hintact hpos hband value).mono ?_ fun _ _ h => h))
  intro _ after hafter
  obtain ⟨hsame, -, htables, hafter, htile⟩ := hafter
  exact ⟨after, rfl, hsame.trans hmedium, TiledCodec.entryOf_congr htables, hafter, htile⟩

/-- Setting the no-data value of a band writes no block. -/
theorem ends_setNoData (h : Opened held raster bands dataset) (hasBand : dataset.HasBand band)
    (value : Option Binary64) :
    (Band.setNoData band value).Ends dataset
      (fun _ after => Performed held raster bands (.setNoData band value) dataset after)
      (fun _ _ => True) := by
  obtain ⟨hpos, hband⟩ := h.isBand_of_hasBand hasBand
  obtain ⟨tiled, hcodec, hmedium, hintact⟩ := h.sound.holds
  have hrecords := ends_codecSetNoData hcodec hmedium hintact hpos hband value
  have hcontext (codec : FormatCodec) (key : BlockRef) :=
    context_recordNoData h.sameRaster h.sameBands codec band value key
  apply (Band.ends_setNoData
    (tiledModel held raster (withNoData bands (band - 1) value)).toCodecModel h.access hrecords
    ?_ ?_).mono _ fun _ _ _ => trivial
  · rintro _ ⟨after, rfl, hafterMedium, -, hafter, htile⟩
    exact (h.tidy_withNoData hpos hband hcodec hafterMedium hafter htile (hcontext _)).1
  · rintro _ ⟨after, rfl, hafterMedium, -, hafter, htile⟩
    exact (h.tidy_withNoData hpos hband hcodec hafterMedium hafter htile (hcontext _)).2
  · rintro _ _ ⟨_, store, ⟨after, rfl, -, hentries, -⟩, rfl, hdropped⟩
    refine ⟨⟨h.access, hdropped.bands.raster.trans h.sameRaster,
      hdropped.bands.bands.trans (bands_recordNoData h.sameBands _ band value), hdropped.sound⟩,
      fun key hgrid hwritten => ?_⟩
    have hserves : (tiledModel held raster (withNoData bands (band - 1) value)).Serves
        ((dataset.store.recordNoData (.inr (.inl after)) band value).context key) := by
      rw [hcontext]
      exact ⟨hgrid.of_sameShapes (.bandsAfter (.setNoData band value) bands), rfl⟩
    -- a block that counts as written was dirty, or has a tile
    rcases (hdropped.written key hserves).mp hwritten with hdirty | hgiven
    · exact .inl (.inl hdirty)
    · -- the codec still has the same tiles
      refine .inl (.inr ?_)
      rw [hcodec]
      show (tiled.entryOf key).isWritten = true
      rw [← hentries]
      exact hgiven

/-! ### All calls -/

/-- Reading a block answers with its content. -/
theorem ends_readBlock {x y length : Nat} (h : Opened held raster bands dataset) :
    (Dataset.readBlock band x y length).Ends dataset
      (fun data after => InGrid raster bands ⟨band, x, y⟩ ∧
        data = (tiledModel held raster bands).logical dataset.store ⟨band, x, y⟩ ∧
        Performed held raster bands (.readBlock band x y length) dataset after)
      (fun _ _ => True) := by
  refine Dataset.ends_onBand (fun hband => ?_) fun _ _ => trivial
  refine (Band.ends_readBlock h.sound (h.serving hband)).mono ?_ fun _ _ _ => trivial
  intro data after hread
  obtain ⟨haccepted, store, rfl, hfetched⟩ := hread
  have hview := hfetched.view
  -- a block that is read is not renewed
  rw [CodecModel.fetchedView, if_neg (fun hboth => by cases hboth.1)] at hview
  exact ⟨h.inGrid hband haccepted.grid, hview, h.performed_of_keeps rfl (hfetched.keeps rfl)⟩

/-- A window that is written leaves the dataset open, and what was written belongs to the call if
    the call writes the blocks of its pixels. -/
theorem ends_writeRaw {request : TransferRequest} {buffer : ByteArray}
    (h : Opened held raster bands dataset) (hband : dataset.HasBand band)
    (hcall : call.bandsAfter bands = bands)
    (hwrites : ∀ x y, (Window.ofRequest request).Contains x y →
      call.Writes bands ((bandOf bands band).blockOf band x y)) :
    (Band.writeRaw band request buffer).Ends dataset
      (fun _ after => Performed held raster bands call dataset after) (fun _ _ => True) := by
  refine (Band.ends_writeRaw h.access h.sound (h.serving hband)).mono ?_ fun _ _ _ => trivial
  intro _ after hwritten
  obtain ⟨-, store, rfl, hdrawn⟩ := hwritten
  refine h.performed_of_drawn hcall hdrawn fun x y hnew => hwrites x y ?_
  simpa [windowPixels] using hnew

/-- A call that succeeds keeps the dataset open and writes its own blocks only. -/
theorem ends_perform (h : Opened held raster bands dataset) (call : RasterCall) :
    call.perform.Ends dataset
      (fun _ after => Performed held raster bands call dataset after) (fun _ _ => True) := by
  cases call with
  | read band request resampling buffer =>
    refine Ends.bind (Dataset.ends_onBand (fun hband => Dataset.ends_intoBuffer ?_)
      fun _ _ => trivial)
    refine (Band.ends_readRaw_filled h.sound (h.serving hband)).mono ?_ fun _ _ _ => trivial
    intro _ after hread
    obtain ⟨-, store, bytes, rfl, hfilled⟩ := hread
    -- blocks may have been fetched and evicted, which keeps their contents
    exact ends_pure.mpr (h.performed_of_keeps rfl hfilled.keeps)
  | readBlock band column row length =>
    refine Ends.bind (h.ends_readBlock.mono ?_ fun _ _ h => h)
    exact fun _ _ hread => ends_pure.mpr hread.2.2
  | write band request buffer =>
    refine Dataset.ends_onBand (fun hband => ?_) fun _ _ => trivial
    exact h.ends_writeRaw hband rfl fun x y hcontains => ⟨x, y, hcontains, rfl⟩
  | writeResampled band request resampling buffer =>
    refine Dataset.ends_onBand (fun hband => ?_) fun _ _ => trivial
    refine Ends.get_bind (Ends.lift_bind (Band.checkWritable_of_update h.access) ?_)
    cases resampling with
    | nearest => exact h.ends_writeRaw hband rfl fun x y hcontains => ⟨x, y, hcontains, rfl⟩
    | average =>
      -- averages cannot be written
      exact ends_throw.mpr trivial
  | writeBlock band column row data =>
    refine Dataset.ends_onBand (fun hband => ?_) fun _ _ => trivial
    refine (Band.ends_writeBlock h.access h.sound (h.serving hband)).mono ?_ fun _ _ _ => trivial
    intro _ after hwritten
    obtain ⟨-, store, rfl, hdrawn⟩ := hwritten
    refine h.performed_of_drawn rfl hdrawn fun x y hnew => ?_
    -- a pixel that was drawn is one of this block
    rw [Dataset.descriptor, h.descriptor_eq] at hnew
    exact (PixelModel.isSome_blockPixels band).mp hnew
  | fill band value =>
    refine Dataset.ends_onBand (fun hband => ?_) fun _ _ => trivial
    refine (Band.ends_fill h.access h.sound (h.serving hband)).mono ?_ fun _ _ _ => trivial
    intro _ after hfilled
    obtain ⟨-, store, rfl, hdrawn⟩ := hfilled
    exact h.performed_of_drawn rfl hdrawn fun _ _ _ => rfl
  | setNoData band value =>
    exact Dataset.ends_onBand (fun hband => h.ends_setNoData hband value) fun _ _ => trivial
  | flushBand band =>
    refine Dataset.ends_onBand (fun hband => ?_) fun _ _ => trivial
    refine (Band.ends_flush h.sound).mono ?_ fun _ _ _ => trivial
    intro _ after hflushed
    obtain ⟨store, rfl, hkeeps⟩ := hflushed
    exact h.performed_of_keeps rfl hkeeps
  | flush =>
    refine (Dataset.ends_flush h.sound flush_formatCodec).mono ?_ fun _ _ _ => trivial
    intro _ after hflushed
    obtain ⟨store, rfl, hkeeps, -⟩ := hflushed
    exact h.performed_of_keeps rfl hkeeps
  | setCapacity capacity =>
    refine (Dataset.ends_setCacheBlocks h.sound capacity).mono ?_ fun _ _ _ => trivial
    intro _ after hchanged
    obtain ⟨store, rfl, hkeeps⟩ := hchanged
    exact h.performed_of_keeps rfl hkeeps

end Opened

end RasterStore
