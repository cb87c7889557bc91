import RasterStore.Proofs.Dataset.BlockKeeper
import RasterStore.Proofs.Tiled.Room

/-!
# Tiled files keep blocks

A tiled file gives back the blocks that have tiles, and padding for all others. The no-data value
of a band is in its header, which is all that a new value changes. This is
`FormatCodec.tiledKeeper`. Only storing a block can fail, so as long as there is room in the file
for the blocks that are dirty, every block can be read (`ends_readBlock_of_hasRoom`).
-/

namespace RasterStore

open BlockStore Tiled RasterStore.Action

variable {raster : Size} {bands bands' : List BandDescriptor} {key : BlockRef} {band : Nat}
variable {context : BlockContext} {data : ByteArray}

instance (raster : Size) (bands : List BandDescriptor) (key : BlockRef) :
    Decidable (InGrid raster bands key) :=
  decidable_of_iff
    (0 < key.band ∧ key.band ≤ bands.length ∧
      key.x < ((bandAt bands (key.band - 1)).grid raster).width ∧
      key.y < ((bandAt bands (key.band - 1)).grid raster).height)
    ⟨fun ⟨hpos, hle, hx, hy⟩ => ⟨hpos, hle, hx, hy⟩,
      fun h => ⟨h.band_pos, h.band_le, h.x_lt, h.y_lt⟩⟩

namespace TiledCodec

variable {tiled after : TiledCodec}

/-- What the header of a band in the file says. -/
def recordedBand (tiled : TiledCodec) (band : Nat) : Except RasterError BandDescriptor := do
  parseBandHeader (← tiled.storage.read (bandHeaderOffset band) bandHeaderBytes) 0

theorem Intact.recordedBand (h : tiled.Intact raster bands) (hpos : 0 < band)
    (hle : band ≤ bands.length) : tiled.recordedBand band = .ok (bandAt bands (band - 1)) := by
  have hblock := h.image.geometry.block _ (bandAt_mem (i := band - 1) (by omega))
  rw [TiledCodec.recordedBand, h.read_bandHeader hpos hle]
  exact parseBandHeader_bandRecord hblock

/-- The tile of a block of the grid, if it has one. -/
def tile? (raster : Size) (bands : List BandDescriptor) (tiled : TiledCodec) (key : BlockRef) :
    Option ByteArray :=
  if InGrid raster bands key ∧ (tiled.entryOf key).isWritten = true then
    some (tiled.tile (contextOf raster bands key))
  else none

theorem tile?_isSome_iff (hkey : InGrid raster bands key) :
    (tiled.tile? raster bands key).isSome = true ↔ (tiled.entryOf key).isWritten = true := by
  rw [tile?]
  split
  · next h => exact iff_of_true rfl h.2
  · next h => exact iff_of_false Bool.false_ne_true fun hwritten => h ⟨hkey, hwritten⟩

/-- A tile is found by the size of its block. -/
theorem tile?_of_sameShapes (hshapes : SameShapes bands bands') (tiled : TiledCodec) :
    tiled.tile? raster bands' = tiled.tile? raster bands := by
  funext key
  have hgrid : InGrid raster bands' key ↔ InGrid raster bands key :=
    ⟨fun h => h.of_sameShapes hshapes.symm, fun h => h.of_sameShapes hshapes⟩
  have hbytes : (bandAt bands' (key.band - 1)).blockBytes =
      (bandAt bands (key.band - 1)).blockBytes := hshapes.blockBytes key.band
  simp only [tile?, hgrid]
  split
  · next h => rw [tile_of_isWritten h.2, tile_of_isWritten h.2, hbytes]
  · rfl

/-- A block is decoded as its tile, or as padding if it has none. -/
theorem tile_eq_getD (hserved : context.Served raster bands) (tiled : TiledCodec) :
    tiled.tile context =
      (tiled.tile? raster bands context.block).getD context.descriptor.padding := by
  have hbytes : context.descriptor.blockBytes =
      (bandAt bands (context.block.band - 1)).blockBytes := hserved.blockBytes_eq
  rw [tile?, tile]
  by_cases hwritten : (tiled.entryOf context.block).isWritten = true
  · rw [if_pos hwritten, if_pos ⟨hserved.inGrid, hwritten⟩, Option.getD_some,
      tile_of_isWritten hwritten, hbytes]
  · rw [if_neg hwritten, if_neg fun h => hwritten h.2, Option.getD_none]

/-- After a block was stored, its tile has its bytes. -/
theorem Encoded.tile? {block : BlockRef} (h : Encoded raster bands tiled block data after)
    (hblock : InGrid raster bands block) (key : BlockRef) :
    after.tile? raster bands key =
      if key = block then some data else tiled.tile? raster bands key := by
  by_cases hkey : InGrid raster bands key
  · have htile : after.tile (contextOf raster bands key) =
        if key = block then data else tiled.tile (contextOf raster bands key) :=
      h.tile (contextOf raster bands key) ⟨hkey, rfl⟩
    simp only [TiledCodec.tile?, htile, h.isWritten key hkey]
    -- the block that was encoded has the new tile, any other one its old
    by_cases heq : key = block
    · simp [heq, hblock]
    · simp [heq]
  · -- outside of the grid no block has a tile
    have hne : key ≠ block := fun heq => hkey (heq ▸ hblock)
    rw [TiledCodec.tile?, TiledCodec.tile?, if_neg fun h => hkey h.1, if_neg hne,
      if_neg fun h => hkey h.1]

/-- Tiles that are where they were, with the bytes that they had, are the same. -/
theorem tile?_congr (hentries : ∀ key, after.entryOf key = tiled.entryOf key)
    (htile : ∀ context, InGrid raster bands context.block →
      after.tile context = tiled.tile context) :
    after.tile? raster bands = tiled.tile? raster bands := by
  funext key
  rw [tile?, tile?, hentries]
  split
  · next h => rw [htile _ h.1]
  · rfl

end TiledCodec

namespace FormatCodec

/-- The tile of a block of the grid, if it has one. -/
def tile? (raster : Size) (bands : List BandDescriptor) : FormatCodec → BlockRef → Option ByteArray
  | .inr (.inl tiled), key => tiled.tile? raster bands key
  | _, _ => none

/-- The no-data value in the header of a band. -/
def recordedNoData (bands : List BandDescriptor) : FormatCodec → Nat → Option Binary64
  | .inr (.inl tiled), band =>
    if 0 < band ∧ band ≤ bands.length then (tiled.recordedBand band).toOption.bind (·.noData)
    else none
  | _, _ => none

/-- The codec is that of an intact tiled file. The bands may have other no-data values. -/
def HoldsTiles (raster : Size) (bands : List BandDescriptor) (codec : FormatCodec) : Prop :=
  ∃ (tiled : TiledCodec) (bands' : List BandDescriptor), codec = .inr (.inl tiled) ∧
    SameShapes bands bands' ∧ tiled.Intact raster bands'

/-- The blocks of a tiled file can be held in memory. -/
theorem HoldsTiles.held {codec : FormatCodec} (h : codec.HoldsTiles raster bands)
    (hkey : InGrid raster bands key) : (bandOf bands key.band).blockBytes < memoryLimit := by
  obtain ⟨tiled, bands', -, hshapes, hintact⟩ := h
  rw [← hshapes.blockBytes]
  exact hintact.image.geometry.blockBytes_lt_memoryLimit hkey.band_pos
    (hshapes.length ▸ hkey.band_le)

/-- The header of a band has its no-data value. -/
theorem recordedNoData_of_intact {tiled : TiledCodec} (hshapes : SameShapes bands bands')
    (h : tiled.Intact raster bands') (band : Nat) :
    recordedNoData bands (.inr (.inl tiled)) band =
      if 0 < band ∧ band ≤ bands.length then (bandAt bands' (band - 1)).noData else none := by
  rw [recordedNoData]
  split
  · next hband =>
    rw [h.recordedBand hband.1 (hshapes.length ▸ hband.2)]
    rfl
  · rfl

/-- Every block is decoded as its tile, or as padding if it has none. -/
theorem ends_decode_of_holdsTiles {codec : FormatCodec} (hholds : codec.HoldsTiles raster bands)
    (hserved : context.Served raster bands) :
    (Codec.decode context).Ends codec
      (fun decoded reached => decoded.bytes =
        (codec.tile? raster bands context.block).getD context.descriptor.padding ∧
          reached = codec)
      (fun _ _ => False) := by
  obtain ⟨tiled, bands', rfl, hshapes, hintact⟩ := hholds
  -- the file may have other no-data values, but its blocks have this size
  have hbytes : context.descriptor.blockBytes =
      (bandAt bands' (context.block.band - 1)).blockBytes :=
    hserved.blockBytes_eq.trans (hshapes.blockBytes _).symm
  have hread := TiledCodec.readBlock_of_image hintact.image hintact.usable.readable hbytes
  apply Choice.ends_inr
  apply Choice.ends_inl
  apply Ends.get_bind
  apply Ends.lift_bind hread
  exact ends_pure.mpr ⟨TiledCodec.tile_eq_getD hserved tiled, rfl⟩

/-- A decoded block has the size of a block. -/
theorem size_getD_tile? {codec : FormatCodec} (hholds : codec.HoldsTiles raster bands)
    (hserved : context.Served raster bands) :
    ((codec.tile? raster bands context.block).getD context.descriptor.padding).size =
      context.descriptor.blockBytes := by
  obtain ⟨tiled, bands', rfl, hshapes, hintact⟩ := hholds
  rw [tile?, ← TiledCodec.tile_eq_getD hserved]
  exact TiledCodec.size_tile hintact.image (hserved.blockBytes_eq.trans (hshapes.blockBytes _).symm)

/-- A tiled file keeps blocks. -/
def tiledKeeper (raster : Size) (bands : List BandDescriptor) :
    BlockKeeper FormatCodec raster bands where
  Holds := HoldsTiles raster bands
  stored := tile? raster bands
  noData := recordedNoData bands
  MayFail := True
  ends_decode := by
    intro codec context hholds hserved
    apply (ends_decode_of_holdsTiles hholds hserved).mono _ fun _ _ hnever => hnever.elim
    rintro decoded _ ⟨hbytes, rfl⟩
    refine ⟨⟨hholds, rfl, rfl⟩, ?_⟩
    rw [hbytes, if_pos (size_getD_tile? hholds hserved)]
  ends_encode := by
    intro codec context data hholds hserved hsize
    obtain ⟨tiled, bands', rfl, hshapes, hintact⟩ := id hholds
    have hkey : InGrid raster bands' context.block := hserved.inGrid.of_sameShapes hshapes
    have hsize' : data.size = (bandAt bands' (context.block.band - 1)).blockBytes :=
      hsize.trans (hserved.blockBytes_eq.trans (hshapes.blockBytes _).symm)
    -- what the codec is told of the no-data value does not matter
    have hencode : (Codec.encode (contextOf raster bands' context.block) data).Ends tiled
        (fun _ after => TiledCodec.Encoded raster bands' tiled context.block data after)
        (fun _ after => after = tiled ∧
          offsetLimit ≤ tiled.storage.length + tiled.growth bands' context.block) :=
      TiledCodec.ends_encode hintact ⟨hkey, rfl⟩ hsize'
    apply Choice.ends_inr
    apply Choice.ends_inl
    apply hencode.mono
    · intro _ after hafter
      refine ⟨⟨after, bands', rfl, hshapes, hafter.intact⟩, ?_, fun key => ?_⟩
      · -- both files have the headers of the same bands
        funext band
        rw [recordedNoData_of_intact hshapes hafter.intact,
          recordedNoData_of_intact hshapes hintact]
      · show after.tile? raster bands key = _
        rw [← TiledCodec.tile?_of_sameShapes hshapes, hafter.tile? hkey key,
          TiledCodec.tile?_of_sameShapes hshapes]
        rfl
    · rintro _ after ⟨rfl, -⟩
      exact ⟨⟨hholds, rfl, rfl⟩, trivial⟩
  ends_setNoData := by
    intro codec band value hholds hband
    obtain ⟨tiled, bands', rfl, hshapes, hintact⟩ := id hholds
    have hle : band ≤ bands'.length := hshapes.length ▸ hband.2
    have hshapes' : SameShapes bands (withNoData bands' (band - 1) value) :=
      hshapes.trans (.bandsAfter (.setNoData band value) bands')
    apply Choice.ends_inr
    apply Choice.ends_inl
    apply (TiledCodec.ends_writeNoData hintact hband.1 hle value).mono _ fun _ _ hnever =>
      hnever.elim
    rintro _ after ⟨-, -, htables, hafter, htile⟩
    -- only a header was written, so the tiles are where they were
    refine ⟨⟨after, _, rfl, hshapes', hafter⟩, ?_, fun other => ?_⟩
    · show after.tile? raster bands = tiled.tile? raster bands
      refine TiledCodec.tile?_congr (TiledCodec.entryOf_congr htables) fun context hkey => ?_
      exact htile context (hkey.of_sameShapes hshapes)
    · -- the headers are those of bands of which one has another no-data value
      rw [recordedNoData_of_intact hshapes' hafter, recordedNoData_of_intact hshapes hintact,
        bandAt_withNoData (by omega)]
      by_cases heq : other = band
      · rw [if_pos heq, if_pos (heq ▸ hband), if_pos (by rw [heq])]
      · rw [if_neg heq]
        split
        · next hin => rw [if_neg (by omega)]
        · rfl
  ends_flush := by
    intro codec hholds
    exact ends_of_run_ok (flush_formatCodec codec) ⟨hholds, rfl, rfl⟩

variable {store : BlockStore FormatCodec} {dataset : Dataset FormatCodec}

/-- A model of the blocks of a tiled file stores them as tiles. -/
theorem storesTiles_modelOn (selected : BlockRef → Bool) (noData : Nat → Option Binary64) :
    StoresTiles raster bands ((tiledKeeper raster bands).modelOn selected noData) where
  intact := by
    rintro tiled ⟨⟨tiled', bands', hcodec, hshapes, hintact⟩, -⟩
    obtain rfl : tiled = tiled' := Sum.inl.inj (Sum.inr.inj hcodec)
    exact ⟨bands', hshapes, hintact⟩
  inGrid hserves := hserves.inGrid
  size hserves hfits := hfits.trans hserves.blockBytes_eq

/-- Every block of the grid is read with its content, if there is room for the dirty blocks. -/
theorem ends_readBlock_of_hasRoom (h : (tiledKeeper raster bands).UpToDate dataset.store)
    (hblocked : ∀ descriptor ∈ bands, descriptor.Blocked) (hkey : InGrid raster bands key) :
    (Dataset.readBlock key.band key.x key.y (bandOf bands key.band).blockBytes).Ends dataset
      (fun data _ => data = (tiledKeeper raster bands).content dataset.store key)
      (fun _ _ => ¬HasRoom bands dataset.store) := by
  have hserved := h.served hkey
  -- the keeper says what is read, the room in the file that something is read
  have hanswers : (fetch key .read).Ends dataset.store (fun _ _ => True)
      (fun _ _ => ¬HasRoom bands dataset.store) := by
    by_cases hroom : HasRoom bands dataset.store
    · apply ((storesTiles_modelOn _ _).ends_fetch h.sound_written hserved
        (ends_decode_of_holdsTiles h.holds hserved) (size_getD_tile? h.holds hserved) hroom).mono
      · exact fun _ _ _ => trivial
      · exact fun _ _ hnever => hnever.elim
    · exact ends_of_forall (fun _ _ => trivial) fun _ _ => hroom
  apply h.ends_readBlock_of_fetch hblocked hkey (h.holds.held hkey)
  exact ((h.ends_fetch hkey).and hanswers).mono (fun _ _ hread => hread.1) fun _ _ hfailed =>
    hfailed.2

end FormatCodec

end RasterStore
