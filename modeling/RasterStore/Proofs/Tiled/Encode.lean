import RasterStore.Proofs.Tiled.Create
import RasterStore.Proofs.Tiled.Load

/-!
# Storing tiles

`TiledCodec.Intact` is the invariant of an open tiled file. Encoding a block carries out one or two
writes; `TiledCodec.Stage` says what a reader sees between them: every other block as before, and
the block itself as before or with its new bytes.

* `stage_of_prefix`    it is a stage after any number of the writes
* `ends_writeBlock`    what the whole step does
* `ends_writeNoData`   what another no-data value does
-/

namespace RasterStore

open ByteArray Tiled RasterStore.Action

namespace Tiled

/-- The block is one of the grid of an existing band. -/
structure InGrid (raster : Size) (bands : List BandDescriptor) (block : BlockRef) : Prop where
  band_pos : 0 < block.band
  band_le : block.band ≤ bands.length
  x_lt : block.x < ((bandAt bands (block.band - 1)).grid raster).width
  y_lt : block.y < ((bandAt bands (block.band - 1)).grid raster).height

/-- What the codec is told about a block. -/
def contextOf (raster : Size) (bands : List BandDescriptor) (block : BlockRef) : BlockContext :=
  ⟨block, bandAt bands (block.band - 1), raster⟩

/-- The number of a block in the index of its band. -/
def blockNumber (raster : Size) (bands : List BandDescriptor) (block : BlockRef) : Nat :=
  block.y * ((bandAt bands (block.band - 1)).grid raster).width + block.x

variable {raster : Size} {bands : List BandDescriptor} {tables : Array BlockTable}
variable {block other : BlockRef}

/-- A block of the grid is one of a band that exists, counted from zero. -/
theorem InGrid.lt (h : InGrid raster bands block) : block.band - 1 < bands.length := by
  have := h.band_pos
  have := h.band_le
  omega

/-- The number of a block is one of the index of its band. -/
theorem InGrid.blockNumber_lt (h : InGrid raster bands block) :
    blockNumber raster bands block < entryCount raster bands (block.band - 1) :=
  rowMajor_lt h.x_lt h.y_lt

/-- A grid has blocks only if they have pixels. -/
theorem InGrid.blockBytes_pos (h : InGrid raster bands block) :
    0 < (bandAt bands (block.band - 1)).blockBytes := by
  have hpart : ∀ {whole part : Nat}, 0 < partsCovering whole part → 0 < part := by
    intro whole part hparts
    rw [Nat.pos_iff_ne_zero]
    rintro rfl
    rw [partsCovering, Nat.div_zero] at hparts
    exact absurd hparts (Nat.lt_irrefl 0)
  have hwidth := hpart (Nat.zero_lt_of_lt h.x_lt)
  have hheight := hpart (Nat.zero_lt_of_lt h.y_lt)
  exact Nat.mul_pos (Nat.mul_pos hwidth hheight) (PixelType.bytes_pos _)

/-- Different blocks have different entries. -/
theorem InGrid.eq_of_blockNumber (h : InGrid raster bands block) (h' : InGrid raster bands other)
    (hband : other.band - 1 = block.band - 1)
    (hnumber : blockNumber raster bands other = blockNumber raster bands block) :
    other = block := by
  -- equal numbers have equal columns and rows, as the rows are not longer than the grid
  have hx := h'.x_lt
  rw [blockNumber, blockNumber, hband] at hnumber
  rw [hband] at hx
  obtain ⟨hcolumn, hrow⟩ := rowMajor_inj hx h.x_lt hnumber
  have := h.band_pos
  have := h'.band_pos
  obtain ⟨band, x, y⟩ := block
  obtain ⟨band', x', y'⟩ := other
  simp only [BlockRef.mk.injEq] at *
  omega

/-! ## Tables with a new entry -/

/-- Changing the index of one band leaves those of the others alone. -/
private theorem tableAt_modify (tables : Array BlockTable) {i : Nat} (hi : i < tables.size)
    (f : BlockTable → BlockTable) (k : Nat) :
    tableAt (tables.modify i f) k = if k = i then f (tableAt tables i) else tableAt tables k := by
  simp only [tableAt, Array.getD_eq_getD_getElem?, Array.getElem?_modify]
  by_cases hk : k = i
  · subst hk
    simp [hi]
  · simp [hk, Ne.symm hk]

/-- Setting an entry changes this entry and no other of any band. -/
theorem entryAt_setEntry {i x y : Nat} (hi : i < tables.size)
    (hj : (tableAt tables i).entryIndex x y < (tableAt tables i).entries.size) (entry : IndexEntry)
    (k l : Nat) :
    entryAt (tables.modify i (·.setEntry x y entry)) k l =
      if k = i ∧ l = (tableAt tables i).entryIndex x y then entry else entryAt tables k l := by
  rw [entryAt, tableAt_modify tables hi]
  by_cases hk : k = i
  · subst hk
    simp only [if_true, true_and, BlockTable.setEntry, entryAt, Array.getD_eq_getD_getElem?,
      Array.getElem?_setIfInBounds]
    -- in the index that is changed, only the one entry is new
    by_cases hl : l = (tableAt tables k).entryIndex x y
    · subst hl
      simp [hj]
    · simp [hl, Ne.symm hl]
  · rw [if_neg hk, if_neg (fun h => hk h.1), entryAt]

/-- The entry that a block has already changes nothing. -/
theorem setEntry_self (i x y : Nat) :
    tables.modify i (·.setEntry x y ((tableAt tables i).entry x y)) = tables := by
  apply Array.ext_getElem?
  intro k
  rw [Array.getElem?_modify]
  split
  · -- only one table is changed, and of it one entry, to what it was
    next heq =>
    subst heq
    cases hget : tables[i]? with
    | none => rfl
    | some table =>
      have htable : tableAt tables i = table := by
        rw [tableAt, Array.getD_eq_getD_getElem?, hget, Option.getD_some]
      rw [htable, Option.map_some, BlockTable.setEntry, BlockTable.entry]
      congr 2
      apply Array.ext_getElem?
      intro j
      rw [Array.getElem?_setIfInBounds, Array.getD_eq_getD_getElem?]
      split
      · next heq =>
        subst heq
        split
        · next hlt => rw [Array.getElem?_eq_getElem hlt, Option.getD_some]
        · next hge => rw [Array.getElem?_eq_none (by omega)]
      · rfl
  · rfl

/-- Setting an entry leaves the indexes as large as they were. -/
theorem Laid.setEntry {i : Nat} (h : Laid raster bands tables) (hi : i < bands.length) (x y : Nat)
    (entry : IndexEntry) :
    Laid raster bands (tables.modify i (·.setEntry x y entry)) := by
  have htable := tableAt_modify tables (by rwa [h.size]) (·.setEntry x y entry)
  -- an index keeps its place, its shape and its length
  refine ⟨by rw [Array.size_modify, h.size], fun k hk => ?_, fun k hk => ?_, fun k hk => ?_⟩
  · rw [htable]
    split
    · next heq => rw [heq, ← h.offset i hi]; rfl
    · exact h.offset k hk
  · rw [htable]
    split
    · next heq => rw [heq, ← h.blocksPerRow i hi]; rfl
    · exact h.blocksPerRow k hk
  · rw [htable]
    split
    · next heq => rw [heq, ← h.entries i hi]; exact Array.size_setIfInBounds
    · exact h.entries k hk

/-! ## Entries of blocks -/

variable {codec : TiledCodec}

/-- An index in memory counts the blocks as the file does. -/
theorem Laid.entryIndex_eq (h : Laid raster bands tables) (hgrid : InGrid raster bands block) :
    (tableAt tables (block.band - 1)).entryIndex block.x block.y =
      blockNumber raster bands block := by
  rw [BlockTable.entryIndex, h.blocksPerRow _ hgrid.lt, blockNumber]

/-- The entry of a block is the one with its number. -/
theorem Laid.entryOf_eq (h : Laid raster bands codec.tables) (hgrid : InGrid raster bands block) :
    codec.entryOf block =
      entryAt codec.tables (block.band - 1) (blockNumber raster bands block) := by
  rw [← h.entryIndex_eq hgrid]
  rfl

/-- The offset that is kept for an index leads to the place of the entry in the file. -/
theorem Laid.entryOffset_eq (h : Laid raster bands codec.tables)
    (hgrid : InGrid raster bands block) :
    (codec.table block.band).entryOffset block.x block.y =
      entryPlace raster bands (block.band - 1) (blockNumber raster bands block) := by
  have hindex := h.entryIndex_eq hgrid
  have hoffset := h.offset _ hgrid.lt
  show (tableAt codec.tables (block.band - 1)).offset +
    (tableAt codec.tables (block.band - 1)).entryIndex block.x block.y * entryBytes = _
  rw [hindex, hoffset, entryPlace, entryPlace, Nat.add_zero, Nat.add_mul, Nat.add_assoc]

/-- The indexes with a new entry for a block. -/
theorem Laid.entryAt_setEntry (h : Laid raster bands tables) (hgrid : InGrid raster bands block)
    {entry : IndexEntry} {after : Array BlockTable}
    (htables : after = tables.modify (block.band - 1) (·.setEntry block.x block.y entry))
    (k l : Nat) :
    entryAt after k l =
      if k = block.band - 1 ∧ l = blockNumber raster bands block then entry
      else entryAt tables k l := by
  -- the entry exists, so that setting it has an effect
  have hindex := h.entryIndex_eq hgrid
  have hband : block.band - 1 < tables.size := by
    rw [h.size]
    exact hgrid.lt
  have hnumber : (tableAt tables (block.band - 1)).entryIndex block.x block.y <
      (tableAt tables (block.band - 1)).entries.size := by
    rw [hindex, h.entries _ hgrid.lt]
    exact hgrid.blockNumber_lt
  rw [htables, Tiled.entryAt_setEntry hband hnumber, hindex]

/-- Entries of blocks stand before the tiles. -/
theorem InGrid.entry_inside (h : InGrid raster bands block) {bytes : ByteArray}
    (hinside : tilesStart raster bands ≤ bytes.size) (entry : IndexEntry) :
    entryPlace raster bands (block.band - 1) (blockNumber raster bands block) +
      entry.toBytes.size ≤ bytes.size := by
  have hplace := entryPlace_add_le h.blockNumber_lt
  rw [size_toBytes]
  omega

end Tiled

namespace TiledCodec

variable {raster : Size} {bands : List BandDescriptor} {codec : TiledCodec}
variable {block other : BlockRef} {data : ByteArray}

/-- An open tiled file whose bytes are an image of the indexes in memory. -/
structure Intact (raster : Size) (bands : List BandDescriptor) (codec : TiledCodec) : Prop where
  usable : codec.storage.Usable
  image : Image raster bands codec.tables codec.storage.bytes

/-- What a reader finds after some of the writes that store `data` for a block. -/
structure Stage (raster : Size) (bands : List BandDescriptor) (before : TiledCodec)
    (block : BlockRef) (data : ByteArray) (after : TiledCodec) : Prop where
  intact : Intact raster bands after
  entries : ∀ other, InGrid raster bands other → other ≠ block →
    after.entryOf other = before.entryOf other
  others : ∀ other, InGrid raster bands other → other ≠ block →
    after.tile (contextOf raster bands other) = before.tile (contextOf raster bands other)
  own : after.tile (contextOf raster bands block) = before.tile (contextOf raster bands block) ∨
    after.tile (contextOf raster bands block) = data

/-- A storage in which a reader finds a stage; it holds at most the new bytes in addition. -/
def Seen (raster : Size) (bands : List BandDescriptor) (before : TiledCodec) (block : BlockRef)
    (data : ByteArray) (storage : Storage) : Prop :=
  storage.length ≤ before.storage.length + data.size ∧
    ∃ tables, Stage raster bands before block data ⟨storage, tables⟩

/-- Before anything is written, a reader finds what was there. -/
theorem Stage.refl (h : Intact raster bands codec) (block : BlockRef) (data : ByteArray) :
    Stage raster bands codec block data codec :=
  ⟨h, fun _ _ _ => rfl, fun _ _ _ => rfl, .inl rfl⟩

/-! ## Entries and their tiles -/

/-- Where the tile of a block is. -/
theorem Intact.of_isWritten (h : Intact raster bands codec) (hgrid : InGrid raster bands block)
    (hwritten : (codec.entryOf block).isWritten = true) :
    (codec.entryOf block).size = (bandAt bands (block.band - 1)).blockBytes ∧
      tilesStart raster bands ≤ (codec.entryOf block).offset ∧
      (codec.entryOf block).offset + (bandAt bands (block.band - 1)).blockBytes ≤
        codec.storage.bytes.size := by
  rw [h.image.laid.entryOf_eq hgrid] at hwritten ⊢
  obtain ⟨hsize, hstart, hend⟩ := (h.image.tile _ _).of_isWritten hwritten
  exact ⟨hsize, hstart, by rwa [← hsize]⟩

/-- Entries are found in the tables alone. -/
theorem entryOf_congr {after : TiledCodec} (htables : after.tables = codec.tables)
    (block : BlockRef) : after.entryOf block = codec.entryOf block := by
  rw [entryOf, entryOf, table, table, htables]

/-- A block whose entry and tile are as before reads as before. -/
private theorem tile_congr {after : TiledCodec} {context : BlockContext}
    (hentry : after.entryOf context.block = codec.entryOf context.block)
    (htile : (codec.entryOf context.block).isWritten = true →
      after.storage.bytes.slice (codec.entryOf context.block).offset context.descriptor.blockBytes =
        codec.storage.bytes.slice (codec.entryOf context.block).offset
          context.descriptor.blockBytes) :
    after.tile context = codec.tile context := by
  rw [tile, tile, hentry]
  split
  · next hwritten => exact htile hwritten
  · rfl

/-- A block decodes as before if its entry and the bytes that it points to are the same. -/
private theorem tile_contextOf_congr {after : TiledCodec}
    (hentry : after.entryOf block = codec.entryOf block)
    (htile : (codec.entryOf block).isWritten = true →
      after.storage.bytes.slice (codec.entryOf block).offset
          (bandAt bands (block.band - 1)).blockBytes =
        codec.storage.bytes.slice (codec.entryOf block).offset
          (bandAt bands (block.band - 1)).blockBytes) :
    after.tile (contextOf raster bands block) = codec.tile (contextOf raster bands block) :=
  tile_congr hentry htile

/-- A written block decodes to the bytes that its entry points to. -/
theorem tile_of_isWritten (hwritten : (codec.entryOf block).isWritten = true) :
    codec.tile (contextOf raster bands block) =
      codec.storage.bytes.slice (codec.entryOf block).offset
        (bandAt bands (block.band - 1)).blockBytes :=
  if_pos hwritten

/-! ## Stages of storing a tile -/

/-- A new tile without an entry changes nothing for a reader. -/
private theorem stage_append (h : Intact raster bands codec) (hgrid : InGrid raster bands block)
    (husable : { codec.storage with bytes := codec.storage.bytes ++ data }.Usable) :
    Stage raster bands codec block data
      ⟨{ codec.storage with bytes := codec.storage.bytes ++ data }, codec.tables⟩ := by
  have htile {other : BlockRef} (hother : InGrid raster bands other) :
      tile ⟨{ codec.storage with bytes := codec.storage.bytes ++ data }, codec.tables⟩
        (contextOf raster bands other) = codec.tile (contextOf raster bands other) := by
    -- a tile of any block ends before the bytes that were added
    refine tile_contextOf_congr rfl fun hwritten => ?_
    obtain ⟨-, -, hend⟩ := h.of_isWritten hother hwritten
    exact slice_append_of_le hend
  exact ⟨⟨husable, h.image.append data⟩, fun _ _ _ => rfl, fun _ hother _ => htile hother,
    .inl (htile hgrid)⟩

/-- An entry for a tile at the end leaves the file intact. -/
private theorem intact_setEntry {after : TiledCodec} {entry : IndexEntry}
    (h : Intact raster bands codec) (hgrid : InGrid raster bands block)
    (hsize : data.size = (bandAt bands (block.band - 1)).blockBytes)
    (hentry : entry.offset = codec.storage.bytes.size ∧ entry.size = data.size)
    (husable : after.storage.Usable)
    (hbytes : after.storage.bytes = (codec.storage.bytes ++ data).overwrite
      (entryPlace raster bands (block.band - 1) (blockNumber raster bands block)) entry.toBytes)
    (htables : after.tables =
      codec.tables.modify (block.band - 1) (·.setEntry block.x block.y entry)) :
    Intact raster bands after := by
  obtain ⟨hoffset, hlength⟩ := hentry
  have hinside := h.image.inside
  refine ⟨husable, ?_⟩
  rw [hbytes]
  refine (h.image.append data).setEntry ?_ hgrid.blockNumber_lt
    (h.image.laid.entryAt_setEntry hgrid htables) (.inr ⟨by rw [hlength, hsize], by omega, ?_⟩)
    fun k l _ => ?_
  · rw [htables]
    exact h.image.laid.setEntry hgrid.lt _ _ _
  · rw [size_append]
    omega
  · -- the new tile starts where all other ones have ended
    rcases h.image.tile k l with hblank | ⟨-, -, hbefore⟩
    · exact .inr (.inl hblank)
    · exact .inr (.inr (.inr (by omega)))

/-- An entry for a tile at the end makes the block read as the new bytes. -/
private theorem stage_setEntry {after : TiledCodec} {entry : IndexEntry}
    (h : Intact raster bands codec) (hgrid : InGrid raster bands block)
    (hsize : data.size = (bandAt bands (block.band - 1)).blockBytes)
    (hentry : entry.offset = codec.storage.bytes.size ∧ entry.size = data.size)
    (husable : after.storage.Usable)
    (hbytes : after.storage.bytes = (codec.storage.bytes ++ data).overwrite
      (entryPlace raster bands (block.band - 1) (blockNumber raster bands block)) entry.toBytes)
    (htables : after.tables =
      codec.tables.modify (block.band - 1) (·.setEntry block.x block.y entry)) :
    Stage raster bands codec block data after ∧
      after.tile (contextOf raster bands block) = data ∧
      (after.entryOf block).isWritten = true := by
  have hintact := intact_setEntry h hgrid hsize hentry husable hbytes htables
  have hentries := h.image.laid.entryAt_setEntry hgrid htables
  obtain ⟨hoffset, hlength⟩ := hentry
  have hinside := h.image.inside
  have hstart := tilesStart_pos raster bands
  have hplace := entryPlace_add_le hgrid.blockNumber_lt
  have hlonger : tilesStart raster bands ≤ (codec.storage.bytes ++ data).size := by
    rw [size_append]
    omega
  have hend := hgrid.entry_inside hlonger entry
  have hown : after.entryOf block = entry := by
    rw [hintact.image.laid.entryOf_eq hgrid, hentries, if_pos ⟨rfl, rfl⟩]
  have hwritten : (after.entryOf block).isWritten = true := by
    rw [hown, IndexEntry.isWritten, bne_iff_ne]
    omega
  have htile : after.tile (contextOf raster bands block) = data := by
    rw [tile_of_isWritten hwritten, hown, hbytes, hoffset, ← hsize,
      slice_overwrite_of_apart hend (by rw [size_toBytes]; omega),
      slice_append_of_ge (Nat.le_refl _) (Nat.le_refl _), Nat.sub_self, slice_zero_size]
  have hothers {other : BlockRef} (hother : InGrid raster bands other) (hne : other ≠ block) :
      after.entryOf other = codec.entryOf other := by
    rw [hintact.image.laid.entryOf_eq hother, h.image.laid.entryOf_eq hother, hentries, if_neg]
    exact fun hboth => hne (hgrid.eq_of_blockNumber hother hboth.1 hboth.2)
  -- the file is intact, the other entries and tiles are as before, the own tile is the new one
  refine ⟨⟨hintact, fun _ => hothers, fun other hother hne => ?_, .inr htile⟩, htile, hwritten⟩
  -- neither the new tile nor its entry touches the tiles of other blocks
  refine tile_contextOf_congr (hothers hother hne) fun holder => ?_
  obtain ⟨-, hfrom, hto⟩ := h.of_isWritten hother holder
  rw [hbytes, slice_overwrite_of_apart hend (by rw [size_toBytes]; omega)]
  exact slice_append_of_le hto

/-- New bytes in the place of the old tile. -/
private theorem stage_inPlace {after : TiledCodec} (h : Intact raster bands codec)
    (hgrid : InGrid raster bands block)
    (hsize : data.size = (bandAt bands (block.band - 1)).blockBytes)
    (hwritten : (codec.entryOf block).isWritten = true) (husable : after.storage.Usable)
    (hbytes : after.storage.bytes =
      codec.storage.bytes.overwrite (codec.entryOf block).offset data)
    (htables : after.tables = codec.tables) :
    Stage raster bands codec block data after ∧
      after.tile (contextOf raster bands block) = data ∧
      (after.entryOf block).isWritten = true := by
  obtain ⟨-, hstart, hend⟩ := h.of_isWritten hgrid hwritten
  rw [← hsize] at hend
  have hentry := entryOf_congr htables
  have htile : after.tile (contextOf raster bands block) = data := by
    rw [tile_of_isWritten (by rw [hentry, hwritten]), hentry, hbytes]
    exact slice_overwrite_of_size (by omega) hsize
  refine ⟨⟨⟨husable, ?_⟩, fun other _ _ => hentry other, fun other hother hne => ?_, .inr htile⟩,
    htile, by rw [hentry, hwritten]⟩
  · -- the new tile is as long as the old one
    rw [hbytes, htables]
    exact h.image.overwrite hstart hend
  · -- entries are as before, so it remains to compare the bytes
    refine tile_contextOf_congr (hentry other) fun holder => ?_
    -- the tiles of the two blocks do not overlap
    have hapart := h.image.apart (block.band - 1) (blockNumber raster bands block)
      (other.band - 1) (blockNumber raster bands other)
      fun hboth => hne (hgrid.eq_of_blockNumber hother hboth.1.symm hboth.2.symm)
    rw [← h.image.laid.entryOf_eq hgrid, ← h.image.laid.entryOf_eq hother] at hapart
    have hown := h.of_isWritten hgrid hwritten
    obtain ⟨hlength, hfrom, hto⟩ := h.of_isWritten hother holder
    rw [hbytes, slice_overwrite_of_apart hend]
    rcases hapart with hblank | hblank | hbefore | hbehind
    · -- a block with a tile is not blank, so that the other two cases are left
      rw [hblank] at hwritten
      simp [IndexEntry.isWritten] at hwritten
    · rw [hblank] at holder
      simp [IndexEntry.isWritten] at holder
    · exact .inr (by omega)
    · exact .inl (by omega)

/-! ## The writes of an encoding -/

/-- A step on the storage leaves the indexes in memory as they are. -/
theorem ends_onStorage {α : Type} {act : Action Storage α} {good : α → TiledCodec → Prop}
    {bad : RasterError → TiledCodec → Prop}
    (h : act.Ends codec.storage (fun value storage => good value ⟨storage, codec.tables⟩)
      (fun error storage => bad error ⟨storage, codec.tables⟩)) :
    (onStorage act).Ends codec good bad :=
  h.of_part (fun storage => ⟨storage, codec.tables⟩) rfl

/-- A block that has a tile of the size is written over the old bytes. -/
private theorem planEncode_of_isWritten (hwritten : (codec.entryOf block).isWritten = true)
    (hsize : (codec.entryOf block).size = data.size) :
    codec.planEncode block data =
      .ok ([((codec.entryOf block).offset, data)], codec.entryOf block) :=
  (if_pos hwritten).trans (if_neg fun hne => hne hsize)

/-- A block without a tile is written at the end of the file, and then its entry. -/
private theorem planEncode_of_blank (hblank : (codec.entryOf block).isWritten = false)
    (hsize : data.size < byteLimit 4) :
    codec.planEncode block data =
      .ok ([(codec.storage.length, data),
        ((codec.table block.band).entryOffset block.x block.y,
          (IndexEntry.mk codec.storage.length data.size).toBytes)],
        ⟨codec.storage.length, data.size⟩) := by
  have hnot : ¬(codec.entryOf block).isWritten = true := by
    rw [hblank]
    exact Bool.false_ne_true
  -- the block has no tile, which leaves the second branch of the plan
  refine (if_neg hnot).trans ?_
  rw [dimension_of_lt hsize]
  rfl

/-- A tile in the file is replaced; this cannot fail. -/
private theorem ends_replace (husable : codec.storage.Usable) (hdata : 0 < data.size)
    (hend : (codec.entryOf block).offset + data.size ≤ codec.storage.length) :
    (Storage.write (codec.entryOf block).offset data).Ends codec.storage
      (fun _ storage => storage.Usable ∧ storage.medium = codec.storage.medium ∧
        storage.bytes = codec.storage.bytes.overwrite (codec.entryOf block).offset data)
      (fun _ _ => False) := by
  apply (Storage.ends_write_of_inside husable hdata hend).imp
  intro _ storage hstorage
  obtain ⟨rfl, husable⟩ := hstorage
  exact ⟨husable, rfl, rfl⟩

/-- A new tile is added at the end, or nothing changes as the file would be too long. -/
private theorem ends_add (husable : codec.storage.Usable) (hdata : 0 < data.size) :
    (Storage.write codec.storage.length data).Ends codec.storage
      (fun _ storage =>
        storage = { codec.storage with bytes := codec.storage.bytes ++ data } ∧ storage.Usable)
      (fun _ storage => storage = codec.storage ∧ codec.storage.medium ≠ .memory ∧
        offsetLimit ≤ codec.storage.length + data.size) := by
  refine (Storage.ends_write husable hdata).mono ?_ fun _ _ h => ⟨h.1, h.2.2.2, h.2.2.1⟩
  intro _ storage hstorage
  obtain ⟨rfl, husable⟩ := hstorage
  refine ⟨?_, husable⟩
  rw [Storage.length, Storage.written_at_end]

/-- The entry of a tile that was added is written; this cannot fail. -/
private theorem ends_index (hlaid : Laid raster bands codec.tables)
    (hinside : tilesStart raster bands ≤ codec.storage.length)
    (hgrid : InGrid raster bands block) (entry : IndexEntry)
    (husable : { codec.storage with bytes := codec.storage.bytes ++ data }.Usable) :
    (Storage.write ((codec.table block.band).entryOffset block.x block.y) entry.toBytes).Ends
      { codec.storage with bytes := codec.storage.bytes ++ data }
      (fun _ storage => storage.Usable ∧ storage.medium = codec.storage.medium ∧
        storage.bytes = (codec.storage.bytes ++ data).overwrite
          (entryPlace raster bands (block.band - 1) (blockNumber raster bands block))
          entry.toBytes)
      (fun _ _ => False) := by
  -- the entry is in front of the tiles, so it is written inside
  have hlonger : tilesStart raster bands ≤ (codec.storage.bytes ++ data).size := by
    rw [size_append]
    exact Nat.le_trans hinside (Nat.le_add_right _ _)
  have hentry : 0 < entry.toBytes.size := by
    rw [size_toBytes]
    decide
  rw [hlaid.entryOffset_eq hgrid]
  apply (Storage.ends_write_of_inside husable hentry (hgrid.entry_inside hlonger entry)).imp
  intro _ storage hstorage
  obtain ⟨rfl, hafter⟩ := hstorage
  exact ⟨hafter, rfl, rfl⟩

/-- The entry of a new tile does not make the file longer. -/
theorem size_indexed (hinside : tilesStart raster bands ≤ codec.storage.length)
    (hgrid : InGrid raster bands block) (entry : IndexEntry) :
    ((codec.storage.bytes ++ data).overwrite
        (entryPlace raster bands (block.band - 1) (blockNumber raster bands block))
        entry.toBytes).size = codec.storage.length + data.size := by
  have hlonger : tilesStart raster bands ≤ (codec.storage.bytes ++ data).size := by
    rw [size_append]
    exact Nat.le_trans hinside (Nat.le_add_right _ _)
  rw [size_overwrite (hgrid.entry_inside hlonger entry), size_append]
  rfl

/-- What storing a block does to a file: a tile is replaced, or one is added at the end and gets an
    entry. -/
inductive Written (raster : Size) (bands : List BandDescriptor) (before : TiledCodec)
    (block : BlockRef) (data : ByteArray) (after : TiledCodec) : Prop
  | replaced (hwritten : (before.entryOf block).isWritten = true)
      (hbytes : after.storage.bytes =
        before.storage.bytes.overwrite (before.entryOf block).offset data)
      (htables : after.tables = before.tables)
  | added (hblank : (before.entryOf block).isWritten = false)
      (hbytes : after.storage.bytes = (before.storage.bytes ++ data).overwrite
        (entryPlace raster bands (block.band - 1) (blockNumber raster bands block))
        (IndexEntry.mk before.storage.length data.size).toBytes)
      (htables : after.tables = before.tables.modify (block.band - 1)
        (·.setEntry block.x block.y ⟨before.storage.length, data.size⟩))

/-- Storing a block fails only if it has no tile yet and the file cannot become longer. Nothing is
    asked here of other blocks and bands. -/
theorem ends_writeBlock_written (husable : codec.storage.Usable)
    (hlaid : Laid raster bands codec.tables)
    (hinside : tilesStart raster bands ≤ codec.storage.length)
    (hgrid : InGrid raster bands block) (hdata : 0 < data.size) (hlimit : data.size < byteLimit 4)
    (htile : (codec.entryOf block).isWritten = true → (codec.entryOf block).size = data.size ∧
      (codec.entryOf block).offset + data.size ≤ codec.storage.length) :
    (writeBlock block data).Ends codec
      (fun _ after => after.storage.Usable ∧ after.storage.medium = codec.storage.medium ∧
        Written raster bands codec block data after)
      (fun _ after => after = codec ∧ (codec.entryOf block).isWritten = false ∧
        codec.storage.medium ≠ .memory ∧ offsetLimit ≤ codec.storage.length + data.size) := by
  cases hwritten : (codec.entryOf block).isWritten with
  | true =>
    -- one write in place
    obtain ⟨hsize, hend⟩ := htile hwritten
    refine Ends.get_bind (Ends.lift_bind (planEncode_of_isWritten hwritten hsize)
      (Ends.bind (ends_onStorage
        (Ends.bind ((ends_replace husable hdata hend).mono ?_ fun _ _ h => h.elim)))))
    intro _ storage hstorage
    obtain ⟨hafter, hmedium, hbytes⟩ := hstorage
    exact ends_pure.mpr (ends_modify.mpr
      ⟨hafter, hmedium, .replaced hwritten hbytes (setEntry_self _ _ _)⟩)
  | false =>
    -- two writes; only the first one can fail, as the second lies inside
    refine Ends.get_bind (Ends.lift_bind (planEncode_of_blank hwritten hlimit)
      (Ends.bind (ends_onStorage (Ends.bind ((ends_add husable hdata).mono ?_ ?_)))))
    · intro _ storage hstorage
      obtain ⟨rfl, hadded⟩ := hstorage
      refine Ends.bind ((ends_index hlaid hinside hgrid _ hadded).mono ?_ fun _ _ h => h.elim)
      intro _ storage hstorage
      obtain ⟨hafter, hmedium, hbytes⟩ := hstorage
      exact ends_pure.mpr (ends_modify.mpr ⟨hafter, hmedium, .added hwritten hbytes rfl⟩)
    · intro error storage hfailed
      obtain ⟨rfl, hmedium, hfull⟩ := hfailed
      exact ⟨rfl, rfl, hmedium, hfull⟩

section Prefix

variable (h : Intact raster bands codec) (hgrid : InGrid raster bands block)
variable (hsize : data.size = (bandAt bands (block.band - 1)).blockBytes)

include h in
/-- Before the first write, a reader finds the old file. -/
private theorem seen_before : Seen raster bands codec block data codec.storage :=
  ⟨Nat.le_add_right _ _, codec.tables, .refl h block data⟩

include h hgrid hsize

/-- The one write of a block that has a tile leaves the other tiles alone. -/
private theorem ends_replace_seen (hwritten : (codec.entryOf block).isWritten = true) :
    (Storage.writeAll [((codec.entryOf block).offset, data)]).Ends codec.storage
      (fun _ => Seen raster bands codec block data)
      (fun _ => Seen raster bands codec block data) := by
  have hpos := hgrid.blockBytes_pos
  obtain ⟨-, -, hend⟩ := h.of_isWritten hgrid hwritten
  rw [← hsize] at hend
  refine Ends.bind ((ends_replace h.usable (by omega) hend).mono ?_ fun _ _ h => h.elim)
  intro _ storage hstorage
  obtain ⟨husable, -, hbytes⟩ := hstorage
  have hstage : Stage raster bands codec block data ⟨storage, codec.tables⟩ ∧ _ :=
    stage_inPlace h hgrid hsize hwritten husable hbytes rfl
  refine ends_pure.mpr ⟨?_, codec.tables, hstage.1⟩
  -- the file is as long as it was
  rw [Storage.length, hbytes, size_overwrite (by omega)]
  exact Nat.le_add_right _ _

/-- The first of the two writes of a new tile adds bytes that no entry speaks of. -/
private theorem ends_add_seen :
    (Storage.writeAll [(codec.storage.length, data)]).Ends codec.storage
      (fun _ => Seen raster bands codec block data)
      (fun _ => Seen raster bands codec block data) := by
  have hpos := hgrid.blockBytes_pos
  refine Ends.bind ((ends_add h.usable (by omega)).mono ?_ ?_)
  · intro _ storage hstorage
    obtain ⟨rfl, husable⟩ := hstorage
    exact ends_pure.mpr ⟨Nat.le_of_eq size_append, codec.tables, stage_append h hgrid husable⟩
  · -- a failing write leaves the storage as it was
    intro _ storage hstorage
    obtain ⟨rfl, -⟩ := hstorage
    exact seen_before h

/-- The second one points the entry of the block to them. -/
private theorem ends_index_seen :
    (Storage.writeAll [(codec.storage.length, data),
      ((codec.table block.band).entryOffset block.x block.y,
        (IndexEntry.mk codec.storage.length data.size).toBytes)]).Ends codec.storage
      (fun _ => Seen raster bands codec block data)
      (fun _ => Seen raster bands codec block data) := by
  have hpos := hgrid.blockBytes_pos
  refine Ends.bind ((ends_add h.usable (by omega)).mono ?_ ?_)
  · -- the tile is at the end of the file, and its entry is written next
    intro _ storage hstorage
    obtain ⟨rfl, husable⟩ := hstorage
    refine Ends.bind ((ends_index h.image.laid h.image.inside hgrid _ husable).mono ?_
      fun _ _ h => h.elim)
    intro _ storage hstorage
    obtain ⟨hafter, -, hbytes⟩ := hstorage
    refine ends_pure.mpr
      ⟨?_, _, (stage_setEntry h hgrid hsize ⟨rfl, rfl⟩ hafter hbytes rfl).1⟩
    refine Nat.le_of_eq ?_
    rw [Storage.length, hbytes, size_indexed h.image.inside hgrid]
  · -- the tile was not written, and a reader finds what was there
    intro _ storage hstorage
    obtain ⟨rfl, -⟩ := hstorage
    exact seen_before h

end Prefix

/-- After any number of the writes that store a block, a reader finds a stage. -/
theorem stage_of_prefix (h : Intact raster bands codec) (hgrid : InGrid raster bands block)
    (hsize : data.size = (bandAt bands (block.band - 1)).blockBytes) :
    ∃ writes entry, codec.planEncode block data = .ok (writes, entry) ∧
      ∀ n, Seen raster bands codec block data
        ((Storage.writeAll (writes.take n)).run codec.storage).2 := by
  cases hwritten : (codec.entryOf block).isWritten with
  | true =>
    -- one write, in the place of the old tile
    obtain ⟨hlength, -, -⟩ := h.of_isWritten hgrid hwritten
    refine ⟨_, _, planEncode_of_isWritten hwritten (by rw [hlength, hsize]), fun n => ?_⟩
    cases n with
    | zero => exact seen_before h
    | succ n =>
      rw [List.take_succ_cons, List.take_nil]
      exact (ends_replace_seen h hgrid hsize hwritten).reached
  | false =>
    -- two writes: the tile at the end, then its entry
    have hlimit := h.image.geometry.blockBytes_lt _ (bandAt_mem hgrid.lt)
    have hsmall : data.size < byteLimit 4 := by omega
    refine ⟨_, _, planEncode_of_blank hwritten hsmall, fun n => ?_⟩
    cases n with
    | zero => exact seen_before h
    | succ n =>
      cases n with
      | zero => exact (ends_add_seen h hgrid hsize).reached
      | succ n =>
        rw [List.take_succ_cons, List.take_succ_cons, List.take_nil]
        exact (ends_index_seen h hgrid hsize).reached

/-! ## Whole steps -/

/-- The storage after an encoding is the one after all of its writes. -/
theorem storage_writeBlock {writes : List (Nat × ByteArray)} {entry : IndexEntry}
    (hplan : codec.planEncode block data = .ok (writes, entry)) :
    ((writeBlock block data).run codec).2.storage =
      ((Storage.writeAll writes).run codec.storage).2 := by
  have hends : (writeBlock block data).Ends codec
      (fun _ after => after.storage = ((Storage.writeAll writes).run codec.storage).2)
      (fun _ after => after.storage = ((Storage.writeAll writes).run codec.storage).2) := by
    -- the plan is carried out on the storage, and then the indexes in memory follow
    refine Ends.get_bind (Ends.lift_bind hplan (Ends.bind (ends_onStorage ?_)))
    unfold Ends
    split
    · next hrun => rw [hrun]; rfl
    · next hrun => rw [hrun]
  exact hends.reached

/-- By how much the file grows when a block is stored: by its bytes if it has no tile yet. -/
def growth (bands : List BandDescriptor) (codec : TiledCodec) (block : BlockRef) : Nat :=
  if (codec.entryOf block).isWritten then 0 else (bandAt bands (block.band - 1)).blockBytes

/-- Storing a block changes what is read of it and nothing else, or nothing at all if there is no
    room for it. -/
theorem ends_writeBlock (h : Intact raster bands codec) (hgrid : InGrid raster bands block)
    (hsize : data.size = (bandAt bands (block.band - 1)).blockBytes) :
    (writeBlock block data).Ends codec
      (fun _ after => after.storage.medium = codec.storage.medium ∧
        after.storage.length = codec.storage.length + codec.growth bands block ∧
        Stage raster bands codec block data after ∧
        after.tile (contextOf raster bands block) = data ∧
        (after.entryOf block).isWritten = true)
      (fun _ after => after = codec ∧
        offsetLimit ≤ codec.storage.length + codec.growth bands block) := by
  have hpos := hgrid.blockBytes_pos
  have hlimit := h.image.geometry.blockBytes_lt _ (bandAt_mem hgrid.lt)
  have htile : (codec.entryOf block).isWritten = true → (codec.entryOf block).size = data.size ∧
      (codec.entryOf block).offset + data.size ≤ codec.storage.length := by
    intro hwritten
    obtain ⟨hlength, -, hend⟩ := h.of_isWritten hgrid hwritten
    rw [hsize]
    exact ⟨hlength, hend⟩
  apply (ends_writeBlock_written h.usable h.image.laid h.image.inside hgrid (by omega) (by omega)
    htile).mono
  · intro _ after hafter
    obtain ⟨husable, hmedium, hwritten⟩ := hafter
    cases hwritten with
    | replaced hwritten hbytes htables =>
      -- the file is as long as before
      refine ⟨hmedium, ?_, stage_inPlace h hgrid hsize hwritten husable hbytes htables⟩
      rw [growth, if_pos hwritten, Storage.length, hbytes, size_overwrite (htile hwritten).2]
      rfl
    | added hblank hbytes htables =>
      -- the file is longer by the tile
      refine ⟨hmedium, ?_, stage_setEntry h hgrid hsize ⟨rfl, rfl⟩ husable hbytes htables⟩
      rw [growth, hblank, Storage.length, hbytes, size_indexed h.image.inside hgrid, hsize]
      rfl
  · intro _ after hfailed
    obtain ⟨rfl, hblank, -, hfull⟩ := hfailed
    refine ⟨rfl, ?_⟩
    rw [growth, hblank, if_neg Bool.false_ne_true, ← hsize]
    exact hfull

/-- The header of a band can be read from the file. -/
theorem Intact.read_bandHeader {band : Nat} (h : Intact raster bands codec) (hpos : 0 < band)
    (hband : band ≤ bands.length) :
    codec.storage.read (bandHeaderOffset band) bandHeaderBytes =
      .ok (bandRecord (bandAt bands (band - 1))) := by
  have hi : band - 1 < bands.length := by omega
  have hheader := bandHeader_add_le hi
  have hstart : tablesStart bands ≤ tilesStart raster bands := tablesStart_le
  rw [bandHeaderOffset, Storage.read_of_readable h.usable.readable, h.image.bandHeader _ hi]
  exact Nat.le_trans hheader (Nat.le_trans hstart h.image.inside)

/-- Another no-data value changes the descriptor of the band. Stored tiles stay as they are; it
    cannot fail. -/
theorem ends_writeNoData {band : Nat} (h : Intact raster bands codec) (hpos : 0 < band)
    (hband : band ≤ bands.length) (value : Option Binary64) :
    (writeNoData band value).Ends codec
      (fun _ after => after.storage.medium = codec.storage.medium ∧
        after.storage.length = codec.storage.length ∧ after.tables = codec.tables ∧
        Intact raster (withNoData bands (band - 1) value) after ∧
        ∀ context, InGrid raster bands context.block → after.tile context = codec.tile context)
      (fun _ _ => False) := by
  have hi : band - 1 < bands.length := by omega
  have hblock := h.image.geometry.block _ (bandAt_mem hi)
  have hinside := h.image.inside
  have hheader := bandHeader_add_le hi
  have hstart : tablesStart bands ≤ tilesStart raster bands := tablesStart_le
  have hread := h.read_bandHeader hpos hband
  have hend : bandHeaderOffset band +
      (bandRecord { bandAt bands (band - 1) with noData := value }).size ≤
        codec.storage.bytes.size := by
    rw [size_bandRecord]
    exact Nat.le_trans hheader (Nat.le_trans hstart hinside)
  have hprinted : bandHeader { bandAt bands (band - 1) with noData := value } =
      .ok (bandRecord { bandAt bands (band - 1) with noData := value }) :=
    bandHeader_of_storable hblock
  -- the header is read and parsed, and then written to its place with the new value
  refine Ends.get_bind (Ends.lift_bind hread (Ends.lift_bind (parseBandHeader_bandRecord hblock)
    (Ends.lift_bind hprinted (ends_onStorage
      ((Storage.ends_write_of_inside h.usable ?_ hend).mono ?_ fun _ _ h => h)))))
  · rw [size_bandRecord]
    decide
  · intro _ storage hstorage
    obtain ⟨hstorage, husable⟩ := hstorage
    have hmedium : storage.medium = codec.storage.medium := by rw [hstorage]
    have hbytes := congrArg Storage.bytes hstorage
    refine ⟨hmedium, ?_, rfl, ⟨husable, ?_⟩, fun context hgrid => ?_⟩
    · show storage.bytes.size = _
      rw [hbytes]
      exact size_overwrite hend
    · show Image raster (withNoData bands (band - 1) value) codec.tables storage.bytes
      rw [hbytes]
      exact h.image.setNoData hi value
    · -- headers stand before all tiles
      refine tile_congr (entryOf_congr rfl _) fun hwritten => ?_
      obtain ⟨-, hfrom, -⟩ := h.of_isWritten hgrid hwritten
      show storage.bytes.slice _ _ = _
      rw [hbytes]
      refine slice_overwrite_of_apart hend (.inr ?_)
      rw [size_bandRecord]
      exact Nat.le_trans hheader (Nat.le_trans hstart hfrom)

end TiledCodec

end RasterStore
