import RasterStore.Proofs.Cache.Flush
import RasterStore.Proofs.Dataset.ExactBlocks

/-!
# Writes that are interrupted

Writing a window and filling a band change the blocks of the band one after the other, row by row.
If a call of the codec fails, the blocks before the failing one have their new pixels, and all
others are as before, byte for byte; the failure may have been about another block altogether, one
that had to make room. This holds over any codec that stores blocks exactly.

* `RasterCall.Covers`      the blocks that a call changes, in order
* `PaintedPrefix`          the first of these blocks are changed, and nothing else is
* `failing_write_paints_first_blocks`  what any write leaves behind
-/

namespace RasterStore

open BlockStore RasterStore.Action
open Tiled (InGrid)

/-! ## The blocks of a call -/

/-- The calls that change the blocks of a band one after the other. -/
inductive RasterCall.PaintsBand : RasterCall → Nat → Prop
  | write (band : Nat) (request : TransferRequest) (buffer : ByteArray) :
      PaintsBand (.write band request buffer) band
  | fill (band : Nat) (value : Binary64) : PaintsBand (.fill band value) band

/-- The blocks of the grid that the call gives new pixels, row by row. -/
structure RasterCall.Covers (raster : Size) (bands : List BandDescriptor) (call : RasterCall)
    (blocks : List BlockRef) : Prop where
  ordered : blocks.Pairwise BlockRef.Before
  mem_iff : ∀ key, key ∈ blocks ↔ InGrid raster bands key ∧ call.Writes bands key

/-- The block of a band in a column and row of its grid. -/
def BlockRef.ofCell (band : Nat) (cell : Nat × Nat) : BlockRef :=
  ⟨band, cell.1, cell.2⟩

variable {raster : Size} {bands : List BandDescriptor} {descriptor : BandDescriptor} {band : Nat}

theorem pairwise_ofCell (band x y : Nat) (size : Size) :
    ((cells x y size).map (BlockRef.ofCell band)).Pairwise BlockRef.Before := by
  rw [List.pairwise_map]
  exact (pairwise_cells x y size).imp fun hbefore => .inr ⟨rfl, hbefore⟩

/-- A write changes the blocks that its window touches. -/
theorem covers_write {request : TransferRequest} {buffer : ByteArray} (hgrid : HasGrid bands band)
    (hwindow : (Window.ofRequest request).Inside raster)
    (hblock : descriptor.block = (bandOf bands band).block) :
    (RasterCall.write band request buffer).Covers raster bands
      ((touchedBlocks descriptor (.ofRequest request)).map (BlockRef.ofCell band)) where
  ordered := pairwise_ofCell band _ _ _
  mem_iff key := by
    have hblocked : descriptor.Blocked := by
      rw [BandDescriptor.Blocked, hblock]
      exact hgrid.blocked
    rw [List.mem_map]
    constructor
    · -- a touched block holds a pixel of the window
      rintro ⟨cell, hcell, rfl⟩
      obtain ⟨x, y, hcontains, rfl⟩ := contains_of_touched hblocked hwindow hcell
      obtain ⟨hx, hy⟩ := hwindow.contains_lt hcontains
      exact ⟨hgrid.inGrid_blockOf hblock hx hy, x, y, hcontains, by
        rw [BandDescriptor.blockOf, ← hblock]
        rfl⟩
    · -- the block of a pixel of the window is touched
      rintro ⟨-, x, y, hcontains, rfl⟩
      refine ⟨_, touched_of_contains hcontains, ?_⟩
      rw [BandDescriptor.blockOf, ← hblock]
      rfl

/-- A fill changes all blocks of the band. -/
theorem covers_fill {value : Binary64} (hgrid : HasGrid bands band)
    (hblock : descriptor.block = (bandOf bands band).block) :
    (RasterCall.fill band value).Covers raster bands
      ((cells 0 0 (descriptor.grid raster)).map (BlockRef.ofCell band)) where
  ordered := pairwise_ofCell band _ _ _
  mem_iff key := by
    have hsize : descriptor.grid raster = (bandOf bands band).grid raster := by
      rw [BandDescriptor.grid, BandDescriptor.grid, hblock]
    rw [List.mem_map, hsize]
    -- the cells of the grid are the blocks of the band, and each is written
    constructor
    · rintro ⟨cell, hcell, rfl⟩
      obtain ⟨⟨-, hcolumn⟩, -, hrow⟩ := mem_cells.mp hcell
      rw [Nat.zero_add] at hcolumn hrow
      exact ⟨⟨hgrid.pos, hgrid.le, hcolumn, hrow⟩, rfl⟩
    · rintro ⟨hkey, rfl⟩
      refine ⟨(key.x, key.y), mem_cells.mpr ?_, rfl⟩
      simp only [Nat.zero_add, Nat.zero_le, true_and]
      exact ⟨hkey.x_lt, hkey.y_lt⟩

/-- No-data values do not matter to what a call does to a plain raster. -/
theorem SameShapes.effect {bands' : List BandDescriptor} (h : SameShapes bands bands')
    (call : RasterCall) (plain : PlainRaster) :
    call.effect bands' plain = call.effect bands plain := by
  -- a call looks at the types and at the blocks of its band, and at nothing else of it
  cases call with
  | write | writeResampled =>
    simp only [RasterCall.effect]
    funext b x y
    rw [PlainRaster.write, PlainRaster.write, h.type]
  | writeBlock =>
    simp only [RasterCall.effect]
    funext b x y
    simp only [PlainRaster.writeBlock, h.type, h.block]
  | fill =>
    simp only [RasterCall.effect]
    funext b x y
    rw [PlainRaster.fill, PlainRaster.fill, h.type]
  | _ => rfl

/-! ## Blocks that are done -/

variable {κ : Type} [Codec κ] [ExactCodec κ]

/-- The first `count` of the blocks have the pixels that the whole call would give them. All other
    blocks are as before, and so are the pixels that the call does not change. -/
structure PaintedPrefix (raster : Size) (bands : List BandDescriptor) (call : RasterCall)
    (blocks : List BlockRef) (count : Nat) (before after : BlockStore κ) : Prop where
  sameBands : before.SameBands after
  done : ∀ key ∈ blocks.take count, ∀ x y, x < raster.width → y < raster.height →
    (bandOf bands key.band).blockOf key.band x y = key →
    after.pixels key.band x y = call.effect bands before.pixels key.band x y
  others : ∀ key, InGrid raster bands key → key ∉ blocks.take count →
    after.content key = before.content key
  kept : ∀ band x y, IsBand bands band → x < raster.width → y < raster.height →
    call.effect bands before.pixels band x y = before.pixels band x y →
    after.pixels band x y = before.pixels band x y

variable {access : Access} {dataset : Dataset κ} {after : BlockStore κ}
variable {new : Nat → Nat → Option ByteArray} {painted : List (Nat × Nat)}

namespace ExactDataset

/-- The pixels after some blocks were painted. -/
private theorem pixels_of_painted (h : ExactDataset access raster bands dataset)
    (hpainted : (exactPixels raster bands).Painted dataset.store band new painted after)
    {b x y : Nat} (hb : IsBand bands b) (hx : x < raster.width) (hy : y < raster.height) :
    after.pixels b x y =
      if (bandOf bands b).blockOf b x y ∈ painted.map (BlockRef.ofCell band) then
        dataset.store.pixels.draw band new b x y
      else dataset.store.pixels b x y := by
  have hmem : (bandOf bands b).blockOf b x y ∈ painted.map (BlockRef.ofCell band) ↔
      b = band ∧ (x / (dataset.store.descriptor band).block.width,
        y / (dataset.store.descriptor band).block.height) ∈ painted := by
    rw [List.mem_map, h.block_eq]
    -- the key of a block of this band determines its cell
    constructor
    · rintro ⟨cell, hcell, hkey⟩
      obtain ⟨rfl, hcolumn, hrow⟩ := (BlockRef.mk.injEq ..).mp hkey
      rw [← hcolumn, ← hrow]
      exact ⟨rfl, hcell⟩
    · rintro ⟨rfl, hcell⟩
      exact ⟨_, hcell, rfl⟩
  have hpixel := hpainted.pixel b x y (h.serving hb) (by rwa [h.blocks.sameRaster])
    (by rwa [h.blocks.sameRaster])
  refine hpixel.trans ?_
  -- a pixel of a painted block is drawn, any other is as before
  by_cases hdone : (bandOf bands b).blockOf b x y ∈ painted.map (BlockRef.ofCell band)
  · rw [if_pos hdone, if_pos (hmem.mp hdone), PlainRaster.draw, if_pos (hmem.mp hdone).1]
    obtain rfl := (hmem.mp hdone).1
    rfl
  · rw [if_neg hdone, if_neg fun hboth => hdone (hmem.mpr hboth)]
    rfl

/-- A loop that painted the first of its blocks leaves them done and the others as they were. -/
private theorem paintedPrefix_of_painted (h : ExactDataset access raster bands dataset)
    (hband : IsBand bands band) {call : RasterCall}
    (heffect : ∀ plain, call.effect bands plain = plain.draw band new)
    (hpainted : (exactPixels raster bands).Painted dataset.store band new painted after)
    {rest : List (Nat × Nat)} :
    PaintedPrefix raster bands call ((painted ++ rest).map (BlockRef.ofCell band)) painted.length
      dataset.store after := by
  have htake : ((painted ++ rest).map (BlockRef.ofCell band)).take painted.length =
      painted.map (BlockRef.ofCell band) := by
    rw [← List.map_take, List.take_left]
  constructor
  · exact hpainted.bands
  · -- a block of the prefix shows what the call draws there
    intro key hkey x y hx hy hblock
    rw [htake] at hkey
    have hkeyBand : key.band = band := by
      obtain ⟨cell, -, rfl⟩ := List.mem_map.mp hkey
      rfl
    rw [h.pixels_of_painted hpainted (hkeyBand ▸ hband) hx hy, hblock, if_pos hkey, heffect]
  · -- a block behind the prefix is not touched
    intro key hkey hnot
    rw [htake] at hnot
    apply hpainted.others key (h.blocks.served hkey)
    rintro ⟨rfl, hcell⟩
    exact hnot (List.mem_map.mpr ⟨_, hcell, rfl⟩)
  · -- a pixel that the call leaves alone is the same in both cases
    intro b x y hb hx hy hsame
    rw [heffect] at hsame
    rw [h.pixels_of_painted hpainted hb hx hy, hsame, ite_self]

end ExactDataset

/-! ## Calls -/

/-- What a call leaves behind, whatever its outcome: the first of its blocks are done, and nothing
    else has changed. If the call succeeds, all of them are; if it fails, it is because the next one
    could not be fetched when those were done. -/
def LeavesPrefix (raster : Size) (bands : List BandDescriptor) (call : RasterCall)
    (before : Dataset κ) (outcome : Except RasterError PUnit) (after : Dataset κ) : Prop :=
  ∃ blocks count, call.Covers raster bands blocks ∧
    PaintedPrefix raster bands call blocks count before.store after.store ∧
    after = { before with store := after.store } ∧
    match outcome with
    | .ok _ => count = blocks.length
    | .error error => ∃ key use reached, blocks[count]? = some key ∧
      PaintedPrefix raster bands call blocks count before.store reached ∧
      (fetch key use).run reached = (.error error, after.store)

namespace ExactDataset

variable {call : RasterCall} {blocks : List (Nat × Nat)}

/-- A loop that paints the blocks of a call leaves a prefix of them done. -/
private theorem ends_of_painting {act : Action (BlockStore κ) PUnit}
    (h : ExactDataset access raster bands dataset) (hband : IsBand bands band)
    (hcovers : call.Covers raster bands (blocks.map (BlockRef.ofCell band)))
    (heffect : ∀ plain, call.effect bands plain = plain.draw band new)
    (hact : act.Ends dataset.store
      (fun _ after => (exactPixels raster bands).Painted dataset.store band new blocks after)
      ((exactPixels raster bands).Halted dataset.store band new blocks)) :
    (Dataset.onStore act).Ends dataset
      (fun value after => LeavesPrefix raster bands call dataset (.ok value) after)
      (fun error after => LeavesPrefix raster bands call dataset (.error error) after) := by
  apply Dataset.ends_onStore
  apply hact.mono
  · intro _ after hpainted
    -- all blocks are done, and none is left behind them
    have hpainted' : PaintedPrefix raster bands call ((blocks ++ []).map (BlockRef.ofCell band))
        blocks.length dataset.store after := h.paintedPrefix_of_painted hband heffect hpainted
    rw [List.append_nil] at hpainted'
    exact ⟨_, _, hcovers, hpainted', rfl, (List.length_map _).symm⟩
  · rintro error after ⟨painted, block, rest, use, reached, rfl, hreached, hfetch, hpainted, -⟩
    refine ⟨_, _, hcovers, h.paintedPrefix_of_painted hband heffect hpainted, rfl,
      BlockRef.ofCell band block, use, reached, ?_,
      h.paintedPrefix_of_painted hband heffect hreached, hfetch⟩
    rw [List.getElem?_map, List.getElem?_append_right (Nat.le_refl _), Nat.sub_self]
    rfl

/-- Writing a window of a band leaves a prefix of its blocks written. -/
private theorem ends_write (h : ExactDataset .update raster bands dataset)
    {request : TransferRequest} {buffer : ByteArray} (hband : IsBand bands band)
    (hheld : (bandOf bands band).blockBytes < memoryLimit)
    (hvalid : request.Valid raster buffer.size) :
    (RasterCall.perform (.write band request buffer)).Ends dataset
      (fun value after => LeavesPrefix raster bands (.write band request buffer) dataset (.ok value)
        after)
      (fun error after => LeavesPrefix raster bands (.write band request buffer) dataset
        (.error error) after) := by
  have hraster : dataset.size = raster := h.blocks.sameRaster
  have hinside := hvalid.accepted.inside
  have hcovers : (RasterCall.write band request buffer).Covers raster bands _ :=
    covers_write (h.hasGrid hband) hinside (h.block_eq band)
  have heffect (plain : PlainRaster) : (RasterCall.write band request buffer).effect bands plain =
      plain.draw band (windowPixels (dataset.store.descriptor band) (.ofRequest request)
        (.ofRequest request) buffer) := by
    rw [← SameShapes.effect h.blocks.shapes, descriptor_eq_bandOf]
    exact PlainRaster.write_eq_draw hvalid.x_nonneg hvalid.y_nonneg
  apply Dataset.ends_onBand _ fun hnot => absurd (h.hasBand hband) hnot
  intro _
  apply Ends.get_bind
  apply Ends.lift_bind (Band.checkWritable_of_update h.access_eq)
  rw [hraster]
  -- the arguments are accepted, and the blocks of the window are painted
  apply Ends.lift_bind hvalid.check_window
  apply Ends.lift_bind hvalid.check_layout
  apply Ends.lift_bind (Band.checkHeld_eq_ok_iff.mpr (h.held hheld))
  rw [← hraster] at hinside
  exact h.ends_of_painting hband hcovers heffect (PixelModel.ends_paintWindow h.blocks.sound
    (h.serving hband) hinside hvalid.accepted.fits)

/-- Filling a band leaves a prefix of its blocks filled. -/
private theorem ends_fill (h : ExactDataset .update raster bands dataset) {value : Binary64}
    (hband : IsBand bands band) (hheld : (bandOf bands band).blockBytes < memoryLimit) :
    (RasterCall.perform (.fill band value)).Ends dataset
      (fun answer after => LeavesPrefix raster bands (.fill band value) dataset (.ok answer) after)
      (fun error after => LeavesPrefix raster bands (.fill band value) dataset (.error error)
        after) := by
  have hcovers : (RasterCall.fill band value).Covers raster bands _ :=
    covers_fill (h.hasGrid hband) (h.block_eq band)
  have hcells : cells 0 0 ((dataset.store.descriptor band).grid dataset.store.raster) =
      cells 0 0 ((dataset.store.descriptor band).grid raster) := by
    rw [h.blocks.sameRaster]
  have heffect (plain : PlainRaster) : (RasterCall.fill band value).effect bands plain =
      plain.draw band fun _ _ => some (pixelBytes (dataset.store.descriptor band).type value) := by
    rw [h.type_eq]
    exact PlainRaster.fill_eq_draw
  -- the band exists and may be written, so that the call gets to its blocks
  apply Dataset.ends_onBand _ fun hnot => absurd (h.hasBand hband) hnot
  intro _
  apply Ends.get_bind
  apply Ends.lift_bind (Band.checkWritable_of_update h.access_eq)
  apply Ends.lift_bind (Band.checkHeld_eq_ok_iff.mpr (h.held hheld))
  rw [← hcells] at hcovers
  exact h.ends_of_painting hband hcovers heffect (PixelModel.ends_paintBand h.blocks.sound
    (h.serving hband) value)

end ExactDataset

/-- A dataset is open for update, over any codec that stores blocks exactly, and the blocks of the
    band are not too large to be held in memory. After any calls, one
    more that writes a window or fills a band does so for the first of the blocks that it covers,
    row by row: each of them has all of its new pixels, and all other blocks have the content that
    they had before, byte for byte. If the call succeeds, all blocks are done; if it fails, whatever
    call of the codec failed, the next one could not be fetched. -/
theorem failing_write_paints_first_blocks [EncodesOnly κ] {codec : κ} {options : OpenOptions}
    {environment : Option String}
    (hnew : Dataset.ofCodec codec raster bands options environment = .ok dataset)
    (hupdate : options.flags.access = .update) (calls : List DatasetCall) {call : RasterCall}
    (hpaints : call.PaintsBand band) (hvalid : call.Valid raster bands)
    (hheld : (bandOf bands band).blockBytes < memoryLimit) :
    let before := DatasetCall.performAll calls dataset
    LeavesPrefix raster bands call before (call.perform.run before).1
      (call.perform.run before).2 := by
  intro before
  have hexact := exactDataset_performAll hnew calls
  rw [hupdate] at hexact
  -- each of the calls is a loop over the blocks that it covers
  cases hpaints with
  | write request buffer => exact (hexact.ends_write hvalid.1 hheld hvalid.2).outcome _
  | fill value => exact (hexact.ends_fill hvalid hheld).outcome _

namespace ScriptedCodec

/-- New pixels for the whole row. -/
def writeRow : RasterCall :=
  .write 1 { x := 0, y := 0, window := ⟨3, 1⟩, buffer := ⟨3, 1⟩, type := .byte } ⟨#[7, 8, 9]⟩

end ScriptedCodec

open ScriptedCodec in
/-- The second block cannot be stored to make room for the third. It keeps its new pixel in the
    cache, and the third one is as before. -/
theorem failing_write_paints_first_blocks_row :
    let before := DatasetCall.performAll [.raster (.readBlock 1 2 0 1)] row
    let written := writeRow.perform.run before
    LeavesPrefix ⟨3, 1⟩ [⟨.byte, ⟨1, 1⟩, none⟩] writeRow before written.1 written.2 ∧
      written.1 = .error (.io (some ⟨1, 1, 0⟩) "no room left") ∧
      written.2.store.pixels 1 0 0 = ⟨#[7]⟩ ∧ written.2.store.pixels 1 1 0 = ⟨#[8]⟩ ∧
      written.2.store.pixels 1 2 0 = ⟨#[12]⟩ := by
  intro before written
  have hvalid : writeRow.Valid ⟨3, 1⟩ [⟨.byte, ⟨1, 1⟩, none⟩] :=
    ⟨by decide, by decide, by decide, by decide, by decide, by decide, by decide, .inl rfl,
      by decide, by decide, by decide, by decide⟩
  refine ⟨failing_write_paints_first_blocks new_row rfl _ (.write ..) hvalid (by decide), by rfl, ?_⟩
  decide +kernel

end RasterStore
