import RasterStore.Proofs.Transfer.Pixels

/-!
# Painting blocks

Everything that writes pixels changes blocks one after another, and in each of them gives some
pixels a new value. `Paints` says so of one change, for the new values `new`; `ends_paint` says what
the whole loop does to the raster, also if it fails (`Halted`): then the blocks before the one that
could not be fetched are painted, and the others are as before.
-/

namespace RasterStore

open BlockStore RasterStore.Action

/-- A change of the block in column `x` and row `y` of the grid gives the pixels for which `new` has
    a value this value, and keeps the others. If the block is overwritten, all have one. -/
structure Paints (descriptor : BandDescriptor) (raster : Size)
    (new : (x y : Nat) → Option ByteArray) (block : Nat × Nat) (use : BlockUse)
    (f : ByteArray → ByteArray) : Prop where
  forWriting : use.forWriting = true
  size : ∀ data, data.size = descriptor.blockBytes → (f data).size = data.size
  pixel : ∀ data x y, data.size = descriptor.blockBytes → x < raster.width → y < raster.height →
    (x / descriptor.block.width, y / descriptor.block.height) = block →
    descriptor.pixel (f data) (x % descriptor.block.width) (y % descriptor.block.height) =
      (new x y).getD
        (descriptor.pixel data (x % descriptor.block.width) (y % descriptor.block.height))
  covered : use = .overwrite → ∀ x y, x < raster.width → y < raster.height →
    (x / descriptor.block.width, y / descriptor.block.height) = block → (new x y).isSome = true

/-- A change fails where its fetch does. -/
theorem BlockStore.run_fetch_of_change {κ : Type} [Codec κ] {store after : BlockStore κ}
    {key : BlockRef} {use : BlockUse} {f : ByteArray → ByteArray} {error : RasterError}
    (h : (change key use f).run store = (.error error, after)) :
    (fetch key use).run store = (.error error, after) := by
  rw [change, run_bind] at h
  cases hfetch : (fetch key use).run store with
  | mk outcome reached =>
    rw [hfetch] at h
    -- only the fetch can fail, for changing the fetched bytes does not
    cases outcome with
    | ok _ => cases h
    | error _ =>
      cases h
      rfl

namespace PixelModel

variable {κ : Type} [Codec κ] {P : PixelModel κ} {store before middle after : BlockStore κ}
variable {band : Nat} {new : Nat → Nat → Option ByteArray} {painted : List (Nat × Nat)}
variable {block : Nat × Nat}

variable (P) in
/-- The step from `before` to `after` painted some blocks of a band. -/
structure Painted (before : BlockStore κ) (band : Nat) (new : Nat → Nat → Option ByteArray)
    (painted : List (Nat × Nat)) (after : BlockStore κ) : Prop where
  bands : before.SameBands after
  sound : P.Sound after
  pixel : ∀ b x y, P.Serving before b → x < before.raster.width → y < before.raster.height →
    P.pixelAt after b x y =
      if b = band ∧ (x / (before.descriptor band).block.width,
          y / (before.descriptor band).block.height) ∈ painted then
        (new x y).getD (P.pixelAt before band x y)
      else P.pixelAt before b x y
  others : ∀ key, P.Serves (before.context key) → ¬(key.band = band ∧ (key.x, key.y) ∈ painted) →
    P.logical after key = P.logical before key
  written : ∀ key, P.Serves (before.context key) → (P.Written after key ↔
    P.Written before key ∨ key.band = band ∧ (key.x, key.y) ∈ painted)

theorem Painted.nil (hsound : P.Sound store) : P.Painted store band new [] store := by
  refine ⟨.refl store, hsound, fun b x y _ _ _ => ?_, fun _ _ _ => rfl, fun _ _ => by simp⟩
  rw [if_neg]
  exact fun hboth => absurd hboth.2 List.not_mem_nil

/-- What changes no content paints nothing. -/
theorem Painted.of_keeps (h : P.Painted before band new painted middle)
    (hkeeps : P.Keeps middle after) : P.Painted before band new painted after := by
  refine ⟨h.bands.trans hkeeps.bands, hkeeps.sound, fun b x y hserving hx hy => ?_,
    fun key hserves hnot => ?_, fun key hserves => ?_⟩
  · rw [pixelAt_of_keeps hkeeps (hserving.of_sameBands h.bands) (by rwa [h.bands.raster])
      (by rwa [h.bands.raster]), h.pixel b x y hserving hx hy]
  · rw [hkeeps.logical key (by rwa [h.bands.context]), h.others key hserves hnot]
  · rw [hkeeps.written key (by rwa [h.bands.context]), h.written key hserves]

/-- The value that a painted pixel got from the bytes of its block. -/
private theorem pixel_of_paints {use : BlockUse} {f : ByteArray → ByteArray} {data : ByteArray}
    {x y : Nat} (hserving : P.Serving store band)
    (hpaints : Paints (store.descriptor band) store.raster new block use f)
    (hfits : P.Fits (store.context ⟨band, block.1, block.2⟩) data)
    (hview : P.view (store.context ⟨band, block.1, block.2⟩) data =
      P.fetchedView store ⟨band, block.1, block.2⟩ use)
    (hx : x < store.raster.width) (hy : y < store.raster.height)
    (hblock : (x / (store.descriptor band).block.width,
      y / (store.descriptor band).block.height) = block) :
    (store.descriptor band).pixel (f data) (x % (store.descriptor band).block.width)
        (y % (store.descriptor band).block.height) =
      (new x y).getD (P.pixelAt store band x y) := by
  rw [hpaints.pixel data x y (P.size_of_fits hfits) hx hy hblock]
  by_cases huse : use = .overwrite
  · -- all pixels are new, so what the block had does not matter
    obtain ⟨value, hvalue⟩ := Option.isSome_iff_exists.mp (hpaints.covered huse x y hx hy hblock)
    rw [hvalue, Option.getD_some, Option.getD_some]
  · rw [CodecModel.fetchedView, if_neg (fun hboth => huse hboth.1)] at hview
    subst hblock
    rw [← pixel_of_view hserving hfits hx hy]
    exact congrArg (fun view => (new x y).getD (P.pixel _ view _ _)) hview

private theorem mem_painted_concat {descriptor : BandDescriptor} {painted : List (Nat × Nat)}
    {block : Nat × Nat} {x y : Nat}
    (hkey : descriptor.blockOf band x y ≠ ⟨band, block.1, block.2⟩) :
    (x / descriptor.block.width, y / descriptor.block.height) ∈ painted ++ [block] ↔
      (x / descriptor.block.width, y / descriptor.block.height) ∈ painted := by
  have hne : (x / descriptor.block.width, y / descriptor.block.height) ≠ block := by
    intro hblock
    rw [← hblock] at hkey
    exact hkey rfl
  rw [List.mem_append, List.mem_singleton, or_iff_left hne]

/-- One more block is painted. -/
private theorem Painted.concat {use : BlockUse} {f : ByteArray → ByteArray} {data : ByteArray}
    (h : P.Painted before band new painted middle) (hserving : P.Serving before band)
    (hpaints : Paints (before.descriptor band) before.raster new block use f)
    (hfits : P.Fits (middle.context ⟨band, block.1, block.2⟩) data)
    (hchanged : P.Changed middle ⟨band, block.1, block.2⟩ use data (f data) after) :
    P.Painted before band new (painted ++ [block]) after := by
  have hmiddle := hserving.of_sameBands h.bands
  -- the new bytes are as many as the old ones
  have hfitsAfter : P.Fits (middle.context ⟨band, block.1, block.2⟩) (f data) := by
    apply P.fits_of_size
    have hsize := P.size_of_fits hfits
    rw [context_descriptor, h.bands.descriptor] at hsize ⊢
    rw [hpaints.size data hsize, hsize]
  refine ⟨h.bands.trans hchanged.bands, hchanged.sound, fun b x y hserves hx hy => ?_,
    fun key hserves hnot => ?_, fun key hserves => ?_⟩
  · -- a pixel of the raster, in any band
    have hx' : x < middle.raster.width := by rwa [h.bands.raster]
    have hy' : y < middle.raster.height := by rwa [h.bands.raster]
    rw [pixelAt_of_changed (hserves.of_sameBands h.bands) hchanged hfitsAfter hx' hy',
      h.bands.descriptor, h.pixel b x y hserves hx hy]
    by_cases hkey : (before.descriptor b).blockOf b x y = ⟨band, block.1, block.2⟩
    · -- the pixel lies in the block that was painted last
      have hband : b = band := congrArg BlockRef.band hkey
      subst hband
      have hblock : (x / (before.descriptor b).block.width,
          y / (before.descriptor b).block.height) = block := by
        rw [BandDescriptor.blockOf, BlockRef.mk.injEq] at hkey
        exact Prod.ext hkey.2.1 hkey.2.2
      have hpixel := pixel_of_paints hmiddle (by rw [h.bands.descriptor, h.bands.raster]; exact hpaints)
        hfits hchanged.view hx' hy' (by rw [h.bands.descriptor]; exact hblock)
      rw [h.bands.descriptor, h.pixel b x y hserves hx hy] at hpixel
      have hmem : b = b ∧ (x / (before.descriptor b).block.width,
          y / (before.descriptor b).block.height) ∈ painted ++ [block] :=
        ⟨rfl, by rw [hblock]; simp⟩
      rw [if_pos hkey, if_pos hmem, hpixel]
      -- painting a pixel twice is painting it once
      split
      · cases new x y <;> rfl
      · rfl
    · rw [if_neg hkey]
      by_cases hband : b = band
      · subst hband
        simp only [mem_painted_concat hkey]
      · simp only [hband, false_and]
  · -- what lies outside all painted blocks is as before
    have hkey : key ≠ ⟨band, block.1, block.2⟩ := by
      rintro rfl
      exact hnot ⟨rfl, List.mem_append_right _ List.mem_cons_self⟩
    rw [hchanged.others key hkey (by rwa [h.bands.context]), h.others key hserves]
    exact fun hboth => hnot ⟨hboth.1, List.mem_append_left _ hboth.2⟩
  · -- which blocks count as written
    by_cases hkey : key = ⟨band, block.1, block.2⟩
    · rw [hkey]
      exact iff_of_true hchanged.touched (.inr ⟨rfl, List.mem_append_right _ List.mem_cons_self⟩)
    · rw [hchanged.written key hkey (by rwa [h.bands.context]), h.written key hserves]
      refine or_congr_right (and_congr_right fun hband => ?_)
      rw [List.mem_append, List.mem_singleton, or_iff_left]
      intro hblock
      rw [← hblock, ← hband] at hkey
      exact hkey rfl

variable (P) in
/-- A loop that paints blocks has halted at one that could not be fetched. Those before it are
    painted. -/
def Halted (before : BlockStore κ) (band : Nat) (new : Nat → Nat → Option ByteArray)
    (blocks : List (Nat × Nat)) (error : RasterError) (after : BlockStore κ) : Prop :=
  ∃ painted block rest use reached, blocks = painted ++ block :: rest ∧
    P.Painted before band new painted reached ∧
    (fetch ⟨band, block.1, block.2⟩ use).run reached = (.error error, after) ∧
    P.Painted before band new painted after ∧ P.MayFail

/-- Changing one more block paints it. -/
theorem ends_paintBlock {use : BlockUse} {f : ByteArray → ByteArray}
    (h : P.Painted before band new painted store) (hserving : P.Serving before band)
    (hinside : block.1 * (before.descriptor band).block.width < before.raster.width ∧
      block.2 * (before.descriptor band).block.height < before.raster.height)
    (hpaints : Paints (before.descriptor band) before.raster new block use f) :
    (change ⟨band, block.1, block.2⟩ use f).Ends store
      (fun _ after => P.Painted before band new (painted ++ [block]) after)
      (fun error after => (fetch ⟨band, block.1, block.2⟩ use).run store = (.error error, after) ∧
        P.Painted before band new painted after ∧ P.MayFail) := by
  have hserves : P.Serves (store.context ⟨band, block.1, block.2⟩) := by
    rw [h.bands.context]
    exact hserving.serves _ _ hinside.1 hinside.2
  refine ((CodecModel.ends_change h.sound hserves hpaints.forWriting ?_).and ends_run).mono ?_ ?_
  · -- the bytes that are painted over keep their size
    intro data hfits
    apply P.fits_of_size
    have hdata := P.size_of_fits hfits
    rw [context_descriptor, h.bands.descriptor] at hdata ⊢
    rw [hpaints.size data hdata, hdata]
  · rintro _ after ⟨⟨data, hchanged⟩, -⟩
    exact h.concat hserving hpaints hchanged.fits hchanged
  · -- the block could not be fetched, and what was painted stays so
    rintro error after ⟨⟨hkeeps, hfail⟩, hrun⟩
    exact ⟨run_fetch_of_change hrun, h.of_keeps hkeeps, hfail⟩

/-- A loop that paints blocks paints all of them, or halts at one of them. -/
theorem ends_paint {blocks : List (Nat × Nat)} {body : Nat × Nat → Action (BlockStore κ) PUnit}
    (new : Nat → Nat → Option ByteArray) (use : Nat × Nat → BlockUse)
    (f : Nat × Nat → ByteArray → ByteArray) (hsound : P.Sound store)
    (hserving : P.Serving store band)
    (hinside : ∀ block ∈ blocks,
      block.1 * (store.descriptor band).block.width < store.raster.width ∧
        block.2 * (store.descriptor band).block.height < store.raster.height)
    (hpaints : ∀ block ∈ blocks,
      Paints (store.descriptor band) store.raster new block (use block) (f block))
    (hbody : ∀ block ∈ blocks, ∀ reached, store.SameBands reached →
      ∀ good bad, (change ⟨band, block.1, block.2⟩ (use block) (f block)).Ends reached good bad →
        (body block).Ends reached good bad) :
    (blocks.forM body).Ends store (fun _ after => P.Painted store band new blocks after)
      (P.Halted store band new blocks) := by
  refine (Ends.forM (fun painted => P.Painted store band new painted)
    (fun _ error after => P.Halted store band new blocks error after) (.nil hsound) ?_).mono
    (fun _ _ hpainted => hpainted) ?_
  · -- one more block is painted, or it is the one that halts the loop
    intro painted block rest reached hblocks hpainted
    have hmem : block ∈ blocks := by rw [hblocks]; simp
    apply hbody block hmem reached hpainted.bands
    apply (ends_paintBlock hpainted hserving (hinside block hmem) (hpaints block hmem)).mono
    · exact fun _ _ hafter => hafter
    · exact fun error after hfailed =>
        ⟨painted, block, rest, use block, reached, hblocks, hpainted, hfailed⟩
  · rintro error after ⟨_, _, _, -, hhalted⟩
    exact hhalted

/-! ## The raster afterwards -/

variable (P) in
/-- The step from `before` to `after` gave the pixels of a band for which `new` has a value this
    value, and changed no other pixel of any band. It wrote the blocks with such pixels. -/
structure Drawn (before : BlockStore κ) (band : Nat) (new : Nat → Nat → Option ByteArray)
    (after : BlockStore κ) : Prop where
  bands : before.SameBands after
  sound : P.Sound after
  pixel : ∀ b x y, P.Serving before b → x < before.raster.width → y < before.raster.height →
    P.pixelAt after b x y =
      if b = band then (new x y).getD (P.pixelAt before b x y) else P.pixelAt before b x y
  written : ∀ key, P.Serves (before.context key) → (P.Written after key ↔
    P.Written before key ∨ key.band = band ∧ ∃ x y,
      (x < before.raster.width ∧ y < before.raster.height) ∧
        (before.descriptor band).blockOf band x y = key ∧ (new x y).isSome = true)

/-- All new pixels are drawn when the blocks that they lie in are painted, and no other ones. -/
theorem Painted.drawn (h : P.Painted before band new painted after)
    (hall : ∀ x y, x < before.raster.width → y < before.raster.height →
      (new x y).isSome = true → (x / (before.descriptor band).block.width,
        y / (before.descriptor band).block.height) ∈ painted)
    (honly : ∀ block ∈ painted, ∃ x y, (x < before.raster.width ∧ y < before.raster.height) ∧
      (x / (before.descriptor band).block.width,
        y / (before.descriptor band).block.height) = block ∧ (new x y).isSome = true) :
    P.Drawn before band new after := by
  refine ⟨h.bands, h.sound, fun b x y hserving hx hy => ?_, fun key hserves => ?_⟩
  · -- pixels outside the painted blocks get no new value, as the new ones are all in painted blocks
    rw [h.pixel b x y hserving hx hy]
    by_cases hband : b = band
    · subst hband
      rw [if_pos rfl]
      cases hnew : new x y with
      | none => simp
      | some value =>
        have hmem := hall x y hx hy (by rw [hnew]; rfl)
        rw [if_pos ⟨rfl, hmem⟩]
    · rw [if_neg (fun hboth => hband hboth.1), if_neg hband]
  · -- a block counts as written if one of its pixels is drawn
    rw [h.written key hserves]
    refine or_congr_right (and_congr_right fun hband => ⟨fun hmem => ?_, fun hdrawn => ?_⟩)
    · obtain ⟨x, y, hinside, hblock, hnew⟩ := honly _ hmem
      refine ⟨x, y, hinside, ?_, hnew⟩
      obtain ⟨hcolumn, hrow⟩ := Prod.mk.inj hblock
      rw [BandDescriptor.blockOf, hcolumn, hrow, ← hband]
    · obtain ⟨x, y, hinside, hkey, hnew⟩ := hdrawn
      rw [← hkey]
      exact hall x y hinside.1 hinside.2 hnew

end PixelModel

end RasterStore
