import RasterStore.Proofs.Cache.Access

/-!
# Writing blocks back

A flush makes dirty blocks clean and gives their bytes to the codec; it does nothing else. This is
`CodecModel.WritesBack`, for the list of the blocks that were written. It does not ask that clean
blocks are what the codec has stored, so it also describes a flush in the middle of a change of
the no-data value. Over a sound store it follows that a flush changes no content:

* `ends_flushSelected`   a flush that succeeds writes all selected blocks back
* `WritesBack.keeps`     writing back changes no content
* `ends_flushSelected_keeps`   afterwards the codec has the content of each selected block
* `ends_dropBand`        the blocks of a band are written back and dropped
-/

namespace RasterStore

open BlockStore RasterStore.Action

namespace CodecModel

variable {κ : Type} [Codec κ] {M : CodecModel κ} {store before after : BlockStore κ}
variable {key : BlockRef}

variable (M) in
/-- The step from `before` to `after` wrote the blocks under the keys `written` back. -/
structure WritesBack (before : BlockStore κ) (written : List BlockRef) (after : BlockStore κ) :
    Prop where
  bands : before.SameBands after
  holds : M.Holds after.codec
  distinct : after.cache.Distinct
  find? : ∀ key, after.cache.find? key = (before.cache.find? key).map fun block =>
    if key ∈ written then { block with dirty := false } else block
  content : ∀ context, M.Serves context → M.content after.codec context =
    match before.cache.find? context.block with
    | some block =>
      if context.block ∈ written then M.view context block.data
      else M.content before.codec context
    | none => M.content before.codec context
  dirty : ∀ key, key ∈ written → ∃ block, before.cache.find? key = some block ∧ block.dirty = true
  given : ∀ context, M.Serves context →
    (M.Given after.codec context ↔ context.block ∈ written ∨ M.Given before.codec context)

theorem WritesBack.refl (htidy : M.Tidy store) : M.WritesBack store [] store := by
  refine ⟨.refl store, htidy.holds, htidy.distinct, fun key => ?_, fun context _ => ?_,
    fun key hmem => ?_, fun _ _ => by simp⟩
  · simp
  · split <;> simp
  · simp at hmem

theorem WritesBack.trans {first second third : BlockStore κ} {written written' : List BlockRef}
    (h : M.WritesBack first written second) (h' : M.WritesBack second written' third) :
    M.WritesBack first (written ++ written') third := by
  refine ⟨h.bands.trans h'.bands, h'.holds, h'.distinct, fun key => ?_, fun context hserves => ?_,
    fun key hmem => ?_, fun context hserves => ?_⟩
  · -- a block is marked clean if one of the two steps wrote it
    rw [h'.find?, h.find?, Option.map_map]
    congr 1
    funext block
    simp only [Function.comp_apply, List.mem_append]
    by_cases hfirst : key ∈ written <;> by_cases hsecond : key ∈ written' <;>
      simp [hfirst, hsecond]
  · -- the content that the codec stores for a block
    rw [h'.content context hserves, h.find?, h.content context hserves]
    cases first.cache.find? context.block with
    | none => rfl
    | some block =>
      -- the second step writes the bytes that the first one left
      simp only [Option.map_some, List.mem_append]
      by_cases hfirst : context.block ∈ written <;> by_cases hsecond : context.block ∈ written' <;>
        simp [hfirst, hsecond]
  · -- whatever was written had been dirty in `first`
    rcases List.mem_append.mp hmem with hfirst | hsecond
    · exact h.dirty key hfirst
    · -- what is dirty after the first step was dirty before it
      obtain ⟨found, hfind, hdirty⟩ := h'.dirty key hsecond
      rw [h.find?] at hfind
      obtain ⟨block, hblock, rfl⟩ := Option.map_eq_some_iff.mp hfind
      refine ⟨block, hblock, ?_⟩
      split at hdirty
      · contradiction
      · exact hdirty
  · -- the blocks that the file gives a place to
    rw [h'.given context hserves, h.given context hserves, List.mem_append, ← or_assoc,
      or_comm (a := context.block ∈ written')]

/-- Writing one block back leaves all others in the cache as they are. -/
theorem WritesBack.find?_of_ne {written : List BlockRef} {other : BlockRef}
    (h : M.WritesBack before written after) (honly : written ⊆ [key]) (hne : other ≠ key) :
    after.cache.find? other = before.cache.find? other := by
  have hnot : other ∉ written := fun hmem => hne (List.mem_singleton.mp (honly hmem))
  rw [h.find?]
  simp [hnot]

/-- Writing back writes no block that was not written before. -/
theorem WritesBack.written {written : List BlockRef} (h : M.WritesBack before written after)
    (hserves : M.Serves (before.context key)) : M.Written after key ↔ M.Written before key := by
  rw [Written, h.bands.context, h.given _ hserves, h.find?, context_block, ← or_assoc]
  refine or_congr_left ?_
  by_cases hmem : key ∈ written
  · -- what is clean now has been given to the codec
    exact iff_of_true (.inr hmem) (h.dirty key hmem)
  · simp [hmem]

/-- Writing back leaves a tidy store tidy. -/
theorem WritesBack.tidy {written : List BlockRef} (h : M.WritesBack before written after)
    (htidy : M.Tidy before) : M.Tidy after := by
  -- of a block, writing back changes nothing but the mark
  have hheld {key : BlockRef} {found : Block} (hfind : after.cache.find? key = some found) :
      ∃ block, before.cache.find? key = some block ∧ found.data = block.data := by
    rw [h.find?] at hfind
    obtain ⟨block, hblock, rfl⟩ := Option.map_eq_some_iff.mp hfind
    refine ⟨block, hblock, ?_⟩
    split <;> rfl
  refine ⟨h.holds, h.distinct, fun hfind => ?_, fun hfind => ?_⟩
  · obtain ⟨block, hblock, -⟩ := hheld hfind
    rw [h.bands.context]
    exact htidy.served hblock
  · obtain ⟨block, hblock, hdata⟩ := hheld hfind
    rw [h.bands.context, hdata]
    exact htidy.fits hblock

/-- Writing back changes no content. -/
theorem WritesBack.keeps {written : List BlockRef} (h : M.WritesBack before written after)
    (hsound : M.Sound before) : M.Keeps before after := by
  refine ⟨h.bands, ⟨h.tidy hsound.toTidy, ?_⟩, fun key hserves => ?_,
    fun key hserves => h.written hserves⟩
  · -- a block that is clean afterwards holds what is stored
    intro key found hfind hclean
    rw [h.find?] at hfind
    obtain ⟨block, hblock, rfl⟩ := Option.map_eq_some_iff.mp hfind
    have hcontent := h.content _ (hsound.served hblock)
    simp only [context_block, hblock] at hcontent
    rw [h.bands.context, hcontent]
    by_cases hwritten : key ∈ written
    · simp [hwritten]
    · -- a block that was not written was clean before
      simp only [hwritten, if_false] at hclean ⊢
      exact hsound.clean hblock hclean
  · -- a block that is held counts by its bytes, any other by what is stored; a write-back makes the
    -- two agree
    cases hblock : before.cache.find? key with
    | none =>
      have hnone := h.find? key
      rw [hblock, Option.map_none] at hnone
      have hcontent := h.content _ hserves
      simp only [context_block, hblock] at hcontent
      rw [logical_of_none hnone, logical_of_none hblock, h.bands.context, hcontent]
    | some block =>
      have hsome := h.find? key
      rw [hblock, Option.map_some] at hsome
      rw [logical_of_some hsome, logical_of_some hblock, h.bands.context]
      split <;> rfl

/-! ## The steps of a flush -/

/-- Writing one block back either stores it or leaves everything as it was. -/
theorem ends_flushBlock {block : Block} (htidy : M.Tidy store)
    (hfind : store.cache.find? key = some block) (hdirty : block.dirty = true) :
    (flushBlock key).Ends store
      (fun failures after => ∃ written, M.WritesBack store written after ∧ written ⊆ [key] ∧
        (key ∈ written ∧ failures = [] ∨ failures ≠ [] ∧ M.MayFail))
      (fun _ _ => False) := by
  refine Ends.get_bind ?_
  rw [hfind]
  refine Ends.bind (Ends.attempt ((ends_encodeBlock htidy.holds (htidy.served hfind)
    (htidy.fits hfind)).mono ?_ ?_))
  · intro _ after hafter
    obtain ⟨codec, rfl, hholds, hcontent⟩ := hafter
    refine Ends.modify_bind (ends_pure.mpr ⟨[key], ?_, by simp, .inl ⟨by simp, rfl⟩⟩)
    refine ⟨⟨rfl, rfl⟩, hholds, htidy.distinct.markClean key, fun other => ?_,
      fun context hserves => ?_, fun other hmem => ?_, fun context hserves => ?_⟩
    · -- of the marks, only the one of this block is taken off
      refine BlockCache.find?_markClean.trans ?_
      by_cases h : other = key <;> simp [h]
    · -- the codec stores the bytes of this block, and of every other what it stored
      refine (hcontent context hserves).1.trans ?_
      by_cases h : context.block = key
      · simp [h, hfind]
      · rw [if_neg h]
        split <;> simp [h]
    · -- the block that is written had been dirty
      rw [List.mem_singleton.mp hmem]
      exact ⟨block, hfind, hdirty⟩
    · rw [List.mem_singleton]
      exact (hcontent context hserves).2
  · -- nothing is written, and the block stays dirty
    intro error after hfailed
    obtain ⟨⟨codec, rfl, hholds, hcontent⟩, hfail⟩ := hfailed
    refine Ends.modify_bind (ends_pure.mpr ⟨[], ?_, by simp, .inr ⟨by simp, hfail⟩⟩)
    refine ⟨⟨rfl, rfl⟩, hholds, htidy.distinct, fun other => by simp, fun context hserves => ?_,
      fun other hmem => ?_, fun context hserves => ?_⟩
    · refine (hcontent context hserves).1.trans ?_
      split <;> simp
    · simp at hmem
    · refine (hcontent context hserves).2.trans ?_
      simp

/-- Every block of the list is tried; those that fail are listed. -/
theorem ends_flushBlocks (htidy : M.Tidy store) {keys : List BlockRef} (hnodup : keys.Nodup)
    (hheld : ∀ key ∈ keys, ∃ block, store.cache.find? key = some block ∧ block.dirty = true) :
    (flushBlocks keys).Ends store
      (fun failures after => ∃ written, M.WritesBack store written after ∧ written ⊆ keys ∧
        (keys ⊆ written ∧ failures = [] ∨ failures ≠ [] ∧ M.MayFail))
      (fun _ _ => False) := by
  -- induction on the blocks still to write; the first one is not among the rest, so that the rest
  -- is as dirty as it was
  induction keys generalizing store with
  | nil => exact ends_pure.mpr ⟨[], .refl htidy, by simp, .inl ⟨by simp, rfl⟩⟩
  | cons key rest ih =>
    -- the rest is tried also if the first block fails
    obtain ⟨block, hfind, hdirty⟩ := hheld key (by simp)
    obtain ⟨hkey, hnodup⟩ := List.nodup_cons.mp hnodup
    refine Ends.bind ((ends_flushBlock htidy hfind hdirty).mono ?_ fun _ _ h => h)
    intro failed middle hmiddle
    obtain ⟨written, hfirst, honly, hfailed⟩ := hmiddle
    have hrest : ∀ other ∈ rest, ∃ block, middle.cache.find? other = some block ∧
        block.dirty = true := by
      intro other hmem
      rw [hfirst.find?_of_ne honly fun heq => hkey (heq ▸ hmem)]
      exact hheld other (List.mem_cons_of_mem _ hmem)
    refine Ends.bind ((ih (hfirst.tidy htidy) hnodup hrest).mono ?_ fun _ _ h => h)
    intro failedLater after hafter
    obtain ⟨written', hsecond, honlyLater, hfailedLater⟩ := hafter
    have hwritten : written ++ written' ⊆ key :: rest :=
      List.append_subset.mpr ⟨fun other hmem => List.mem_cons.mpr (.inl
        (List.mem_singleton.mp (honly hmem))), fun other hmem =>
        List.mem_cons_of_mem _ (honlyLater hmem)⟩
    refine ends_pure.mpr ⟨written ++ written', hfirst.trans hsecond, hwritten, ?_⟩
    -- all blocks are written only if none of the attempts failed
    rcases hfailed with ⟨hkey, rfl⟩ | ⟨hne, hfail⟩
    · rcases hfailedLater with ⟨hsub, rfl⟩ | ⟨hne, hfail⟩
      · left
        refine ⟨?_, rfl⟩
        intro other hmem
        rcases List.mem_cons.mp hmem with rfl | hmem
        · exact List.mem_append_left _ hkey
        · exact List.mem_append_right _ (hsub hmem)
      · exact .inr ⟨by simpa using hne, hfail⟩
    · exact .inr ⟨by simp [hne], hfail⟩

/-- A flush writes blocks back; if it succeeds, all selected dirty ones. -/
theorem ends_flushSelected (htidy : M.Tidy store) (selected : BlockRef → Bool) :
    (flushSelected (κ := κ) selected).Ends store
      (fun _ after => ∃ written, M.WritesBack store written after ∧
        ∀ key, key ∈ written ↔ selected key = true ∧
          ∃ block, store.cache.find? key = some block ∧ block.dirty = true)
      (fun _ after => (∃ written, M.WritesBack store written after) ∧ M.MayFail) := by
  have hheld := BlockCache.exists_of_mem_dirtyKeys htidy.distinct selected
  have hnodup := BlockCache.nodup_dirtyKeys htidy.distinct selected
  refine Ends.get_bind (Ends.bind ((ends_flushBlocks htidy hnodup hheld).mono ?_
    fun _ _ h => h.elim))
  intro failures after hafter
  obtain ⟨written, hwrites, honly, houtcome⟩ := hafter
  refine Ends.ite (fun hempty => ?_) (fun hempty => ?_)
  · -- without a failure all dirty blocks were written
    rcases houtcome with ⟨hall, -⟩ | ⟨hne, -⟩
    · refine ends_pure.mpr ⟨written, hwrites, fun key => ?_⟩
      rw [← BlockCache.mem_dirtyKeys htidy.distinct]
      exact ⟨fun hmem => honly hmem, fun hmem => hall hmem⟩
    · exact absurd (List.isEmpty_iff.mp hempty) hne
  · -- with a failure, what was written stays written
    rcases houtcome with ⟨-, rfl⟩ | ⟨-, hfail⟩
    · exact absurd rfl hempty
    · exact ends_throw.mpr ⟨⟨written, hwrites⟩, hfail⟩

/-- A flush that fails says which blocks it could not write back. -/
theorem ends_flushSelected_failures (htidy : M.Tidy store) (selected : BlockRef → Bool) :
    (flushSelected (κ := κ) selected).Ends store (fun _ _ => True)
      (fun error _ => ∃ failures, error = .flushFailed failures ∧ failures ≠ []) := by
  have hheld := BlockCache.exists_of_mem_dirtyKeys htidy.distinct selected
  have hnodup := BlockCache.nodup_dirtyKeys htidy.distinct selected
  apply Ends.get_bind
  apply Ends.bind
  apply (ends_flushBlocks htidy hnodup hheld).mono _ fun _ _ hnever => hnever.elim
  -- each block that could not be stored is one failure
  intro failures after _
  apply Ends.ite
  · exact fun _ => ends_pure.mpr trivial
  · exact fun hfailed => ends_throw.mpr ⟨failures, rfl, fun hnil => hfailed (hnil ▸ rfl)⟩

/-- A flush changes no content. After one that succeeds, the codec has stored the content of each
    selected block. -/
theorem ends_flushSelected_keeps (hsound : M.Sound store) (selected : BlockRef → Bool) :
    (flushSelected (κ := κ) selected).Ends store
      (fun _ after => M.Keeps store after ∧ ∀ key, selected key = true →
        M.Serves (store.context key) →
        M.content after.codec (store.context key) = M.logical store key)
      (fun _ after => M.Keeps store after ∧ M.MayFail) := by
  refine (ends_flushSelected hsound.toTidy selected).mono ?_ ?_
  · intro _ after hafter
    obtain ⟨written, hwrites, hall⟩ := hafter
    refine ⟨hwrites.keeps hsound, fun key hselected hserves => ?_⟩
    have hcontent := hwrites.content _ hserves
    rw [context_block] at hcontent
    -- the flushed block: what is stored is now what the cache holds
    cases hfind : store.cache.find? key with
    | none =>
      simp only [hfind] at hcontent
      rw [hcontent, logical_of_none hfind]
    | some block =>
      simp only [hfind] at hcontent
      rw [hcontent, logical_of_some hfind]
      split
      · rfl
      · next hnot =>
        -- a selected block that was not written back was clean
        have hclean : block.dirty = false := by
          cases hdirty : block.dirty with
          | false => rfl
          | true => exact absurd ((hall key).mpr ⟨hselected, block, hfind, hdirty⟩) hnot
        exact (hsound.clean hfind hclean).symm
  · intro error after hfailed
    obtain ⟨⟨written, hwrites⟩, hfail⟩ := hfailed
    exact ⟨hwrites.keeps hsound, hfail⟩

/-! ## Dropping a band -/

variable (M) in
/-- The content of a block that is written back and dropped: its bytes if it is dirty, else what
    the codec has stored. -/
def settled (store : BlockStore κ) (key : BlockRef) : M.View :=
  match store.cache.find? key with
  | some block =>
    if block.dirty then M.view (store.context key) block.data
    else M.content store.codec (store.context key)
  | none => M.content store.codec (store.context key)

/-- In a sound store, dropping a block changes nothing. -/
theorem settled_eq_logical (hsound : M.Sound store) : M.settled store key = M.logical store key := by
  rw [settled, logical]
  cases hfind : store.cache.find? key with
  | none => rfl
  | some block =>
    simp only
    split
    · rfl
    · next hdirty => exact (hsound.clean hfind (Bool.eq_false_iff.mpr hdirty)).symm

variable (M) in
/-- The step from `before` to `after` wrote the blocks of a band back and dropped them. -/
structure Dropped (before : BlockStore κ) (band : Nat) (after : BlockStore κ) : Prop where
  bands : before.SameBands after
  sound : M.Sound after
  logical : ∀ key, M.Serves (before.context key) →
    M.logical after key = if key.band = band then M.settled before key else M.logical before key
  written : ∀ key, M.Serves (before.context key) → (M.Written after key ↔ M.Written before key)

/-- What the codec has stored after the dirty blocks of a band were written back. -/
private theorem content_of_writesBack {band : Nat} {written : List BlockRef}
    (h : M.WritesBack before written after)
    (hwritten : ∀ key, key ∈ written ↔ (key.band == band) = true ∧
      ∃ block, before.cache.find? key = some block ∧ block.dirty = true)
    (hserves : M.Serves (before.context key)) :
    M.content after.codec (before.context key) =
      if key.band = band then M.settled before key
      else M.content before.codec (before.context key) := by
  have hcontent := h.content _ hserves
  rw [context_block] at hcontent
  rw [hcontent, settled]
  cases hfind : before.cache.find? key with
  | none => simp
  | some block =>
    -- of the blocks that are held, those of the band that are dirty were written
    have hiff : key ∈ written ↔ key.band = band ∧ block.dirty = true := by
      rw [hwritten, hfind, beq_iff_eq]
      simp
    by_cases hband : key.band = band
    · simp [hiff, hband]
    · simp [hiff, hband]

/-- After a band is written back, its blocks are clean. -/
private theorem not_dirty_of_writesBack {band : Nat} {written : List BlockRef}
    (h : M.WritesBack before written after)
    (hwritten : ∀ key, key ∈ written ↔ (key.band == band) = true ∧
      ∃ block, before.cache.find? key = some block ∧ block.dirty = true)
    (hband : key.band = band) :
    ¬∃ block, after.cache.find? key = some block ∧ block.dirty = true := by
  rintro ⟨found, hfind, hdirty⟩
  rw [h.find?] at hfind
  obtain ⟨block, hblock, rfl⟩ := Option.map_eq_some_iff.mp hfind
  split at hdirty
  · -- a block that was written is clean
    contradiction
  · next hnot => exact hnot ((hwritten key).mpr ⟨beq_iff_eq.mpr hband, block, hblock, hdirty⟩)

/-- After a band is written back and dropped, only blocks of other bands are left, which were held
    before with the same bytes. -/
private theorem exists_of_find?_dropped {band : Nat} {written : List BlockRef} {found : Block}
    (h : M.WritesBack before written after)
    (hwritten : ∀ key, key ∈ written ↔ (key.band == band) = true ∧
      ∃ block, before.cache.find? key = some block ∧ block.dirty = true)
    (hfind : (after.cache.removeBand band).find? key = some found) :
    key.band ≠ band ∧ before.cache.find? key = some found := by
  rw [BlockCache.find?_removeBand] at hfind
  split at hfind
  · simp at hfind
  · next hband =>
    rw [h.find?, Option.map_eq_some_iff] at hfind
    obtain ⟨block, hblock, rfl⟩ := hfind
    -- a block of another band was not written
    have hnot : key ∉ written := by
      rw [hwritten, beq_iff_eq]
      exact fun hboth => hband hboth.1
    rw [if_neg hnot]
    exact ⟨hband, hblock⟩

/-- After a band is written back and dropped, the content of its blocks is what was settled. -/
private theorem logical_dropped {band : Nat} {written : List BlockRef}
    (h : M.WritesBack before written after)
    (hcontent : M.content after.codec (before.context key) =
      if key.band = band then M.settled before key
      else M.content before.codec (before.context key)) :
    M.logical { after with cache := after.cache.removeBand band } key =
      if key.band = band then M.settled before key else M.logical before key := by
  have hremove : (after.cache.removeBand band).find? key =
      if key.band = band then none else after.cache.find? key := BlockCache.find?_removeBand band
  rw [← h.bands.context] at hcontent
  -- blocks of the band are left to what is stored, any other keeps its copy
  by_cases hband : key.band = band
  · rw [if_pos hband, logical_of_none (hremove.trans (if_pos hband))]
    exact hcontent.trans (if_pos hband)
  · rw [if_neg hband]
    have hfind := hremove.trans (if_neg hband)
    -- outside the band a held block stays held, its bytes unchanged by a write-back
    rw [h.find?] at hfind
    cases hblock : before.cache.find? key with
    | none =>
      rw [hblock, Option.map_none] at hfind
      rw [logical_of_none hfind, logical_of_none hblock, ← h.bands.context]
      exact hcontent.trans (if_neg hband)
    | some block =>
      rw [hblock, Option.map_some] at hfind
      rw [logical_of_some hfind, logical_of_some hblock, ← h.bands.context]
      show M.view (after.context key) _ = _
      split
      · rfl
      · rfl

/-- Writing a band back and dropping its blocks leaves a sound store, also if the clean blocks of
    the band are not what the codec has stored. -/
theorem ends_dropBand {band : Nat} (htidy : M.Tidy store)
    (hclean : ∀ {key block}, store.cache.find? key = some block → block.dirty = false →
      key.band ≠ band →
      M.view (store.context key) block.data = M.content store.codec (store.context key)) :
    (flushBand (κ := κ) band >>= fun _ => invalidateBand band).Ends store
      (fun _ after => M.Dropped store band after)
      (fun _ after => (∃ written, M.WritesBack store written after) ∧ M.MayFail) := by
  refine Ends.bind ((ends_flushSelected htidy _).mono ?_ fun _ _ h => h)
  intro _ middle hmiddle
  obtain ⟨written, hwrites, hwritten⟩ := hmiddle
  have hcontent {key : BlockRef} (hserves : M.Serves (store.context key)) :=
    content_of_writesBack hwrites hwritten hserves
  have hheld {key : BlockRef} {found : Block}
      (hfind : (middle.cache.removeBand band).find? key = some found) :=
    exists_of_find?_dropped hwrites hwritten hfind
  refine ends_modify.mpr ⟨hwrites.bands.trans ⟨rfl, rfl⟩, ⟨⟨hwrites.holds,
    hwrites.distinct.removeBand band, fun hfind => ?_, fun hfind => ?_⟩, ?_⟩, fun key hserves => ?_,
    fun key hserves => ?_⟩
  · -- the blocks that stay are blocks of before, so that they are still served and still fit
    show M.Serves (middle.context _)
    rw [hwrites.bands.context]
    exact htidy.served (hheld hfind).2
  · show M.Fits (middle.context _) _
    rw [hwrites.bands.context]
    exact htidy.fits (hheld hfind).2
  · -- a clean block that stays is of another band, which the flush did not write
    intro key found hfind hdirty
    obtain ⟨hband, hblock⟩ := hheld hfind
    show M.view (middle.context key) found.data = M.content middle.codec (middle.context key)
    rw [hwrites.bands.context, hcontent (htidy.served hblock), if_neg hband]
    exact hclean hblock hdirty hband
  · exact logical_dropped hwrites (hcontent hserves)
  · -- no block that is dropped is still dirty
    rw [← hwrites.written hserves]
    refine or_congr_left ?_
    show (∃ block, (middle.cache.removeBand band).find? key = some block ∧ _) ↔ _
    rw [BlockCache.find?_removeBand]
    split
    · next hband => simp [not_dirty_of_writesBack hwrites hwritten hband]
    · exact Iff.rfl

end CodecModel

end RasterStore
