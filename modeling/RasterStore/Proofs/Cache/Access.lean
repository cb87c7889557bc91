import RasterStore.Proofs.Cache.CodecModel

/-!
# Getting blocks

What the steps of a block store do over a codec with a `CodecModel`, whether they succeed or fail:

* `ends_evictOldest`, `ends_makeRoom`   giving blocks up changes no content
* `ends_fetch`                          a fetched block has its logical content
* `ends_change`                         changing a block changes the content of no other one

If the codec's calls cannot fail, neither can these steps.
-/

namespace RasterStore

open BlockStore RasterStore.Action

namespace BlockStore

variable {κ α : Type}

/-- A step of the codec ends, as a step of the store, as it does on the codec. -/
theorem ends_onCodec {act : Action κ α} {store : BlockStore κ} {good : α → BlockStore κ → Prop}
    {bad : RasterError → BlockStore κ → Prop}
    (h : act.Ends store.codec (fun value codec => good value { store with codec })
      (fun error codec => bad error { store with codec })) :
    (onCodec act).Ends store good bad :=
  h.of_part (fun codec => { store with codec }) rfl

end BlockStore

namespace CodecModel

variable {κ : Type} [Codec κ] {M : CodecModel κ} {store : BlockStore κ} {key : BlockRef}

/-! ## Decoding and encoding -/

/-- A decoded block has its size and its content; the cache stays as it is. -/
theorem ends_decodeBlock (hsound : M.Sound store) (hserves : M.Serves (store.context key)) :
    (BlockStore.decode key).Ends store
      (fun data after => (M.Keeps store after ∧ after.cache = store.cache) ∧
        data.size = (store.descriptor key.band).blockBytes ∧
        M.view (store.context key) data = M.content store.codec (store.context key))
      (fun _ after => (M.Keeps store after ∧ after.cache = store.cache) ∧ M.MayFail) := by
  -- decoding may change the codec, but neither the cache nor what is stored
  have hkeeps {after : BlockStore κ} (hbands : store.SameBands after)
      (hcache : after.cache = store.cache) (hholds : M.Holds after.codec)
      (hcontent : M.content after.codec = M.content store.codec)
      (hgiven : M.Given after.codec = M.Given store.codec) : M.Keeps store after := by
    refine .of_codec hsound hbands (fun _ => by rw [hcache]) (by rw [hcache]; exact hsound.distinct)
      hholds fun _ _ => ?_
    rw [Unchanged, hcontent, hgiven]
    exact ⟨rfl, Iff.rfl⟩
  refine Ends.get_bind (Ends.bind (ends_onCodec (Ends.mapError
    ((M.ends_decode hsound.holds hserves).mono ?_ ?_))))
  · intro decoded codec hcodec
    obtain ⟨⟨hholds, hcontent, hgiven⟩, hdecoded⟩ := hcodec
    refine Ends.modify_bind ?_
    refine Ends.ite (fun hsize => ?_) (fun hsize => ?_)
    · -- the whole block came back
      rw [if_pos hsize] at hdecoded
      exact ends_pure.mpr ⟨⟨hkeeps ⟨rfl, rfl⟩ rfl hholds hcontent hgiven, rfl⟩, hsize, hdecoded⟩
    · -- too little or too much of it, which is refused
      rw [if_neg hsize] at hdecoded
      exact ends_throw.mpr ⟨⟨hkeeps ⟨rfl, rfl⟩ rfl hholds hcontent hgiven, rfl⟩, hdecoded⟩
  · intro error codec hfailed
    obtain ⟨⟨hholds, hcontent, hgiven⟩, hfail⟩ := hfailed
    exact ⟨⟨hkeeps ⟨rfl, rfl⟩ rfl hholds hcontent hgiven, rfl⟩, hfail⟩

variable (M) in
/-- The codec after `data` was stored for a block. -/
def Stored (store : BlockStore κ) (key : BlockRef) (data : ByteArray) (codec : κ) : Prop :=
  M.Holds codec ∧ ∀ other, M.Serves other →
    (M.content codec other =
      if other.block = key then M.view other data else M.content store.codec other) ∧
    (M.Given codec other ↔ other.block = key ∨ M.Given store.codec other)

/-- Storing a block makes its bytes the content that the codec has, or fails and changes no content.
    -/
theorem ends_encodeBlock {data : ByteArray} (hholds : M.Holds store.codec)
    (hserves : M.Serves (store.context key))
    (hfits : M.Fits (store.context key) data) :
    (BlockStore.encode key data).Ends store
      (fun _ after => ∃ codec, after = { store with codec } ∧ M.Stored store key data codec)
      (fun _ after => (∃ codec, after = { store with codec } ∧ M.Holds codec ∧
        ∀ other, M.Serves other → M.Unchanged store.codec codec other) ∧ M.MayFail) := by
  refine Ends.get_bind (ends_onCodec (Ends.mapError ((M.ends_encode hholds hserves hfits).mono ?_ ?_)))
  · intro _ codec hstored
    exact ⟨codec, rfl, hstored⟩
  · intro error codec hfailed
    obtain ⟨hcodec, hfail⟩ := hfailed
    exact ⟨⟨codec, rfl, hcodec⟩, hfail⟩

/-! ## Making room -/

variable (M) in
/-- The step from `before` to `after` gave some blocks of the cache up and nothing else. -/
structure GivesUp (before after : BlockStore κ) : Prop where
  keeps : M.Keeps before after
  absent : ∀ key, before.cache.find? key = none → after.cache.find? key = none

/-- Nothing is given up where nothing happens. -/
theorem GivesUp.refl (hsound : M.Sound store) : M.GivesUp store store :=
  ⟨.refl hsound, fun _ h => h⟩

/-- What is given up in two steps is given up together. -/
theorem GivesUp.trans {first second third : BlockStore κ} (h : M.GivesUp first second)
    (h' : M.GivesUp second third) : M.GivesUp first third :=
  ⟨h.keeps.trans h'.keeps, fun key hnone => h'.absent key (h.absent key hnone)⟩

/-- Giving blocks up changes no content if the codec has stored each block that is gone. -/
private theorem givesUp_of_stored {codec : κ} {cache : BlockCache} (hsound : M.Sound store)
    (hdistinct : cache.Distinct) (hholds : M.Holds codec)
    (hkept : ∀ {other found}, cache.find? other = some found →
      store.cache.find? other = some found)
    (hcontent : ∀ other, M.Serves (store.context other) →
      cache.find? other = store.cache.find? other ∧
          M.content codec (store.context other) = M.content store.codec (store.context other) ∨
        cache.find? other = none ∧ ∃ block, store.cache.find? other = some block ∧
          M.content codec (store.context other) = M.view (store.context other) block.data)
    (hwritten : ∀ other, M.Serves (store.context other) →
      (M.Written { store with cache, codec } other ↔ M.Written store other)) :
    M.GivesUp store { store with cache, codec } := by
  refine ⟨⟨⟨rfl, rfl⟩, ⟨⟨hholds, hdistinct, fun h => hsound.served (hkept h),
    fun h => hsound.fits (hkept h)⟩, ?_⟩, ?_, hwritten⟩, ?_⟩
  · -- a clean block that is left is one that the codec has not stored anew
    intro other found h hclean
    have hbefore := hkept h
    show M.view (store.context other) found.data = M.content codec (store.context other)
    rcases hcontent other (hsound.served hbefore) with ⟨-, hsame⟩ | ⟨hnone, -⟩
    · rw [hsame]
      exact hsound.clean hbefore hclean
    · rw [hnone] at h
      simp at h
  · -- the contents, block by block
    intro other hserves
    rcases hcontent other hserves with ⟨hfind, hsame⟩ | ⟨hnone, block, hheld, hstored⟩
    · exact logical_congr ⟨rfl, rfl⟩ hfind hsame
    · -- the block that is gone has the content that it had in the cache
      rw [logical_of_some hheld, logical_of_none hnone]
      exact hstored
  · -- what was not in the cache is not there now
    intro other hnone
    cases h : cache.find? other with
    | none => rfl
    | some found =>
      rw [hkept h] at hnone
      simp at hnone

/-- Giving up a block that the codec has stored changes no content. -/
private theorem givesUp_removeOldest {block : Block} {codec : κ} {cache : BlockCache}
    (hsound : M.Sound store) (holdest : store.cache.oldest? = some (key, block))
    (hentries : cache.entries = store.cache.removeOldest.entries) (hholds : M.Holds codec)
    (hcontent : ∀ other, M.Serves other → other.block ≠ key →
      M.content codec other = M.content store.codec other)
    (hstored : M.content codec (store.context key) = M.view (store.context key) block.data)
    (hgiven : ∀ other, M.Serves (store.context other) → (M.Given codec (store.context other) ↔
      other = key ∧ block.dirty = true ∨ M.Given store.codec (store.context other))) :
    M.GivesUp store { store with cache, codec } := by
  have hfind (other : BlockRef) :
      cache.find? other = if other = key then none else store.cache.find? other := by
    rw [← BlockCache.find?_removeOldest hsound.distinct holdest, BlockCache.find?, hentries]
    rfl
  have hdistinct := hsound.distinct.removeOldest
  rw [BlockCache.Distinct, BlockCache.keys, ← hentries] at hdistinct
  have hheld := BlockCache.find?_of_oldest? hsound.distinct holdest
  refine givesUp_of_stored hsound hdistinct hholds (fun {other found} h => ?_)
    (fun other hserves => ?_) fun other hserves => ?_
  · -- all other blocks stay
    rw [hfind] at h
    split at h
    · simp at h
    · exact h
  · -- only the oldest block leaves the cache, and the codec has it
    by_cases hother : other = key
    · subst hother
      exact .inr ⟨(hfind other).trans (if_pos rfl), block, hheld, hstored⟩
    · exact .inl ⟨(hfind other).trans (if_neg hother), hcontent _ hserves hother⟩
  · -- the block that is gone is written if it was dirty, as the codec has it then
    show (_ ∨ M.Given codec (store.context other)) ↔ _
    rw [Written, hgiven other hserves, hfind]
    by_cases hother : other = key
    · subst hother
      simp [hheld]
    · simp [hother]

/-- Dropping clean blocks changes no content. -/
theorem givesUp_drop {cache : BlockCache} (hsound : M.Sound store) (hdistinct : cache.Distinct)
    {dropped : BlockRef → Prop} [DecidablePred dropped]
    (hfind : ∀ other,
      cache.find? other = if dropped other then none else store.cache.find? other)
    (hclean : ∀ other block, dropped other → store.cache.find? other = some block →
      block.dirty = false) :
    M.GivesUp store { store with cache } := by
  refine givesUp_of_stored hsound hdistinct hsound.holds (fun {other found} h => ?_)
    (fun other _ => ?_) fun other _ => ?_
  · rw [hfind] at h
    split at h
    · simp at h
    · exact h
  · -- a clean block leaves the cache, and the codec has it
    by_cases hother : dropped other
    · have hnone := (hfind other).trans (if_pos hother)
      cases hheld : store.cache.find? other with
      | none => exact .inl ⟨hnone, rfl⟩
      | some block =>
        exact .inr ⟨hnone, block, rfl, (hsound.clean hheld (hclean other block hother hheld)).symm⟩
    · exact .inl ⟨(hfind other).trans (if_neg hother), rfl⟩
  · -- a block that is gone was clean
    show ((∃ block, cache.find? other = some block ∧ block.dirty = true) ∨ _) ↔ _
    rw [Written, hfind]
    by_cases hother : dropped other
    · rw [if_pos hother]
      apply or_congr_left
      constructor
      · rintro ⟨_, hnone, -⟩
        contradiction
      · rintro ⟨block, hheld, hdirty⟩
        rw [hclean other block hother hheld] at hdirty
        contradiction
    · rw [if_neg hother]
      exact Iff.rfl

/-- Giving up the oldest block changes no content, also if storing it fails. -/
theorem ends_evictOldest (hsound : M.Sound store) :
    (evictOldest (κ := κ)).Ends store (fun _ after => M.GivesUp store after)
      (fun _ after => M.GivesUp store after ∧ M.MayFail) := by
  refine Ends.get_bind ?_
  cases holdest : store.cache.oldest? with
  | none => exact ends_pure.mpr (.refl hsound)
  | some entry =>
    obtain ⟨key, block⟩ := entry
    have hheld := BlockCache.find?_of_oldest? hsound.distinct holdest
    simp only
    cases hdirty : block.dirty with
    | false =>
      -- the codec has the bytes of a clean block already
      exact givesUp_removeOldest hsound holdest rfl hsound.holds (fun _ _ _ => rfl)
        (hsound.clean hheld hdirty).symm fun _ _ => by simp [hdirty]
    | true =>
      refine Ends.bind ((ends_encodeBlock hsound.holds (hsound.served hheld)
        (hsound.fits hheld)).mono ?_ ?_)
      · intro _ after hafter
        obtain ⟨codec, rfl, hholds, hcontent⟩ := hafter
        refine Ends.modify_bind (ends_modify.mpr ?_)
        refine givesUp_removeOldest hsound holdest rfl hholds ?_ ?_ ?_
        · intro other hserves hne
          rw [(hcontent other hserves).1, if_neg hne]
        · rw [(hcontent _ (hsound.served hheld)).1, if_pos (context_block store key)]
        · -- the block that was stored was dirty
          intro other hserves
          rw [(hcontent _ hserves).2, context_block]
          simp [hdirty]
      · -- the block keeps its place
        intro error after hfailed
        obtain ⟨⟨codec, rfl, hholds, hcontent⟩, hfail⟩ := hfailed
        exact ⟨⟨.of_codec hsound ⟨rfl, rfl⟩ (fun _ => rfl) hsound.distinct hholds
          fun _ hserves => hcontent _ hserves, fun _ h => h⟩, hfail⟩

/-- Giving up any number of blocks changes no content, also where it fails. -/
theorem ends_evict (hsound : M.Sound store) (count : Nat) :
    (evict (κ := κ) count).Ends store (fun _ after => M.GivesUp store after)
      (fun _ after => M.GivesUp store after ∧ M.MayFail) := by
  -- induction on the number of blocks that go; each one goes from a sound store
  induction count generalizing store with
  | zero => exact ends_pure.mpr (.refl hsound)
  | succ count ih =>
    refine Ends.bind ((ends_evictOldest hsound).mono ?_ fun _ _ h => h)
    intro _ reached hfirst
    refine (ih hfirst.keeps.sound).mono ?_ ?_
    · exact fun _ _ hrest => hfirst.trans hrest
    · exact fun _ _ hrest => ⟨hfirst.trans hrest.1, hrest.2⟩

/-- Making room changes no content, also where it fails. -/
theorem ends_makeRoom (hsound : M.Sound store) (target : Nat) :
    (makeRoom (κ := κ) target).Ends store (fun _ after => M.GivesUp store after)
      (fun _ after => M.GivesUp store after ∧ M.MayFail) :=
  Ends.get_bind (ends_evict hsound _)

/-- Changing the capacity changes no content. -/
theorem ends_setCapacity (hsound : M.Sound store) (capacity : Nat) :
    (setCapacity (κ := κ) capacity).Ends store (fun _ after => M.Keeps store after)
      (fun _ after => M.Keeps store after ∧ M.MayFail) := by
  have hresized : M.Keeps store
      { store with cache := { store.cache with capacity := max capacity 1 } } :=
    .of_codec hsound ⟨rfl, rfl⟩ (fun _ => rfl) hsound.distinct hsound.holds fun _ _ => .refl _ _
  refine Ends.modify_bind ((ends_makeRoom hresized.sound _).mono ?_ ?_)
  · exact fun _ _ h => hresized.trans h.keeps
  · exact fun _ _ h => ⟨hresized.trans h.1.keeps, h.2⟩

/-! ## Fetching -/

/-- A loaded block has its size; it is padding if it is going to be overwritten, else the codec's
    content. The cache holds the same blocks as before. -/
theorem ends_load (hsound : M.Sound store) (hserves : M.Serves (store.context key))
    (use : BlockUse) :
    (load key use).Ends store
      (fun data after =>
        (M.Keeps store after ∧ ∀ other, after.cache.find? other = store.cache.find? other) ∧
        data.size = (store.descriptor key.band).blockBytes ∧
        M.view (store.context key) data =
          if use = .overwrite then M.view (store.context key) (store.descriptor key.band).padding
          else M.content store.codec (store.context key))
      (fun _ after =>
        (M.Keeps store after ∧ ∀ other, after.cache.find? other = store.cache.find? other) ∧
        M.MayFail) := by
  refine Ends.ite (fun huse => ?_) (fun huse => ?_)
  · -- what is going to be overwritten need not be decoded
    refine Ends.get_bind (ends_pure.mpr ⟨⟨.refl hsound, fun _ => rfl⟩, ?_, ?_⟩)
    · exact BandDescriptor.size_padding _
    · rw [if_pos huse]
  · refine Ends.bind ((ends_decodeBlock hsound hserves).mono ?_ ?_)
    · intro data after hafter
      obtain ⟨⟨hkeeps, hcache⟩, hsize, hview⟩ := hafter
      refine Ends.modify_bind (ends_pure.mpr ⟨⟨hkeeps.trans ?_, fun other => ?_⟩, hsize, ?_⟩)
      · exact .of_codec hkeeps.sound ⟨rfl, rfl⟩ (fun _ => rfl) hkeeps.sound.distinct
          hkeeps.sound.holds fun _ _ => .refl _ _
      · -- only a number of the cache changes behind the decoding
        rw [← hcache]
        rfl
      · rw [if_neg huse, hview]
    · intro error after hfailed
      obtain ⟨⟨hkeeps, hcache⟩, hfail⟩ := hfailed
      exact ⟨⟨hkeeps, fun _ => by rw [hcache]⟩, hfail⟩

variable (M) in
/-- The content that a block is fetched with. -/
def fetchedView (store : BlockStore κ) (key : BlockRef) (use : BlockUse) : M.View :=
  if use = .overwrite ∧ store.cache.find? key = none then
    M.view (store.context key) (store.descriptor key.band).padding
  else M.logical store key

variable (M) in
/-- A step fetched a block: it has the bytes `data` and is the newest one of the cache, dirty if it
    is going to be changed. No other block changed its content. -/
structure Fetched (before : BlockStore κ) (key : BlockRef) (use : BlockUse) (data : ByteArray)
    (after : BlockStore κ) : Prop where
  bands : before.SameBands after
  sound : M.Sound after
  newest : ∃ dirty rest, after.cache.entries = (key, ⟨data, dirty⟩) :: rest ∧
    (use.forWriting = true → dirty = true)
  fits : M.Fits (before.context key) data
  view : M.view (before.context key) data = M.fetchedView before key use
  others : ∀ other, other ≠ key → M.Serves (before.context other) →
    M.logical after other = M.logical before other
  written : ∀ other, M.Serves (before.context other) → (other = key → use.forWriting = false) →
    (M.Written after other ↔ M.Written before other)

/-- A block that is used is sound where it is marked if it is going to be changed. -/
private theorem sound_touch {forWriting : Bool} (htidy : M.Tidy store)
    (hclean : ∀ {other found}, store.cache.find? other = some found → found.dirty = false →
      (other = key → forWriting = false) →
      M.view (store.context other) found.data = M.content store.codec (store.context other)) :
    M.Sound { store with cache := store.cache.touch key forWriting } := by
  refine ⟨⟨htidy.holds, htidy.distinct.touch key _, fun {other found} h => ?_,
    fun {other found} h => ?_⟩, fun {other found} h hdirty => ?_⟩
  · obtain ⟨held, hheld, -, -⟩ := BlockCache.exists_of_find?_touch h
    exact htidy.served hheld
  · obtain ⟨held, hheld, hdata, -⟩ := BlockCache.exists_of_find?_touch h
    rw [hdata]
    exact htidy.fits hheld
  · -- a block that is clean now was so before, and is not going to be changed
    obtain ⟨held, hheld, hdata, hiff⟩ := BlockCache.exists_of_find?_touch h
    obtain ⟨hheldClean, hreading⟩ := hiff.mp hdirty
    rw [hdata]
    exact hclean hheld hheldClean hreading

/-- Using a block changes no content. -/
private theorem logical_touch (forWriting : Bool) (other : BlockRef) :
    M.logical { store with cache := store.cache.touch key forWriting } other =
      M.logical store other := by
  -- a use changes the order and a mark, but no bytes
  cases hnow : (store.cache.touch key forWriting).find? other with
  | none =>
    have hbefore := BlockCache.find?_touch_eq_none_iff.mp hnow
    rw [logical_of_none hnow, logical_of_none hbefore]
    rfl
  | some found =>
    obtain ⟨held, hheld, hdata, -⟩ := BlockCache.exists_of_find?_touch hnow
    rw [logical_of_some hnow, logical_of_some hheld, hdata]
    rfl

/-- A use writes no block but the one that is going to be changed. -/
private theorem written_touch {forWriting : Bool} {other : BlockRef}
    (hreading : other = key → forWriting = false) :
    M.Written { store with cache := store.cache.touch key forWriting } other ↔
      M.Written store other := by
  refine or_congr_left ?_
  show (∃ block, (store.cache.touch key forWriting).find? other = some block ∧ _) ↔ _
  rw [BlockCache.find?_touch]
  split
  · next heq =>
    -- the block that is used is marked as it was before
    subst heq
    simp [hreading rfl]
  · exact Iff.rfl

/-- Using a block that is held marks it and makes it the newest one. Before, it may be anything if
    it is going to be changed. -/
private theorem ends_use {block : Block} (htidy : M.Tidy store)
    (hfind : store.cache.find? key = some block) (use : BlockUse)
    (hclean : ∀ {other found}, store.cache.find? other = some found → found.dirty = false →
      (other = key → use.forWriting = false) →
      M.view (store.context other) found.data = M.content store.codec (store.context other)) :
    (do
      modifyCache (·.touch key use.forWriting)
      pure (((← get).cache.find? key).elim ByteArray.empty Block.data) :
        Action (BlockStore κ) ByteArray).Ends store
      (fun data after => data = block.data ∧ store.SameBands after ∧ M.Sound after ∧
        (∃ dirty rest, after.cache.entries = (key, ⟨data, dirty⟩) :: rest ∧
          (use.forWriting = true → dirty = true)) ∧
        (∀ other, M.logical after other = M.logical store other) ∧
        ∀ other, (other = key → use.forWriting = false) →
          (M.Written after other ↔ M.Written store other))
      (fun _ _ => False) := by
  have hentries := BlockCache.entries_touch hfind use.forWriting
  have hdata : ((store.cache.touch key use.forWriting).find? key).elim ByteArray.empty Block.data =
      block.data := by
    rw [BlockCache.find?_touch, if_pos rfl, hfind]
    rfl
  refine Ends.modify_bind (Ends.get_bind (ends_pure.mpr ⟨hdata, ⟨rfl, rfl⟩,
    sound_touch htidy hclean, ?_, logical_touch _, fun other => written_touch⟩))
  refine ⟨block.dirty || use.forWriting, (store.cache.remove key).entries, ?_, fun hwriting => ?_⟩
  · dsimp only
    rw [hdata]
    exact hentries
  · rw [hwriting, Bool.or_true]

/-- A block that the cache holds is fetched from there. -/
private theorem ends_fetch_of_held {block : Block} (hsound : M.Sound store)
    (hfind : store.cache.find? key = some block) (use : BlockUse) :
    (fetch key use).Ends store (fun data after => M.Fetched store key use data after)
      (fun _ _ => False) := by
  have hcounted : M.Keeps store { store with cache := store.cache.countHit } :=
    .of_codec hsound ⟨rfl, rfl⟩ (fun _ => rfl) hsound.distinct hsound.holds fun _ _ => .refl _ _
  refine Ends.get_bind (Ends.ite (fun _ => ?_) (fun habsent => ?_))
  · refine Ends.modify_bind ((ends_use hcounted.sound.toTidy hfind use
      fun h hdirty _ => hcounted.sound.clean h hdirty).mono ?_ fun _ _ h => h)
    intro data after hafter
    obtain ⟨rfl, hbands, hafter, hnewest, hlogical, hwritten⟩ := hafter
    refine ⟨hcounted.bands.trans hbands, hafter, hnewest, hsound.fits hfind, ?_, ?_, ?_⟩
    · -- it has the bytes that the cache holds
      rw [fetchedView, if_neg (by simp [hfind]), logical_of_some hfind]
    · -- and counting the hit changed nothing
      intro other _ hother
      rw [hlogical, hcounted.logical other hother]
    · intro other hother hreading
      rw [hwritten other hreading, hcounted.written other hother]
  · exact (habsent (BlockCache.contains_iff_exists.mpr ⟨block, hfind⟩)).elim

/-- A block that was not held can be inserted with bytes that fit it. -/
private theorem tidy_insert {data : ByteArray} (hsound : M.Sound store)
    (hserves : M.Serves (store.context key)) (hnone : store.cache.find? key = none)
    (hfits : M.Fits (store.context key) data) :
    M.Tidy { store with cache := store.cache.insert key data } := by
  have hinsert (other : BlockRef) := BlockCache.find?_insert store.cache key other data
  -- the new block is served and fits by assumption, the others as before
  refine ⟨hsound.holds, hsound.distinct.insert hnone data, fun {other _} h => ?_,
    fun {other found} h => ?_⟩
  · rw [hinsert] at h
    split at h
    · next heq => exact heq ▸ hserves
    · exact hsound.served h
  · rw [hinsert] at h
    split at h
    · next heq =>
      subst heq
      cases h
      exact hfits
    · exact hsound.fits h

/-- Inserting a block changes the content of no other one. -/
private theorem logical_insert {other : BlockRef} (hne : other ≠ key) (data : ByteArray) :
    M.logical { store with cache := store.cache.insert key data } other =
      M.logical store other :=
  logical_congr ⟨rfl, rfl⟩
    ((BlockCache.find?_insert store.cache key other data).trans (if_neg hne)) rfl

/-- A block that was only loaded is not written. -/
private theorem written_insert {other : BlockRef} {data : ByteArray}
    (hnone : store.cache.find? key = none) :
    M.Written { store with cache := store.cache.insert key data } other ↔
      M.Written store other := by
  refine or_congr_left ?_
  show (∃ block, (store.cache.insert key data).find? other = some block ∧ _) ↔ _
  rw [BlockCache.find?_insert]
  split
  · next heq => simp [heq, hnone]
  · exact Iff.rfl

/-- A block that the cache does not hold is loaded, and others may have to go for it. -/
private theorem ends_fetch_of_absent (hsound : M.Sound store)
    (hserves : M.Serves (store.context key)) (hnone : store.cache.find? key = none)
    (use : BlockUse) :
    (fetch key use).Ends store (fun data after => M.Fetched store key use data after)
      (fun _ after => M.Keeps store after ∧ M.MayFail) := by
  have hcounted : M.Keeps store { store with cache := store.cache.countMiss } :=
    .of_codec hsound ⟨rfl, rfl⟩ (fun _ => rfl) hsound.distinct hsound.holds fun _ _ => .refl _ _
  refine Ends.get_bind (Ends.ite (fun hheld => ?_) (fun _ => ?_))
  · rw [BlockCache.contains_eq_false_iff.mpr hnone] at hheld
    simp at hheld
  refine Ends.modify_bind (Ends.bind ((ends_load hcounted.sound hserves use).mono ?_ ?_))
  · -- the block is loaded first, so that a failure drives no other block out
    intro data loaded hloaded
    obtain ⟨⟨hloaded, hcache⟩, hsize, hview⟩ := hloaded
    refine Ends.get_bind (Ends.bind ((ends_makeRoom hloaded.sound _).mono ?_ ?_))
    · intro _ room hroom
      have hkeeps : M.Keeps store room := (hcounted.trans hloaded).trans hroom.keeps
      have hroomNone : room.cache.find? key = none := hroom.absent key ((hcache key).trans hnone)
      have htidy := tidy_insert hkeeps.sound (by rwa [hkeeps.bands.context]) hroomNone
        (by rw [hkeeps.bands.context]; exact M.fits_of_size hsize)
      have hinsert (other : BlockRef) := BlockCache.find?_insert room.cache key other data
      refine Ends.modify_bind ((ends_use htidy ((hinsert key).trans (if_pos rfl)) use ?_).mono ?_
        fun _ _ h => h.elim)
      · -- the inserted block may differ from the stored one only if it is going to be changed
        intro other found h hdirty hreading
        rw [hinsert] at h
        split at h
        · next heq =>
          -- only a block that is going to be overwritten differs from what the codec has stored
          subst heq
          cases h
          have huse : use ≠ .overwrite := by
            rintro rfl
            simp [BlockUse.forWriting] at hreading
          have hsame := hkeeps.logical other hserves
          rw [logical_of_none hroomNone, logical_of_none hnone] at hsame
          show M.view (room.context other) data = M.content room.codec (room.context other)
          rw [if_neg huse] at hview
          rw [hsame, hkeeps.bands.context]
          exact hview
        · exact hkeeps.sound.clean h hdirty
      · intro bytes after hafter
        obtain ⟨rfl, hbands, hafter, hnewest, hlogical, hwritten⟩ := hafter
        refine ⟨hkeeps.bands.trans ⟨hbands.bands, hbands.raster⟩, hafter, hnewest,
          M.fits_of_size hsize, ?_, ?_, ?_⟩
        · -- what was loaded is what the block is fetched with
          rw [fetchedView, logical_of_none hnone]
          simp only [hnone, and_true]
          exact hview
        · intro other hne hother
          rw [hlogical, logical_insert hne, hkeeps.logical other hother]
        · intro other hother hreading
          rw [hwritten other hreading, written_insert hroomNone, hkeeps.written other hother]
    · -- there was no room: what was loaded is forgotten again
      intro error after hfailed
      obtain ⟨hroom, hfail⟩ := hfailed
      exact ⟨(hcounted.trans hloaded).trans hroom.keeps, hfail⟩
  · -- the block could not be loaded
    intro error after hfailed
    obtain ⟨⟨hloaded, -⟩, hfail⟩ := hfailed
    exact ⟨hcounted.trans hloaded, hfail⟩

/-- A fetched block has its content, and no other block changes its own. A failing fetch changes
    no content at all. -/
theorem ends_fetch (hsound : M.Sound store) (hserves : M.Serves (store.context key))
    (use : BlockUse) :
    (fetch key use).Ends store (fun data after => M.Fetched store key use data after)
      (fun _ after => M.Keeps store after ∧ M.MayFail) := by
  cases hfind : store.cache.find? key with
  | some block => exact (ends_fetch_of_held hsound hfind use).mono (fun _ _ h => h) fun _ _ h => h.elim
  | none => exact ends_fetch_of_absent hsound hserves hfind use

/-- A fetched block has the content that was fetched. -/
theorem Fetched.logical_self {use : BlockUse} {data : ByteArray} {after : BlockStore κ}
    (h : M.Fetched store key use data after) : M.logical after key = M.fetchedView store key use := by
  obtain ⟨dirty, rest, hentries, -⟩ := h.newest
  have hfind : after.cache.find? key = some ⟨data, dirty⟩ := by
    rw [BlockCache.find?, hentries, BlockCache.lookup_cons_eq_ite, if_pos rfl]
  rw [logical_of_some hfind, h.bands.context, h.view]

/-- A block fetched for reading leaves all contents as they were. -/
theorem Fetched.keeps {use : BlockUse} {data : ByteArray} {after : BlockStore κ}
    (h : M.Fetched store key use data after) (huse : use.forWriting = false) :
    M.Keeps store after := by
  refine ⟨h.bands, h.sound, fun other hserves => ?_, fun other hserves => ?_⟩
  · by_cases hother : other = key
    · -- only an overwritten block is fetched as padding
      rw [hother, h.logical_self, fetchedView, if_neg (fun hboth => by
        rw [hboth.1] at huse
        contradiction)]
    · exact h.others other hother hserves
  · exact h.written other hserves fun _ => huse

/-! ## Changing -/

variable (M) in
/-- A step changed the bytes of one block from `data` to `changed`, so that it is written. No other
    block changed its content. -/
structure Changed (before : BlockStore κ) (key : BlockRef) (use : BlockUse) (data : ByteArray)
    (changed : ByteArray) (after : BlockStore κ) : Prop where
  bands : before.SameBands after
  sound : M.Sound after
  fits : M.Fits (before.context key) data
  view : M.view (before.context key) data = M.fetchedView before key use
  logical : M.logical after key = M.view (before.context key) changed
  others : ∀ other, other ≠ key → M.Serves (before.context other) →
    M.logical after other = M.logical before other
  touched : M.Written after key
  written : ∀ other, other ≠ key → M.Serves (before.context other) →
    (M.Written after other ↔ M.Written before other)

/-- Changing a block changes its content only. -/
theorem ends_change {use : BlockUse} {f : ByteArray → ByteArray} (hsound : M.Sound store)
    (hserves : M.Serves (store.context key)) (hwriting : use.forWriting = true)
    (hf : ∀ data, M.Fits (store.context key) data → M.Fits (store.context key) (f data)) :
    (change key use f).Ends store
      (fun _ after => ∃ data, M.Changed store key use data (f data) after)
      (fun _ after => M.Keeps store after ∧ M.MayFail) := by
  refine Ends.bind ((ends_fetch hsound hserves use).mono ?_ fun _ _ h => h)
  intro data fetched hfetched
  obtain ⟨dirty, rest, hentries, hdirty⟩ := hfetched.newest
  have hmodify (other : BlockRef) : (fetched.cache.modifyNewest f).find? other =
      if other = key then some ⟨f data, dirty⟩ else fetched.cache.find? other :=
    BlockCache.find?_modifyNewest hentries f
  have hself := (hmodify key).trans (if_pos rfl)
  have hchanged {other : BlockRef} {found : Block}
      (h : (fetched.cache.modifyNewest f).find? other = some found) :
      other = key ∧ found = ⟨f data, dirty⟩ ∨ fetched.cache.find? other = some found := by
    rw [hmodify] at h
    split at h
    · next heq => exact .inl ⟨heq, (Option.some.inj h).symm⟩
    · exact .inr h
  refine ends_modify.mpr ⟨data, hfetched.bands.trans ⟨rfl, rfl⟩, ⟨⟨hfetched.sound.holds,
    hfetched.sound.distinct.modifyNewest f, ?_, ?_⟩, ?_⟩, hfetched.fits, hfetched.view, ?_, ?_,
    .inl ⟨⟨f data, dirty⟩, hself, hdirty hwriting⟩, ?_⟩
  · -- the codec may be asked for all blocks in the cache
    intro other found h
    rcases hchanged h with ⟨rfl, -⟩ | hfind
    · show M.Serves (fetched.context other)
      rwa [hfetched.bands.context]
    · exact hfetched.sound.served hfind
  · -- and be given their bytes
    intro other found h
    rcases hchanged h with ⟨rfl, rfl⟩ | hfind
    · show M.Fits (fetched.context other) (f data)
      rw [hfetched.bands.context]
      exact hf data hfetched.fits
    · exact hfetched.sound.fits hfind
  · intro other found h hclean
    rcases hchanged h with ⟨-, rfl⟩ | hfind
    · -- the changed block is dirty
      rw [hdirty hwriting] at hclean
      simp at hclean
    · exact hfetched.sound.clean hfind hclean
  · rw [logical_of_some hself, ← hfetched.bands.context]
    rfl
  · -- all other blocks are as they were fetched
    intro other hne hother
    rw [← hfetched.others other hne hother]
    exact logical_congr ⟨rfl, rfl⟩ ((hmodify other).trans (if_neg hne)) rfl
  · intro other hne hother
    rw [← hfetched.written other hother fun heq => absurd heq hne]
    refine or_congr_left ?_
    show (∃ block, (fetched.cache.modifyNewest f).find? other = some block ∧ _) ↔ _
    rw [hmodify, if_neg hne]

/-- A changed block is dirty. -/
theorem ends_change_dirty {use : BlockUse} {f : ByteArray → ByteArray} (hsound : M.Sound store)
    (hserves : M.Serves (store.context key)) (hwriting : use.forWriting = true) :
    (change key use f).Ends store
      (fun _ after => ∃ block, after.cache.find? key = some block ∧ block.dirty = true)
      (fun _ _ => True) := by
  refine Ends.bind ((ends_fetch hsound hserves use).mono ?_ fun _ _ _ => trivial)
  intro data fetched hfetched
  obtain ⟨dirty, rest, hentries, hdirty⟩ := hfetched.newest
  refine ends_modify.mpr ⟨⟨f data, dirty⟩, ?_, hdirty hwriting⟩
  exact (BlockCache.find?_modifyNewest hentries f).trans (if_pos rfl)

end CodecModel

/-! ## Loading what can be decoded -/

section Decoding

variable {κ : Type} [Codec κ] {store : BlockStore κ} {key : BlockRef} {data : ByteArray}

/-- A block that can be decoded is loaded; the cache holds the same blocks as before. -/
theorem BlockStore.ends_load_of_decode {reached : κ → Prop}
    (hdecode : (Codec.decode (store.context key)).Ends store.codec
      (fun decoded codec => decoded.bytes = data ∧ reached codec) (fun _ _ => False))
    (hsize : data.size = (store.descriptor key.band).blockBytes) :
    (load key .read).Ends store
      (fun bytes after => bytes = data ∧ reached after.codec ∧
        after.cache.entries = store.cache.entries)
      (fun _ _ => False) := by
  have hdecoded : (BlockStore.decode key).Ends store
      (fun bytes after => bytes = data ∧ reached after.codec ∧
        after.cache.entries = store.cache.entries)
      (fun _ _ => False) := by
    refine Ends.get_bind (Ends.bind (ends_onCodec (Ends.mapError (hdecode.mono ?_ fun _ _ h => h))))
    intro decoded codec hdecoded
    obtain ⟨hbytes, hreached⟩ := hdecoded
    -- the length is checked, and it is right
    refine Ends.modify_bind (Ends.ite (fun _ => ?_) fun hne => ?_)
    · exact ends_pure.mpr ⟨hbytes, hreached, rfl⟩
    · rw [hbytes] at hne
      exact (hne hsize).elim
  refine Ends.bind (hdecoded.mono ?_ fun _ _ h => h)
  intro bytes after hafter
  exact Ends.modify_bind (ends_pure.mpr hafter)

/-- Into an empty cache a block is read without giving others up, so that only decoding could
    fail. -/
theorem BlockStore.ends_fetch_of_empty (hempty : store.cache.entries = [])
    (hdecode : (Codec.decode (store.context key)).Ends store.codec
      (fun decoded _ => decoded.bytes = data) (fun _ _ => False))
    (hsize : data.size = (store.descriptor key.band).blockBytes) :
    (fetch key .read).Ends store (fun bytes _ => bytes = data) (fun _ _ => False) := by
  refine Ends.get_bind (Ends.ite (fun hheld => ?_) fun _ => ?_)
  · rw [BlockCache.contains, BlockCache.find?, hempty] at hheld
    contradiction
  have hdecode' : (Codec.decode (context { store with cache := store.cache.countMiss } key)).Ends
      store.codec (fun decoded _ => decoded.bytes = data ∧ True) (fun _ _ => False) :=
    hdecode.mono (fun _ _ h => ⟨h, trivial⟩) fun _ _ h => h
  refine Ends.modify_bind (Ends.bind ((ends_load_of_decode hdecode' hsize).mono ?_ fun _ _ h => h))
  intro bytes loaded hloaded
  obtain ⟨rfl, -, hentries⟩ := hloaded
  refine Ends.get_bind (Ends.bind (Ends.get_bind ?_))
  -- nothing has to go from an empty cache
  have hnone : loaded.cache.size - (loaded.cache.capacity - 1) = 0 := by
    have hzero : loaded.cache.size = 0 := congrArg List.length (hentries.trans hempty)
    omega
  rw [hnone]
  refine ends_pure.mpr (Ends.modify_bind (Ends.modify_bind (Ends.get_bind (ends_pure.mpr ?_))))
  dsimp only
  rw [BlockCache.find?_touch, if_pos rfl, BlockCache.find?_insert, if_pos rfl]
  rfl

end Decoding

/-- A block in the cache is read from there, and the codec is not asked. -/
theorem BlockStore.ends_fetch_of_find? {κ : Type} [Codec κ] {store : BlockStore κ}
    {key : BlockRef} {block : Block} (hfind : store.cache.find? key = some block) :
    (fetch key .read).Ends store (fun data _ => data = block.data) (fun _ _ => False) := by
  refine Ends.get_bind (Ends.ite (fun _ => ?_) (fun habsent => ?_))
  · -- the block is moved to the front with its bytes
    refine Ends.modify_bind (Ends.modify_bind (Ends.get_bind (ends_pure.mpr ?_)))
    have htouch : (store.cache.countHit.touch key false).find? key =
        (store.cache.find? key).map fun block => { block with dirty := block.dirty || false } :=
      (BlockCache.find?_touch _ key key false).trans (if_pos rfl)
    show ((store.cache.countHit.touch key false).find? key).elim ByteArray.empty Block.data = _
    rw [htouch, hfind]
    rfl
  · -- it is held, so there is no miss
    exact absurd (BlockCache.contains_iff_exists.mpr ⟨block, hfind⟩) habsent

end RasterStore
