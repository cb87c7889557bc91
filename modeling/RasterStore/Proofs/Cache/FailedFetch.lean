import RasterStore.Proofs.Cache.NoLostUpdate
import RasterStore.Proofs.Cache.Residents

/-!
# Fetches that fail

A fetch that fails leaves the cache as it was, but for two of its numbers. This holds over any
codec. The failure comes from the one call of the codec that failed (`FetchFailure`), and it names
the block of that call (`RasterError.PlacedAt`), which need not be the block that was wanted.

* `ends_makeRoom_failure`      room for one block: only the block used longest ago is looked at
* `failed_fetch_leaves_cache`  what a fetch that fails leaves, and why it failed
-/

namespace RasterStore

open RasterStore.Action

/-- `PlacedAt block raised error`: the failure `raised` of a codec becomes `error` on its way to the
    caller. An input/output or format failure without coordinates gets those of the block; one that
    has coordinates, and any other failure, stays what it is. -/
inductive RasterError.PlacedAt (block : BlockRef) : RasterError → RasterError → Prop
  | io (cause : String) : PlacedAt block (.io none cause) (.io (some block) cause)
  | format (reason : String) : PlacedAt block (.format none reason) (.format (some block) reason)
  | unchanged {raised : RasterError} (hio : ∀ cause, raised ≠ .io none cause)
      (hformat : ∀ reason, raised ≠ .format none reason) : PlacedAt block raised raised

theorem RasterError.placedAt_located (block : BlockRef) (raised : RasterError) :
    raised.PlacedAt block (raised.located block) := by
  -- an error that has a place already keeps it
  cases raised with
  | io place cause =>
    cases place with
    | none => exact .io cause
    | some _ => exact .unchanged (by simp) (by simp)
  | format place reason =>
    cases place with
    | none => exact .format reason
    | some _ => exact .unchanged (by simp) (by simp)
  | _ => exact .unchanged (by simp) (by simp)

namespace BlockStore

variable {κ : Type} [Codec κ] {store : BlockStore κ} {key : BlockRef} {use : BlockUse}

/-! ## Where a fetch can fail -/

/-- `Loads context before use decoded after`: a block that is not held can be had, for which
    `decoded` blocks are decoded and which takes the codec from `before` to `after`. -/
inductive Loads (context : BlockContext) (before : κ) (use : BlockUse) : Nat → κ → Prop
  /-- Padding takes the place of a block that will be overwritten. -/
  | padding (huse : use = .overwrite) : Loads context before use 0 before
  | decoded {decoded : Decoded} {after : κ} (huse : use ≠ .overwrite)
      (hdecode : (Codec.decode context).run before = (.ok decoded, after))
      (hsize : decoded.bytes.size = context.descriptor.blockBytes) :
      Loads context before use 1 after

/-- `LoadFailure context before use error after`: a block that is not held cannot be had. -/
inductive LoadFailure (context : BlockContext) (before : κ) (use : BlockUse) :
    RasterError → κ → Prop
  | undecodable {raised error : RasterError} {after : κ} (huse : use ≠ .overwrite)
      (hdecode : (Codec.decode context).run before = (.error raised, after))
      (hplaced : raised.PlacedAt context.block error) : LoadFailure context before use error after
  | wrongSize {decoded : Decoded} {after : κ} (huse : use ≠ .overwrite)
      (hdecode : (Codec.decode context).run before = (.ok decoded, after))
      (hsize : decoded.bytes.size ≠ context.descriptor.blockBytes) :
      LoadFailure context before use (.format (some context.block)
        s!"codec returned {decoded.bytes.size} bytes, expected {context.descriptor.blockBytes}") after

/-- `WriteBackFailure store error codec`: the block used longest ago is dirty and cannot be
    encoded. -/
inductive WriteBackFailure (store : BlockStore κ) : RasterError → κ → Prop
  | intro {victim : BlockRef} {block : Block} {raised error : RasterError} {codec : κ}
      (holdest : store.cache.oldest? = some (victim, block)) (hdirty : block.dirty = true)
      (hencode : (Codec.encode (store.context victim) block.data).run store.codec =
        (.error raised, codec))
      (hplaced : raised.PlacedAt victim error) : WriteBackFailure store error codec

/-- `FetchFailure store key use decoded error codec`: why a fetch fails with `error` after `decoded`
    blocks were decoded, leaving the codec as `codec`. -/
inductive FetchFailure (store : BlockStore κ) (key : BlockRef) (use : BlockUse) :
    Nat → RasterError → κ → Prop
  | load {error : RasterError} {codec : κ}
      (hfailure : LoadFailure (store.context key) store.codec use error codec) :
      FetchFailure store key use 0 error codec
  /-- The block could be had, but the cache is full. -/
  | room {decoded : Nat} {loaded : κ} {error : RasterError} {codec : κ}
      (hloads : Loads (store.context key) store.codec use decoded loaded)
      (hfull : store.cache.size = store.cache.capacity)
      (hfailure : WriteBackFailure { store with codec := loaded } error codec) :
      FetchFailure store key use decoded error codec

/-- Only the blocks in the cache, the bands and the codec count. -/
private theorem WriteBackFailure.of_entries {other : BlockStore κ} {error : RasterError}
    {codec : κ} (hentries : other.cache.entries = store.cache.entries)
    (hbands : store.SameBands other) (h : WriteBackFailure other error codec) :
    WriteBackFailure { store with codec := other.codec } error codec := by
  obtain ⟨holdest, hdirty, hencode, hplaced⟩ := h
  rw [BlockCache.oldest?, hentries] at holdest
  rw [hbands.context] at hencode
  exact ⟨holdest, hdirty, hencode, hplaced⟩

/-! ## The steps of a fetch -/

/-- Loading a block changes one number of the cache at most. -/
private theorem ends_load_failure :
    (load key use).Ends store
      (fun _ after => store.SameBands after ∧ ∃ decoded,
        Loads (store.context key) store.codec use decoded after.codec ∧ after.cache = { store.cache with
          stats.decodes := store.cache.stats.decodes + decoded })
      (fun error after => after.cache = store.cache ∧
        LoadFailure (store.context key) store.codec use error after.codec) := by
  apply Ends.ite
  · -- a block that is to be overwritten is not decoded
    intro huse
    exact Ends.get_bind (ends_pure.mpr ⟨.refl store, 0, .padding huse, rfl⟩)
  · intro huse
    -- any other use decodes the block, which may raise or give too few bytes
    apply Ends.bind
    apply Ends.get_bind
    apply Ends.bind
    apply ends_onCodec
    apply Ends.mapError
    apply ends_run.mono
    · intro decoded codec hdecode
      apply Ends.modify_bind
      apply Ends.ite
      · intro hsize
        exact ends_pure.mpr (Ends.modify_bind (ends_pure.mpr
          ⟨⟨rfl, rfl⟩, 1, .decoded huse hdecode hsize, rfl⟩))
      · exact fun hsize => ends_throw.mpr ⟨rfl, .wrongSize huse hdecode hsize⟩
    · exact fun raised codec hdecode =>
        ⟨rfl, .undecodable huse hdecode (RasterError.placedAt_located key raised)⟩

/-- The block used longest ago stays in its place if it cannot be encoded. -/
private theorem ends_evictOldest_failure :
    (evictOldest (κ := κ)).Ends store (fun _ _ => True)
      (fun error after => after.cache = store.cache ∧
        WriteBackFailure store error after.codec) := by
  apply Ends.get_bind
  cases holdest : store.cache.oldest? with
  | none => exact ends_pure.mpr trivial
  | some entry =>
    obtain ⟨victim, block⟩ := entry
    cases hdirty : block.dirty with
    | false =>
      -- a clean block goes without an encode
      simp only [hdirty]
      exact ends_modify.mpr trivial
    | true =>
      simp only [hdirty]
      -- a dirty block is encoded first, and stays if that fails
      apply Ends.bind
      apply Ends.get_bind
      apply ends_onCodec
      apply Ends.mapError
      apply ends_run.mono
      · exact fun _ _ _ => Ends.modify_bind (ends_modify.mpr trivial)
      · exact fun raised codec hencode =>
          ⟨rfl, holdest, hdirty, hencode, RasterError.placedAt_located victim raised⟩

/-- In a cache that holds no more than it may, room for one block asks for one other at most. So
    nothing was given up before the one that could not be. -/
theorem ends_makeRoom_failure (hfits : store.cache.size ≤ store.cache.capacity) :
    (makeRoom (store.cache.capacity - 1)).Ends store (fun _ _ => True)
      (fun error after => after.cache = store.cache ∧
        store.cache.size = store.cache.capacity ∧
        WriteBackFailure store error after.codec) := by
  -- a cache within its capacity gives up one block at most, and only if it is full
  apply Ends.get_bind
  by_cases hfull : store.cache.size = store.cache.capacity
  · cases hcapacity : store.cache.capacity with
    | zero =>
      rw [hfull, hcapacity]
      exact ends_pure.mpr trivial
    | succ capacity =>
      have hone : store.cache.size - (capacity + 1 - 1) = 1 := by omega
      rw [hone]
      apply Ends.bind
      apply ends_evictOldest_failure.mono
      · exact fun _ _ _ => ends_pure.mpr trivial
      · exact fun _ _ hfailed => ⟨hfailed.1, hfull.trans hcapacity, hfailed.2⟩
  · have hnone : store.cache.size - (store.cache.capacity - 1) = 0 := by omega
    rw [hnone]
    exact ends_pure.mpr trivial

/-! ## Fetching -/

/-- A fetch of a block that is not held changes nothing but two numbers of the cache if it fails. -/
theorem ends_fetch_failure (hfits : store.cache.size ≤ store.cache.capacity)
    (hmissing : store.cache.contains key = false) :
    (fetch key use).Ends store (fun _ _ => True)
      (fun error after => ∃ decoded, FetchFailure store key use decoded error after.codec ∧
        after.cache = { store.cache with
          stats.misses := store.cache.stats.misses + 1
          stats.decodes := store.cache.stats.decodes + decoded }) := by
  apply Ends.get_bind
  apply Ends.ite
  · -- a block that is held is not fetched at all
    intro hheld
    rw [hmissing] at hheld
    contradiction
  · intro _
    apply Ends.modify_bind
    apply Ends.bind
    apply ends_load_failure.mono
    · rintro data loaded ⟨hbands, decoded, hloads, hcache⟩
      apply Ends.get_bind
      apply Ends.bind
      have hloadedFits : loaded.cache.size ≤ loaded.cache.capacity := by
        rw [hcache]
        exact hfits
      apply (ends_makeRoom_failure hloadedFits).mono
      · -- once there is room, nothing can fail any more
        exact fun _ _ _ => Ends.modify_bind (Ends.modify_bind (Ends.get_bind (ends_pure.mpr trivial)))
      · -- the load left the entries alone, so that the block to give up is still that of `store`
        rintro error after ⟨hafter, hfull, hfailure⟩
        have hentries : loaded.cache.entries = store.cache.entries := by
          rw [hcache]
          rfl
        have hsame : store.SameBands loaded := ⟨hbands.bands, hbands.raster⟩
        rw [hcache] at hfull hafter
        exact ⟨decoded, .room hloads hfull (hfailure.of_entries hentries hsame), hafter⟩
    · exact fun _ _ hfailed => ⟨0, .load hfailed.2, hfailed.1⟩

/-- A fetch that fails was for a block that is not held. All blocks in the cache keep their bytes,
    their marks and their order, and the only numbers that change are those of the blocks missed
    and decoded. It failed for one of the reasons that `FetchFailure` lists. -/
theorem failed_fetch_leaves_cache {error : RasterError} {after : BlockStore κ}
    (hfits : store.cache.size ≤ store.cache.capacity)
    (hrun : (fetch key use).run store = (.error error, after)) :
    store.cache.contains key = false ∧
    after.cache.entries = store.cache.entries ∧
    after.cache.capacity = store.cache.capacity ∧
    ∃ decoded, FetchFailure store key use decoded error after.codec ∧
      after.cache.stats = { store.cache.stats with
        misses := store.cache.stats.misses + 1
        decodes := store.cache.stats.decodes + decoded } := by
  -- only a miss can fail
  cases hmissing : store.cache.contains key with
  | true => exact ((ends_fetch_of_held hmissing use).of_error hrun).elim
  | false =>
    obtain ⟨decoded, hfailure, hcache⟩ := (ends_fetch_failure hfits hmissing).of_error hrun
    rw [hcache]
    exact ⟨rfl, rfl, rfl, decoded, hfailure, rfl⟩

open ScriptedCodec in
/-- The only block that there is room for has been changed and cannot be written back. The second
    block can then not be had, and the failure names the first one. -/
theorem failed_fetch_leaves_cache_crowded :
    let store := (changeFirst.perform.run crowded).2
    let refused := (fetch ⟨1, 1, 0⟩ .overwrite).run store
    store.cache.size ≤ store.cache.capacity ∧
      refused.1 = .error (.io (some ⟨1, 0, 0⟩) "no room left") ∧
      refused.2.cache.entries = store.cache.entries ∧ refused.2.cache.stats.misses = 2 := by
  intro store refused
  have hfits : store.cache.size ≤ store.cache.capacity := by decide
  have hrun : refused = (.error (.io (some ⟨1, 0, 0⟩) "no room left"), refused.2) := by rfl
  obtain ⟨-, hentries, -, decoded, -, hstats⟩ := failed_fetch_leaves_cache hfits hrun
  refine ⟨hfits, congrArg Prod.fst hrun, hentries, ?_⟩
  rw [hstats]
  rfl

end BlockStore

end RasterStore
