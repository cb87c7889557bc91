import Mathlib.Data.List.Induction
import RasterStore.Proofs.Cache.NoLostUpdate
import RasterStore.Proofs.Cache.Residents

/-!
# The cache is bounded, and its numbers add up

A cache holds no more blocks than its capacity. Only a shrinking of the cache that fails can leave
more, since each block that has to go may be one that cannot be written back; the next block that
comes in, and the next change of the capacity that succeeds, make up for it.

A `CacheTally` says what some operations add up to: the blocks asked for, brought in and dropped.
After every run the numbers that the cache keeps of itself agree with it, whatever failed.

* `perform_bounded`    one operation and the bound
* `perform_balanced`   one operation and the numbers
* `cache_bounded`      what holds in all states and after all runs
-/

namespace RasterStore

open BlockStore RasterStore.Action

variable {κ : Type} [Codec κ] {store : BlockStore κ}

namespace CacheCall

/-- The block that the operation asks for. -/
def wanted? : CacheCall → Option BlockRef
  | get key _ | change key _ _ => some key
  | flush | flushBand _ | setCapacity _ | invalidate _ | invalidateBand _ => none

/-- The capacity that the operation asks for. -/
def capacity? : CacheCall → Option Nat
  | setCapacity capacity => some capacity
  | get .. | change .. | flush | flushBand _ | invalidate _ | invalidateBand _ => none

end CacheCall

/-! ## The bound -/

/-- What an operation with the given outcome makes of the number of blocks held. -/
structure StaysBounded (before : BlockStore κ) (call : CacheCall)
    (outcome : Except RasterError Unit) (after : BlockStore κ) : Prop where
  capacity_pos : 1 ≤ after.cache.capacity
  /-- Only a change of the capacity that fails leaves more blocks than there is room for. -/
  bounded : before.cache.size ≤ before.cache.capacity →
    after.cache.size ≤ after.cache.capacity ∨
      ∃ capacity error, call = .setCapacity capacity ∧ outcome = .error error
  /-- A change of the capacity that succeeds leaves no more, whatever was there before. -/
  resized : ∀ capacity, call.capacity? = some capacity → outcome = .ok () →
    after.cache.capacity = max capacity 1 ∧ after.cache.size ≤ after.cache.capacity
  /-- So does a block that comes in. -/
  broughtIn : ∀ key, call.wanted? = some key → before.cache.contains key = false →
    outcome = .ok () → after.cache.size ≤ after.cache.capacity

/-- A fetch keeps the capacity, and brings more blocks in only if there is room for them. -/
private theorem ends_fetch_bounded (hcapacity : 1 ≤ store.cache.capacity) (key : BlockRef)
    (use : BlockUse) :
    (fetch key use).Ends store
      (fun _ after => after.cache.capacity = store.cache.capacity ∧
        (after.cache.size ≤ store.cache.size ∨ after.cache.size ≤ store.cache.capacity) ∧
        (store.cache.contains key = false → after.cache.size ≤ store.cache.capacity))
      (fun _ after => after.cache.capacity = store.cache.capacity ∧
        after.cache.size ≤ store.cache.size) := by
  cases hheld : store.cache.contains key with
  | true =>
    -- a hit moves the block to the front and brings nothing in
    apply (ends_fetch_of_held hheld use).mono _ fun _ _ h => h.elim
    intro _ after hafter
    have hsize : after.cache.size ≤ store.cache.size := by
      rw [hafter]
      exact BlockCache.size_touch_le store.cache.countHit key use.forWriting
    refine ⟨?_, .inl hsize, fun h => by contradiction⟩
    rw [hafter, BlockCache.capacity_touch]
    rfl
  | false =>
    -- a miss makes room before it brings the block in
    apply (ends_fetch_of_not_held hheld use).mono
    · intro _ after hbrought
      have hsize := hbrought.size
      have hle : after.cache.size ≤ store.cache.capacity := by omega
      exact ⟨hbrought.capacity, .inr hle, fun _ => hle⟩
    · -- a fetch that fails brings nothing in, but may have given blocks up
      rintro _ after (⟨-, hafter⟩ | ⟨given, -, hgiven⟩)
      · rw [hafter]
        exact ⟨rfl, Nat.le_refl _⟩
      · have hroom := hgiven.size_add
        rw [BlockCache.size_missed] at hroom
        exact ⟨hgiven.capacity.trans (BlockCache.capacity_missed _ _), by omega⟩

/-- Changing the capacity makes room, if no block that has to go fails. -/
private theorem ends_setCapacity_bounded (capacity : Nat) :
    (setCapacity (κ := κ) capacity).Ends store
      (fun _ after => after.cache.capacity = max capacity 1 ∧
        after.cache.size ≤ after.cache.capacity)
      (fun _ after => after.cache.capacity = max capacity 1) := by
  -- the capacity is set first, and stays where making room fails
  apply Ends.modify_bind
  apply (ends_makeRoom_cache (max capacity 1)).mono
  · intro _ after hgiven
    have hcapacity : after.cache.capacity = max capacity 1 := hgiven.capacity
    have hsize := hgiven.size_add
    exact ⟨hcapacity, by omega⟩
  · rintro _ after ⟨given, -, hgiven⟩
    exact hgiven.capacity

omit [Codec κ] in
/-- An operation that keeps the capacity, and leaves no more blocks than before or than there is
    room for. -/
private theorem staysBounded_of_capacity {call : CacheCall} {outcome : Except RasterError Unit}
    {after : BlockStore κ} (hcapacity : 1 ≤ store.cache.capacity)
    (hsame : after.cache.capacity = store.cache.capacity)
    (hsize : after.cache.size ≤ store.cache.size ∨ after.cache.size ≤ store.cache.capacity)
    (hresized : call.capacity? = none)
    (hbrought : ∀ key, call.wanted? = some key → store.cache.contains key = false →
      outcome = .ok () → after.cache.size ≤ store.cache.capacity) :
    StaysBounded store call outcome after := by
  refine ⟨hsame ▸ hcapacity, fun hbound => .inl ?_, fun capacity h => ?_, ?_⟩
  · omega
  · rw [hresized] at h
    contradiction
  · rw [hsame]
    exact hbrought

omit [Codec κ] in
/-- An operation that asks for no block and for no other capacity, and leaves no more blocks. -/
private theorem staysBounded_of_size_le {call : CacheCall} {outcome : Except RasterError Unit}
    {after : BlockStore κ} (hcapacity : 1 ≤ store.cache.capacity)
    (hsame : after.cache.capacity = store.cache.capacity)
    (hsize : after.cache.size ≤ store.cache.size) (hresized : call.capacity? = none)
    (hwanted : call.wanted? = none) : StaysBounded store call outcome after := by
  refine staysBounded_of_capacity hcapacity hsame (.inl hsize) hresized fun key h => ?_
  rw [hwanted] at h
  contradiction

/-- An operation that fetches a block and does something with it that moves no block. -/
private theorem ends_wanted_bounded {call : CacheCall} {key : BlockRef} {use : BlockUse}
    {next : ByteArray → Action (BlockStore κ) Unit} (hcapacity : 1 ≤ store.cache.capacity)
    (hwanted : call.wanted? = some key) (hresized : call.capacity? = none)
    (hnext : ∀ data reached, (next data).Ends reached
      (fun _ after => after.cache.capacity = reached.cache.capacity ∧
        after.cache.size = reached.cache.size) (fun _ _ => False)) :
    (fetch key use >>= next).Ends store
      (fun _ after => StaysBounded store call (.ok ()) after)
      (fun error after => StaysBounded store call (.error error) after) := by
  apply Ends.bind
  apply (ends_fetch_bounded hcapacity key use).mono
  · -- `next` changes neither the capacity nor the number of blocks
    rintro data reached ⟨hsame, hsize, habsent⟩
    apply (hnext data reached).mono _ fun _ _ h => h.elim
    rintro _ after ⟨hcapacityAfter, hsizeAfter⟩
    rw [← hsizeAfter] at hsize habsent
    refine staysBounded_of_capacity hcapacity (hcapacityAfter.trans hsame) hsize hresized ?_
    intro other hother hheld _
    rw [hwanted] at hother
    cases hother
    exact habsent hheld
  · -- a fetch that fails does not get to `next`
    rintro error after ⟨hsame, hsize⟩
    exact staysBounded_of_capacity hcapacity hsame (.inl hsize) hresized fun _ _ _ hok => by
      contradiction

/-- Every operation stays within the bound as far as it can. -/
private theorem ends_perform_bounded (hcapacity : 1 ≤ store.cache.capacity) (call : CacheCall) :
    (call.perform (κ := κ)).Ends store
      (fun _ after => StaysBounded store call (.ok ()) after)
      (fun error after => StaysBounded store call (.error error) after) := by
  -- a flush, of a band or of all, gives no block up
  have hflush {call : CacheCall} (selected : BlockRef → Bool) (hresized : call.capacity? = none)
      (hwanted : call.wanted? = none) :
      (flushSelected (κ := κ) selected).Ends store
        (fun _ after => StaysBounded store call (.ok ()) after)
        (fun error after => StaysBounded store call (.error error) after) := by
    apply (ends_flushSelected_settled store selected).mono
    · exact fun _ after h => staysBounded_of_size_le hcapacity h.capacity (Nat.le_of_eq h.size)
        hresized hwanted
    · exact fun _ after h => staysBounded_of_size_le hcapacity h.capacity (Nat.le_of_eq h.size)
        hresized hwanted
  cases call with
  | get key use =>
    exact ends_wanted_bounded hcapacity rfl rfl fun _ _ => ends_pure.mpr ⟨rfl, rfl⟩
  | change key use f =>
    exact ends_wanted_bounded hcapacity rfl rfl fun _ reached => ends_modify.mpr
      ⟨BlockCache.capacity_modifyNewest _ f, BlockCache.size_modifyNewest _ f⟩
  | flush => exact hflush _ rfl rfl
  | flushBand band => exact hflush _ rfl rfl
  | setCapacity capacity =>
    have hpos : 1 ≤ max capacity 1 := Nat.le_max_right _ _
    -- the new capacity is at least one, whatever was asked for
    apply (ends_setCapacity_bounded capacity).mono
    · rintro _ after ⟨hresized, hsize⟩
      refine ⟨hresized ▸ hpos, fun _ => .inl hsize, fun _ h _ => ?_, fun _ h => by contradiction⟩
      cases h
      exact ⟨hresized, hsize⟩
    · -- the new capacity stays, also if not all blocks went that had to
      intro error after hresized
      exact ⟨hresized ▸ hpos, fun _ => .inr ⟨capacity, error, rfl, rfl⟩,
        fun _ _ hok => by contradiction, fun _ h => by contradiction⟩
  | invalidate key =>
    -- what the caller drops only makes the cache smaller
    apply Ends.bind
    apply Ends.get_bind
    apply Ends.modify_bind
    exact ends_pure.mpr (ends_pure.mpr (staysBounded_of_size_le hcapacity rfl
      (List.length_filter_le _ _) rfl rfl))
  | invalidateBand band =>
    exact ends_modify.mpr (staysBounded_of_size_le hcapacity rfl (List.length_filter_le _ _)
      rfl rfl)

/-- Every call, whether it succeeds or fails, leaves the cache within its bound. -/
theorem perform_bounded (hcapacity : 1 ≤ store.cache.capacity) (call : CacheCall) :
    StaysBounded store call (call.perform.run store).1 (call.perform.run store).2 :=
  Ends.outcome (StaysBounded store call) (ends_perform_bounded hcapacity call)

/-! ## The numbers -/

/-- What some operations add up to. -/
structure CacheTally where
  /-- Blocks that were asked for. -/
  fetched : Nat := 0
  /-- Blocks that were asked for, were not held and came in. -/
  broughtIn : Nat := 0
  /-- Blocks that were dropped, other than to make room. -/
  dropped : Nat := 0

/-- The sums of two tallies. -/
def CacheTally.add (tally other : CacheTally) : CacheTally :=
  ⟨tally.fetched + other.fetched, tally.broughtIn + other.broughtIn, tally.dropped + other.dropped⟩

namespace CacheCall

/-- What one operation on the cache with the given outcome adds. -/
def tally (cache : BlockCache) (outcome : Except RasterError Unit) : CacheCall → CacheTally
  | get key _ | change key _ _ =>
    { fetched := 1
      broughtIn := if outcome.isOk && !cache.contains key then 1 else 0 }
  | invalidate key => { dropped := if cache.contains key then 1 else 0 }
  | invalidateBand band => { dropped := cache.keys.countP (·.band = band) }
  | flush | flushBand _ | setCapacity _ => {}

/-- Carries some operations out, each from what the one before it left, and tells what they add up
    to. -/
def performAll (calls : List CacheCall) (store : BlockStore κ) : BlockStore κ × CacheTally :=
  calls.foldl (fun (reached, tally) call =>
    ((call.perform.run reached).2,
      tally.add (call.tally reached.cache (call.perform.run reached).1))) (store, {})

end CacheCall

/-- The numbers of a cache after operations that add up to `tally`. -/
structure Balanced (before : BlockCache) (tally : CacheTally) (after : BlockCache) : Prop where
  distinct : after.Distinct
  requests : after.stats.hits + after.stats.misses =
    before.stats.hits + before.stats.misses + tally.fetched
  blocks : after.size + after.stats.evictions + tally.dropped =
    before.size + before.stats.evictions + tally.broughtIn

/-- Numbers that are balanced in two steps are balanced for both. -/
theorem Balanced.trans {first second third : BlockCache} {tally other : CacheTally}
    (h : Balanced first tally second) (h' : Balanced second other third) :
    Balanced first (tally.add other) third := by
  have hrequests := h.requests
  have hrequests' := h'.requests
  have hblocks := h.blocks
  have hblocks' := h'.blocks
  refine ⟨h'.distinct, ?_, ?_⟩
  · simp only [CacheTally.add]
    omega
  · simp only [CacheTally.add]
    omega

/-- Writing back counts no block that comes or goes. -/
theorem Balanced.of_settled {before after : BlockCache} (hdistinct : before.Distinct)
    (h : before.Settled after) : Balanced before {} after := by
  have hstats := h.stats
  refine ⟨?_, ?_, ?_⟩
  · rw [BlockCache.Distinct, h.keys]
    exact hdistinct
  · rw [hstats]
    rfl
  · rw [h.size, hstats]

/-- Blocks that are given up are counted. -/
theorem Balanced.of_givenUp {before after : BlockCache} {count : Nat}
    (hdistinct : before.Distinct) (h : before.GivenUp count after) :
    Balanced before {} after := by
  have hsize := h.size_add
  refine ⟨?_, ?_, ?_⟩
  · -- the blocks that are left were there before
    rw [BlockCache.Distinct, h.keys]
    exact hdistinct.sublist (List.take_sublist _ _)
  · rw [h.stats]
    rfl
  · rw [h.evictions]
    show after.size + (before.stats.evictions + count) + 0 =
      before.size + before.stats.evictions + 0
    omega

/-- A block that is not held is asked for, and nothing else has happened yet. -/
theorem Balanced.missed {before : BlockCache} (hdistinct : before.Distinct) (use : BlockUse) :
    Balanced before { fetched := 1 } (before.missed use) := by
  refine ⟨?_, ?_, ?_⟩
  · rw [BlockCache.Distinct, BlockCache.keys, BlockCache.entries_missed]
    exact hdistinct
  · rw [BlockCache.stats_missed]
    rfl
  · rw [BlockCache.stats_missed, BlockCache.size_missed]

/-- A fetch is counted, and so is the block that it brings in. -/
private theorem ends_fetch_balanced (hdistinct : store.cache.Distinct) (key : BlockRef)
    (use : BlockUse) :
    (fetch key use).Ends store
      (fun _ after => Balanced store.cache
        { fetched := 1, broughtIn := if !store.cache.contains key then 1 else 0 } after.cache)
      (fun _ after => Balanced store.cache { fetched := 1 } after.cache) := by
  cases hheld : store.cache.contains key with
  | true =>
    -- one request, one hit
    apply (ends_fetch_of_held hheld use).mono _ fun _ _ h => h.elim
    intro _ after hafter
    have hcounted : store.cache.countHit.Distinct := hdistinct
    rw [hafter]
    refine ⟨hcounted.touch key _, ?_, ?_⟩
    · rw [BlockCache.stats_touch]
      exact Nat.add_right_comm _ _ _
    · rw [BlockCache.stats_touch, BlockCache.size_touch hcounted]
      rfl
  | false =>
    -- one request, one miss: the block comes in, and as many are evicted as had to go
    apply (ends_fetch_of_not_held hheld use).mono
    · intro _ after hbrought
      have hsize := hbrought.size
      refine ⟨hbrought.distinct hdistinct hheld, ?_, ?_⟩
      · rw [hbrought.stats]
        rfl
      · rw [hbrought.stats]
        show after.cache.size + (store.cache.stats.evictions + _) + 0 =
          store.cache.size + store.cache.stats.evictions + 1
        omega
    · rintro _ after (⟨-, hafter⟩ | ⟨given, -, hgiven⟩)
      · rw [hafter]
        exact ⟨hdistinct, rfl, rfl⟩
      · -- evictions on the way to a failure are counted like all others
        have hmissed := Balanced.missed hdistinct use
        exact hmissed.trans (.of_givenUp hmissed.distinct hgiven)

/-- Every operation is counted. -/
private theorem ends_perform_balanced (hdistinct : store.cache.Distinct) (call : CacheCall) :
    (call.perform (κ := κ)).Ends store
      (fun _ after => Balanced store.cache (call.tally store.cache (.ok ())) after.cache)
      (fun error after => Balanced store.cache (call.tally store.cache (.error error))
        after.cache) := by
  -- flushing brings nothing in and evicts nothing
  have hflush (selected : BlockRef → Bool) :
      (flushSelected (κ := κ) selected).Ends store
        (fun _ after => Balanced store.cache {} after.cache)
        (fun _ after => Balanced store.cache {} after.cache) :=
    (ends_flushSelected_settled store selected).mono (fun _ _ => .of_settled hdistinct)
      fun _ _ => .of_settled hdistinct
  cases call with
  | get key use =>
    apply Ends.bind
    apply (ends_fetch_balanced hdistinct key use).mono
    · exact fun _ _ hafter => ends_pure.mpr hafter
    · exact fun _ _ hafter => hafter
  | change key use f =>
    apply Ends.bind
    apply (ends_fetch_balanced hdistinct key use).mono
    · -- the change of the bytes is counted nowhere
      intro _ reached h
      refine ends_modify.mpr ⟨h.distinct.modifyNewest f, ?_, ?_⟩
      · rw [BlockCache.stats_modifyNewest]
        exact h.requests
      · rw [BlockCache.stats_modifyNewest, BlockCache.size_modifyNewest]
        exact h.blocks
    · exact fun _ _ hafter => hafter
  | flush => exact hflush _
  | flushBand band => exact hflush _
  | setCapacity capacity =>
    have hresized : ({ store.cache with capacity := max capacity 1 } : BlockCache).Distinct :=
      hdistinct
    have hbefore : Balanced store.cache {} { store.cache with capacity := max capacity 1 } :=
      ⟨hdistinct, rfl, rfl⟩
    -- with a smaller capacity blocks are evicted, each counted once, also if one of them fails
    apply Ends.modify_bind
    apply (ends_makeRoom_cache (max capacity 1)).mono
    · exact fun _ _ hgiven => hbefore.trans (.of_givenUp hresized hgiven)
    · rintro _ after ⟨given, -, hgiven⟩
      exact hbefore.trans (.of_givenUp hresized hgiven)
  | invalidate key =>
    -- a dropped block counts as dropped and not as evicted
    have hsize := BlockCache.size_remove hdistinct key
    apply Ends.bind
    apply Ends.get_bind
    apply Ends.modify_bind
    apply ends_pure.mpr
    refine ends_pure.mpr ⟨hdistinct.remove key, rfl, ?_⟩
    show (store.cache.remove key).size + store.cache.stats.evictions + _ =
      store.cache.size + store.cache.stats.evictions + 0
    simp only [CacheCall.tally]
    omega
  | invalidateBand band =>
    have hsize := BlockCache.size_removeBand store.cache band
    refine ends_modify.mpr ⟨hdistinct.removeBand band, rfl, ?_⟩
    show (store.cache.removeBand band).size + store.cache.stats.evictions + _ =
      store.cache.size + store.cache.stats.evictions + 0
    simp only [CacheCall.tally]
    omega

/-- Every call, whether it succeeds or fails, leaves the numbers of the cache balanced. -/
theorem perform_balanced (hdistinct : store.cache.Distinct) (call : CacheCall) :
    Balanced store.cache (call.tally store.cache (call.perform.run store).1)
      (call.perform.run store).2.cache :=
  Ends.outcome (fun outcome (after : BlockStore κ) => Balanced store.cache
    (call.tally store.cache outcome) after.cache) (ends_perform_balanced hdistinct call)

/-! ## Runs -/

namespace CacheCall

/-- The last call starts from what the calls before it left, and adds to what they counted. -/
theorem performAll_concat (calls : List CacheCall) (call : CacheCall) (store : BlockStore κ) :
    performAll (calls ++ [call]) store =
      ((call.perform.run (performAll calls store).1).2, (performAll calls store).2.add
        (call.tally (performAll calls store).1.cache
          (call.perform.run (performAll calls store).1).1)) := by
  simp only [performAll, List.foldl_append, List.foldl_cons, List.foldl_nil]

/-- After a run the capacity is positive, and the numbers agree with what the run adds up to. -/
theorem performAll_balanced (calls : List CacheCall) (hcapacity : 1 ≤ store.cache.capacity)
    (hdistinct : store.cache.Distinct) :
    1 ≤ (performAll calls store).1.cache.capacity ∧
      Balanced store.cache (performAll calls store).2 (performAll calls store).1.cache := by
  induction calls using List.reverseRecOn with
  | nil => exact ⟨hcapacity, hdistinct, rfl, rfl⟩
  | append_singleton calls call ih =>
    obtain ⟨hcapacity, hbalanced⟩ := ih
    rw [performAll_concat]
    have hbounded := perform_bounded hcapacity call
    exact ⟨hbounded.capacity_pos, hbalanced.trans (perform_balanced hbalanced.distinct call)⟩

end CacheCall

open CacheCall in
/-- The cache is bounded, in every state and whatever calls of the codec fail: what one operation
    makes of the number of blocks is `StaysBounded`. After every run of operations on a new cache
    the capacity is positive, each block asked for was either held or not, and each block that came
    in is still held, was given up for room or was dropped. -/
theorem cache_bounded :
    (∀ (store : BlockStore κ) (call : CacheCall), 1 ≤ store.cache.capacity →
      StaysBounded store call (call.perform.run store).1 (call.perform.run store).2) ∧
    ∀ (capacity : Nat) (codec : κ) (bands : Array BandDescriptor) (raster : Size)
      (reports : Reports) (calls : List CacheCall),
      let start : BlockStore κ := ⟨BlockCache.empty capacity, codec, bands, raster, reports⟩
      let reached := (performAll calls start).1
      let tally := (performAll calls start).2
      1 ≤ reached.cache.capacity ∧
      reached.cache.stats.hits + reached.cache.stats.misses = tally.fetched ∧
      tally.broughtIn =
        reached.cache.size + reached.cache.stats.evictions + tally.dropped := by
  refine ⟨fun store call hcapacity => perform_bounded hcapacity call, ?_⟩
  intro capacity codec bands raster reports calls start reached tally
  have hstart : 1 ≤ start.cache.capacity := Nat.le_max_right _ _
  have hempty : start.cache.Distinct := List.nodup_nil
  obtain ⟨hcapacity, hbalanced⟩ := performAll_balanced calls hstart hempty
  have hrequests := hbalanced.requests
  have hblocks := hbalanced.blocks
  refine ⟨hcapacity, hrequests.trans (Nat.zero_add _), ?_⟩
  exact (hblocks.trans (Nat.zero_add _)).symm

/-! ## A cache that holds too much -/

/-- Two changed blocks in a cache that was to be shrunk to one, but the block that had to go could
    not be written back. -/
def overfull : BlockStore ScriptedCodec :=
  (CacheCall.performAll
    [.change ⟨1, 0, 0⟩ .overwrite id, .change ⟨1, 1, 0⟩ .overwrite id, .setCapacity 1]
    ⟨BlockCache.empty 2, ⟨fun _ => ByteArray.zeros 1, [.fails]⟩, #[⟨.byte, ⟨1, 1⟩, none⟩], ⟨3, 1⟩,
      {}⟩).1

/-- The next block that comes in drives both of the others out. -/
theorem cache_bounded_overfull :
    1 ≤ overfull.cache.capacity ∧ overfull.cache.capacity < overfull.cache.size ∧
    ((CacheCall.get ⟨1, 2, 0⟩ .read).perform.run overfull).2.cache.size ≤
      ((CacheCall.get ⟨1, 2, 0⟩ .read).perform.run overfull).2.cache.capacity := by
  have hpos : 1 ≤ overfull.cache.capacity := by decide
  refine ⟨hpos, by decide, ?_⟩
  exact (cache_bounded.1 overfull (.get ⟨1, 2, 0⟩ .read) hpos).broughtIn ⟨1, 2, 0⟩ rfl (by decide)
    (by rfl)

end RasterStore
