import Mathlib.Data.List.Dedup
import Mathlib.Data.List.Induction
import RasterStore.Proofs.Cache.Bounded
import RasterStore.Proofs.Cache.Flush

/-!
# The blocks used last

As long as no call of its codec fails, a cache holds the blocks that were requested last, as many
of them as there is room for: what is given up is always the block used longest ago. Whatever the
capacity, the requests so far say which blocks are held (`recent`), so that a larger cache holds
all that a smaller one does and is never worse.

* `recent_concat`          what a request makes of the order of use
* `Tracks.visited`         what a call makes of a cache that tracks its requests
* `eviction_is_lru`        the blocks held after every call, and caches of two sizes
-/

namespace RasterStore

open BlockStore RasterStore.Action

/-! ## The order of use -/

/-- The keys among some requests, each once, most recently requested first. -/
def recent (requests : List BlockRef) : List BlockRef :=
  -- of a repeated key the last request counts
  requests.dedup.reverse

/-- No block is listed twice among those requested last. -/
theorem nodup_recent (requests : List BlockRef) : (recent requests).Nodup :=
  List.nodup_reverse.mpr (List.nodup_dedup requests)

/-- The last key comes first, and the others keep their order. -/
theorem recent_concat (requests : List BlockRef) (key : BlockRef) :
    recent (requests ++ [key]) = key :: (recent requests).filter (· ≠ key) := by
  -- a key that comes again counts where it comes last, so that `dedup` drops its earlier copies
  have hdedup : (requests ++ [key]).dedup = requests.dedup.filter (· ≠ key) ++ [key] := by
    induction requests with
    | nil => simp
    | cons other rest ih =>
      rw [List.cons_append, List.dedup_cons, List.dedup_cons, ih]
      by_cases hkey : other = key
      · simp [hkey]
        split <;> simp
      · by_cases hrest : other ∈ rest
        · simp [hrest]
        · simp [hrest, hkey]
  rw [recent, hdedup, List.reverse_append, recent, ← List.filter_reverse]
  rfl

section Take

variable {key : BlockRef} {keys : List BlockRef} {count : Nat}

/-- Taking a key out of the first ones leaves one less of them. -/
private theorem filter_take_of_mem (hnodup : keys.Nodup) (hmem : key ∈ keys.take count) :
    (keys.take count).filter (· ≠ key) = (keys.filter (· ≠ key)).take (count - 1) := by
  -- induction on the keys: those before `key` are kept by both sides
  induction keys generalizing count with
  | nil => simp
  | cons first rest ih =>
    rw [List.nodup_cons] at hnodup
    cases count with
    | zero => simp at hmem
    | succ count =>
      by_cases hfirst : first = key
      · -- the key itself goes, and it stands nowhere else
        subst hfirst
        have hrest : rest.filter (· ≠ first) = rest :=
          List.filter_eq_self.mpr fun other hother => by
            rw [decide_eq_true_eq]
            exact fun heq => hnodup.1 (heq ▸ hother)
        have htake : (rest.take count).filter (· ≠ first) = rest.take count :=
          List.filter_eq_self.mpr fun other hother => by
            rw [decide_eq_true_eq]
            exact fun heq => hnodup.1 (heq ▸ List.mem_of_mem_take hother)
        rw [List.take_succ_cons, List.filter_cons_of_neg (by simp),
          List.filter_cons_of_neg (by simp), hrest, htake, Nat.add_sub_cancel]
      · -- the key is among the first ones of the rest
        have hmem : key ∈ rest.take count := by
          rw [List.take_succ_cons, List.mem_cons] at hmem
          exact hmem.resolve_left (Ne.symm hfirst)
        have hpos : 0 < count := by
          rcases Nat.eq_zero_or_pos count with rfl | hpos
          · simp at hmem
          · exact hpos
        obtain ⟨fewer, rfl⟩ := Nat.exists_eq_add_of_le' hpos
        rw [List.take_succ_cons, List.filter_cons_of_pos (by simpa using hfirst),
          List.filter_cons_of_pos (by simpa using hfirst), ih hnodup.2 hmem, Nat.add_sub_cancel,
          Nat.add_sub_cancel, List.take_succ_cons]

/-- Taking out a key that is not among the first ones leaves the first ones. -/
private theorem take_filter_of_not_mem (hnot : key ∉ keys.take count) :
    (keys.filter (· ≠ key)).take (count - 1) = keys.take (count - 1) := by
  -- induction on the keys: none of the first ones is `key`
  induction keys generalizing count with
  | nil => simp
  | cons first rest ih =>
    cases count with
    | zero => simp
    | succ count =>
      rw [List.take_succ_cons, List.mem_cons, not_or] at hnot
      rw [List.filter_cons_of_pos (by simpa using Ne.symm hnot.1), Nat.add_sub_cancel]
      cases count with
      | zero => simp
      | succ count =>
        have hrest := ih hnot.2
        rw [Nat.add_sub_cancel] at hrest
        rw [List.take_succ_cons, List.take_succ_cons, hrest]

end Take

/-! ## Calls -/

/-- The calls that neither resize a cache nor drop blocks. -/
inductive CacheVisit where
  /-- Gets a block, for any use. -/
  | request (key : BlockRef) (use : BlockUse)
  /-- Gets a block and changes its bytes. -/
  | change (key : BlockRef) (use : BlockUse) (f : ByteArray → ByteArray)
  | flush
  | flushBand (band : Nat)
  /-- Asks whether a block is held. -/
  | contains (key : BlockRef)
  /-- Asks whether a block is dirty. -/
  | isDirty (key : BlockRef)

variable {κ : Type} [Codec κ]

namespace CacheVisit

/-- Carries a call out. -/
def perform : CacheVisit → Action (BlockStore κ) Unit
  | request key use => do let _ ← BlockStore.fetch key use
  | change key use f => BlockStore.change key use f
  | flush => BlockStore.flush
  | flushBand band => BlockStore.flushBand band
  | contains key => do
    let _ := (← get).cache.contains key
  | isDirty key => do
    let _ := ((← get).cache.find? key).map Block.dirty

/-- The block that is requested. -/
def requested? : CacheVisit → Option BlockRef
  | request key _ | change key _ _ => some key
  | flush | flushBand _ | contains _ | isDirty _ => none

/-- A block that is requested has to be decoded unless it is held. -/
def decodes : CacheVisit → Bool
  | request _ use | change _ use _ => use ≠ .overwrite
  | flush | flushBand _ | contains _ | isDirty _ => false

/-- Carries calls out one after another. -/
def performAll (calls : List CacheVisit) (start : BlockStore κ) : BlockStore κ :=
  calls.foldl (fun reached call => (call.perform.run reached).2) start

/-- The last call starts from what the calls before it left. -/
theorem performAll_concat (calls : List CacheVisit) (call : CacheVisit) (start : BlockStore κ) :
    performAll (calls ++ [call]) start = (call.perform.run (performAll calls start)).2 := by
  rw [performAll, List.foldl_append]
  rfl

/-- The keys of the blocks that are requested. -/
def requests (calls : List CacheVisit) : List BlockRef :=
  calls.filterMap requested?

omit [Codec κ] in
/-- The last call asks for its block after those of the calls before it. -/
theorem requests_concat (calls : List CacheVisit) (call : CacheVisit) :
    requests (calls ++ [call]) = requests calls ++ call.requested?.toList := by
  rw [requests, List.filterMap_append, requests]
  cases h : call.requested? <;> simp [h]

end CacheVisit

/-! ## One call -/

/-- What a call that succeeds makes of a cache. -/
structure BlockCache.Visited (before : BlockCache) (call : CacheVisit) (after : BlockCache) :
    Prop where
  capacity : after.capacity = before.capacity
  /-- Without a request no block moves, and blocks are at most encoded. -/
  settled : call.requested? = none → before.Settled after
  /-- A block that is held moves to the front. -/
  hit : ∀ key, call.requested? = some key → before.contains key = true →
    after.keys = key :: before.keys.filter (· ≠ key) ∧
    after.stats = { before.stats with hits := before.stats.hits + 1 }
  /-- A block that is not held comes in front of those used last. -/
  miss : ∀ key, call.requested? = some key → before.contains key = false →
    after.keys = key :: before.keys.take (before.capacity - 1) ∧
    after.stats = { before.stats with
      misses := before.stats.misses + 1
      decodes := before.stats.decodes + if call.decodes then 1 else 0
      encodes := after.stats.encodes
      evictions := before.stats.evictions + (before.size - (before.capacity - 1)) }

/-- All calls of the codec so far did what was asked. -/
def BlockStore.Worked (store : BlockStore (Observed κ)) : Prop :=
  ∀ event ∈ store.codec.events, event.Succeeded

section OneCall

variable {store after : BlockStore (Observed κ)}

/-- A call that requests nothing. -/
private theorem visited_of_settled {before after : BlockCache} {call : CacheVisit}
    (hrequested : call.requested? = none) (h : before.Settled after) :
    before.Visited call after := by
  refine ⟨h.capacity, fun _ => h, ?_, ?_⟩
  · intro key hkey
    rw [hrequested] at hkey
    contradiction
  · intro key hkey
    rw [hrequested] at hkey
    contradiction

/-- A call that requests a block that is held. -/
private theorem visited_of_hit {before after : BlockCache} {call : CacheVisit} {key : BlockRef}
    (hrequested : call.requested? = some key) (hheld : before.contains key = true)
    (hcapacity : after.capacity = before.capacity)
    (hkeys : after.keys = key :: before.keys.filter (· ≠ key))
    (hstats : after.stats = { before.stats with hits := before.stats.hits + 1 }) :
    before.Visited call after := by
  constructor
  · exact hcapacity
  · -- a request was made, so that this case does not arise
    intro hnone
    rw [hrequested] at hnone
    contradiction
  · intro other hother _
    obtain rfl := Option.some.inj (hrequested.symm.trans hother)
    exact ⟨hkeys, hstats⟩
  · -- and it was a hit
    intro other hother hmissed
    obtain rfl := Option.some.inj (hrequested.symm.trans hother)
    rw [hheld] at hmissed
    contradiction

/-- A call that requests a block that is not held. -/
private theorem visited_of_miss {before after : BlockCache} {call : CacheVisit} {key : BlockRef}
    {use : BlockUse} (hrequested : call.requested? = some key)
    (hdecodes : call.decodes = decide (use ≠ .overwrite)) (hheld : before.contains key = false)
    (hbrought : before.BroughtIn key use after) : before.Visited call after := by
  constructor
  · exact hbrought.capacity
  · intro hnone
    rw [hrequested] at hnone
    contradiction
  · -- it was not a hit
    intro other hother hhit
    obtain rfl := Option.some.inj (hrequested.symm.trans hother)
    rw [hheld] at hhit
    contradiction
  · intro other hother _
    obtain rfl := Option.some.inj (hrequested.symm.trans hother)
    refine ⟨hbrought.keys, ?_⟩
    rw [hdecodes]
    refine hbrought.stats.trans ?_
    by_cases huse : use = .overwrite <;> simp [huse]

/-- A fetch, and something done with the block that moves none. -/
private theorem ends_request_visited {call : CacheVisit} {key : BlockRef} {use : BlockUse}
    {next : ByteArray → Action (BlockStore (Observed κ)) Unit}
    (hrequested : call.requested? = some key) (hdecodes : call.decodes = decide (use ≠ .overwrite))
    (hnext : ∀ data reached, (next data).Ends reached
      (fun _ after => after.cache.keys = reached.cache.keys ∧
        after.cache.capacity = reached.cache.capacity ∧
        after.cache.stats = reached.cache.stats)
      (fun _ _ => False)) :
    (fetch key use >>= next).Ends store
      (fun _ after => store.cache.Visited call after.cache) (fun _ _ => True) := by
  apply Ends.bind
  -- `next` touches neither keys nor numbers, so that only the fetch counts
  cases hheld : store.cache.contains key with
  | true =>
    apply (ends_fetch_of_held hheld use).mono _ fun _ _ _ => trivial
    intro data reached hreached
    apply (hnext data reached).mono _ fun _ _ _ => trivial
    rintro _ after ⟨hkeys, hcapacity, hstats⟩
    rw [hreached] at hkeys hcapacity hstats
    have hcounted : store.cache.countHit.contains key = true := hheld
    exact visited_of_hit hrequested hheld (hcapacity.trans (BlockCache.capacity_touch ..))
      (hkeys.trans (BlockCache.keys_touch hcounted _))
      (hstats.trans (BlockCache.stats_touch ..))
  | false =>
    apply (ends_fetch_of_not_held hheld use).mono _ fun _ _ _ => trivial
    intro data reached hbrought
    apply (hnext data reached).mono _ fun _ _ _ => trivial
    rintro _ after ⟨hkeys, hcapacity, hstats⟩
    have hafter : store.cache.BroughtIn key use after.cache :=
      ⟨hkeys.trans hbrought.keys, hcapacity.trans hbrought.capacity, by
        rw [hstats]
        exact hbrought.stats⟩
    exact visited_of_miss hrequested hdecodes hheld hafter

/-- A call that succeeds leaves the cache as its request does. -/
private theorem ends_perform_visited (call : CacheVisit) :
    (call.perform (κ := Observed κ)).Ends store
      (fun _ after => store.cache.Visited call after.cache) (fun _ _ => True) := by
  cases call with
  | request key use =>
    exact ends_request_visited rfl rfl fun _ _ => ends_pure.mpr ⟨rfl, rfl, rfl⟩
  | change key use f =>
    exact ends_request_visited rfl rfl fun _ _ => ends_modify.mpr
      ⟨BlockCache.keys_modifyNewest f, BlockCache.capacity_modifyNewest _ f,
        BlockCache.stats_modifyNewest _ f⟩
  | flush =>
    -- flushing and looking give no block up
    exact (ends_flushSelected_settled store _).mono (fun _ _ => visited_of_settled rfl)
      fun _ _ _ => trivial
  | flushBand band =>
    exact (ends_flushSelected_settled store _).mono (fun _ _ => visited_of_settled rfl)
      fun _ _ _ => trivial
  | contains key => exact visited_of_settled rfl (.refl _)
  | isDirty key => exact visited_of_settled rfl (.refl _)

omit [Codec κ] in
/-- Attempts of which one failed. -/
private theorem exists_failed {attempts : List Attempt} (h : failuresOf attempts ≠ []) :
    ∃ attempt ∈ attempts, attempt.answer ≠ .ok () := by
  obtain ⟨failure, hfailure⟩ := List.exists_mem_of_ne_nil _ h
  obtain ⟨attempt, hmem, hattempt⟩ := List.mem_filterMap.mp hfailure
  refine ⟨attempt, hmem, fun hok => ?_⟩
  rw [Attempt.failure?, hok] at hattempt
  contradiction

/-- A flush fails only if a block could not be encoded. -/
private theorem ends_flushSelected_blamed (hdistinct : store.cache.Distinct)
    (selected : BlockRef → Bool) :
    (flushSelected (κ := Observed κ) selected).Ends store
      (fun _ after => store.codec.events <+: after.codec.events)
      (fun _ after => store.codec.events <+: after.codec.events ∧ ¬after.Worked) := by
  apply (ends_flushSelected_writes hdistinct selected).mono
  · rintro _ after ⟨attempts, hwrites⟩
    rw [hwrites.events]
    exact List.prefix_append _ _
  · rintro error after ⟨attempts, hwrites⟩
    -- without a failure in the list there would have been no error
    have hfailed : failuresOf attempts ≠ [] := by
      intro hnil
      have houtcome := hwrites.outcome
      rw [hnil] at houtcome
      cases houtcome
    obtain ⟨attempt, hmem, hanswer⟩ := exists_failed hfailed
    -- an attempt that failed is an event that did not work
    refine ⟨?_, fun hworked => hanswer (hworked (attempt.event store) ?_)⟩
    · rw [hwrites.events]
      exact List.prefix_append _ _
    · rw [hwrites.events]
      exact List.mem_append_right _ (List.mem_map_of_mem hmem)

omit [Codec κ] in
/-- A step whose failures have a cause fails only if some call of the codec did not work. -/
private theorem ends_of_blames {α : Type}
    {act : Action (BlockStore (Observed κ)) α} (h : Blames act) :
    act.Ends store (fun _ after => store.codec.events <+: after.codec.events)
      (fun _ after => store.codec.events <+: after.codec.events ∧ ¬after.Worked) := by
  apply (h store).mono fun _ _ hgrown => hgrown
  rintro _ after ⟨hgrown, event, hmem, hfailed⟩
  exact ⟨hgrown, fun hworked => hfailed (hworked event hmem)⟩

/-- A call that fails leaves in the log the codec's call that failed. -/
private theorem ends_perform_blamed (hdistinct : store.cache.Distinct) (call : CacheVisit) :
    (call.perform (κ := Observed κ)).Ends store
      (fun _ after => store.codec.events <+: after.codec.events)
      (fun _ after => store.codec.events <+: after.codec.events ∧ ¬after.Worked) := by
  cases call with
  | request key use => exact ends_of_blames ((blames_fetch key use).bind fun _ => blames_pure ())
  | change key use f =>
    exact ends_of_blames ((blames_fetch key use).bind fun _ => blames_modifyCache _)
  | flush => exact ends_flushSelected_blamed hdistinct _
  | flushBand band => exact ends_flushSelected_blamed hdistinct _
  -- looking at the cache does not fail
  | contains key => exact List.prefix_refl _
  | isDirty key => exact List.prefix_refl _

/-- If all calls of the codec worked, the call succeeds. They worked before it, too. -/
theorem perform_visited (hdistinct : store.cache.Distinct) (call : CacheVisit)
    (hworked : (call.perform.run store).2.Worked) :
    store.Worked ∧ (call.perform.run store).1 = .ok () ∧
      store.cache.Visited call (call.perform.run store).2.cache := by
  have hends := Ends.outcome
    (fun outcome after => store.codec.events <+: after.codec.events ∧
      (after.Worked → outcome = .ok () ∧ store.cache.Visited call after.cache))
    (((ends_perform_blamed hdistinct call).and (ends_perform_visited call)).mono
      (fun _ _ h => ⟨h.1, fun _ => ⟨rfl, h.2⟩⟩)
      fun _ _ h => ⟨h.1.1, fun hworked => absurd hworked h.1.2⟩)
  exact ⟨fun event hmem => hworked event (hends.1.mem hmem), hends.2 hworked⟩

end OneCall

/-! ## Runs -/

/-- The store with a new cache. -/
def BlockStore.withCapacity (store : BlockStore κ) (capacity : Nat) : BlockStore κ :=
  { store with cache := BlockCache.empty capacity }

/-- Calls keep the keys distinct, whatever fails. -/
theorem performAll_distinct (store : BlockStore κ) (capacity : Nat) (calls : List CacheVisit) :
    (CacheVisit.performAll calls (store.withCapacity capacity)).cache.Distinct := by
  induction calls using List.reverseRecOn with
  | nil => exact List.nodup_nil
  | append_singleton calls call ih =>
    rw [CacheVisit.performAll_concat]
    cases call with
    | request key use => exact (perform_balanced ih (.get key use)).distinct
    | change key use f => exact (perform_balanced ih (.change key use f)).distinct
    | flush => exact (perform_balanced ih .flush).distinct
    | flushBand band => exact (perform_balanced ih (.flushBand band)).distinct
    | contains key => exact ih
    | isDirty key => exact ih

/-- The cache holds the blocks requested last, as many as there is room for, and each block that
    came in is still held or was given up. -/
structure Tracks (capacity : Nat) (requests : List BlockRef) (cache : BlockCache) : Prop where
  keys : cache.keys = (recent requests).take capacity
  capacity : cache.capacity = capacity
  requested : cache.stats.hits + cache.stats.misses = requests.length
  blocks : cache.size + cache.stats.evictions = cache.stats.misses

namespace Tracks

variable {capacity : Nat} {requests : List BlockRef} {before after cache : BlockCache}
  {call : CacheVisit} {key : BlockRef}

/-- A block is held just if it is one of those requested last that there is room for. -/
theorem contains_iff (h : Tracks capacity requests cache) :
    cache.contains key = true ↔ key ∈ (recent requests).take capacity := by
  rw [BlockCache.contains_iff_mem_keys, h.keys]

/-- With more room, more blocks of the same requests are held. -/
theorem contains_of_le {larger : Nat} {cache' : BlockCache} (h : Tracks capacity requests cache)
    (h' : Tracks larger requests cache') (hle : capacity ≤ larger)
    (hheld : cache.contains key = true) : cache'.contains key = true := by
  rw [h.contains_iff] at hheld
  exact h'.contains_iff.mpr ((List.take_prefix_take_left hle).mem hheld)

/-- The cache is full, or it holds all blocks that were requested. -/
theorem size (h : Tracks capacity requests cache) :
    cache.size = min capacity (recent requests).length := by
  rw [← BlockCache.length_keys, h.keys, List.length_take]

/-- No block is held twice. -/
theorem distinct (h : Tracks capacity requests cache) : cache.Distinct := by
  rw [BlockCache.Distinct, h.keys]
  exact (nodup_recent requests).sublist (List.take_sublist _ _)

/-- The block that was just requested comes before those of the others that there is room for. -/
private theorem take_recent_concat (hpos : 1 ≤ capacity) (requests : List BlockRef)
    (key : BlockRef) :
    (recent (requests ++ [key])).take capacity =
      key :: ((recent requests).filter (· ≠ key)).take (capacity - 1) := by
  obtain ⟨rest, rfl⟩ := Nat.exists_eq_add_of_le' hpos
  rw [recent_concat, List.take_succ_cons, Nat.add_sub_cancel]

/-- A request for a block that is held moves it to the front and nothing else. -/
private theorem of_hit (hpos : 1 ≤ capacity) (h : Tracks capacity requests before)
    (hheld : before.contains key = true) (hcapacity : after.capacity = before.capacity)
    (hkeys : after.keys = key :: before.keys.filter (· ≠ key))
    (hstats : after.stats = { before.stats with hits := before.stats.hits + 1 }) :
    Tracks capacity (requests ++ [key]) after := by
  have hrequested := h.requested
  have hblocks := h.blocks
  have hsize : after.size = before.size := by
    have hremove := BlockCache.size_remove h.distinct key
    rw [if_pos hheld] at hremove
    rw [← BlockCache.length_keys, hkeys, List.length_cons, ← BlockCache.keys_remove,
      BlockCache.length_keys, hremove]
  -- the keys, the number of requests, the number of blocks
  refine ⟨?_, hcapacity.trans h.capacity, ?_, ?_⟩
  · rw [hkeys, h.keys, take_recent_concat hpos,
      filter_take_of_mem (nodup_recent requests) (h.contains_iff.mp hheld)]
  · rw [hstats, List.length_append, List.length_singleton]
    dsimp only
    omega
  · rw [hstats, hsize]
    exact hblocks

/-- A request for a block that is not held brings it in, in the place of the one requested longest
    ago if there is no room. -/
private theorem of_miss (hpos : 1 ≤ capacity) (h : Tracks capacity requests before)
    (hheld : before.contains key = false) (hcapacity : after.capacity = before.capacity)
    (hkeys : after.keys = key :: before.keys.take (before.capacity - 1))
    (hmisses : after.stats.misses = before.stats.misses + 1)
    (hhits : after.stats.hits = before.stats.hits)
    (hevictions : after.stats.evictions =
      before.stats.evictions + (before.size - (before.capacity - 1))) :
    Tracks capacity (requests ++ [key]) after := by
  have hrequested := h.requested
  have hblocks := h.blocks
  have hnot : key ∉ (recent requests).take capacity := fun hmem => by
    rw [h.contains_iff.mpr hmem] at hheld
    contradiction
  -- the keys, the number of requests, the number of blocks
  refine ⟨?_, hcapacity.trans h.capacity, ?_, ?_⟩
  · rw [hkeys, h.keys, h.capacity, take_recent_concat hpos, take_filter_of_not_mem hnot,
      List.take_take, Nat.min_eq_left (Nat.sub_le capacity 1)]
  · rw [hhits, hmisses, List.length_append, List.length_singleton]
    omega
  · have hsize := congrArg List.length hkeys
    rw [BlockCache.length_keys, List.length_cons, List.length_take, BlockCache.length_keys] at hsize
    omega

/-- A call leaves a cache that tracks the requests, this one included. -/
theorem visited (hpos : 1 ≤ capacity) (h : Tracks capacity requests before)
    (hvisited : before.Visited call after) :
    Tracks capacity (requests ++ call.requested?.toList) after := by
  cases hrequested : call.requested? with
  | none =>
    -- the call asks for no block, so that all stays as it is
    have hsettled := hvisited.settled hrequested
    rw [Option.toList_none, List.append_nil]
    refine ⟨hsettled.keys.trans h.keys, hsettled.capacity.trans h.capacity, ?_, ?_⟩
    · rw [hsettled.stats]
      exact h.requested
    · rw [hsettled.stats, hsettled.size]
      exact h.blocks
  | some key =>
    rw [Option.toList_some]
    cases hheld : before.contains key with
    | true =>
      obtain ⟨hkeys, hstats⟩ := hvisited.hit key hrequested hheld
      exact h.of_hit hpos hheld hvisited.capacity hkeys hstats
    | false =>
      obtain ⟨hkeys, hstats⟩ := hvisited.miss key hrequested hheld
      exact h.of_miss hpos hheld hvisited.capacity hkeys (by rw [hstats]) (by rw [hstats])
        (by rw [hstats])

end Tracks

section Runs

open CacheVisit

variable {store : BlockStore (Observed κ)} {capacity : Nat}

/-- After calls with a codec that works, the cache tracks the requests. -/
theorem performAll_tracks (hpos : 1 ≤ capacity) (calls : List CacheVisit)
    (hworked : (performAll calls (store.withCapacity capacity)).Worked) :
    Tracks capacity (requests calls) (performAll calls (store.withCapacity capacity)).cache := by
  induction calls using List.reverseRecOn with
  | nil => exact ⟨List.take_nil.symm, Nat.max_eq_left hpos, rfl, rfl⟩
  | append_singleton calls call ih =>
    -- events are only added, so the codec had worked before the last call, too
    rw [performAll_concat] at hworked
    obtain ⟨hbefore, -, hvisited⟩ :=
      perform_visited (performAll_distinct store capacity calls) call hworked
    rw [performAll_concat, requests_concat]
    exact (ih hbefore).visited hpos hvisited

/-! ## Caches of two sizes -/

/-- The one cache holds all blocks of the other one, and has been no worse so far. -/
structure BlockCache.OutdoneBy (smaller larger : BlockCache) : Prop where
  residents : ∀ key, smaller.contains key = true → larger.contains key = true
  hits : smaller.stats.hits ≤ larger.stats.hits
  misses : larger.stats.misses ≤ smaller.stats.misses
  decodes : larger.stats.decodes ≤ smaller.stats.decodes
  evictions : larger.stats.evictions ≤ smaller.stats.evictions

omit [Codec κ] in
/-- One call: what the smaller cache holds, the larger one holds too. -/
private theorem hits_decodes_visited {smaller smaller' larger larger' : BlockCache}
    {call : CacheVisit}
    (hresidents : ∀ key, smaller.contains key = true → larger.contains key = true)
    (hvisited : smaller.Visited call smaller') (hvisited' : larger.Visited call larger')
    (h : smaller.stats.hits ≤ larger.stats.hits ∧ larger.stats.decodes ≤ smaller.stats.decodes) :
    smaller'.stats.hits ≤ larger'.stats.hits ∧ larger'.stats.decodes ≤ smaller'.stats.decodes := by
  -- a hit in the smaller cache is a hit in the larger one; of the misses, the larger one has fewer
  cases hrequested : call.requested? with
  | none =>
    rw [(hvisited.settled hrequested).stats, (hvisited'.settled hrequested).stats]
    exact h
  | some key =>
    cases hheld : smaller.contains key with
    | true =>
      rw [(hvisited.hit key hrequested hheld).2,
        (hvisited'.hit key hrequested (hresidents key hheld)).2]
      exact ⟨Nat.succ_le_succ h.1, h.2⟩
    | false =>
      rw [(hvisited.miss key hrequested hheld).2]
      cases hheld' : larger.contains key with
      | true =>
        rw [(hvisited'.hit key hrequested hheld').2]
        exact ⟨Nat.le_succ_of_le h.1, Nat.le_add_right_of_le h.2⟩
      | false =>
        rw [(hvisited'.miss key hrequested hheld').2]
        exact ⟨h.1, Nat.add_le_add_right h.2 _⟩

/-- With more room, the same calls find at least as many blocks and decode at most as many. -/
private theorem hits_decodes_of_le {larger : Nat} (hpos : 1 ≤ capacity) (hle : capacity ≤ larger)
    (calls : List CacheVisit)
    (hworked : (performAll calls (store.withCapacity capacity)).Worked)
    (hworked' : (performAll calls (store.withCapacity larger)).Worked) :
    (performAll calls (store.withCapacity capacity)).cache.stats.hits ≤
        (performAll calls (store.withCapacity larger)).cache.stats.hits ∧
      (performAll calls (store.withCapacity larger)).cache.stats.decodes ≤
        (performAll calls (store.withCapacity capacity)).cache.stats.decodes := by
  -- induction from the right: the last call is made on two caches of which the invariant already
  -- speaks
  induction calls using List.reverseRecOn with
  | nil => exact ⟨Nat.le_refl _, Nat.le_refl _⟩
  | append_singleton calls call ih =>
    rw [performAll_concat] at hworked hworked'
    obtain ⟨hbefore, -, hvisited⟩ :=
      perform_visited (performAll_distinct store capacity calls) call hworked
    obtain ⟨hbefore', -, hvisited'⟩ :=
      perform_visited (performAll_distinct store larger calls) call hworked'
    -- before the last call the larger cache held all that the smaller one did
    have htracks := performAll_tracks hpos calls hbefore
    have htracks' := performAll_tracks (Nat.le_trans hpos hle) calls hbefore'
    rw [performAll_concat, performAll_concat]
    exact hits_decodes_visited (fun _ => htracks.contains_of_le htracks' hle) hvisited hvisited'
      (ih hbefore hbefore')

/-! ## What holds after every call -/

/-- What a call after some others makes of a store with room for `capacity` blocks. -/
structure BlockStore.EvictsOldest (capacity : Nat) (calls : List CacheVisit) (call : CacheVisit)
    (before : BlockStore (Observed κ)) (outcome : Except RasterError Unit)
    (after : BlockStore (Observed κ)) : Prop where
  answered : outcome = .ok ()
  /-- The blocks requested last are held, most recently requested first. -/
  residents : after.cache.keys = (recent (requests (calls ++ [call]))).take capacity
  size : after.cache.size = min capacity (recent (requests (calls ++ [call]))).length
  /-- A request is a hit if its block was among those requested last. -/
  hit : ∀ key, call.requested? = some key → key ∈ (recent (requests calls)).take capacity →
    after.cache.stats.hits = before.cache.stats.hits + 1 ∧
    after.cache.stats.misses = before.cache.stats.misses
  /-- Otherwise it is a miss. -/
  miss : ∀ key, call.requested? = some key → key ∉ (recent (requests calls)).take capacity →
    after.cache.stats.hits = before.cache.stats.hits ∧
    after.cache.stats.misses = before.cache.stats.misses + 1

/-- A call of a codec that works leaves the blocks requested last. -/
private theorem perform_evicts_oldest (hpos : 1 ≤ capacity) (calls : List CacheVisit)
    (call : CacheVisit)
    (hworked : (call.perform.run (performAll calls (store.withCapacity capacity))).2.Worked) :
    EvictsOldest capacity calls call (performAll calls (store.withCapacity capacity))
      (call.perform.run (performAll calls (store.withCapacity capacity))).1
      (call.perform.run (performAll calls (store.withCapacity capacity))).2 := by
  obtain ⟨hbefore, hanswered, hvisited⟩ :=
    perform_visited (performAll_distinct store capacity calls) call hworked
  have htracks := performAll_tracks hpos calls hbefore
  have hafter := htracks.visited hpos hvisited
  rw [← requests_concat] at hafter
  refine ⟨hanswered, hafter.keys, hafter.size, ?_, ?_⟩
  · -- a request for one of the last `capacity` blocks is a hit
    intro key hrequested hmem
    rw [(hvisited.hit key hrequested (htracks.contains_iff.mpr hmem)).2]
    exact ⟨rfl, rfl⟩
  · -- a request for any other is a miss
    intro key hrequested hnot
    have hheld : (performAll calls (store.withCapacity capacity)).cache.contains key = false :=
      Bool.eq_false_of_not_eq_true fun hheld => hnot (htracks.contains_iff.mp hheld)
    rw [(hvisited.miss key hrequested hheld).2]
    exact ⟨rfl, rfl⟩

/-- A larger cache holds what a smaller one does, and has been no worse. -/
private theorem performAll_outdone {larger : Nat} (hpos : 1 ≤ capacity) (hle : capacity ≤ larger)
    (calls : List CacheVisit)
    (hworked : (performAll calls (store.withCapacity capacity)).Worked)
    (hworked' : (performAll calls (store.withCapacity larger)).Worked) :
    (performAll calls (store.withCapacity capacity)).cache.OutdoneBy
      (performAll calls (store.withCapacity larger)).cache := by
  have htracks := performAll_tracks hpos calls hworked
  have htracks' := performAll_tracks (Nat.le_trans hpos hle) calls hworked'
  obtain ⟨hhits, hdecodes⟩ := hits_decodes_of_le hpos hle calls hworked hworked'
  have hmisses : (performAll calls (store.withCapacity larger)).cache.stats.misses ≤
      (performAll calls (store.withCapacity capacity)).cache.stats.misses := by
    have hrequested := htracks.requested
    have hrequested' := htracks'.requested
    omega
  refine ⟨fun _ => htracks.contains_of_le htracks' hle, hhits, hmisses, hdecodes, ?_⟩
  -- fewer blocks came in, and more of them are still held
  have hblocks := htracks.blocks
  have hblocks' := htracks'.blocks
  have hsize := htracks.size
  have hsize' := htracks'.size
  omega

/-- What is evicted is always the block requested longest ago, so that larger caches only help.
    After each call on a new cache, as long as all calls of the codec do what was asked, the blocks
    requested last are held, and a request is a hit if its block was among them. Of two caches for
    the same calls, the larger one then holds all that the smaller one does, with no fewer hits and
    no more misses, decoded blocks and evictions. -/
theorem eviction_is_lru (store : BlockStore (Observed κ)) (calls : List CacheVisit) :
    (∀ capacity call, 1 ≤ capacity →
      let before := performAll calls (store.withCapacity capacity)
      (call.perform.run before).2.Worked →
      EvictsOldest capacity calls call before (call.perform.run before).1
        (call.perform.run before).2) ∧
    ∀ capacity larger, 1 ≤ capacity → capacity ≤ larger →
      (performAll calls (store.withCapacity capacity)).Worked →
      (performAll calls (store.withCapacity larger)).Worked →
      (performAll calls (store.withCapacity capacity)).cache.OutdoneBy
        (performAll calls (store.withCapacity larger)).cache :=
  ⟨fun _ call hpos hworked => perform_evicts_oldest hpos calls call hworked,
    fun _ _ hpos hle hworked hworked' => performAll_outdone hpos hle calls hworked hworked'⟩

end Runs

/-! ## Three blocks in a cache for two -/

/-- A codec that works, and three blocks of one pixel. -/
def threeBlocks : BlockStore (Observed ScriptedCodec) :=
  ⟨BlockCache.empty 1, ⟨⟨fun _ => ByteArray.zeros 1, []⟩, []⟩, #[⟨.byte, ⟨1, 1⟩, none⟩], ⟨3, 1⟩, {}⟩

/-- The first block is used again before the third one comes in. -/
def firstAgain : List CacheVisit :=
  [.request ⟨1, 0, 0⟩ .read, .request ⟨1, 1, 0⟩ .read, .isDirty ⟨1, 1, 0⟩,
    .request ⟨1, 0, 0⟩ .update]

/-- So far only blocks were decoded, all of them whole. -/
private theorem threeBlocks_worked {reached : BlockStore (Observed ScriptedCodec)}
    (keys : List BlockRef)
    (hevents : reached.codec.events = keys.map fun key =>
      .decode ⟨key, ⟨.byte, ⟨1, 1⟩, none⟩, ⟨3, 1⟩⟩ (.ok { bytes := ByteArray.zeros 1 })) :
    reached.Worked := by
  intro event hmem
  rw [hevents] at hmem
  obtain ⟨key, -, rfl⟩ := List.mem_map.mp hmem
  exact ⟨_, rfl, rfl⟩

/-- In a cache for two blocks the second one is evicted, since the first one was used after it. A
    cache for three keeps it. -/
theorem eviction_is_lru_firstAgain :
    let before := CacheVisit.performAll firstAgain (threeBlocks.withCapacity 2)
    let after := ((CacheVisit.request ⟨1, 2, 0⟩ .read).perform.run before).2
    after.Worked ∧ after.cache.keys = [⟨1, 2, 0⟩, ⟨1, 0, 0⟩] ∧
    (CacheVisit.performAll firstAgain (threeBlocks.withCapacity 3)).Worked ∧
    before.cache.OutdoneBy
      (CacheVisit.performAll firstAgain (threeBlocks.withCapacity 3)).cache := by
  intro before after
  have hbefore : before.Worked := threeBlocks_worked [⟨1, 0, 0⟩, ⟨1, 1, 0⟩] (by rfl)
  have hafter : after.Worked := threeBlocks_worked [⟨1, 0, 0⟩, ⟨1, 1, 0⟩, ⟨1, 2, 0⟩] (by rfl)
  have hlarger : (CacheVisit.performAll firstAgain (threeBlocks.withCapacity 3)).Worked :=
    threeBlocks_worked [⟨1, 0, 0⟩, ⟨1, 1, 0⟩] (by rfl)
  have hlru := eviction_is_lru threeBlocks firstAgain
  have hresidents := (hlru.1 2 (.request ⟨1, 2, 0⟩ .read) (by decide) hafter).residents
  exact ⟨hafter, hresidents.trans (by decide), hlarger,
    hlru.2 2 3 (by decide) (by decide) hbefore hlarger⟩

end RasterStore
