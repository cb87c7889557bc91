import RasterStore.BlockStore
import RasterStore.Proofs.Action.Keeps
import RasterStore.Proofs.Cache.Entries

/-!
# What a step leaves in the cache

The steps of a block store, over any codec and whatever calls of it fail, described by the cache
that they leave. Giving blocks up takes them from the end of the list of blocks and counts them
(`BlockCache.GivenUp`); a step that fails has given up fewer blocks than it was asked to.

* `ends_makeRoom_cache`         the blocks used longest ago go, until there is room
* `ends_fetch_of_held`          a block that is held is only moved to the front
* `ends_fetch_of_not_held`      a block that is not held comes in front of those that are left
* `ends_flushSelected_settled`  writing back moves no block and changes no number but one
-/

namespace RasterStore

open RasterStore.Action

namespace BlockCache

variable {cache before middle after room : BlockCache} {key other : BlockRef} {block : Block}

/-! ## Keys and sizes -/

/-- The cache has one key for each block that it holds. -/
theorem length_keys (cache : BlockCache) : cache.keys.length = cache.size :=
  List.length_map _

/-- A block that is inserted comes before those that are held. -/
theorem keys_insert (cache : BlockCache) (key : BlockRef) (data : ByteArray) :
    (cache.insert key data).keys = key :: cache.keys := rfl

/-- Removing a block leaves the other keys in their order. -/
theorem keys_remove (cache : BlockCache) (key : BlockRef) :
    (cache.remove key).keys = cache.keys.filter (· ≠ key) := by
  rw [keys, keys, List.filter_map]
  rfl

/-- A block that is used comes first, and the others keep their order. -/
theorem keys_touch (hheld : cache.contains key = true) (forWriting : Bool) :
    (cache.touch key forWriting).keys = key :: cache.keys.filter (· ≠ key) := by
  obtain ⟨block, hfind⟩ := contains_iff_exists.mp hheld
  rw [keys, entries_touch hfind, List.map_cons, ← keys_remove]
  rfl

/-- Using a block leaves the room that the cache has alone. -/
theorem capacity_touch (cache : BlockCache) (key : BlockRef) (forWriting : Bool) :
    (cache.touch key forWriting).capacity = cache.capacity := by
  unfold touch
  split <;> rfl

/-- Using a block counts nothing: hits and misses are counted by the caller. -/
theorem stats_touch (cache : BlockCache) (key : BlockRef) (forWriting : Bool) :
    (cache.touch key forWriting).stats = cache.stats := by
  unfold touch
  split <;> rfl

/-- The blocks that the cache contains are those of its keys. -/
theorem contains_iff_mem_keys : cache.contains key = true ↔ key ∈ cache.keys := by
  rw [contains_iff_exists, mem_keys_iff]

/-- Using a block that is not held does nothing. -/
private theorem touch_of_not_held (hheld : cache.contains key = false) (forWriting : Bool) :
    cache.touch key forWriting = cache := by
  simp only [touch, contains_eq_false_iff.mp hheld]

/-- Using a block brings none into the cache. -/
theorem size_touch_le (cache : BlockCache) (key : BlockRef) (forWriting : Bool) :
    (cache.touch key forWriting).size ≤ cache.size := by
  cases hheld : cache.contains key with
  | false => exact Nat.le_of_eq (by rw [touch_of_not_held hheld])
  | true =>
    have hmem : key ∈ cache.keys := contains_iff_mem_keys.mp hheld
    have hlt : (cache.keys.filter (· ≠ key)).length < cache.keys.length :=
      List.length_filter_lt_length_iff_exists.mpr ⟨key, hmem, by simp⟩
    rw [← length_keys, keys_touch hheld, List.length_cons, ← length_keys]
    exact hlt

/-- A block that is removed is one that was held. -/
theorem size_remove (hdistinct : cache.Distinct) (key : BlockRef) :
    (cache.remove key).size + (if cache.contains key then 1 else 0) = cache.size := by
  -- no key is held twice, so that one entry goes at most
  have herase : cache.keys.filter (· ≠ key) = cache.keys.erase key := by
    rw [List.Nodup.erase_eq_filter hdistinct]
    exact List.filter_congr fun other _ => by simp [bne, beq_eq_decide]
  rw [← length_keys, ← length_keys, keys_remove, herase]
  split
  · next hheld =>
    have hmem : key ∈ cache.keys := contains_iff_mem_keys.mp hheld
    have hpos : 0 < cache.keys.length := List.length_pos_of_mem hmem
    rw [List.length_erase_of_mem hmem]
    omega
  · next hnot =>
    have hmem : key ∉ cache.keys := fun hmem => hnot (contains_iff_mem_keys.mpr hmem)
    rw [List.erase_of_not_mem hmem]
    rfl

/-- The blocks of a band that are removed are those that were held. -/
theorem size_removeBand (cache : BlockCache) (band : Nat) :
    (cache.removeBand band).size + cache.keys.countP (·.band = band) = cache.size := by
  have hsplit := List.length_eq_countP_add_countP
    (fun entry : BlockRef × Block => decide (entry.1.band = band)) (l := cache.entries)
  rw [keys, List.countP_map, size, size, hsplit, removeBand, ← List.countP_eq_length_filter,
    Nat.add_comm]
  congr 1
  exact List.countP_congr fun entry _ => by simp

/-- Using a block drives none out if the keys are distinct. -/
theorem size_touch (hdistinct : cache.Distinct) (key : BlockRef) (forWriting : Bool) :
    (cache.touch key forWriting).size = cache.size := by
  cases hheld : cache.contains key with
  | false => rw [touch_of_not_held hheld]
  | true =>
    have hremove := size_remove hdistinct key
    rw [if_pos hheld] at hremove
    rw [← length_keys, keys_touch hheld, List.length_cons, ← keys_remove, length_keys]
    exact hremove

/-- A block that comes into the cache is the first one, before those that were held. -/
theorem keys_brought (hnot : key ∉ cache.keys) (data : ByteArray) (forWriting : Bool) :
    ((cache.insert key data).touch key forWriting).keys = key :: cache.keys := by
  have hheld : (cache.insert key data).contains key = true := by
    rw [contains_iff_mem_keys, keys_insert]
    exact List.mem_cons_self
  have hothers : cache.keys.filter (· ≠ key) = cache.keys :=
    List.filter_eq_self.mpr fun other hmem => by
      rw [decide_eq_true_eq]
      exact fun heq => hnot (heq ▸ hmem)
  rw [keys_touch hheld, keys_insert, List.filter_cons_of_neg (by simp), hothers]

/-- Writing into the newest block brings none in and drives none out. -/
theorem size_modifyNewest (cache : BlockCache) (f : ByteArray → ByteArray) :
    (cache.modifyNewest f).size = cache.size := by
  rw [← length_keys, ← length_keys, keys_modifyNewest]

/-- Writing into the newest block leaves the room that the cache has alone. -/
theorem capacity_modifyNewest (cache : BlockCache) (f : ByteArray → ByteArray) :
    (cache.modifyNewest f).capacity = cache.capacity := by
  obtain ⟨entries, capacity, stats⟩ := cache
  cases entries <;> rfl

/-- Writing into the newest block counts nothing. -/
theorem stats_modifyNewest (cache : BlockCache) (f : ByteArray → ByteArray) :
    (cache.modifyNewest f).stats = cache.stats := by
  obtain ⟨entries, capacity, stats⟩ := cache
  cases entries <;> rfl

/-! ## Giving blocks up -/

/-- The `count` blocks used longest ago were given up, and nothing else. Those that were dirty are
    encoded, which is counted too. -/
structure GivenUp (before : BlockCache) (count : Nat) (after : BlockCache) : Prop where
  le_size : count ≤ before.size
  entries : after.entries = before.entries.take (before.size - count)
  capacity : after.capacity = before.capacity
  stats : after.stats = { before.stats with
    encodes := after.stats.encodes
    evictions := before.stats.evictions + count }

theorem GivenUp.refl (cache : BlockCache) : GivenUp cache 0 cache :=
  ⟨Nat.zero_le _, (List.take_length).symm, rfl, rfl⟩

/-- The blocks given up and those that are left make up the blocks that were held. -/
theorem GivenUp.size_add {count : Nat} (h : GivenUp before count after) :
    after.size + count = before.size := by
  have hle := h.le_size
  have hsize : after.size = min (before.size - count) before.size := by
    rw [size, h.entries, List.length_take, size]
  omega

/-- Each block that is given up is counted as an eviction. -/
theorem GivenUp.evictions {count : Nat} (h : GivenUp before count after) :
    after.stats.evictions = before.stats.evictions + count := by
  rw [h.stats]

/-- The blocks that are left are the ones used last, in their order. -/
theorem GivenUp.keys {count : Nat} (h : GivenUp before count after) :
    after.keys = before.keys.take (before.size - count) := by
  rw [BlockCache.keys, h.entries, List.map_take]
  rfl

/-- Blocks given up in two rounds are given up together. -/
theorem GivenUp.trans {count count' : Nat} (h : GivenUp before count middle)
    (h' : GivenUp middle count' after) : GivenUp before (count + count') after := by
  have hmiddle := h.size_add
  have hafter := h'.size_add
  refine ⟨by omega, ?_, h'.capacity.trans h.capacity, ?_⟩
  · rw [h'.entries, h.entries, List.take_take]
    congr 1
    omega
  · rw [h'.stats, h.stats, Nat.add_assoc]

/-- Giving the oldest block up, having encoded it or not. -/
private theorem givenUp_removeOldest {encoded : BlockCache} (hpos : 0 < before.size)
    (hentries : encoded.entries = before.entries) (hcapacity : encoded.capacity = before.capacity)
    (hstats : encoded.stats = { before.stats with encodes := encoded.stats.encodes }) :
    GivenUp before 1 encoded.removeOldest.countEviction := by
  refine ⟨hpos, ?_, hcapacity, ?_⟩
  · show encoded.entries.dropLast = _
    rw [hentries, List.dropLast_eq_take, size]
  · show ({ encoded.stats with evictions := encoded.stats.evictions + 1 } : CacheStats) = _
    rw [hstats]
    rfl

/-! ## Loading and writing back -/

/-- The cache once a block that it does not hold is loaded: only numbers have changed. -/
def missed (cache : BlockCache) (use : BlockUse) : BlockCache :=
  if use = .overwrite then cache.countMiss else cache.countMiss.countDecode

/-- Counting a miss leaves the blocks alone. -/
theorem entries_missed (cache : BlockCache) (use : BlockUse) :
    (cache.missed use).entries = cache.entries := by
  unfold missed
  split <;> rfl

/-- Counting a miss leaves the room that the cache has alone. -/
theorem capacity_missed (cache : BlockCache) (use : BlockUse) :
    (cache.missed use).capacity = cache.capacity := by
  unfold missed
  split <;> rfl

/-- Counting a miss leaves the number of blocks alone. -/
theorem size_missed (cache : BlockCache) (use : BlockUse) :
    (cache.missed use).size = cache.size :=
  congrArg List.length (entries_missed cache use)

/-- A miss counts one lookup that found nothing, and one decoded block unless it is overwritten. -/
theorem stats_missed (cache : BlockCache) (use : BlockUse) :
    (cache.missed use).stats = { cache.stats with
      misses := cache.stats.misses + 1
      decodes := cache.stats.decodes + if use = .overwrite then 0 else 1 } := by
  unfold missed
  split <;> rfl

/-- A block that is loaded came into the cache, and those that had to go for it were given up. -/
structure BroughtIn (before : BlockCache) (key : BlockRef) (use : BlockUse) (after : BlockCache) :
    Prop where
  keys : after.keys = key :: before.keys.take (before.capacity - 1)
  capacity : after.capacity = before.capacity
  stats : after.stats = { before.stats with
    misses := before.stats.misses + 1
    decodes := before.stats.decodes + if use = .overwrite then 0 else 1
    encodes := after.stats.encodes
    evictions := before.stats.evictions + (before.size - (before.capacity - 1)) }

/-- A block is brought in, and as many have gone as stood in its way. -/
theorem BroughtIn.size {use : BlockUse} (h : BroughtIn before key use after) :
    after.size + (before.size - (before.capacity - 1)) = before.size + 1 := by
  have hlength := congrArg List.length h.keys
  rw [List.length_cons, List.length_take, length_keys, length_keys] at hlength
  omega

/-- A block that was not held is brought in without a second entry for any key. -/
theorem BroughtIn.distinct {use : BlockUse} (h : BroughtIn before key use after)
    (hdistinct : before.Distinct) (hheld : before.contains key = false) : after.Distinct := by
  have hnot : key ∉ before.keys := find?_eq_none_iff.mp (contains_eq_false_iff.mp hheld)
  rw [Distinct, h.keys, List.nodup_cons]
  exact ⟨fun hmem => hnot (List.mem_of_mem_take hmem), hdistinct.sublist (List.take_sublist _ _)⟩

/-- What comes in once there is room comes in front of the blocks that are left. -/
theorem broughtIn_of_room {use : BlockUse} (hheld : cache.contains key = false)
    (hgiven : (cache.missed use).GivenUp (cache.size - (cache.capacity - 1)) room)
    (data : ByteArray) :
    cache.BroughtIn key use ((room.insert key data).touch key use.forWriting) := by
  have hnot : key ∉ cache.keys := find?_eq_none_iff.mp (contains_eq_false_iff.mp hheld)
  -- the oldest ones went until one place was free
  have hkeys : room.keys = cache.keys.take (cache.capacity - 1) := by
    rw [hgiven.keys, size_missed, BlockCache.keys, entries_missed, ← BlockCache.keys,
      List.take_eq_take_iff, length_keys]
    omega
  -- making room brings nothing back in
  have hnotRoom : key ∉ room.keys := by
    rw [hkeys]
    exact fun hmem => hnot (List.mem_of_mem_take hmem)
  refine ⟨?_, ?_, ?_⟩
  · rw [keys_brought hnotRoom, hkeys]
  · rw [capacity_touch]
    exact hgiven.capacity.trans (capacity_missed cache use)
  · rw [stats_touch]
    show room.stats = _
    rw [hgiven.stats, stats_missed]
    rfl

/-- Writing blocks back moves none of them and changes no number but that of the blocks encoded. -/
structure Settled (before after : BlockCache) : Prop where
  keys : after.keys = before.keys
  capacity : after.capacity = before.capacity
  stats : after.stats = { before.stats with encodes := after.stats.encodes }

theorem Settled.refl (cache : BlockCache) : Settled cache cache := ⟨rfl, rfl, rfl⟩

/-- Marking a further block as clean and counting it as encoded is still nothing but settling. -/
theorem Settled.markClean (h : Settled before after) (key : BlockRef) :
    Settled before (after.markClean key).countEncode := by
  refine ⟨keys_markClean.trans h.keys, h.capacity, ?_⟩
  show ({ after.stats with encodes := after.stats.encodes + 1 } : CacheStats) = _
  rw [h.stats]
  rfl

/-- Settling a cache leaves as many blocks in it. -/
theorem Settled.size (h : Settled before after) : after.size = before.size := by
  rw [← length_keys, h.keys, length_keys]

end BlockCache

namespace BlockStore

variable {κ : Type} [Codec κ] {store : BlockStore κ} {key : BlockRef}

/-! ## The steps of a fetch -/

omit [Codec κ] in
/-- A step of the codec leaves the cache as it is. -/
theorem ends_onCodec_cache {α : Type} (act : Action κ α) (store : BlockStore κ) :
    (onCodec act).Ends store (fun _ after => after.cache = store.cache)
      (fun _ after => after.cache = store.cache) := by
  have hpart : act.Ends store.codec (fun _ codec => { store with codec }.cache = store.cache)
      (fun _ codec => { store with codec }.cache = store.cache) :=
    ends_of_forall (fun _ _ => rfl) fun _ _ => rfl
  exact hpart.of_part (fun codec => { store with codec }) rfl

/-- Asking the codec to store a block leaves the cache alone, whether it succeeds or not. -/
theorem ends_encode_cache (data : ByteArray) :
    (encode key data).Ends store (fun _ after => after.cache = store.cache)
      (fun _ after => after.cache = store.cache) :=
  Ends.get_bind (ends_onCodec_cache _ store)

/-- Asking the codec for a block leaves the cache alone, whether it succeeds or not. -/
theorem ends_decode_cache :
    (decode key).Ends store (fun _ after => after.cache = store.cache)
      (fun _ after => after.cache = store.cache) := by
  apply Ends.get_bind
  apply Ends.bind
  apply (ends_onCodec_cache _ store).mono _ fun _ _ h => h
  intro decoded after hcache
  apply Ends.modify_bind
  apply Ends.ite
  · exact fun _ => ends_pure.mpr hcache
  · exact fun _ => ends_throw.mpr hcache

/-- The oldest block goes, or stays if it is dirty and cannot be encoded. -/
theorem ends_evictOldest_cache (hpos : 0 < store.cache.size) :
    (evictOldest (κ := κ)).Ends store (fun _ after => store.cache.GivenUp 1 after.cache)
      (fun _ after => after.cache = store.cache) := by
  apply Ends.get_bind
  cases holdest : store.cache.oldest? with
  | none =>
    -- the cache is not empty
    have hnil : store.cache.entries = [] := List.getLast?_eq_none_iff.mp holdest
    rw [BlockCache.size, hnil] at hpos
    contradiction
  | some entry =>
    obtain ⟨key, block⟩ := entry
    simp only
    cases block.dirty with
    | false =>
      -- a clean one goes at once
      exact BlockCache.givenUp_removeOldest hpos rfl rfl rfl
    | true =>
      -- a dirty one is encoded first; if that fails it stays
      apply Ends.bind
      apply (ends_encode_cache block.data).mono _ fun _ _ h => h
      intro _ after hcache
      apply Ends.modify_bind
      apply ends_modify.mpr
      have hencoded : (after.cache.countEncode).entries = store.cache.entries := by
        rw [← hcache]
        rfl
      refine BlockCache.givenUp_removeOldest hpos hencoded ?_ ?_
      · rw [← hcache]
        rfl
      · rw [← hcache]
        rfl

/-- Giving up some blocks takes exactly those from the end, or fails having taken fewer. -/
theorem ends_evict_cache {count : Nat} (hle : count ≤ store.cache.size) :
    (evict (κ := κ) count).Ends store (fun _ after => store.cache.GivenUp count after.cache)
      (fun _ after => ∃ given < count, store.cache.GivenUp given after.cache) := by
  -- induction on the number of blocks to give up; the failing block may be any of them
  induction count generalizing store with
  | zero => exact ends_pure.mpr (.refl _)
  | succ count ih =>
    -- blocks that went before one that cannot be encoded do not come back
    apply Ends.bind
    apply (ends_evictOldest_cache (by omega)).mono
    · intro _ middle hfirst
      have hsize := hfirst.size_add
      have hrest : count ≤ middle.cache.size := by omega
      apply (ih hrest).mono
      · intro _ after hafter
        rw [Nat.add_comm]
        exact hfirst.trans hafter
      · rintro _ after ⟨given, hlt, hafter⟩
        exact ⟨1 + given, by omega, hfirst.trans hafter⟩
    · intro _ after hcache
      exact ⟨0, Nat.succ_pos count, hcache ▸ .refl _⟩

/-- The blocks used longest ago go until `target` blocks are left. A failure leaves more. -/
theorem ends_makeRoom_cache (target : Nat) :
    (makeRoom (κ := κ) target).Ends store
      (fun _ after => store.cache.GivenUp (store.cache.size - target) after.cache)
      (fun _ after => ∃ given < store.cache.size - target,
        store.cache.GivenUp given after.cache) :=
  Ends.get_bind (ends_evict_cache (Nat.sub_le _ _))

/-- Getting the bytes of a missing block counts one decoded block, unless it is to be overwritten:
    then the codec is not asked and nothing fails. -/
theorem ends_load_cache (use : BlockUse) :
    (load key use).Ends store
      (fun _ after => after.cache =
        if use = .overwrite then store.cache else store.cache.countDecode)
      (fun _ after => use ≠ .overwrite ∧ after.cache = store.cache) := by
  apply Ends.ite
  · intro huse
    exact Ends.get_bind (ends_pure.mpr (if_pos huse).symm)
  · intro huse
    apply Ends.bind
    apply ends_decode_cache.mono
    · intro data after hcache
      apply Ends.modify_bind
      apply ends_pure.mpr
      rw [if_neg huse, ← hcache]
    · exact fun _ _ hcache => ⟨huse, hcache⟩

/-! ## Fetching and changing -/

/-- A block that is held moves to the front, and nothing else happens. -/
theorem ends_fetch_of_held (hheld : store.cache.contains key = true) (use : BlockUse) :
    (fetch key use).Ends store
      (fun _ after => after.cache = store.cache.countHit.touch key use.forWriting)
      (fun _ _ => False) := by
  apply Ends.get_bind
  apply Ends.ite
  · intro _
    exact Ends.modify_bind (Ends.modify_bind (Ends.get_bind (ends_pure.mpr rfl)))
  · exact fun hnot => absurd hheld hnot

/-- A block that is not held comes in front of those that are left. A failing fetch leaves the
    cache as it was, but for its numbers, and for blocks that were given up before one failed. -/
theorem ends_fetch_of_not_held (hheld : store.cache.contains key = false) (use : BlockUse) :
    (fetch key use).Ends store
      (fun _ after => store.cache.BroughtIn key use after.cache)
      (fun _ after => use ≠ .overwrite ∧ after.cache = store.cache.countMiss ∨
        ∃ given < store.cache.size - (store.cache.capacity - 1),
          (store.cache.missed use).GivenUp given after.cache) := by
  apply Ends.get_bind
  apply Ends.ite
  · -- a block that is held is no miss
    intro hnot
    rw [hheld] at hnot
    contradiction
  · intro _
    apply Ends.modify_bind
    apply Ends.bind
    apply (ends_load_cache use).mono
    · intro data loaded hloaded
      have hmissed : loaded.cache = store.cache.missed use := hloaded
      have hsize : loaded.cache.size = store.cache.size := by
        rw [hmissed, BlockCache.size, BlockCache.entries_missed]
        rfl
      have hcapacity : loaded.cache.capacity = store.cache.capacity := by
        rw [hmissed, BlockCache.capacity_missed]
      apply Ends.get_bind
      apply Ends.bind
      rw [hcapacity]
      -- the block comes in only after there is room for it
      have hroom : (makeRoom (store.cache.capacity - 1)).Ends loaded _ _ :=
        ends_makeRoom_cache _
      rw [hsize, hmissed] at hroom
      apply hroom.mono
      · intro _ room hgiven
        exact Ends.modify_bind (Ends.modify_bind (Ends.get_bind (ends_pure.mpr
          (BlockCache.broughtIn_of_room hheld hgiven data))))
      · exact fun _ _ hgiven => .inr hgiven
    · exact fun _ _ hfailed => .inl hfailed

/-! ## Writing back -/

/-- Writing back one block at most settles the cache. -/
private theorem keeps_flushBlock (cache : BlockCache) (key : BlockRef) :
    Keeps (fun store : BlockStore κ => cache.Settled store.cache) (flushBlock key) := by
  -- the entries, their order and their number stay, whether the encode works or fails
  intro store hstore
  apply Ends.get_bind
  cases store.cache.find? key with
  | none => exact ends_pure.mpr hstore
  | some block =>
    apply Ends.bind
    apply Ends.attempt
    apply (ends_encode_cache block.data).mono
    · intro _ after hcache
      apply Ends.modify_bind
      apply ends_pure.mpr
      rw [← hcache] at hstore
      exact hstore.markClean key
    · intro _ after hcache
      apply Ends.modify_bind
      apply ends_pure.mpr
      rw [← hcache] at hstore
      exact hstore

/-- Writing back a list of blocks at most settles the cache. -/
private theorem keeps_flushBlocks (cache : BlockCache) (keys : List BlockRef) :
    Keeps (fun store : BlockStore κ => cache.Settled store.cache) (flushBlocks keys) := by
  induction keys with
  | nil => exact keeps_pure _
  | cons key rest ih =>
    exact (keeps_flushBlock cache key).bind fun _ => ih.bind fun _ => keeps_pure _

/-- Whether or not blocks could be written back, all of them keep their places. -/
theorem ends_flushSelected_settled (store : BlockStore κ) (selected : BlockRef → Bool) :
    (flushSelected (κ := κ) selected).Ends store
      (fun _ after => store.cache.Settled after.cache)
      (fun _ after => store.cache.Settled after.cache) := by
  have hkeeps : Keeps (fun reached : BlockStore κ => store.cache.Settled reached.cache)
      (flushSelected (κ := κ) selected) :=
    keeps_get_bind fun _ _ => (keeps_flushBlocks _ _).bind fun _ =>
      Keeps.ite (fun _ => keeps_pure _) fun _ => keeps_throw _
  exact hkeeps store (.refl _)

end BlockStore

end RasterStore
