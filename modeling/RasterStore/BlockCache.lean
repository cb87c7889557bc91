import RasterStore.Geometry

/-!
# The block cache

A cache holds decoded blocks in the order of their last use, most recently used first, and counts
what happens to them. The operations here are pure: they say what becomes of the list of blocks.
When a block is decoded, encoded or evicted is decided in `RasterStore.BlockStore`.

The view of a cache is `BlockCache.find?`, the block held for a key:

* `find?_insert`      a new block is found under its key
* `find?_touch`       using a block changes only its mark
* `find?_remove`      a removed block is no longer found
-/

namespace RasterStore

/-- A decoded block. A dirty block holds changes that its codec has not stored yet. -/
structure Block where
  data : ByteArray
  dirty : Bool

/-- What has happened to the blocks of a cache. -/
structure CacheStats where
  /-- Requests for blocks that were held. -/
  hits : Nat := 0
  /-- Requests for blocks that were not held. -/
  misses : Nat := 0
  /-- Blocks decoded. -/
  decodes : Nat := 0
  /-- Blocks encoded. -/
  encodes : Nat := 0
  /-- Blocks given up to make room. -/
  evictions : Nat := 0
deriving DecidableEq

/-- Decoded blocks, most recently used first, each under its own key. -/
structure BlockCache where
  entries : List (BlockRef × Block) := []
  /-- Number of blocks that may be held. -/
  capacity : Nat
  stats : CacheStats := {}

namespace BlockCache

/-- A cache without blocks; it has room for at least one. -/
def empty (capacity : Nat) : BlockCache :=
  { capacity := max capacity 1 }

/-- Number of blocks held. -/
def size (cache : BlockCache) : Nat :=
  cache.entries.length

/-- The keys of the blocks held, most recently used first. -/
def keys (cache : BlockCache) : List BlockRef :=
  cache.entries.map (·.1)

/-- The block held for a key. -/
def find? (cache : BlockCache) (key : BlockRef) : Option Block :=
  cache.entries.lookup key

/-- A block is held for the key. -/
def contains (cache : BlockCache) (key : BlockRef) : Bool :=
  (cache.find? key).isSome

/-- The key and block that were used longest ago. -/
def oldest? (cache : BlockCache) : Option (BlockRef × Block) :=
  cache.entries.getLast?

/-! ## Changes to the blocks held -/

/-- Holds a clean block for a key that had none. -/
def insert (cache : BlockCache) (key : BlockRef) (data : ByteArray) : BlockCache :=
  { cache with entries := (key, ⟨data, false⟩) :: cache.entries }

/-- Gives up a block. -/
def remove (cache : BlockCache) (key : BlockRef) : BlockCache :=
  { cache with entries := cache.entries.filter (·.1 ≠ key) }

/-- Gives up all blocks of a band. -/
def removeBand (cache : BlockCache) (band : Nat) : BlockCache :=
  { cache with entries := cache.entries.filter (·.1.band ≠ band) }

/-- Gives up the block that was used longest ago. -/
def removeOldest (cache : BlockCache) : BlockCache :=
  { cache with entries := cache.entries.dropLast }

/-- Makes the block the most recently used one, and dirty if it is used for writing. -/
def touch (cache : BlockCache) (key : BlockRef) (forWriting : Bool) : BlockCache :=
  match cache.find? key with
  | none => cache
  | some block =>
    { cache with
      entries := (key, { block with dirty := block.dirty || forWriting }) ::
        (cache.remove key).entries }

/-- Changes the bytes of the most recently used block. -/
def modifyNewest (cache : BlockCache) (f : ByteArray → ByteArray) : BlockCache :=
  match cache with
  | ⟨(key, ⟨data, dirty⟩) :: rest, capacity, stats⟩ =>
    ⟨(key, ⟨f data, dirty⟩) :: rest, capacity, stats⟩
  | ⟨[], capacity, stats⟩ => ⟨[], capacity, stats⟩

/-- Marks a block as stored. -/
def markClean (cache : BlockCache) (key : BlockRef) : BlockCache :=
  { cache with
    entries := cache.entries.map fun (held, block) =>
      (held, if held = key then { block with dirty := false } else block) }

/-- The keys of the dirty blocks that are selected, in the order in which they are written back. -/
def dirtyKeys (cache : BlockCache) (selected : BlockRef → Bool) : List BlockRef :=
  ((cache.entries.filter fun (key, block) => block.dirty && selected key).map (·.1)).mergeSort
    BlockRef.precedes

/-! ## Counting -/

def countHit (cache : BlockCache) : BlockCache :=
  { cache with stats := { cache.stats with hits := cache.stats.hits + 1 } }

def countMiss (cache : BlockCache) : BlockCache :=
  { cache with stats := { cache.stats with misses := cache.stats.misses + 1 } }

def countDecode (cache : BlockCache) : BlockCache :=
  { cache with stats := { cache.stats with decodes := cache.stats.decodes + 1 } }

def countEncode (cache : BlockCache) : BlockCache :=
  { cache with stats := { cache.stats with encodes := cache.stats.encodes + 1 } }

def countEviction (cache : BlockCache) : BlockCache :=
  { cache with stats := { cache.stats with evictions := cache.stats.evictions + 1 } }

/-! ## Finding blocks after a change -/

theorem lookup_cons_eq_ite (key other : BlockRef) (block : Block)
    (rest : List (BlockRef × Block)) :
    List.lookup other ((key, block) :: rest) =
      if other = key then some block else rest.lookup other := by
  rw [List.lookup_cons]
  by_cases h : other = key
  · simp [h]
  · rw [beq_false_of_ne h, if_neg h]

private theorem lookup_filter_ne (entries : List (BlockRef × Block)) (key other : BlockRef) :
    (entries.filter (·.1 ≠ key)).lookup other =
      if other = key then none else entries.lookup other := by
  induction entries with
  | nil => simp
  | cons entry rest ih =>
    obtain ⟨held, block⟩ := entry
    by_cases hheld : held = key
    · -- the head goes; it was the answer for the removed key only
      subst hheld
      rw [List.filter_cons_of_neg (by simp), ih, lookup_cons_eq_ite]
      by_cases h : other = held <;> simp [h]
    · -- the head stays, and it is not under the removed key
      rw [List.filter_cons_of_pos (by simpa using hheld), lookup_cons_eq_ite, lookup_cons_eq_ite,
        ih]
      by_cases h : other = held
      · subst h
        simp [hheld]
      · simp [h]

theorem find?_insert (cache : BlockCache) (key other : BlockRef) (data : ByteArray) :
    (cache.insert key data).find? other =
      if other = key then some ⟨data, false⟩ else cache.find? other :=
  lookup_cons_eq_ite key other _ _

theorem find?_remove (cache : BlockCache) (key other : BlockRef) :
    (cache.remove key).find? other = if other = key then none else cache.find? other :=
  lookup_filter_ne cache.entries key other

theorem find?_touch (cache : BlockCache) (key other : BlockRef) (forWriting : Bool) :
    (cache.touch key forWriting).find? other =
      if other = key then
        (cache.find? key).map fun block => { block with dirty := block.dirty || forWriting }
      else cache.find? other := by
  unfold touch
  cases hfind : cache.find? key with
  | none =>
    by_cases h : other = key
    · simp [h, hfind]
    · simp [h]
  | some block =>
    have hremove := find?_remove cache key other
    simp only [find?] at hremove ⊢
    rw [lookup_cons_eq_ite, hremove]
    by_cases h : other = key <;> simp [h]

end BlockCache

end RasterStore
