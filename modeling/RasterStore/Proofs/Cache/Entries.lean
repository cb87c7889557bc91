import RasterStore.BlockCache
import Mathlib.Algebra.GroupWithZero.Nat

/-!
# The blocks that a cache holds

`BlockCache.find?` is the view of a cache. This file says what each change of a cache does to the
view, for caches that hold at most one block under each key (`BlockCache.Distinct`):

* `find?_removeOldest`   the block used longest ago is no longer found
* `find?_modifyNewest`   the newest block has other bytes
* `find?_markClean`      a stored block is clean
* `mem_dirtyKeys`        the keys that a flush visits

Each change keeps the keys distinct.
-/

namespace RasterStore.BlockCache

/-- No two blocks are held under one key. -/
def Distinct (cache : BlockCache) : Prop :=
  cache.keys.Nodup

/-- In a list without a key twice, looking a key up is finding its pair. -/
private theorem lookup_eq_some_iff_mem (entries : List (BlockRef × Block))
    (hnodup : (entries.map (·.1)).Nodup) (key : BlockRef) (block : Block) :
    entries.lookup key = some block ↔ (key, block) ∈ entries := by
  induction entries with
  | nil => simp
  | cons entry rest ih =>
    obtain ⟨held, other⟩ := entry
    rw [List.map_cons, List.nodup_cons] at hnodup
    rw [lookup_cons_eq_ite, List.mem_cons]
    by_cases h : key = held
    · subst h
      -- the key stands in no entry behind the first one
      have hrest : (key, block) ∉ rest := fun hmem =>
        hnodup.1 (List.mem_map.mpr ⟨(key, block), hmem, rfl⟩)
      simp [hrest, eq_comm]
    · simp [h, ih hnodup.2]

variable {cache : BlockCache} {key other : BlockRef} {block : Block}

/-- A block is found where it is held, since no key is held twice. -/
theorem find?_eq_some_iff (hdistinct : cache.Distinct) :
    cache.find? key = some block ↔ (key, block) ∈ cache.entries :=
  lookup_eq_some_iff_mem cache.entries hdistinct key block

/-- What is found is held, also if keys are not distinct. -/
theorem mem_entries_of_find? (hfind : cache.find? key = some block) :
    (key, block) ∈ cache.entries := by
  obtain ⟨entries, capacity, stats⟩ := cache
  simp only [find?] at hfind ⊢
  -- induction on the entries: the first one with this key is the answer
  induction entries with
  | nil => contradiction
  | cons entry rest ih =>
    obtain ⟨held, other⟩ := entry
    rw [lookup_cons_eq_ite] at hfind
    split at hfind
    · next heq =>
      cases hfind
      rw [heq]
      exact List.mem_cons_self
    · exact List.mem_cons_of_mem _ (ih hfind)

/-- A block is not found just if its key is not one of the cache. -/
theorem find?_eq_none_iff : cache.find? key = none ↔ key ∉ cache.keys := by
  simp [find?, keys]
  grind

/-- The keys of the cache are those under which a block is found. -/
theorem mem_keys_iff : key ∈ cache.keys ↔ ∃ block, cache.find? key = some block := by
  rw [← Option.ne_none_iff_exists', ne_eq, find?_eq_none_iff, Decidable.not_not]

/-- The cache does not contain a block just if looking it up finds none. -/
theorem contains_eq_false_iff : cache.contains key = false ↔ cache.find? key = none := by
  simp [contains]

/-- The cache contains a block just if looking it up finds one. -/
theorem contains_iff_exists : cache.contains key = true ↔ ∃ block, cache.find? key = some block := by
  rw [contains, Option.isSome_iff_exists]

/-! ## Adding and using blocks -/

/-- A block that is not held can be inserted without a second entry for its key. -/
theorem Distinct.insert (hdistinct : cache.Distinct) (habsent : cache.find? key = none)
    (data : ByteArray) : (cache.insert key data).Distinct :=
  List.nodup_cons.mpr ⟨find?_eq_none_iff.mp habsent, hdistinct⟩

/-- No key is held twice once a block is removed. -/
theorem Distinct.remove (hdistinct : cache.Distinct) (key : BlockRef) :
    (cache.remove key).Distinct :=
  List.Nodup.sublist (List.filter_sublist.map _) hdistinct

/-- No key is held twice once the blocks of a band are removed. -/
theorem Distinct.removeBand (hdistinct : cache.Distinct) (band : Nat) :
    (cache.removeBand band).Distinct :=
  List.Nodup.sublist (List.filter_sublist.map _) hdistinct

/-- A block that is used stands first. -/
theorem entries_touch (hfind : cache.find? key = some block) (forWriting : Bool) :
    (cache.touch key forWriting).entries =
      (key, { block with dirty := block.dirty || forWriting }) :: (cache.remove key).entries := by
  rw [touch, hfind]

/-- Using a block moves it to the front, where it has one entry as before. -/
theorem Distinct.touch (hdistinct : cache.Distinct) (key : BlockRef) (forWriting : Bool) :
    (cache.touch key forWriting).Distinct := by
  cases hfind : cache.find? key with
  | none =>
    rw [BlockCache.touch, hfind]
    exact hdistinct
  | some block =>
    rw [Distinct, keys, entries_touch hfind, List.map_cons, List.nodup_cons]
    refine ⟨?_, hdistinct.remove key⟩
    -- the block is put in front of the others only after it was taken out
    have hgone : (cache.remove key).find? key = none := by
      rw [find?_remove, if_pos rfl]
    exact find?_eq_none_iff.mp hgone

/-- Using a block brings none into the cache and drives none out. -/
theorem find?_touch_eq_none_iff {forWriting : Bool} :
    (cache.touch key forWriting).find? other = none ↔ cache.find? other = none := by
  rw [find?_touch]
  split
  · next heq => simp [heq]
  · rfl

/-- After a use the same blocks are found, with the same bytes. Only the block that is used may
    have become dirty. -/
theorem exists_of_find?_touch {found : Block} {forWriting : Bool}
    (hfound : (cache.touch key forWriting).find? other = some found) :
    ∃ held, cache.find? other = some held ∧ found.data = held.data ∧
      (found.dirty = false ↔ held.dirty = false ∧ (other = key → forWriting = false)) := by
  rw [find?_touch] at hfound
  split at hfound
  · next heq =>
    obtain ⟨held, hheld, rfl⟩ := Option.map_eq_some_iff.mp hfound
    exact ⟨held, by rw [heq, hheld], rfl, by simp [heq]⟩
  · next hne => exact ⟨found, hfound, rfl, by simp [hne]⟩

/-- Changing the newest block changes its bytes and nothing else. -/
theorem find?_modifyNewest {rest : List (BlockRef × Block)}
    (hentries : cache.entries = (key, block) :: rest) (f : ByteArray → ByteArray) :
    (cache.modifyNewest f).find? other =
      if other = key then some { block with data := f block.data } else cache.find? other := by
  obtain ⟨entries, capacity, stats⟩ := cache
  obtain ⟨data, dirty⟩ := block
  simp only at hentries
  subst hentries
  simp only [modifyNewest, find?, lookup_cons_eq_ite]
  by_cases h : other = key <;> simp [h]

/-- Writing into the newest block leaves all keys where they are. -/
theorem keys_modifyNewest (f : ByteArray → ByteArray) :
    (cache.modifyNewest f).keys = cache.keys := by
  obtain ⟨entries, capacity, stats⟩ := cache
  cases entries <;> rfl

/-- Writing into the newest block gives no key a second entry. -/
theorem Distinct.modifyNewest (hdistinct : cache.Distinct) (f : ByteArray → ByteArray) :
    (cache.modifyNewest f).Distinct := by
  rw [Distinct, keys_modifyNewest]
  exact hdistinct

/-! ## Giving blocks up -/

/-- Only the blocks of the other bands are found once a band is removed. -/
theorem find?_removeBand (band : Nat) :
    (cache.removeBand band).find? other =
      if other.band = band then none else cache.find? other := by
  simp only [removeBand, find?]
  induction cache.entries with
  | nil => simp
  | cons entry rest ih =>
    obtain ⟨held, block⟩ := entry
    by_cases hheld : held.band = band
    · -- the head goes; it can only be the answer for a key of the band
      rw [List.filter_cons_of_neg (by simpa using hheld), ih, lookup_cons_eq_ite]
      by_cases h : other = held
      · simp [h, hheld]
      · rw [if_neg h]
    · rw [List.filter_cons_of_pos (by simpa using hheld), lookup_cons_eq_ite, lookup_cons_eq_ite, ih]
      by_cases h : other = held
      · simp [h, hheld]
      · rw [if_neg h, if_neg h]

/-- The oldest block is the last one of the list. -/
private theorem entries_of_oldest? (holdest : cache.oldest? = some (key, block)) :
    cache.entries = cache.removeOldest.entries ++ [(key, block)] := by
  obtain ⟨older, hentries⟩ := List.getLast?_eq_some_iff.mp holdest
  rw [removeOldest, hentries, List.dropLast_concat]

/-- The oldest block is found under its key. -/
theorem find?_of_oldest? (hdistinct : cache.Distinct)
    (holdest : cache.oldest? = some (key, block)) : cache.find? key = some block := by
  rw [find?_eq_some_iff hdistinct, entries_of_oldest? holdest]
  simp

/-- No key is held twice once the oldest block is gone. -/
theorem Distinct.removeOldest (hdistinct : cache.Distinct) : cache.removeOldest.Distinct :=
  List.Nodup.sublist ((List.dropLast_sublist _).map _) hdistinct

/-- Of distinct keys only the oldest one is no longer found. -/
theorem find?_removeOldest (hdistinct : cache.Distinct)
    (holdest : cache.oldest? = some (key, block)) :
    cache.removeOldest.find? other = if other = key then none else cache.find? other := by
  have hentries := entries_of_oldest? holdest
  -- the keys are those that stay and that of the oldest block, which is none of them
  have hkeys : (cache.removeOldest.keys ++ [key]).Nodup := by
    have := hdistinct
    rw [Distinct, keys, hentries] at this
    simpa [keys] using this
  by_cases h : other = key
  · subst h
    rw [if_pos rfl, find?_eq_none_iff]
    rw [List.nodup_append] at hkeys
    exact fun hmem => hkeys.2.2 other hmem other (by simp) rfl
  · rw [if_neg h]
    simp only [find?]
    rw [hentries, List.lookup_append, lookup_cons_eq_ite, if_neg h]
    simp

/-! ## Writing blocks back -/

/-- Marking a block as clean changes its mark and no block's bytes. -/
theorem find?_markClean :
    (cache.markClean key).find? other =
      if other = key then (cache.find? other).map fun block => { block with dirty := false }
      else cache.find? other := by
  simp only [markClean, find?]
  induction cache.entries with
  | nil => simp
  | cons entry rest ih =>
    obtain ⟨held, block⟩ := entry
    rw [List.map_cons, lookup_cons_eq_ite, lookup_cons_eq_ite, ih]
    by_cases h : other = held
    · by_cases hkey : held = key <;> simp [h, hkey]
    · simp [h]

/-- Marking a block as clean leaves all keys where they are. -/
@[simp] theorem keys_markClean : (cache.markClean key).keys = cache.keys := by
  simp [markClean, keys]

/-- Marking a block as clean gives no key a second entry. -/
theorem Distinct.markClean (hdistinct : cache.Distinct) (key : BlockRef) :
    (cache.markClean key).Distinct := by
  rw [Distinct, keys_markClean]
  exact hdistinct

/-- A flush visits the selected keys under which a dirty block is held. -/
theorem mem_dirtyKeys (hdistinct : cache.Distinct) {selected : BlockRef → Bool} :
    key ∈ cache.dirtyKeys selected ↔
      selected key = true ∧ ∃ block, cache.find? key = some block ∧ block.dirty = true := by
  simp only [dirtyKeys, List.mem_mergeSort, List.mem_map, List.mem_filter, Bool.and_eq_true]
  constructor
  · rintro ⟨⟨held, block⟩, ⟨hmem, hdirty, hselected⟩, rfl⟩
    exact ⟨hselected, block, (find?_eq_some_iff hdistinct).mpr hmem, hdirty⟩
  · rintro ⟨hselected, block, hfind, hdirty⟩
    exact ⟨(key, block), ⟨(find?_eq_some_iff hdistinct).mp hfind, hdirty, hselected⟩, rfl⟩

/-- Under each key that a flush visits, a dirty block is held. -/
theorem exists_of_mem_dirtyKeys (hdistinct : cache.Distinct) (selected : BlockRef → Bool) :
    ∀ key ∈ cache.dirtyKeys selected,
      ∃ block, cache.find? key = some block ∧ block.dirty = true :=
  fun _ hmem => ((mem_dirtyKeys hdistinct).mp hmem).2

/-- A flush visits no key twice. -/
theorem nodup_dirtyKeys (hdistinct : cache.Distinct) (selected : BlockRef → Bool) :
    (cache.dirtyKeys selected).Nodup := by
  rw [dirtyKeys, (List.mergeSort_perm _ _).nodup_iff]
  exact List.Nodup.sublist (List.filter_sublist.map _) hdistinct

/-! ## Numbers of dirty blocks -/

/-- The sum of a number that each dirty block has. -/
def dirtySum (cache : BlockCache) (number : BlockRef → Nat) : Nat :=
  (cache.entries.map fun (key, block) => if block.dirty then number key else 0).sum

variable {number number' : BlockRef → Nat}

/-- The sum over the dirty blocks depends only on the numbers of the blocks that are held. -/
theorem dirtySum_congr (h : ∀ key ∈ cache.keys, number key = number' key) :
    cache.dirtySum number = cache.dirtySum number' := by
  refine congrArg List.sum (List.map_congr_left fun entry hmem => ?_)
  obtain ⟨key, block⟩ := entry
  have hkey : key ∈ cache.keys := List.mem_map.mpr ⟨_, hmem, rfl⟩
  dsimp only
  rw [h key hkey]

/-- Giving up the oldest block takes its number away. -/
theorem dirtySum_of_oldest? (holdest : cache.oldest? = some (key, block)) :
    cache.dirtySum number =
      cache.removeOldest.dirtySum number + if block.dirty then number key else 0 := by
  rw [dirtySum, entries_of_oldest? holdest, List.map_append, List.sum_append, dirtySum]
  simp

/-- The keys that a flush visits have the same sum. -/
theorem sum_dirtyKeys :
    ((cache.dirtyKeys fun _ => true).map number).sum = cache.dirtySum number := by
  have hperm := (List.mergeSort_perm ((cache.entries.filter fun (_, block) =>
    block.dirty && true).map (·.1)) BlockRef.precedes).map number
  -- the sum does not depend on the order in which the blocks are written back
  refine hperm.sum_nat.trans ?_
  rw [dirtySum]
  induction cache.entries with
  | nil => rfl
  | cons entry rest ih =>
    obtain ⟨key, block⟩ := entry
    cases hdirty : block.dirty with
    | true => simp [hdirty, ← ih]
    | false => simp [hdirty, ← ih]

end RasterStore.BlockCache
