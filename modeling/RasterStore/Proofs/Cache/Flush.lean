import Mathlib.Data.List.Sort
import RasterStore.Proofs.Cache.Observed

/-!
# Writing back

What a flush does over any codec and whatever calls of it fail. It makes one attempt for each
selected block that is dirty, in the order of the blocks, and none for any other block; an attempt
that fails does not stop it. `WritesBack` says what this makes of the store.

* `pairwise_dirtyKeys`         the order in which blocks are written back
* `ends_flushSelected_writes`  a flush makes its attempts
* `WritesBack.again`           a second flush makes those that failed once more
-/

namespace RasterStore

open RasterStore.Action

/-! ## The order of the blocks -/

/-- Blocks are ordered by band, then by row, then by column. -/
def BlockRef.Before (a b : BlockRef) : Prop :=
  a.band < b.band ∨ a.band = b.band ∧ (a.y < b.y ∨ a.y = b.y ∧ a.x < b.x)

/-- The test that sorts the blocks is the order, made reflexive. -/
theorem BlockRef.precedes_iff {a b : BlockRef} : a.precedes b = true ↔ a.Before b ∨ a = b := by
  obtain ⟨band, x, y⟩ := a
  obtain ⟨band', x', y'⟩ := b
  simp only [precedes, Before, Bool.or_eq_true, Bool.and_eq_true, decide_eq_true_eq, beq_iff_eq,
    BlockRef.mk.injEq]
  omega

/-- No two blocks come before each other. -/
theorem BlockRef.Before.asymm {a b : BlockRef} (h : a.Before b) : ¬b.Before a := by
  unfold Before at h ⊢
  omega

/-- The order of the blocks is transitive. -/
theorem BlockRef.Before.trans {a b c : BlockRef} (h : a.Before b) (h' : b.Before c) :
    a.Before c := by
  unfold Before at h h' ⊢
  omega

/-- No block comes before itself. -/
theorem BlockRef.Before.ne {a b : BlockRef} (h : a.Before b) : a ≠ b := by
  rintro rfl
  exact h.asymm h

/-- Of two blocks one comes before the other. -/
theorem BlockRef.before_or_before {a b : BlockRef} (hne : a ≠ b) : a.Before b ∨ b.Before a := by
  obtain ⟨band, x, y⟩ := a
  obtain ⟨band', x', y'⟩ := b
  simp only [Before, ne_eq, BlockRef.mk.injEq] at hne ⊢
  omega

/-- Keys in strict order are determined by which keys they are. -/
theorem BlockRef.eq_of_pairwise_before {keys keys' : List BlockRef}
    (h : keys.Pairwise BlockRef.Before) (h' : keys'.Pairwise BlockRef.Before)
    (hmem : ∀ key, key ∈ keys ↔ key ∈ keys') : keys = keys' := by
  have hnodup : keys.Nodup := h.imp fun hbefore => hbefore.ne
  have hnodup' : keys'.Nodup := h'.imp fun hbefore => hbefore.ne
  have hperm : keys.Perm keys' := (List.perm_ext_iff_of_nodup hnodup hnodup').mpr hmem
  exact hperm.eq_of_pairwise (fun _ _ _ _ hab hba => absurd hba hab.asymm) h h'

namespace BlockCache

variable {cache : BlockCache} {key : BlockRef}

/-- Blocks are written back in strict order. -/
theorem pairwise_dirtyKeys (hdistinct : cache.Distinct) (selected : BlockRef → Bool) :
    (cache.dirtyKeys selected).Pairwise BlockRef.Before := by
  have hsorted : (cache.dirtyKeys selected).Pairwise fun a b => a.precedes b = true := by
    -- the order of the sort is transitive and total, so that the sorted list is ascending
    apply List.pairwise_mergeSort
    · intro a b c
      simp only [BlockRef.precedes_iff]
      rintro (hab | rfl) (hbc | rfl)
      · exact .inl (hab.trans hbc)
      · exact .inl hab
      · exact .inl hbc
      · exact .inr rfl
    · intro a b
      rw [Bool.or_eq_true, BlockRef.precedes_iff, BlockRef.precedes_iff]
      by_cases heq : a = b
      · exact .inl (.inr heq)
      · exact (BlockRef.before_or_before heq).imp .inl .inl
  -- no key comes twice, so that the order is strict
  refine (hsorted.and (nodup_dirtyKeys hdistinct selected)).imp ?_
  rintro a b ⟨hprecedes, hne⟩
  exact (BlockRef.precedes_iff.mp hprecedes).resolve_right hne

/-- The bytes that are held for a block. -/
def bytes (cache : BlockCache) (key : BlockRef) : ByteArray :=
  (cache.find? key).elim ByteArray.empty Block.data

/-- Changing the mark of each block that is held. -/
def remark (cache : BlockCache) (dirty : BlockRef → Bool → Bool) : List (BlockRef × Block) :=
  cache.entries.map fun (key, block) => (key, { block with dirty := dirty key block.dirty })

variable {after : BlockCache} {dirty dirty' : BlockRef → Bool → Bool}

/-- The marks are changed alike if they are for the blocks that are held. -/
theorem remark_congr (h : ∀ key block, (key, block) ∈ cache.entries →
    dirty key block.dirty = dirty' key block.dirty) : cache.remark dirty = cache.remark dirty' := by
  apply List.map_congr_left
  rintro ⟨key, block⟩ hmem
  simp only [h key block hmem]

/-- A block is found with its bytes and the new mark. -/
theorem find?_of_remark (h : after.entries = cache.remark dirty) (key : BlockRef) :
    after.find? key =
      (cache.find? key).map fun block => { block with dirty := dirty key block.dirty } := by
  simp only [find?, h, remark]
  induction cache.entries with
  | nil => rfl
  | cons entry rest ih =>
    obtain ⟨held, block⟩ := entry
    rw [List.map_cons, lookup_cons_eq_ite, lookup_cons_eq_ite, ih]
    split
    · next heq => rw [heq, Option.map_some]
    · rfl

/-- Changing marks leaves all keys where they are. -/
theorem keys_of_remark (h : after.entries = cache.remark dirty) : after.keys = cache.keys := by
  rw [keys, h, remark, List.map_map]
  rfl

/-- Changing marks leaves the bytes of all blocks alone. -/
theorem bytes_of_remark (h : after.entries = cache.remark dirty) (key : BlockRef) :
    after.bytes key = cache.bytes key := by
  rw [bytes, find?_of_remark h, bytes]
  cases cache.find? key <;> rfl

end BlockCache

/-! ## Attempts -/

/-- An attempt to write a block back, and what the codec answered. -/
structure Attempt where
  key : BlockRef
  answer : Except RasterError Unit

namespace Attempt

/-- The codec has stored the block. -/
def stored (attempt : Attempt) : Bool :=
  attempt.answer.isOk

/-- The failure as a flush lists it: the block, and the error with the block filled in. -/
def failure? (attempt : Attempt) : Option (BlockRef × RasterError) :=
  match attempt.answer with
  | .ok () => none
  | .error error => some (attempt.key, error.located attempt.key)

/-- The call of the codec: the block's bytes are those that the cache holds. -/
def event {κ : Type} (attempt : Attempt) (store : BlockStore (Observed κ)) : CodecEvent :=
  .encode (store.context attempt.key) (store.cache.bytes attempt.key) attempt.answer

end Attempt

/-- The failures among some attempts, in their order. -/
def failuresOf (attempts : List Attempt) : List (BlockRef × RasterError) :=
  attempts.filterMap Attempt.failure?

/-- Some attempt has stored the block. -/
def storedBy (attempts : List Attempt) (key : BlockRef) : Bool :=
  attempts.any fun attempt => attempt.key == key && attempt.stored

/-- Some attempt to store the block has failed. -/
def failedBy (attempts : List Attempt) (key : BlockRef) : Bool :=
  attempts.any fun attempt => attempt.key == key && !attempt.stored

/-- A block is stored by some attempts just if one of them was for it and succeeded. -/
theorem storedBy_eq_true_iff {attempts : List Attempt} {key : BlockRef} :
    storedBy attempts key = true ↔ ∃ attempt ∈ attempts, attempt.key = key ∧ attempt.stored := by
  simp [storedBy]

/-- A block has failed in some attempts just if one of them was for it and did not succeed. -/
theorem failedBy_eq_true_iff {attempts : List Attempt} {key : BlockRef} :
    failedBy attempts key = true ↔
      ∃ attempt ∈ attempts, attempt.key = key ∧ attempt.stored = false := by
  simp [failedBy]

/-- Of distinct attempts the one for a block has either stored it or failed. -/
theorem not_storedBy {attempts : List Attempt} (hnodup : (attempts.map (·.key)).Nodup)
    {key : BlockRef} (hmem : key ∈ attempts.map (·.key)) :
    (!storedBy attempts key) = failedBy attempts key := by
  obtain ⟨attempt, hattempt, rfl⟩ := List.mem_map.mp hmem
  -- every key was tried once, so that no other attempt speaks of this block
  have hunique {other : Attempt} (hother : other ∈ attempts) (hkey : other.key = attempt.key) :
      other = attempt :=
    List.inj_on_of_nodup_map hnodup hother hattempt hkey
  cases hstored : attempt.stored with
  | true =>
    have hby : storedBy attempts attempt.key = true :=
      storedBy_eq_true_iff.mpr ⟨attempt, hattempt, rfl, hstored⟩
    have hnot : ¬failedBy attempts attempt.key = true := by
      rw [failedBy_eq_true_iff]
      rintro ⟨other, hother, hkey, hfailed⟩
      rw [hunique hother hkey, hstored] at hfailed
      contradiction
    rw [hby, Bool.eq_false_of_not_eq_true hnot, Bool.not_true]
  | false =>
    have hby : failedBy attempts attempt.key = true :=
      failedBy_eq_true_iff.mpr ⟨attempt, hattempt, rfl, hstored⟩
    have hnot : ¬storedBy attempts attempt.key = true := by
      rw [storedBy_eq_true_iff]
      rintro ⟨other, hother, hkey, hother_stored⟩
      rw [hunique hother hkey, hstored] at hother_stored
      contradiction
    rw [hby, Bool.eq_false_of_not_eq_true hnot, Bool.not_false]

namespace BlockStore

variable {κ : Type} {first second third before store after : BlockStore (Observed κ)}

/-- What attempts to write blocks back make of a store: blocks that were stored are clean, and
    nothing else has changed but the log, the number of blocks encoded and the reports. -/
structure Attempted (before : BlockStore (Observed κ)) (attempts : List Attempt)
    (after : BlockStore (Observed κ)) : Prop where
  events : after.codec.events = before.codec.events ++ attempts.map (·.event before)
  entries : after.cache.entries =
    before.cache.remark fun key dirty => dirty && !storedBy attempts key
  capacity : after.cache.capacity = before.cache.capacity
  stats : after.cache.stats = { before.cache.stats with
    encodes := before.cache.stats.encodes + attempts.countP Attempt.stored }
  bands : after.bands = before.bands
  raster : after.raster = before.raster

/-- No attempts change nothing. -/
theorem Attempted.refl (store : BlockStore (Observed κ)) : Attempted store [] store := by
  refine ⟨(List.append_nil _).symm, ?_, rfl, rfl, rfl, rfl⟩
  simp [BlockCache.remark, storedBy]

/-- The blocks of later attempts have kept their bytes. -/
theorem Attempted.trans {attempt : Attempt} {attempts : List Attempt}
    (h : Attempted first [attempt] second) (h' : Attempted second attempts third) :
    Attempted first (attempt :: attempts) third := by
  -- an attempt only marks blocks clean, so that later attempts still see the bytes of `first`
  have hevent (other : Attempt) : other.event second = other.event first := by
    rw [Attempt.event, BlockCache.bytes_of_remark h.entries, context, descriptor, h.bands, h.raster]
    rfl
  refine ⟨?_, ?_, h'.capacity.trans h.capacity, ?_, h'.bands.trans h.bands,
    h'.raster.trans h.raster⟩
  · -- the events of the first attempt come before those of the rest
    rw [h'.events, h.events, List.append_assoc, List.map_congr_left fun other _ => hevent other]
    rfl
  · -- a block is clean after either marking if one of the two wrote it
    rw [h'.entries, BlockCache.remark, h.entries, BlockCache.remark, List.map_map]
    apply List.map_congr_left
    rintro ⟨key, block⟩ -
    simp only [Function.comp_apply, storedBy, List.any_cons, List.any_nil, Bool.or_false]
    rw [Bool.not_or, Bool.and_assoc]
  · -- the encodes and the failures add up
    rw [h'.stats, h.stats, List.countP_cons, List.countP_cons, List.countP_nil]
    simp only [CacheStats.mk.injEq, true_and, and_true]
    omega

variable [Codec κ]

/-- One block is attempted, and a failure is the answer. -/
private theorem ends_flushBlock_attempted {key : BlockRef} (hheld : key ∈ store.cache.keys) :
    (flushBlock key).Ends store
      (fun failures after => ∃ answer, failures = failuresOf [⟨key, answer⟩] ∧
        Attempted store [⟨key, answer⟩] after)
      (fun _ _ => False) := by
  obtain ⟨block, hfind⟩ := BlockCache.mem_keys_iff.mp hheld
  -- what the codec is given are the bytes that the cache holds
  have hbytes : store.cache.bytes key = block.data := by
    rw [BlockCache.bytes, hfind]
    rfl
  apply Ends.get_bind
  rw [hfind]
  apply Ends.bind
  apply Ends.attempt
  apply (ends_encode_called key block.data).mono
  · -- the block is clean now
    intro _ called hcalled
    have hothers := hcalled.others
    apply Ends.modify_bind
    refine ends_pure.mpr ⟨.ok (), rfl, ?_⟩
    refine ⟨?_, ?_, ?_, ?_, ?_, ?_⟩
    · -- one event, with the bytes that were held
      show called.codec.events = _
      rw [hcalled.events, ← hbytes]
      rfl
    · -- only this block is marked, and its bytes stay
      show (called.cache.markClean key).entries = _
      rw [hothers, BlockCache.markClean, BlockCache.remark]
      apply List.map_congr_left
      rintro ⟨held, block⟩ -
      simp only [storedBy, List.any_cons, List.any_nil, Attempt.stored, Except.isOk, Except.toBool,
        Bool.and_true, Bool.or_false]
      by_cases heq : held = key
      · simp [heq]
      · simp [heq, beq_false_of_ne (Ne.symm heq)]
    · rw [hothers]
      rfl
    · rw [hothers]
      rfl
    · rw [hothers]
    · rw [hothers]
  · -- the block stays as it is
    rintro error called ⟨raised, rfl, hcalled⟩
    have hothers := hcalled.others
    apply Ends.modify_bind
    refine ends_pure.mpr ⟨.error raised, rfl, ?_⟩
    refine ⟨?_, ?_, ?_, ?_, ?_, ?_⟩
    · -- one event, the same as if the encode had worked
      show called.codec.events = _
      rw [hcalled.events, ← hbytes]
      rfl
    · -- no block was stored, so that no mark changes
      show called.cache.entries = _
      rw [hothers, BlockCache.remark]
      simp [storedBy, Attempt.stored, Except.isOk, Except.toBool]
    · rw [hothers]
    · rw [hothers]
      rfl
    · rw [hothers]
    · rw [hothers]

/-- All blocks are attempted in their order, whatever becomes of the first ones. -/
private theorem ends_flushBlocks_attempted {keys : List BlockRef}
    (hheld : ∀ key ∈ keys, key ∈ store.cache.keys) :
    (flushBlocks keys).Ends store
      (fun failures after => ∃ attempts, attempts.map (·.key) = keys ∧
        failures = failuresOf attempts ∧ Attempted store attempts after)
      (fun _ _ => False) := by
  -- induction on the blocks still to write; whatever the first attempt answers, the rest is tried
  induction keys generalizing store with
  | nil => exact ends_pure.mpr ⟨[], rfl, rfl, .refl store⟩
  | cons key rest ih =>
    apply Ends.bind
    apply (ends_flushBlock_attempted (hheld key List.mem_cons_self)).imp
    rintro failed middle ⟨answer, rfl, hmiddle⟩
    -- marking a block clean takes none out of the cache
    have hheldRest : ∀ other ∈ rest, other ∈ middle.cache.keys := by
      rw [BlockCache.keys_of_remark hmiddle.entries]
      exact fun other hmem => hheld other (List.mem_cons_of_mem _ hmem)
    apply Ends.bind
    apply (ih hheldRest).imp
    rintro failedLater after ⟨attempts, rfl, rfl, hafter⟩
    refine ends_pure.mpr ⟨⟨key, answer⟩ :: attempts, rfl, ?_, hmiddle.trans hafter⟩
    exact List.filterMap_append.symm

/-! ## Flushes -/

omit [Codec κ] in
/-- What a flush of the selected blocks makes of a store, and what its outcome is. -/
structure WritesBack (before : BlockStore (Observed κ)) (selected : BlockRef → Bool)
    (attempts : List Attempt) (outcome : Except RasterError Unit)
    (after : BlockStore (Observed κ)) : Prop where
  /-- The selected blocks that are dirty are attempted, and no other ones. -/
  attempted : ∀ key, key ∈ attempts.map (·.key) ↔
    selected key = true ∧ ∃ block, before.cache.find? key = some block ∧ block.dirty = true
  /-- None of them is attempted twice, since their order is strict. -/
  ordered : (attempts.map (·.key)).Pairwise BlockRef.Before
  /-- The codec is asked to encode these blocks with the bytes that they have, and nothing else. -/
  events : after.codec.events = before.codec.events ++ attempts.map (·.event before)
  /-- All blocks keep their places and their bytes. A block is dirty if it was and was not selected
      or failed. -/
  entries : after.cache.entries = before.cache.remark fun key dirty =>
    dirty && (!selected key || failedBy attempts key)
  capacity : after.cache.capacity = before.cache.capacity
  stats : after.cache.stats = { before.cache.stats with
    encodes := before.cache.stats.encodes + attempts.countP Attempt.stored }
  bands : after.bands = before.bands
  raster : after.raster = before.raster
  /-- The failures are told together. -/
  outcome : outcome = if (failuresOf attempts).isEmpty then .ok ()
    else .error (.flushFailed (failuresOf attempts))

omit [Codec κ] in
/-- Attempts for all dirty blocks that are selected are what a flush does. -/
private theorem Attempted.writesBack {selected : BlockRef → Bool} {attempts : List Attempt}
    (hdistinct : before.cache.Distinct)
    (hkeys : attempts.map (·.key) = before.cache.dirtyKeys selected)
    (h : Attempted before attempts after) {outcome : Except RasterError Unit}
    (houtcome : outcome = if (failuresOf attempts).isEmpty then .ok ()
      else .error (.flushFailed (failuresOf attempts))) :
    WritesBack before selected attempts outcome after := by
  have hattempted (key : BlockRef) : key ∈ attempts.map (·.key) ↔
      selected key = true ∧ ∃ block, before.cache.find? key = some block ∧ block.dirty = true := by
    rw [hkeys]
    exact BlockCache.mem_dirtyKeys hdistinct
  have hnodup : (attempts.map (·.key)).Nodup := by
    rw [hkeys]
    exact BlockCache.nodup_dirtyKeys hdistinct selected
  -- left: the order of the attempts, and the cache after them
  refine ⟨hattempted, ?_, h.events, ?_, h.capacity, h.stats, h.bands, h.raster, houtcome⟩
  · rw [hkeys]
    exact BlockCache.pairwise_dirtyKeys hdistinct selected
  · -- only dirty blocks that were selected have an attempt, so that the mark of `Attempted` and the
    -- one of `WritesBack` agree on every block
    rw [h.entries]
    apply BlockCache.remark_congr
    intro key block hheld
    have hfind := (BlockCache.find?_eq_some_iff hdistinct).mpr hheld
    cases hdirty : block.dirty with
    | false => rfl
    | true =>
      cases hselected : selected key with
      | true =>
        rw [not_storedBy hnodup ((hattempted key).mpr ⟨hselected, block, hfind, hdirty⟩)]
        rfl
      | false =>
        -- no attempt was made for this block
        have hnot : ¬storedBy attempts key = true := by
          rw [storedBy_eq_true_iff]
          rintro ⟨attempt, hattempt, rfl, -⟩
          have hmem := (hattempted attempt.key).mp (List.mem_map_of_mem hattempt)
          rw [hselected] at hmem
          exact absurd hmem.1 Bool.false_ne_true
        rw [Bool.eq_false_of_not_eq_true hnot]
        rfl

/-- A flush makes an attempt for each dirty block that is selected, in order. -/
theorem ends_flushSelected_writes (hdistinct : store.cache.Distinct)
    (selected : BlockRef → Bool) :
    (flushSelected (κ := Observed κ) selected).Ends store
      (fun _ after => ∃ attempts, WritesBack store selected attempts (.ok ()) after)
      (fun error after => ∃ attempts, WritesBack store selected attempts (.error error) after) := by
  have hheld : ∀ key ∈ store.cache.dirtyKeys selected, key ∈ store.cache.keys := by
    intro key hmem
    obtain ⟨block, hfind, -⟩ := BlockCache.exists_of_mem_dirtyKeys hdistinct selected key hmem
    exact BlockCache.mem_keys_iff.mpr ⟨block, hfind⟩
  apply Ends.get_bind
  apply Ends.bind
  apply (ends_flushBlocks_attempted hheld).mono _ fun _ _ h => h.elim
  rintro _ after ⟨attempts, hkeys, rfl, hafter⟩
  apply Ends.ite
  · -- no failure is left, so that the flush returns
    exact fun hempty =>
      ends_pure.mpr ⟨attempts, hafter.writesBack hdistinct hkeys (if_pos hempty).symm⟩
  · -- the flush raises one error that names all the blocks that failed
    exact fun hsome =>
      ends_throw.mpr ⟨attempts, hafter.writesBack hdistinct hkeys (if_neg hsome).symm⟩

/-- Every flush, whether it succeeds or fails, is a list of attempts that write back the blocks
    selected. -/
theorem flushSelected_writes (hdistinct : store.cache.Distinct) (selected : BlockRef → Bool) :
    ∃ attempts, WritesBack store selected attempts ((flushSelected selected).run store).1
      ((flushSelected selected).run store).2 :=
  Ends.outcome (fun outcome after => ∃ attempts, WritesBack store selected attempts outcome after)
    (ends_flushSelected_writes hdistinct selected)

variable {selected : BlockRef → Bool} {attempts attempts' : List Attempt}
  {outcome outcome' : Except RasterError Unit}

omit [Codec κ] in
/-- Writing back gives no key a second entry. -/
theorem WritesBack.distinct (h : WritesBack before selected attempts outcome after)
    (hdistinct : before.cache.Distinct) : after.cache.Distinct := by
  rw [BlockCache.Distinct, BlockCache.keys_of_remark h.entries]
  exact hdistinct

omit [Codec κ] in
/-- A second flush makes the attempts that failed once more, and no other ones. -/
theorem WritesBack.again (h : WritesBack first selected attempts outcome second)
    (h' : WritesBack second selected attempts' outcome' third) :
    attempts'.map (·.key) = (attempts.filter (!·.stored)).map (·.key) := by
  -- both lists of keys ascend, so that it is enough that they have the same members
  have hsublist : ((attempts.filter (!·.stored)).map (·.key)).Sublist (attempts.map (·.key)) :=
    List.filter_sublist.map _
  refine BlockRef.eq_of_pairwise_before h'.ordered (h.ordered.sublist hsublist) fun key => ?_
  have hfailed : key ∈ (attempts.filter (!·.stored)).map (·.key) ↔
      failedBy attempts key = true := by
    rw [failedBy_eq_true_iff]
    simp only [List.mem_map, List.mem_filter, Bool.not_eq_true', and_assoc]
    exact exists_congr fun attempt => and_congr_right fun _ => and_comm
  rw [h'.attempted, hfailed]
  constructor
  · -- what is still dirty after the first flush is what it failed to store
    rintro ⟨hselected, block, hfind, hdirty⟩
    rw [BlockCache.find?_of_remark h.entries] at hfind
    obtain ⟨held, -, rfl⟩ := Option.map_eq_some_iff.mp hfind
    simpa [hselected] using (Bool.and_eq_true_iff.mp hdirty).2
  · intro hby
    -- the block was attempted, so that it was dirty and selected
    obtain ⟨attempt, hmem, rfl, -⟩ := failedBy_eq_true_iff.mp hby
    obtain ⟨hselected, block, hfind, hdirty⟩ :=
      (h.attempted attempt.key).mp (List.mem_map_of_mem hmem)
    have hafter := BlockCache.find?_of_remark h.entries attempt.key
    rw [hfind, Option.map_some] at hafter
    exact ⟨hselected, _, hafter, by simp [hdirty, hby]⟩

end BlockStore

end RasterStore
