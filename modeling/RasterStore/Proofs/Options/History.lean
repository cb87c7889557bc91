import Mathlib.Data.List.Induction
import RasterStore.OptionList

/-!
# Options after any calls

An option list is what is left of the calls that set its options. Calls with a name or a value that
is not `Acceptable` are refused and leave no trace; of the others, the list keeps each name in the
spelling of its first use (`firstSpellings`) with the value of its last use (`lastValue`).

* `set_eq_ok_iff`        which calls are accepted
* `names_put`, `get?_put`  what an accepted call does to the names and to the values
* `attemptAll_eq`        refused calls leave no trace
* `names_putAll`, `get?_putAll`  what the accepted ones leave
* `options_are_ordered_map`  everything that can be seen of a list
-/

namespace RasterStore.OptionList

/-! ## Calls -/

/-- An ASCII letter, a digit or the underscore. -/
def IsWordChar (c : Char) : Prop :=
  ('a' ≤ c ∧ c ≤ 'z') ∨ ('A' ≤ c ∧ c ≤ 'Z') ∨ ('0' ≤ c ∧ c ≤ '9') ∨ c = '_'

/-- A name in ASCII letters, digits and underscores, and a value of one line. -/
structure Acceptable (call : String × String) : Prop where
  nonempty : call.1.toList ≠ []
  name : ∀ c ∈ call.1.toList, IsWordChar c
  value : '\n' ∉ call.2.toList ∧ '\r' ∉ call.2.toList

variable {options next : OptionList} {name value key : String}
  {call : String × String} {calls entries : List (String × String)}

/-- The characters of a name are letters, digits and the underscore. -/
theorem isNameChar_iff {c : Char} : isNameChar c = true ↔ IsWordChar c := by
  -- letters and digits are ranges of code points, as are the bounds on the right
  show (((decide (c.val ≥ 'A'.val ∧ c.val ≤ 'Z'.val) ||
    (decide (c.val ≥ 'a'.val) && decide (c.val ≤ 'z'.val))) ||
    (decide (c.val ≥ '0'.val) && decide (c.val ≤ '9'.val))) || c == '_') = true ↔ _
  simp only [IsWordChar, Bool.or_eq_true, Bool.and_eq_true, decide_eq_true_eq, beq_iff_eq,
    ge_iff_le, Char.le_def]
  grind

/-- A name has some characters, and all are those of names. -/
theorem isName_iff :
    isName name = true ↔ name.toList ≠ [] ∧ ∀ c ∈ name.toList, IsWordChar c := by
  simp only [isName, Bool.and_eq_true, List.all_eq_true, isNameChar_iff]
  simp

/-- A value is any text on one line. -/
theorem isValue_iff : isValue value = true ↔ '\n' ∉ value.toList ∧ '\r' ∉ value.toList := by
  simp only [isValue, Bool.not_eq_true', List.any_eq_false, Bool.or_eq_true, beq_iff_eq, not_or]
  grind

/-- The two checks of a call decide whether it is acceptable. -/
theorem acceptable_iff : Acceptable call ↔ isName call.1 = true ∧ isValue call.2 = true := by
  rw [isName_iff, isValue_iff]
  constructor
  · intro hcall
    exact ⟨⟨hcall.nonempty, hcall.name⟩, hcall.value⟩
  · intro ⟨⟨hnonempty, hname⟩, hvalue⟩
    exact ⟨hnonempty, hname, hvalue⟩

instance : DecidablePred Acceptable :=
  fun _ => decidable_of_iff _ acceptable_iff.symm

/-- A call is accepted for what it holds, whatever the list holds. -/
theorem set_eq_ok_iff : options.set name value = .ok next ↔
    Acceptable (name, value) ∧ next = ⟨put name value options.entries⟩ := by
  simp only [set, acceptable_iff]
  cases isName name <;> cases isValue value <;> simp [eq_comm]

/-- A call that is not acceptable is refused with a reason. -/
theorem set_refused (hcall : ¬Acceptable call) :
    ∃ reason, options.set call.1 call.2 = .error (.badArgument reason) := by
  rw [acceptable_iff] at hcall
  unfold set
  split
  · exact ⟨_, rfl⟩
  · split
    · exact ⟨_, rfl⟩
    · simp_all

/-- The list after a call. A refused call leaves it as it was. -/
def attempt (options : OptionList) (call : String × String) : OptionList :=
  match options.set call.1 call.2 with
  | .ok next => next
  | .error _ => options

/-- The list after any calls, accepted or refused. -/
def attemptAll (options : OptionList) (calls : List (String × String)) : OptionList :=
  calls.foldl attempt options

/-- An acceptable call puts its value under its name. -/
theorem attempt_acceptable (hcall : Acceptable call) :
    options.attempt call = ⟨put call.1 call.2 options.entries⟩ := by
  simp [attempt, set_eq_ok_iff.mpr ⟨hcall, rfl⟩]

/-- A call that is refused leaves the list as it is. -/
theorem attempt_refused (hcall : ¬Acceptable call) : options.attempt call = options := by
  unfold attempt
  split
  · next next hset => exact absurd (set_eq_ok_iff.mp hset).1 hcall
  · rfl

/-! ## What calls say -/

/-- The accepted calls. -/
def accepted (calls : List (String × String)) : List (String × String) :=
  calls.filter Acceptable

/-- The names of the calls in the order of their first use, spelled as there. -/
def firstSpellings (calls : List (String × String)) : List String :=
  (calls.map (·.1)).eraseDupsBy sameName

/-- The value of the last call with this name. -/
def lastValue (calls : List (String × String)) (name : String) : Option String :=
  (calls.filter fun call => sameName call.1 name).getLast?.map (·.2)

/-- A last element is kept just if none like it came before. -/
theorem eraseDupsBy_loop_concat {α : Type} (same : α → α → Bool) (x : α) (xs seen : List α) :
    List.eraseDupsBy.loop same (xs ++ [x]) seen =
      if (List.eraseDupsBy.loop same xs seen).any (same x) then List.eraseDupsBy.loop same xs seen
      else List.eraseDupsBy.loop same xs seen ++ [x] := by
  induction xs generalizing seen with
  | nil => cases h : seen.any (same x) <;> simp [List.eraseDupsBy.loop, h]
  | cons y ys ih => cases h : seen.any (same y) <;> simp [List.eraseDupsBy.loop, h, ih]

/-- One more call adds its name, unless that was used before. -/
theorem firstSpellings_concat : firstSpellings (calls ++ [call]) =
    if (firstSpellings calls).any (sameName call.1) then firstSpellings calls
    else firstSpellings calls ++ [call.1] := by
  simp [firstSpellings, List.eraseDupsBy, eraseDupsBy_loop_concat]

/-- One more call decides on the value of its name. -/
theorem lastValue_concat : lastValue (calls ++ [call]) key =
    if sameName call.1 key then some call.2 else lastValue calls key := by
  cases h : sameName call.1 key <;> simp [lastValue, h]

/-- A key has no last value just if no call was for it. -/
theorem lastValue_eq_none_iff :
    lastValue calls key = none ↔ ∀ call ∈ calls, sameName call.1 key = false := by
  simp [lastValue]

/-- Each name is among the first spellings once, in whatever case. -/
theorem pairwise_firstSpellings (calls : List (String × String)) :
    (firstSpellings calls).Pairwise fun first second => sameName first second = false := by
  -- from the right, as the list grows: the induction step is one more call
  induction calls using List.reverseRecOn with
  | nil => simp [firstSpellings]
  | append_singleton calls call ih =>
    rw [firstSpellings_concat]
    split
    · exact ih
    · next hnew =>
      rw [List.pairwise_append]
      refine ⟨ih, by simp, fun earlier hearlier last hlast => ?_⟩
      rw [List.mem_singleton.mp hlast, sameName_comm]
      simp only [List.any_eq_true, not_exists, not_and, Bool.not_eq_true] at hnew
      exact hnew earlier hearlier

/-! ## What one call does -/

/-- The name comes to the end, unless the list has it. -/
theorem names_put : (put name value entries).map (·.1) =
    if (entries.map (·.1)).any (sameName name) then entries.map (·.1)
    else entries.map (·.1) ++ [name] := by
  induction entries with
  | nil => simp [put]
  | cons entry rest ih =>
    -- the entry has the name already, or the value goes further down
    cases h : sameName entry.1 name with
    | true => simp [put, h, sameName_comm name]
    | false =>
      simp only [put, h, sameName_comm name entry.1, Bool.false_eq_true, if_false, List.map_cons,
        ih, List.any_cons, Bool.false_or]
      split <;> simp

/-- The value is found under the name in any case, and the other names keep theirs. -/
theorem get?_put : get? ⟨put name value entries⟩ key =
    if sameName name key then some value else get? ⟨entries⟩ key := by
  induction entries with
  | nil => cases h : sameName name key <;> simp [get?, put, h]
  | cons entry rest ih =>
    simp only [get?] at ih ⊢
    cases hname : sameName entry.1 name with
    | true =>
      -- the entry's spelling and the call's are found by the same keys
      have hkey : sameName entry.1 key = sameName name key := by
        simp only [sameName, sameName_iff.mp hname]
      cases h : sameName name key <;> simp [put, hname, hkey, h]
    | false =>
      cases hkey : sameName entry.1 key with
      | true =>
        have hother : sameName name key = false := by
          rw [sameName_comm, sameName, ← sameName_iff.mp hkey]
          exact hname
        simp [put, hname, hkey, hother]
      | false => simp [put, hname, hkey, ih]

/-- An entry that is new or has a new value is acceptable as the call was. -/
theorem acceptable_put (hcall : Acceptable (name, value))
    (hentries : ∀ entry ∈ entries, Acceptable entry) :
    ∀ entry ∈ put name value entries, Acceptable entry := by
  induction entries with
  | nil => simpa [put] using hcall
  | cons entry rest ih =>
    rw [List.forall_mem_cons] at hentries
    unfold put
    split
    · -- the name stays, and the value is the new one
      rw [List.forall_mem_cons]
      exact ⟨⟨hentries.1.nonempty, hentries.1.name, hcall.value⟩, hentries.2⟩
    · rw [List.forall_mem_cons]
      exact ⟨hentries.1, ih hentries.2⟩

/-! ## What any calls leave -/

/-- The entries after each of these options was set. -/
def putAll (calls entries : List (String × String)) : List (String × String) :=
  calls.foldl (fun reached call => put call.1 call.2 reached) entries

/-- The last call comes on top of those before it. -/
theorem putAll_concat :
    putAll (calls ++ [call]) entries = put call.1 call.2 (putAll calls entries) := by
  simp [putAll]

/-- Of any calls, only the accepted ones count. -/
theorem attemptAll_eq : options.attemptAll calls = ⟨putAll (accepted calls) options.entries⟩ := by
  induction calls generalizing options with
  | nil => rfl
  | cons call rest ih =>
    show (options.attempt call).attemptAll rest = _
    rw [ih]
    by_cases hcall : Acceptable call
    · simp [accepted, putAll, hcall, attempt_acceptable hcall]
    · simp [accepted, hcall, attempt_refused hcall]

/-- The calls that were refused might as well not have been made. -/
theorem attemptAll_accepted : options.attemptAll (accepted calls) = options.attemptAll calls := by
  simp [attemptAll_eq, accepted]

/-- The names of the list are those of the calls in their first spelling, oldest first. -/
theorem names_putAll : (putAll calls []).map (·.1) = firstSpellings calls := by
  induction calls using List.reverseRecOn with
  | nil => rfl
  | append_singleton calls call ih => rw [putAll_concat, names_put, ih, firstSpellings_concat]

/-- The value that is found for a key is the one that was put last. -/
theorem get?_putAll : get? ⟨putAll calls []⟩ key = lastValue calls key := by
  induction calls using List.reverseRecOn with
  | nil => rfl
  | append_singleton calls call ih => rw [putAll_concat, get?_put, ih, lastValue_concat]

/-- All that is in the list could be set. -/
theorem acceptable_putAll (hcalls : ∀ call ∈ calls, Acceptable call)
    (hentries : ∀ entry ∈ entries, Acceptable entry) :
    ∀ entry ∈ putAll calls entries, Acceptable entry := by
  induction calls generalizing entries with
  | nil => exact hentries
  | cons call rest ih =>
    rw [List.forall_mem_cons] at hcalls
    exact ih hcalls.2 (acceptable_put hcalls.1 hentries)

/-- No two entries of the list have the same name, in whatever case. -/
theorem pairwise_putAll : (putAll calls []).Pairwise
    fun first second => sameName first.1 second.1 = false := by
  have hnames := pairwise_firstSpellings calls
  rwa [← names_putAll, List.pairwise_map] at hnames

/-- With each name once, an entry is found under its own name. -/
theorem get?_of_mem {entry : String × String} (hentry : entry ∈ options.entries)
    (hdistinct : options.entries.Pairwise fun first second => sameName first.1 second.1 = false) :
    options.get? entry.1 = some entry.2 := by
  obtain ⟨entries⟩ := options
  induction entries with
  | nil => simp at hentry
  | cons first rest ih =>
    rw [List.pairwise_cons] at hdistinct
    cases List.mem_cons.mp hentry with
    | inl heq => simp [get?, heq]
    | inr hrest =>
      -- the first entry has another name
      have hother := hdistinct.1 entry hrest
      simpa [get?, hother] using ih hrest hdistinct.2

/-- Setting options one after the other gives a list only if all of them are acceptable. -/
theorem setAll_eq_ok_iff {pairs : List (String × String)} : options.setAll pairs = .ok next ↔
    (∀ pair ∈ pairs, Acceptable pair) ∧ next = options.attemptAll pairs := by
  induction pairs generalizing options with
  | nil => simp [setAll, attemptAll, eq_comm]
  | cons pair rest ih =>
    show (options.set pair.1 pair.2 >>= fun changed => changed.setAll rest) = .ok next ↔ _
    rw [List.forall_mem_cons]
    by_cases hpair : Acceptable pair
    · rw [set_eq_ok_iff.mpr ⟨hpair, rfl⟩]
      show OptionList.setAll _ rest = .ok next ↔ _
      simp [ih, hpair, attemptAll, attempt_acceptable hpair]
    · -- the first refused option ends it
      obtain ⟨reason, hset⟩ := set_refused hpair
      rw [hset]
      show Except.error _ = .ok next ↔ _
      simp [hpair]

/-- A list is what these calls, all of them accepted, leave of the empty one. -/
structure Records (options : OptionList) (calls : List (String × String)) : Prop where
  /-- Each name is there once, in one spelling. -/
  distinct : options.entries.Pairwise fun first second => sameName first.1 second.1 = false
  acceptable : ∀ entry ∈ options.entries, Acceptable entry
  names : options.entries.map (·.1) = firstSpellings calls
  values : ∀ entry ∈ options.entries, lastValue calls entry.1 = some entry.2
  lookup : ∀ key, options.get? key = lastValue calls key
  absent : ∀ key, options.get? key = none ↔ ∀ call ∈ calls, sameName call.1 key = false
  anyCase : ∀ key other, sameName key other = true → options.get? key = options.get? other

/-- The list that acceptable calls build is a record of them. -/
theorem records_putAll (hcalls : ∀ call ∈ calls, Acceptable call) :
    Records ⟨putAll calls []⟩ calls where
  distinct := pairwise_putAll
  acceptable := acceptable_putAll hcalls (by simp)
  names := names_putAll
  values := by
    intro entry hentry
    rw [← get?_putAll]
    exact get?_of_mem hentry pairwise_putAll
  lookup := fun _ => get?_putAll
  absent := by
    intro key
    rw [get?_putAll, lastValue_eq_none_iff]
  anyCase := by
    intro key other hkey
    simp only [get?, sameName, sameName_iff.mp hkey]

/-- After any calls, accepted or refused, an option list records the accepted ones in order: each
    name once, in its first spelling, with its last value, which is found under the name in any
    case. What a call holds decides whether it is accepted, and a refused one changes nothing. A
    list of options that come together is the list of setting them one after the other; there is
    one exactly if all of them are acceptable. -/
theorem options_are_ordered_map (calls : List (String × String)) :
    (attemptAll {} calls).Records (accepted calls) ∧
    attemptAll {} calls = attemptAll {} (accepted calls) ∧
    (∀ (options : OptionList) (call : String × String), Acceptable call →
      options.set call.1 call.2 = .ok (options.attempt call)) ∧
    (∀ (options : OptionList) (call : String × String), ¬Acceptable call →
      options.attempt call = options ∧
        ∃ reason, options.set call.1 call.2 = .error (.badArgument reason)) ∧
    (∀ list, ofPairs calls = .ok list ↔
      (∀ call ∈ calls, Acceptable call) ∧ list = attemptAll {} calls) := by
  refine ⟨?records, attemptAll_accepted.symm, ?accepts, ?refuses, ?pairs⟩
  case records =>
    rw [attemptAll_eq]
    exact records_putAll (by simp [accepted])
  case accepts =>
    intro options call hcall
    exact set_eq_ok_iff.mpr ⟨hcall, attempt_acceptable hcall⟩
  case refuses =>
    intro options call hcall
    exact ⟨attempt_refused hcall, set_refused hcall⟩
  case pairs =>
    intro list
    exact setAll_eq_ok_iff

example : (attemptAll {} [("One", "1"), ("TWO", "2"), ("t-o", "4"), ("one", "3")]).entries =
    [("One", "3"), ("TWO", "2")] := by decide

end RasterStore.OptionList
