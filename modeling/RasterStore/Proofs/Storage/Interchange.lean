import RasterStore.Proofs.Storage
import RasterStore.Proofs.Storage.Calls

/-!
# Memory and files are interchangeable

A file is kept by the system as bytes at offsets, together with a position from which the next read
or write goes on; a storage over it moves to an offset and then reads or writes there
(`OpenFile.answer`). Whatever is asked of a storage that can be written, within the offsets that
files have, its answers are those of such a file, whether the storage is one or is held in memory:

* `ends_perform`                one call is answered alike, and leaves the same bytes
* `holds_performAll`            so are whole runs
* `memory_and_files_alike`      what can and what cannot be seen of the difference
-/

namespace RasterStore

open ByteArray RasterStore.Action Storage

/-! ## Files of the system -/

/-- A file that the system has open: the bytes below its length, and the position at which it is
    read or written next. -/
structure OpenFile where
  length : Nat
  byte : Nat → UInt8
  position : Nat

namespace OpenFile

/-- Moves to an offset, which may lie behind the end. -/
def seek (offset : Nat) (file : OpenFile) : OpenFile :=
  { file with position := offset }

/-- Reads `count` bytes from the position on. The system leaves open where the position is after a
    read that met the end; it is wherever `stray` has it. -/
def readExact (stray : OpenFile → Nat) (count : Nat) (file : OpenFile) :
    Option ByteArray × OpenFile :=
  if file.position + count ≤ file.length then
    (some ((List.range count).map fun i => file.byte (file.position + i)).toByteArray,
      { file with position := file.position + count })
  else (none, { file with position := stray file })

/-- Writes at the position. If it is behind the end, the gap is filled with zeros. -/
def writeAll (data : ByteArray) (file : OpenFile) : OpenFile :=
  if data.size = 0 then file
  else
    { length := max file.length (file.position + data.size)
      byte := fun i =>
        if file.position ≤ i ∧ i < file.position + data.size then
          data.byteAt (i - file.position)
        else if i < file.length then file.byte i else 0
      position := file.position + data.size }

/-- Cuts off or extends by zeros. The position stays, also if it is behind the end then. -/
def setLength (length : Nat) (file : OpenFile) : OpenFile :=
  { file with
    length := length
    byte := fun i => if i < min length file.length then file.byte i else 0 }

/-- What a storage does with the file when it is called. There is no answer to a read that meets
    the end. -/
def answer (stray : OpenFile → Nat) : Call → OpenFile → Option Answer × OpenFile
  | .read offset count, file =>
    let (bytes, after) := (file.seek offset).readExact stray count
    (bytes.map .bytes, after)
  | .write offset data, file => (some .done, (file.seek offset).writeAll data)
  | .setLength length, file => (some .done, file.setLength length)
  | .flush, file => (some .done, file)
  | .getLength, file => (some (.length file.length), file)

/-- The file after some calls. -/
def answerAll (stray : OpenFile → Nat) (calls : List Call) (file : OpenFile) : OpenFile :=
  calls.foldl (fun reached call => (reached.answer stray call).2) file

/-- The file has these bytes, wherever its position is. -/
structure Holds (file : OpenFile) (bytes : ByteArray) : Prop where
  length : file.length = bytes.size
  byte : ∀ i, i < bytes.size → file.byte i = bytes.byteAt i

variable {file : OpenFile} {bytes : ByteArray}

/-- A file has one content. -/
theorem Holds.unique {other : ByteArray} (h : file.Holds bytes) (hother : file.Holds other) :
    bytes = other := by
  have hsize : bytes.size = other.size := h.length.symm.trans hother.length
  apply ext_byteAt hsize
  intro i hi
  rw [← h.byte i hi, hother.byte i (by omega)]

theorem Holds.seek (h : file.Holds bytes) (offset : Nat) : (file.seek offset).Holds bytes :=
  ⟨h.length, h.byte⟩

/-- The bytes that are read from the position on. -/
theorem readExact_of_inside (h : file.Holds bytes) {count : Nat}
    (stray : OpenFile → Nat) (hinside : file.position + count ≤ bytes.size) :
    (file.readExact stray count).1 = some (bytes.slice file.position count) := by
  -- the bytes that are read are those that the file has at the position
  have hbytes : ((List.range count).map fun i => file.byte (file.position + i)).toByteArray =
      bytes.slice file.position count := by
    apply ext_byteAt
    · simp [size_slice_of_le hinside]
    · intro i hi
      have hi : i < count := by simpa using hi
      rw [byteAt_slice, if_pos hi, ← h.byte _ (by omega), byteAt_of_lt (by simpa using hi)]
      simp [List.getElem_toByteArray]
  rw [readExact, h.length, if_pos hinside, hbytes]

/-- Reading behind the end fails, wherever it leaves the position. -/
theorem readExact_of_outside (h : file.Holds bytes) {count : Nat} (stray : OpenFile → Nat)
    (houtside : bytes.size < file.position + count) : (file.readExact stray count).1 = none := by
  rw [readExact, h.length, if_neg (by omega)]

/-- Reading changes no byte of the file, also where it fails. -/
theorem holds_readExact (h : file.Holds bytes) (stray : OpenFile → Nat) (count : Nat) :
    (file.readExact stray count).2.Holds bytes := by
  unfold readExact
  split
  · exact ⟨h.length, h.byte⟩
  · exact ⟨h.length, h.byte⟩

/-- Writing at the position is writing at that offset of the bytes. -/
theorem holds_writeAll (h : file.Holds bytes) {data : ByteArray} (hdata : 0 < data.size) :
    (file.writeAll data).Holds (written bytes file.position data) := by
  rw [writeAll, if_neg (by omega)]
  constructor
  · rw [size_written, h.length]
  · intro i _
    rw [byteAt_written]
    dsimp only
    -- the new bytes, the old ones, or a gap of zeros
    split
    · rfl
    · by_cases hi : i < bytes.size
      · rw [if_pos (by rwa [h.length]), h.byte i hi]
      · rw [if_neg (by rwa [h.length]), byteAt_of_le (by omega)]

/-- Resizing the file is resizing its bytes. -/
theorem holds_setLength (h : file.Holds bytes) (length : Nat) :
    (file.setLength length).Holds (resized bytes length) := by
  constructor
  · rw [size_resized]
    rfl
  · intro i hi
    rw [size_resized] at hi
    rw [byteAt_resized, if_pos hi]
    dsimp only [setLength]
    rw [h.length]
    -- old bytes stay, and new ones are zero
    by_cases hold : i < bytes.size
    · rw [if_pos (by omega), h.byte i hold]
    · rw [if_neg (by omega), byteAt_of_le (by omega)]

end OpenFile

/-! ## Storages and files -/

namespace Storage

/-- The call asks for something, and for nothing that reaches behind the offsets of files. -/
def Call.InRange : Call → Prop
  | .read offset count => 0 < count ∧ offset + count < offsetLimit
  | .write offset data => 0 < data.size ∧ offset + data.size < offsetLimit
  | .setLength length => length < offsetLimit
  | .flush | .getLength => True

instance : DecidablePred Call.InRange
  | .read offset count => inferInstanceAs (Decidable (0 < count ∧ offset + count < offsetLimit))
  | .write offset data =>
    inferInstanceAs (Decidable (0 < data.size ∧ offset + data.size < offsetLimit))
  | .setLength length => inferInstanceAs (Decidable (length < offsetLimit))
  | .flush | .getLength => inferInstanceAs (Decidable True)

/-- The call reads bytes behind the end. -/
def Call.ReadsBehind (storage : Storage) : Call → Prop
  | .read offset count => storage.length < offset + count
  | _ => False

variable {storage : Storage} {file : OpenFile} {stray : OpenFile → Nat} {call : Call}

/-- A call is answered as it is by a file with the same bytes, and leaves the same bytes. It fails
    if it reads behind the end, and only then; the storage stays as it is. -/
theorem ends_perform (husable : storage.Usable) (hfile : file.Holds storage.bytes)
    (stray : OpenFile → Nat) (hcall : call.InRange) :
    call.perform.Ends storage
      (fun reply after => (file.answer stray call).1 = some reply ∧ ¬call.ReadsBehind storage ∧
        (file.answer stray call).2.Holds after.bytes ∧ after.Usable)
      (fun error after => (file.answer stray call).1 = none ∧ call.ReadsBehind storage ∧
        (file.answer stray call).2.Holds after.bytes ∧ after = storage ∧
        ∃ reason, error = .io none reason) := by
  cases call with
  | read offset count =>
    -- seek and then read to the end of the count, or fail behind the end of the file
    have hsought := hfile.seek offset
    have hholds := OpenFile.holds_readExact hsought stray count
    apply Ends.get_bind
    by_cases hinside : offset + count ≤ storage.length
    · have hread := OpenFile.readExact_of_inside hsought stray hinside
      refine Ends.lift_bind (read_of_readable husable.readable hinside) (ends_pure.mpr ?_)
      exact ⟨congrArg (Option.map Answer.bytes) hread, Nat.not_lt.mpr hinside, hholds, husable⟩
    · have hread := OpenFile.readExact_of_outside hsought stray (Nat.not_le.mp hinside)
      obtain ⟨reason, hfailed⟩ := read_of_outside hcall.1 (Nat.not_le.mp hinside)
      refine Ends.of_lift_bind (fun value hvalue => ?_) (fun error herror => ?_)
      · rw [hfailed] at hvalue
        contradiction
      · rw [hfailed] at herror
        injection herror with herror
        exact ⟨congrArg (Option.map Answer.bytes) hread, Nat.not_le.mp hinside, hholds, rfl, reason,
          herror.symm⟩
  | write offset data =>
    -- in range, a write never reaches the limit
    apply Ends.bind
    apply (ends_write husable hcall.1).mono
    · rintro _ after ⟨rfl, husable⟩
      exact ends_pure.mpr
        ⟨rfl, id, OpenFile.holds_writeAll (hfile.seek offset) hcall.1, husable⟩
    · rintro _ after ⟨-, -, hlimit, -⟩
      exact absurd hcall.2 (Nat.not_lt.mpr hlimit)
  | setLength length =>
    apply Ends.bind
    apply (ends_setLength husable length).mono
    · rintro _ after ⟨rfl, husable⟩
      exact ends_pure.mpr ⟨rfl, id, OpenFile.holds_setLength hfile length, husable⟩
    · rintro _ after ⟨-, hlimit⟩
      exact absurd hcall (Nat.not_lt.mpr hlimit)
  | flush => exact ends_pure.mpr ⟨rfl, id, hfile, husable⟩
  | getLength =>
    have hlength : file.length = storage.length := hfile.length
    apply Ends.get_bind
    exact ends_pure.mpr ⟨by rw [OpenFile.answer, hlength], id, hfile, husable⟩

/-- After any calls a storage has the bytes of the file that got the same calls. -/
theorem holds_performAll (husable : storage.Usable) (hfile : file.Holds storage.bytes)
    (stray : OpenFile → Nat) {calls : List Call} (hcalls : ∀ call ∈ calls, call.InRange) :
    (performAll calls storage).Usable ∧
      (file.answerAll stray calls).Holds (performAll calls storage).bytes := by
  induction calls generalizing storage file with
  | nil => exact ⟨husable, hfile⟩
  | cons call rest ih =>
    -- whatever the answer, the file holds the bytes of the storage
    have hends : call.perform.Ends storage
        (fun _ after => after.Usable ∧ (file.answer stray call).2.Holds after.bytes)
        (fun _ after => after.Usable ∧ (file.answer stray call).2.Holds after.bytes) := by
      apply (ends_perform husable hfile stray (hcalls call List.mem_cons_self)).mono
      · rintro reply after ⟨-, -, hholds, hafter⟩
        exact ⟨hafter, hholds⟩
      · rintro error after ⟨-, -, hholds, rfl, -⟩
        exact ⟨husable, hholds⟩
    obtain ⟨hafter, hholds⟩ := hends.reached
    exact ih hafter hholds fun call hmem => hcalls call (List.mem_cons_of_mem _ hmem)

/-- How a call ends: with the file's answer, or as a read that reaches behind the end. -/
theorem outcome_perform (husable : storage.Usable) (hfile : file.Holds storage.bytes)
    (stray : OpenFile → Nat) (hcall : call.InRange) :
    (∃ reply, (call.perform.run storage).1 = .ok reply ∧
      (file.answer stray call).1 = some reply ∧ ¬call.ReadsBehind storage) ∨
    (∃ reason, call.perform.run storage = (.error (.io none reason), storage) ∧
      (file.answer stray call).1 = none ∧ call.ReadsBehind storage) := by
  have hends := ends_perform husable hfile stray hcall
  -- the file answers as the storage does, in both cases
  cases hrun : call.perform.run storage with
  | mk outcome after =>
    cases outcome with
    | ok reply =>
      obtain ⟨hanswer, hinside, -, -⟩ := hends.of_ok hrun
      exact .inl ⟨reply, rfl, hanswer, hinside⟩
    | error error =>
      obtain ⟨hanswer, hbehind, -, rfl, reason, rfl⟩ := hends.of_error hrun
      exact .inr ⟨reason, rfl, hanswer, hbehind⟩

/-- Two storages give the same answer, or both fail as storage does. -/
inductive Agree : Except RasterError Answer → Except RasterError Answer → Prop
  | answered (reply : Answer) : Agree (.ok reply) (.ok reply)
  | failed (reason reason' : String) : Agree (.error (.io none reason)) (.error (.io none reason'))

/-- Two storages that have the bytes of one file agree on every call. -/
theorem agree_perform {other : Storage} (husable : storage.Usable) (hother : other.Usable)
    (hfile : file.Holds storage.bytes) (hfile' : file.Holds other.bytes) (hcall : call.InRange) :
    Agree (call.perform.run storage).1 (call.perform.run other).1 := by
  -- where the system leaves its position does not matter
  have houtcome := outcome_perform husable hfile (fun _ => 0) hcall
  have houtcome' := outcome_perform hother hfile' (fun _ => 0) hcall
  -- both end as the file of the system does
  obtain ⟨reply, hrun, hanswer, -⟩ | ⟨reason, hrun, hanswer, -⟩ := houtcome
  · obtain ⟨reply', hrun', hanswer', -⟩ | ⟨-, -, hanswer', -⟩ := houtcome'
    · rw [hanswer, Option.some.injEq] at hanswer'
      rw [hrun, hrun', hanswer']
      exact .answered reply'
    · rw [hanswer] at hanswer'
      contradiction
  · obtain ⟨reply', -, hanswer', -⟩ | ⟨reason', hrun', -, -⟩ := houtcome'
    · rw [hanswer] at hanswer'
      contradiction
    · rw [hrun, hrun']
      exact .failed reason reason'

/-- A call fails exactly if it reads behind the end, and the storage stays as it is then. -/
theorem perform_fails_iff (husable : storage.Usable) (hfile : file.Holds storage.bytes)
    (hcall : call.InRange) :
    ((∃ error, (call.perform.run storage).1 = .error error) ↔ call.ReadsBehind storage) ∧
      (call.ReadsBehind storage → (call.perform.run storage).2 = storage) := by
  obtain ⟨reply, hrun, -, hinside⟩ | ⟨reason, hrun, -, hbehind⟩ :=
    outcome_perform husable hfile (fun _ => 0) hcall
  · rw [hrun]
    exact ⟨by simp [hinside], fun hbehind => absurd hbehind hinside⟩
  · rw [hrun]
    exact ⟨by simp [hbehind], fun _ => rfl⟩

end Storage

/-- Memory and a file that begin with the same bytes and get the same calls, none of them empty or
    behind the offsets that files have, cannot be told apart: they keep the same bytes, which are
    those of the system's file as well, and answer alike. A read fails if it reaches behind the
    end, and leaves everything as it is; nothing else fails. The length they begin with is below
    the limit of offsets, which holds of all memory and all files. -/
theorem memory_and_files_alike (path : String) {bytes : ByteArray}
    (hlength : bytes.size < offsetLimit) {file : OpenFile} (hfile : file.Holds bytes)
    (stray : OpenFile → Nat) {calls : List Call} (hcalls : ∀ call ∈ calls, call.InRange)
    {next : Call} (hnext : next.InRange) :
    let memory := performAll calls ⟨.memory, bytes, true⟩
    let stored := performAll calls ⟨.file path, bytes, true⟩
    let opened := file.answerAll stray calls
    memory.bytes = stored.bytes ∧ opened.Holds stored.bytes ∧
    memory.isEmpty = (opened.length == 0) ∧ stored.isEmpty = (opened.length == 0) ∧
    Agree (next.perform.run memory).1 (next.perform.run stored).1 ∧
    (next.perform.run stored).1.toOption = (opened.answer stray next).1 ∧
    ((∃ error, (next.perform.run memory).1 = .error error) ↔ next.ReadsBehind memory) ∧
    (next.ReadsBehind memory →
      (next.perform.run memory).2 = memory ∧ (next.perform.run stored).2 = stored) := by
  intro memory stored opened
  have hinMemory : Usable ⟨.memory, bytes, true⟩ := ⟨trivial, rfl⟩
  have hinFile : Usable ⟨.file path, bytes, true⟩ := ⟨hlength, rfl⟩
  obtain ⟨hmemory, hholds⟩ : memory.Usable ∧ opened.Holds memory.bytes :=
    holds_performAll hinMemory hfile stray hcalls
  obtain ⟨hstored, hholds'⟩ : stored.Usable ∧ opened.Holds stored.bytes :=
    holds_performAll hinFile hfile stray hcalls
  have hbytes := hholds.unique hholds'
  obtain ⟨hfails, hkept⟩ := perform_fails_iff hmemory hholds hnext
  obtain ⟨-, hkept'⟩ := perform_fails_iff hstored hholds' hnext
  refine ⟨hbytes, hholds', ?_, ?_, agree_perform hmemory hstored hholds hholds' hnext, ?_, hfails,
    fun hbehind => ⟨hkept hbehind, hkept' ?_⟩⟩
  · rw [hholds.length, Storage.isEmpty, Storage.length]
  · rw [hholds'.length, Storage.isEmpty, Storage.length]
  · -- the answer is that of the file
    obtain ⟨reply, hrun, hanswer, -⟩ | ⟨reason, hrun, hanswer, -⟩ :=
      outcome_perform hstored hholds' stray hnext
    · rw [hrun, hanswer]
      rfl
    · rw [hrun, hanswer]
      rfl
  · -- both storages end at the same place
    have hlength : memory.length = stored.length := congrArg ByteArray.size hbytes
    cases next with
    | read offset count => exact Nat.lt_of_le_of_lt (Nat.le_of_eq hlength.symm) hbehind
    | _ => exact hbehind.elim

/-- A byte is written behind the end, cut off again together with the gap before it, and the bytes
    that take their place are zeros. -/
theorem memory_and_files_alike_regrown :
    let calls : List Call := [.write 5 ⟨#[9]⟩, .setLength 2, .setLength 4]
    let memory := performAll calls ⟨.memory, ⟨#[1, 2, 3]⟩, true⟩
    let stored := performAll calls ⟨.file "a", ⟨#[1, 2, 3]⟩, true⟩
    memory.bytes = stored.bytes ∧ stored.bytes = ⟨#[1, 2, 0, 0]⟩ ∧
    Agree ((Call.read 0 4).perform.run memory).1 ((Call.read 0 4).perform.run stored).1 := by
  intro calls memory stored
  -- the position is left somewhere behind the end
  let file : OpenFile := ⟨3, fun i => (⟨#[1, 2, 3]⟩ : ByteArray).byteAt i, 7⟩
  have hfile : file.Holds ⟨#[1, 2, 3]⟩ := ⟨rfl, fun _ _ => rfl⟩
  have hcalls : ∀ call ∈ calls, call.InRange := by decide
  have hnext : (Call.read 0 4).InRange := by decide
  obtain ⟨hbytes, -, -, -, hagree, -⟩ :=
    memory_and_files_alike "a" (by decide) hfile OpenFile.position hcalls hnext
  exact ⟨hbytes, by decide +kernel, hagree⟩

end RasterStore
