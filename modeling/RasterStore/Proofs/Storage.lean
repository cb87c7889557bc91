import RasterStore.Storage
import RasterStore.Proofs.Action.Keeps
import RasterStore.Proofs.Bytes.Pieces

/-!
# Reading and writing storage

What a storage in memory and an open file have in common: a range inside a `Storage.Readable` one
can be read, and a `Storage.Usable` one refuses a write only if the write reaches behind its end.
-/

namespace RasterStore.Storage

open ByteArray RasterStore.Action

/-- The bytes that the storage has can be read. -/
def Readable (storage : Storage) : Prop :=
  match storage.medium with
  | .memory => True
  | .file _ => storage.length < offsetLimit
  | .directory _ => False

/-- The bytes of the storage can be read and changed. -/
structure Usable (storage : Storage) : Prop where
  readable : storage.Readable
  writable : storage.writable = true

variable {storage : Storage} {offset : Nat} {data : ByteArray}

/-- Files are shorter than the limit of their offsets. -/
theorem Readable.length_lt (h : storage.Readable) (hmedium : storage.medium ≠ .memory) :
    storage.length < offsetLimit := by
  obtain ⟨medium, bytes, writable⟩ := storage
  cases medium with
  | memory => exact absurd rfl hmedium
  | file path => exact h
  | directory path => exact h.elim

/-- Bytes inside a storage are read as they are. -/
theorem read_of_readable {count : Nat} (h : storage.Readable)
    (hinside : offset + count ≤ storage.length) :
    storage.read offset count = .ok (storage.bytes.slice offset count) := by
  obtain ⟨medium, bytes, writable⟩ := storage
  cases medium with
  | memory => exact if_pos hinside
  | file path =>
    -- a file of a length below the limit refuses no read inside
    have hlimit : ¬offsetLimit ≤ offset + count := fun hle =>
      absurd h (Nat.not_lt.mpr (Nat.le_trans hle hinside))
    simp only [read]
    rw [if_neg hlimit, if_pos hinside]
    split
    · next hzero =>
      subst hzero
      rw [Except.ok.injEq]
      exact (ByteArray.size_eq_zero_iff.mp (by simp)).symm
    · rfl
  | directory path => exact h.elim

/-- Bytes behind the end cannot be read. -/
theorem read_of_outside {count : Nat} (hcount : 0 < count)
    (h : storage.length < offset + count) :
    ∃ reason, storage.read offset count = .error (.io none reason) := by
  obtain ⟨medium, bytes, writable⟩ := storage
  have houtside : ¬offset + count ≤ (⟨medium, bytes, writable⟩ : Storage).length := by omega
  cases medium with
  | memory => exact ⟨_, if_neg houtside⟩
  | file path =>
    simp only [read]
    -- a read of no bytes would succeed
    rw [if_neg (by omega : ¬count = 0), if_neg houtside]
    split
    · exact ⟨_, rfl⟩
    · exact ⟨_, rfl⟩
  | directory path => exact ⟨_, rfl⟩

/-- What is read are bytes of the storage, or it fails as storage does. -/
theorem read_cases (storage : Storage) (offset : Nat) {count : Nat} (hcount : 0 < count) :
    (storage.read offset count = .ok (storage.bytes.slice offset count) ∧
        offset + count ≤ storage.length) ∨
      ∃ reason, storage.read offset count = .error (.io none reason) := by
  by_cases hinside : offset + count ≤ storage.length
  · obtain ⟨medium, bytes, writable⟩ := storage
    cases medium with
    | memory => exact .inl ⟨if_pos hinside, hinside⟩
    | file path =>
      simp only [read]
      rw [if_neg (by omega : ¬count = 0), if_pos hinside]
      split
      · exact .inr ⟨_, rfl⟩
      · exact .inl ⟨rfl, hinside⟩
    | directory path => exact .inr ⟨_, rfl⟩
  · exact .inr (read_of_outside hcount (by omega))

/-! ## The bytes after a write -/

/-- Bytes that are extended have the new length, unless they were longer. -/
theorem size_extended (bytes : ByteArray) (length : Nat) :
    (extended bytes length).size = max bytes.size length := by
  unfold extended
  split
  · simp only [size_append, size_zeros]
    omega
  · omega

/-- Bytes that are written make the whole longer if they end behind it. -/
theorem size_written (bytes : ByteArray) (offset : Nat) (data : ByteArray) :
    (written bytes offset data).size = max bytes.size (offset + data.size) := by
  rw [written, size_overwrite (by rw [size_extended]; omega), size_extended]

/-- Bytes that are written inside replace those that are there. -/
theorem written_of_inside {bytes : ByteArray} (h : offset + data.size ≤ bytes.size) :
    written bytes offset data = bytes.overwrite offset data := by
  rw [written, extended, if_neg (by omega)]

/-- Zeros behind the end are no news to `byteAt`. -/
theorem byteAt_extended (bytes : ByteArray) (length i : Nat) :
    (extended bytes length).byteAt i = bytes.byteAt i := by
  unfold extended
  split
  · rw [byteAt_append, byteAt_zeros]
    split
    · rfl
    · rw [byteAt_of_le (by omega)]
  · rfl

/-- A byte is the new one where data was written, and the old one elsewhere. -/
theorem byteAt_written (bytes : ByteArray) (offset : Nat) (data : ByteArray) (i : Nat) :
    (written bytes offset data).byteAt i =
      if offset ≤ i ∧ i < offset + data.size then data.byteAt (i - offset)
      else bytes.byteAt i := by
  have hinside : offset + data.size ≤ (extended bytes (offset + data.size)).size := by
    rw [size_extended]
    omega
  rw [written, byteAt_overwrite hinside, byteAt_extended]

/-- Bytes that are written at the end are added. -/
theorem written_at_end (bytes data : ByteArray) :
    written bytes bytes.size data = bytes ++ data := by
  apply ext_byteAt
  · rw [size_written, size_append]
    omega
  · intro i _
    rw [byteAt_written, byteAt_append]
    -- before the old end stand the old bytes, and behind it the new ones
    by_cases hi : i < bytes.size
    · rw [if_neg (by omega), if_pos hi]
    · rw [if_neg hi]
      split
      · rfl
      · rw [byteAt_of_le (by omega), byteAt_of_le (by omega)]

/-- Extending two pieces is extending the second one. -/
theorem extended_append (a b : ByteArray) (length : Nat) :
    extended (a ++ b) (a.size + length) = a ++ extended b length := by
  unfold extended
  rw [size_append]
  by_cases h : b.size < length
  · rw [if_pos (by omega), if_pos h, append_assoc, Nat.add_sub_add_left]
  · rw [if_neg (by omega), if_neg h]

/-- Writing behind the first part of a byte string is writing to the second part. -/
theorem written_append (a b : ByteArray) (offset : Nat) (data : ByteArray) :
    written (a ++ b) (a.size + offset) data = a ++ written b offset data := by
  have hinside : offset + data.size ≤ (extended b (offset + data.size)).size := by
    rw [size_extended]
    omega
  rw [written, written, Nat.add_assoc, extended_append, overwrite_append hinside]

/-- Bytes that are resized have the new length. -/
@[simp] theorem size_resized (bytes : ByteArray) (length : Nat) :
    (resized bytes length).size = length := by
  unfold resized
  split
  · rw [size_slice]
    omega
  · rw [size_extended]
    omega

/-- A byte stays if it is inside the new length, and is zero if it is new. -/
theorem byteAt_resized (bytes : ByteArray) (length i : Nat) :
    (resized bytes length).byteAt i = if i < length then bytes.byteAt i else 0 := by
  by_cases hi : i < length
  · rw [if_pos hi, resized]
    split
    · rw [byteAt_slice, if_pos hi, Nat.zero_add]
    · rw [byteAt_extended]
  · rw [if_neg hi, byteAt_of_le (by rw [size_resized]; omega)]

/-- Nothing is left of bytes that are cut down to none. -/
theorem resized_zero (bytes : ByteArray) : resized bytes 0 = ByteArray.empty :=
  ByteArray.size_eq_zero_iff.mp (size_resized bytes 0)

/-- Bytes that are made longer get zeros at their end. -/
theorem resized_of_le {bytes : ByteArray} {length : Nat} (h : bytes.size ≤ length) :
    resized bytes length = bytes ++ ByteArray.zeros (length - bytes.size) := by
  rw [resized, if_neg (by omega), extended]
  split
  · rfl
  · have hzero : ByteArray.zeros (length - bytes.size) = ByteArray.empty :=
      ByteArray.size_eq_zero_iff.mp (by rw [size_zeros]; omega)
    rw [hzero, append_empty]

/-! ## Steps -/

/-- A write succeeds, or it reaches too far behind the end of a file and changes nothing. -/
theorem ends_write (h : storage.Usable) (hdata : 0 < data.size) :
    (write offset data).Ends storage
      (fun _ after => after = { storage with bytes := written storage.bytes offset data } ∧
        after.Usable)
      (fun _ after => after = storage ∧ storage.length < offset + data.size ∧
        offsetLimit ≤ offset + data.size ∧ storage.medium ≠ .memory) := by
  obtain ⟨medium, bytes, writable⟩ := storage
  obtain ⟨hreadable, rfl⟩ := h
  cases medium with
  | memory => exact ends_of_run_ok rfl ⟨rfl, trivial, rfl⟩
  | file path =>
    -- a file fails only where it would reach its limit
    by_cases hlimit : offsetLimit ≤ offset + data.size
    · have hrun : (write offset data).run ⟨.file path, bytes, true⟩ =
          (.error (.io none invalidArgument), ⟨.file path, bytes, true⟩) := if_pos hlimit
      exact ends_of_run_error hrun
        ⟨rfl, Nat.lt_of_lt_of_le hreadable hlimit, hlimit, fun hmemory => by cases hmemory⟩
    · have hrun : (write offset data).run ⟨.file path, bytes, true⟩ =
          (.ok (), ⟨.file path, written bytes offset data, true⟩) :=
        (if_neg hlimit).trans (if_neg (by omega))
      refine ends_of_run_ok hrun ⟨rfl, ?_, rfl⟩
      have hlength : bytes.size < offsetLimit := hreadable
      show (written bytes offset data).size < offsetLimit
      rw [size_written]
      omega
  | directory path => exact hreadable.elim

/-- A write inside the storage succeeds. -/
theorem ends_write_of_inside (h : storage.Usable) (hdata : 0 < data.size)
    (hinside : offset + data.size ≤ storage.length) :
    (write offset data).Ends storage
      (fun _ after => after = { storage with bytes := storage.bytes.overwrite offset data } ∧
        after.Usable)
      (fun _ _ => False) := by
  refine (ends_write h hdata).mono (fun _ after hafter => ?_) fun _ _ hafter =>
    absurd hafter.2.1 (by omega)
  rwa [written_of_inside hinside] at hafter

/-- A write that fails changes nothing. -/
theorem ends_write_unchanged (storage : Storage) (offset : Nat) (data : ByteArray) :
    (write offset data).Ends storage (fun _ _ => True) (fun _ after => after = storage) := by
  obtain ⟨medium, bytes, writable⟩ := storage
  cases medium with
  | memory =>
    cases writable with
    | false => exact rfl
    | true => exact trivial
  | file path | directory path =>
    cases writable with
    | false => exact rfl
    | true =>
      -- a write is refused for where it ends, and one of no bytes does nothing
      by_cases hlimit : offsetLimit ≤ offset + data.size
      · exact ends_of_run_error (if_pos hlimit) rfl
      · by_cases hempty : data.size = 0
        · exact ends_of_run_ok ((if_neg hlimit).trans (if_pos hempty)) trivial
        · exact ends_of_run_ok ((if_neg hlimit).trans (if_neg hempty)) trivial

/-- Changing the length succeeds, or it asks for too long a file. -/
theorem ends_setLength (h : storage.Usable) (length : Nat) :
    (setLength length).Ends storage
      (fun _ after => after = { storage with bytes := resized storage.bytes length } ∧
        after.Usable)
      (fun _ _ => storage.medium ≠ .memory ∧ offsetLimit ≤ length) := by
  obtain ⟨medium, bytes, writable⟩ := storage
  obtain ⟨hreadable, rfl⟩ := h
  cases medium with
  | memory => exact ends_of_run_ok rfl ⟨rfl, trivial, rfl⟩
  | file path =>
    -- a length behind the largest offset is refused
    by_cases hlimit : offsetLimit ≤ length
    · exact ends_of_run_error (if_pos hlimit) ⟨(fun hmemory => by cases hmemory), hlimit⟩
    · have hrun : (setLength length).run ⟨.file path, bytes, true⟩ =
          (.ok (), ⟨.file path, resized bytes length, true⟩) :=
        (if_neg hlimit).trans (if_pos rfl)
      refine ends_of_run_ok hrun ⟨rfl, ?_, rfl⟩
      show (resized bytes length).size < offsetLimit
      rw [size_resized]
      omega
  | directory path => exact hreadable.elim

/-! ## Where the bytes are -/

/-- Writing does not change what holds the bytes, also if it fails. -/
theorem keeps_medium_write (medium : Medium) (offset : Nat) (data : ByteArray) :
    Keeps (·.medium = medium) (write offset data) := by
  apply keeps_of_reached
  rintro ⟨held, bytes, writable⟩ rfl
  cases held with
  | memory =>
    cases writable with
    | false => rfl
    | true => rfl
  | file path | directory path =>
    cases writable with
    | false => rfl
    | true =>
      -- whether the write is refused or not, the medium stays
      dsimp only [run, write]
      split
      · rfl
      · split
        · rfl
        · rfl

/-- Resizing leaves a storage on its medium. -/
theorem keeps_medium_setLength (medium : Medium) (length : Nat) :
    Keeps (·.medium = medium) (setLength length) := by
  apply keeps_of_reached
  rintro ⟨held, bytes, writable⟩ rfl
  cases held with
  | memory => rfl
  | file path | directory path =>
    dsimp only [run, setLength]
    split
    · rfl
    · split
      · rfl
      · rfl

end RasterStore.Storage
