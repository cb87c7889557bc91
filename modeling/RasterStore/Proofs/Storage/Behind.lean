import RasterStore.Proofs.Storage

/-!
# Storage behind other bytes

`Behind leading alone behind` relates a storage to one that has other bytes before the same ones.
What is read or written at an offset of the first one is found on the second one as many bytes
further on as there are leading bytes:

* `Behind.read`   the outcomes of both reads are alike, see `Alike`
* `Behind.write`  the outcomes of both writes are the same, and the storages stay related
-/

namespace RasterStore

open ByteArray

/-! ## Outcomes that are alike -/

/-- What memory says of a range that it does not have. -/
def shortRead (count offset length : Nat) : RasterError :=
  .io none (s!"short read of {count} bytes at offset {offset} " ++ s!"(length {length})")

/-- Two outcomes are alike if the answers are related or the failures are the same. A short read
    may quote an offset and a length that are `shift` further on. -/
inductive Alike {α β : Type} (shift : Nat) (same : α → β → Prop) :
    Except RasterError α → Except RasterError β → Prop
  | ok {first : α} {second : β} (h : same first second) : Alike shift same (.ok first) (.ok second)
  | failed (error : RasterError) : Alike shift same (.error error) (.error error)
  | cutShort (count offset length : Nat) :
      Alike shift same (.error (shortRead count offset length))
        (.error (shortRead count (shift + offset) (shift + length)))

section Alike

variable {α β γ δ : Type} {shift : Nat} {same : α → β → Prop} {same' : γ → δ → Prop}

theorem Alike.refl (outcome : Except RasterError α) : Alike shift Eq outcome outcome := by
  cases outcome with
  | ok value => exact .ok rfl
  | error error => exact .failed error

theorem Alike.bind {first : Except RasterError α} {second : Except RasterError β}
    {next : α → Except RasterError γ} {next' : β → Except RasterError δ}
    (h : Alike shift same first second)
    (hnext : ∀ value value', first = .ok value → same value value' →
      Alike shift same' (next value) (next' value')) :
    Alike shift same' (first >>= next) (second >>= next') := by
  cases h with
  | ok hsame => exact hnext _ _ rfl hsame
  | failed error => exact .failed error
  | cutShort count offset length => exact .cutShort count offset length

theorem Alike.map {first : Except RasterError α} {second : Except RasterError β} {f : α → γ}
    {g : β → δ} (h : Alike shift same first second)
    (hvalues : ∀ value value', same value value' → same' (f value) (g value')) :
    Alike shift same' (first.map f) (second.map g) := by
  cases h with
  | ok hsame => exact .ok (hvalues _ _ hsame)
  | failed error => exact .failed error
  | cutShort count offset length => exact .cutShort count offset length

end Alike

/-! ## Storage behind other bytes -/

/-- A range of bytes may end at this offset, as far as the medium is concerned. -/
def Medium.Reaches (medium : Medium) (limit : Nat) : Prop :=
  match medium with
  | .memory => True
  | .file _ => limit < offsetLimit
  | .directory _ => False

theorem Medium.Reaches.mono {medium : Medium} {limit lower : Nat} (h : medium.Reaches limit)
    (hle : lower ≤ limit) : medium.Reaches lower := by
  cases medium with
  | memory => trivial
  | file path => exact Nat.lt_of_le_of_lt hle h
  | directory path => exact h

theorem Medium.Reaches.readable {storage : Storage} {limit : Nat}
    (h : storage.medium.Reaches (storage.length + limit)) : storage.Readable := by
  obtain ⟨medium, bytes, writable⟩ := storage
  cases medium with
  | memory => trivial
  | file path => exact Nat.lt_of_le_of_lt (Nat.le_add_right _ _) h
  | directory path => exact h

/-- The second storage holds the bytes of the first one behind some others. -/
structure Behind (leading : ByteArray) (alone behind : Storage) : Prop where
  medium : behind.medium = alone.medium
  writable : behind.writable = alone.writable
  bytes : behind.bytes = leading ++ alone.bytes

namespace Behind

variable {leading : ByteArray} {alone behind : Storage} {offset count : Nat}

theorem length (h : Behind leading alone behind) :
    behind.length = leading.size + alone.length := by
  rw [Storage.length, h.bytes, size_append, Storage.length]

theorem eq (h : Behind leading alone behind) :
    behind = ⟨alone.medium, leading ++ alone.bytes, alone.writable⟩ := by
  obtain ⟨hmedium, hwritable, hbytes⟩ := h
  cases behind
  simp only at hmedium hwritable hbytes
  rw [hmedium, hwritable, hbytes]

/-- A range is read behind other bytes as it is read alone. -/
theorem read (h : Behind leading alone behind)
    (hreach : behind.medium.Reaches (leading.size + offset + count)) :
    Alike leading.size Eq (alone.read offset count) (behind.read (leading.size + offset) count) := by
  have hbehind := h.eq
  obtain ⟨medium, bytes, writable⟩ := alone
  subst hbehind
  have hlength : (⟨medium, leading ++ bytes, writable⟩ : Storage).length =
      leading.size + (⟨medium, bytes, writable⟩ : Storage).length := size_append
  -- a read ends inside behind the leading bytes if it does without them
  have hinside : leading.size + offset + count ≤
        (⟨medium, leading ++ bytes, writable⟩ : Storage).length ↔
      offset + count ≤ (⟨medium, bytes, writable⟩ : Storage).length := by
    rw [hlength]
    omega
  -- and finds the same bytes
  have hslice : offset + count ≤ (⟨medium, bytes, writable⟩ : Storage).length →
      (leading ++ bytes).slice (leading.size + offset) count = bytes.slice offset count := by
    intro hread
    have hend : offset + count ≤ bytes.size := hread
    rw [slice_append_of_ge (by omega) (by omega), Nat.add_sub_cancel_left]
  cases medium with
  | memory =>
    simp only [Storage.read]
    by_cases hread : offset + count ≤ (⟨.memory, bytes, writable⟩ : Storage).length
    · rw [if_pos hread, if_pos (hinside.mpr hread), hslice hread]
      exact .refl _
    · rw [if_neg hread, if_neg fun h => hread (hinside.mp h), hlength]
      exact .cutShort _ _ _
  | file path =>
    -- a file answers only below its limit, which the longer one reaches first
    have hlimit : leading.size + offset + count < offsetLimit := hreach
    simp only [Storage.read]
    rw [if_neg (by omega : ¬offsetLimit ≤ offset + count), if_neg (Nat.not_le.mpr hlimit)]
    by_cases hread : offset + count ≤ (⟨.file path, bytes, writable⟩ : Storage).length
    · rw [if_pos hread, if_pos (hinside.mpr hread), hslice hread]
      exact .refl _
    · rw [if_neg hread, if_neg fun h => hread (hinside.mp h)]
      exact .refl _
  | directory path => exact hreach.elim

/-- A write behind other bytes leaves them as they are and does to the rest what it does alone. -/
theorem write {data : ByteArray} (h : Behind leading alone behind)
    (hreach : behind.medium.Reaches (leading.size + offset + data.size)) :
    ((Storage.write (leading.size + offset) data).run behind).1 =
        ((Storage.write offset data).run alone).1 ∧
      Behind leading ((Storage.write offset data).run alone).2
        ((Storage.write (leading.size + offset) data).run behind).2 := by
  have hbehind := h.eq
  obtain ⟨medium, bytes, writable⟩ := alone
  subst hbehind
  -- what is written behind the leading bytes leaves them in front
  have hwritten := Storage.written_append leading bytes offset data
  cases medium with
  | memory =>
    cases writable with
    | true => exact ⟨rfl, rfl, rfl, hwritten⟩
    | false => exact ⟨rfl, rfl, rfl, rfl⟩
  | file path =>
    have hlimit : leading.size + offset + data.size < offsetLimit := hreach
    cases writable with
    | true =>
      simp only [Action.run, Storage.write]
      rw [if_neg (Nat.not_le.mpr hlimit), if_neg (by omega : ¬offsetLimit ≤ offset + data.size)]
      by_cases hempty : data.size = 0
      · rw [if_pos hempty, if_pos hempty]
        exact ⟨rfl, rfl, rfl, rfl⟩
      · rw [if_neg hempty, if_neg hempty]
        exact ⟨rfl, rfl, rfl, hwritten⟩
    | false => exact ⟨rfl, rfl, rfl, rfl⟩
  | directory path => exact hreach.elim

end Behind

end RasterStore
