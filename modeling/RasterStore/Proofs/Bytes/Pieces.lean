import RasterStore.Bytes

/-!
# Byte strings as functions from offsets

`ByteArray.byteAt` is the view of a byte string: two strings of one size are equal if they have
the same byte at each offset (`ext_byteAt`). Every way of building a byte string has one lemma
that says which byte stands where: `byteAt_append`, `byteAt_slice`, `byteAt_overwrite`.

The pieces written by `overwriteEach` are read back if they do not overlap:

* `slice_overwriteEach_of_apart`   a range that no piece reaches keeps its bytes
* `slice_overwriteEach_of_mem`     a piece that no other one reaches is read back
-/

namespace ByteArray

/-- Behind the end, a byte is read as zero. -/
theorem byteAt_of_le {bytes : ByteArray} {i : Nat} (h : bytes.size ≤ i) : bytes.byteAt i = 0 := by
  rw [byteAt, dif_neg (by omega)]

/-- Before the end, a byte is the one that is there. -/
theorem byteAt_of_lt {bytes : ByteArray} {i : Nat} (h : i < bytes.size) :
    bytes.byteAt i = bytes[i] := by
  rw [byteAt, dif_pos h]

/-- Byte strings of one size are equal if they have the same bytes. -/
theorem ext_byteAt {a b : ByteArray} (hsize : a.size = b.size)
    (h : ∀ i, i < a.size → a.byteAt i = b.byteAt i) : a = b := by
  apply ByteArray.ext_getElem hsize
  intro i hi hi'
  have := h i hi
  rwa [byteAt_of_lt hi, byteAt_of_lt hi'] at this

/-- The test for equality of byte strings is one. -/
theorem beq_iff (a b : ByteArray) : (a == b) = true ↔ a = b := by
  have hdata : (a == b) = (a.data == b.data) := rfl
  rw [hdata, beq_iff_eq, ByteArray.ext_iff]

/-- A byte of two pieces is one of the first or one of the second. -/
theorem byteAt_append (a b : ByteArray) (i : Nat) :
    (a ++ b).byteAt i = if i < a.size then a.byteAt i else b.byteAt (i - a.size) := by
  by_cases hi : i < a.size + b.size
  · rw [byteAt_of_lt (by simpa using hi)]
    split
    · next h => rw [byteAt_of_lt h, ByteArray.getElem_append_left h]
    · next h => rw [byteAt_of_lt (by omega), ByteArray.getElem_append_right (by omega)]
  · rw [byteAt_of_le (by simp; omega), if_neg (by omega), byteAt_of_le (by omega)]

/-- A byte of a slice is one of the whole, and zero behind the slice. -/
theorem byteAt_slice (bytes : ByteArray) (offset length i : Nat) :
    (bytes.slice offset length).byteAt i = if i < length then bytes.byteAt (offset + i) else 0 := by
  have hsize := size_slice bytes offset length
  by_cases hi : i < length ∧ offset + i < bytes.size
  · rw [byteAt_of_lt (by omega), if_pos hi.1, byteAt_of_lt hi.2]
    simp only [slice, ByteArray.getElem_extract]
  · rw [byteAt_of_le (by omega)]
    split
    · rw [byteAt_of_le (by omega)]
    · rfl

/-- All bytes of a blank piece are zero. -/
@[simp] theorem byteAt_zeros (n i : Nat) : (zeros n).byteAt i = 0 := by
  by_cases hi : i < n
  · rw [byteAt_of_lt (by simpa using hi), ByteArray.getElem_eq_getElem_data]
    simp [zeros]
  · exact byteAt_of_le (by simp; omega)

/-- A byte is that of the new piece where the piece is, and the old one elsewhere. -/
theorem byteAt_overwrite {bytes piece : ByteArray} {offset : Nat}
    (h : offset + piece.size ≤ bytes.size) (i : Nat) :
    (bytes.overwrite offset piece).byteAt i =
      if offset ≤ i ∧ i < offset + piece.size then piece.byteAt (i - offset)
      else bytes.byteAt i := by
  -- what stands before the piece, the piece, what stands behind it
  have hbytes : bytes.overwrite offset piece =
      bytes.slice 0 offset ++ piece ++
        bytes.slice (offset + piece.size) (bytes.size - (offset + piece.size)) := by
    apply ByteArray.ext
    rw [data_overwrite]
    simp only [data_append, slice, data_extract, Nat.zero_add]
    congr 2
    omega
  have hstart : (bytes.slice 0 offset).size = offset := size_slice_of_le (by omega)
  rw [hbytes, byteAt_append, byteAt_append, size_append, byteAt_slice, byteAt_slice, hstart]
  -- byte by byte: before the piece, in it, behind it
  by_cases hlow : i < offset
  · rw [if_pos (by omega), if_pos (by omega), if_pos hlow, if_neg (by omega), Nat.zero_add]
  · by_cases hhigh : i < offset + piece.size
    · rw [if_pos hhigh, if_neg hlow, if_pos ⟨by omega, hhigh⟩]
    · have houtside : ¬(offset ≤ i ∧ i < offset + piece.size) := fun h => hhigh h.2
      rw [if_neg hhigh, if_neg houtside]
      split
      · congr 1
        omega
      · rw [byteAt_of_le (by omega)]

/-! ## Slices -/

/-- Two slices are equal if their bytes are, one by one. -/
theorem slice_eq_slice {a b : ByteArray} {offset start length : Nat}
    (ha : offset + length ≤ a.size) (hb : start + length ≤ b.size)
    (h : ∀ i, i < length → a.byteAt (offset + i) = b.byteAt (start + i)) :
    a.slice offset length = b.slice start length := by
  apply ext_byteAt
  · rw [size_slice_of_le ha, size_slice_of_le hb]
  · intro i hi
    rw [size_slice_of_le ha] at hi
    rw [byteAt_slice, byteAt_slice, if_pos hi, if_pos hi, h i hi]

/-- A slice of a slice is a slice. -/
theorem slice_slice {bytes : ByteArray} {offset length start count : Nat}
    (h : start + count ≤ length) :
    (bytes.slice offset length).slice start count = bytes.slice (offset + start) count := by
  apply ext_byteAt
  · simp only [size_slice]
    omega
  · intro i hi
    simp only [size_slice] at hi
    rw [byteAt_slice, byteAt_slice, byteAt_slice]
    -- the inner slice ends before the outer one does
    by_cases hcount : i < count
    · rw [if_pos hcount, if_pos (by omega), if_pos hcount, Nat.add_assoc]
    · rw [if_neg hcount, if_neg hcount]

/-- The slice of all bytes is the whole. -/
@[simp] theorem slice_zero_size (bytes : ByteArray) : bytes.slice 0 bytes.size = bytes := by
  rw [slice, Nat.zero_add, extract_zero_size]

/-- A slice that ends in the first of two pieces is one of that piece. -/
theorem slice_append_of_le {a b : ByteArray} {start length : Nat} (h : start + length ≤ a.size) :
    (a ++ b).slice start length = a.slice start length := by
  apply slice_eq_slice (by simp only [size_append]; omega) h
  intro i hi
  rw [byteAt_append, if_pos (by omega)]

/-- A slice that starts in the second of two pieces is one of that piece. -/
theorem slice_append_of_ge {a b : ByteArray} {start length : Nat} (h : a.size ≤ start)
    (hend : start + length ≤ a.size + b.size) :
    (a ++ b).slice start length = b.slice (start - a.size) length := by
  apply slice_eq_slice (by simp only [size_append]; omega) (by omega)
  intro i hi
  rw [byteAt_append, if_neg (by omega)]
  congr 1
  omega

/-- A slice is its first part and the rest behind it. -/
theorem slice_add {bytes : ByteArray} {offset length rest : Nat}
    (h : offset + (length + rest) ≤ bytes.size) :
    bytes.slice offset (length + rest) =
      bytes.slice offset length ++ bytes.slice (offset + length) rest := by
  have hfirst : (bytes.slice offset length).size = length := size_slice_of_le (by omega)
  apply ext_byteAt
  · rw [size_append, size_slice_of_le h, hfirst, size_slice_of_le (by omega)]
  · intro i _
    rw [byteAt_append, hfirst, byteAt_slice, byteAt_slice, byteAt_slice]
    -- the byte is one of the first part, or one of the rest
    by_cases hi : i < length
    · rw [if_pos (by omega), if_pos hi, if_pos hi]
    · have hplace : offset + length + (i - length) = offset + i := by omega
      rw [if_neg hi, hplace]
      split
      · rw [if_pos (by omega)]
      · rw [if_neg (by omega)]

/-- A range beside an overwritten one keeps its bytes. -/
theorem slice_overwrite_of_apart {bytes piece : ByteArray} {offset start length : Nat}
    (h : offset + piece.size ≤ bytes.size)
    (hapart : start + length ≤ offset ∨ offset + piece.size ≤ start) :
    (bytes.overwrite offset piece).slice start length = bytes.slice start length := by
  rcases hapart with hbefore | hbehind
  · exact slice_overwrite_of_le hbefore (by omega)
  · exact slice_overwrite_of_ge hbehind (by omega)

/-- What was written is found where it was written. -/
theorem slice_overwrite_of_size {bytes piece : ByteArray} {offset length : Nat}
    (h : offset ≤ bytes.size) (hsize : piece.size = length) :
    (bytes.overwrite offset piece).slice offset length = piece := by
  rw [← hsize]
  exact slice_overwrite_self h

/-- A range inside an overwritten one is read from the piece. -/
theorem slice_overwrite_of_inside {bytes piece : ByteArray} {offset start length : Nat}
    (h : offset + piece.size ≤ bytes.size) (hstart : offset ≤ start)
    (hend : start + length ≤ offset + piece.size) :
    (bytes.overwrite offset piece).slice start length = piece.slice (start - offset) length := by
  have hself : (bytes.overwrite offset piece).slice offset piece.size = piece :=
    slice_overwrite_self (by omega)
  rw [← hself, slice_slice (by omega), hself, show offset + (start - offset) = start by omega]

/-- Two pieces that are written one behind the other are written as one. -/
theorem overwrite_overwrite {bytes first second : ByteArray} {offset : Nat}
    (h : offset + first.size + second.size ≤ bytes.size) :
    (bytes.overwrite offset first).overwrite (offset + first.size) second =
      bytes.overwrite offset (first ++ second) := by
  have hfirst : (bytes.overwrite offset first).size = bytes.size := size_overwrite (by omega)
  have hboth : offset + (first ++ second).size ≤ bytes.size := by
    rw [size_append]
    omega
  apply ext_byteAt
  · rw [size_overwrite (by omega), hfirst, size_overwrite hboth]
  · intro i _
    rw [byteAt_overwrite (by omega), byteAt_overwrite (by omega), byteAt_overwrite hboth,
      byteAt_append, size_append]
    -- byte by byte: in the second piece, in the first, in neither
    by_cases hsecond : offset + first.size ≤ i ∧ i < offset + first.size + second.size
    · rw [if_pos hsecond, if_pos (by omega), if_neg (by omega), Nat.sub_add_eq]
    · rw [if_neg hsecond]
      by_cases hin : offset ≤ i ∧ i < offset + first.size
      · rw [if_pos hin, if_pos (by omega), if_pos (by omega)]
      · rw [if_neg hin, if_neg (by omega)]

/-- A piece that is written behind the first part of a byte string changes the second part. -/
theorem overwrite_append {a b piece : ByteArray} {offset : Nat}
    (h : offset + piece.size ≤ b.size) :
    (a ++ b).overwrite (a.size + offset) piece = a ++ b.overwrite offset piece := by
  have hinside : a.size + offset + piece.size ≤ (a ++ b).size := by
    rw [size_append]
    omega
  apply ext_byteAt
  · rw [size_overwrite hinside, size_append, size_append, size_overwrite h]
  · intro i _
    rw [byteAt_overwrite hinside, byteAt_append, byteAt_append, byteAt_overwrite h]
    -- the first piece is not touched, and in the second the place is the same
    by_cases hi : i < a.size
    · rw [if_neg (by omega), if_pos hi, if_pos hi]
    · rw [if_neg hi, if_neg hi, Nat.sub_add_eq]
      by_cases hpiece : offset ≤ i - a.size ∧ i - a.size < offset + piece.size
      · rw [if_pos (by omega), if_pos hpiece]
      · rw [if_neg (by omega), if_neg hpiece]

/-! ## Several pieces -/

section OverwriteEach

variable {ι : Type} {place : ι → Nat} {piece : ι → ByteArray}

/-- Writing no pieces changes nothing. -/
@[simp] theorem overwriteEach_nil (bytes : ByteArray) :
    bytes.overwriteEach [] place piece = bytes := rfl

/-- The first of some pieces is written before the others. -/
theorem overwriteEach_cons (bytes : ByteArray) (item : ι) (rest : List ι) :
    bytes.overwriteEach (item :: rest) place piece =
      (bytes.overwrite (place item) (piece item)).overwriteEach rest place piece := rfl

/-- Pieces that follow others are written over what those left. -/
theorem overwriteEach_append (bytes : ByteArray) (items rest : List ι) :
    bytes.overwriteEach (items ++ rest) place piece =
      (bytes.overwriteEach items place piece).overwriteEach rest place piece :=
  List.foldl_append

/-- What is written depends only on the places and the pieces of the items. -/
theorem overwriteEach_congr {bytes : ByteArray} {items : List ι} {place' : ι → Nat}
    {piece' : ι → ByteArray}
    (h : ∀ item ∈ items, place item = place' item ∧ piece item = piece' item) :
    bytes.overwriteEach items place piece = bytes.overwriteEach items place' piece' := by
  induction items generalizing bytes with
  | nil => rfl
  | cons item rest ih =>
    obtain ⟨hplace, hpiece⟩ := h item (by simp)
    rw [overwriteEach_cons, overwriteEach_cons, hplace, hpiece]
    exact ih fun other hmem => h other (List.mem_cons_of_mem _ hmem)

/-- The pieces written for the images of items. -/
theorem overwriteEach_map {κ : Type} (bytes : ByteArray) (items : List κ) (f : κ → ι) :
    bytes.overwriteEach (items.map f) place piece =
      bytes.overwriteEach items (place ∘ f) (piece ∘ f) := by
  simp only [overwriteEach, List.foldl_map, Function.comp_def]

/-- Pieces inside a byte string do not change its size. -/
theorem size_overwriteEach {bytes : ByteArray} {items : List ι}
    (h : ∀ item ∈ items, place item + (piece item).size ≤ bytes.size) :
    (bytes.overwriteEach items place piece).size = bytes.size := by
  induction items generalizing bytes with
  | nil => rfl
  | cons item rest ih =>
    have hfirst := size_overwrite (h item (by simp))
    rw [overwriteEach_cons, ih, hfirst]
    intro other hmem
    rw [hfirst]
    exact h other (List.mem_cons_of_mem _ hmem)

/-- A range that no piece reaches keeps its bytes. -/
theorem slice_overwriteEach_of_apart {bytes : ByteArray} {items : List ι} {start length : Nat}
    (h : ∀ item ∈ items, place item + (piece item).size ≤ bytes.size)
    (hapart : ∀ item ∈ items,
      start + length ≤ place item ∨ place item + (piece item).size ≤ start) :
    (bytes.overwriteEach items place piece).slice start length = bytes.slice start length := by
  induction items generalizing bytes with
  | nil => rfl
  | cons item rest ih =>
    have hinside := h item (by simp)
    have hfirst := size_overwrite hinside
    rw [overwriteEach_cons, ih, slice_overwrite_of_apart hinside (hapart item (by simp))]
    · -- the first item changes no size, so that the others still fit
      intro other hmem
      rw [hfirst]
      exact h other (List.mem_cons_of_mem _ hmem)
    · exact fun other hmem => hapart other (List.mem_cons_of_mem _ hmem)

/-- A byte that no piece reaches stays as it is. -/
theorem byteAt_overwriteEach_of_apart {bytes : ByteArray} {items : List ι} {i : Nat}
    (h : ∀ item ∈ items, place item + (piece item).size ≤ bytes.size)
    (hapart : ∀ item ∈ items, i < place item ∨ place item + (piece item).size ≤ i) :
    (bytes.overwriteEach items place piece).byteAt i = bytes.byteAt i := by
  have hslice : (bytes.overwriteEach items place piece).slice i 1 = bytes.slice i 1 :=
    slice_overwriteEach_of_apart h hapart
  have hbyte := congrArg (byteAt · 0) hslice
  simpa only [byteAt_slice, Nat.add_zero, Nat.zero_lt_one, if_true] using hbyte

/-- The pieces of two items do not overlap. -/
def Apart (place : ι → Nat) (piece : ι → ByteArray) (first second : ι) : Prop :=
  place first + (piece first).size ≤ place second ∨ place second + (piece second).size ≤ place first

/-- A piece that no later one reaches is read back, also in part. -/
theorem slice_overwriteEach_of_mem {bytes : ByteArray} {items : List ι}
    (h : ∀ item ∈ items, place item + (piece item).size ≤ bytes.size)
    (hapart : items.Pairwise (Apart place piece)) {item : ι} (hmem : item ∈ items)
    {start length : Nat} (hstart : place item ≤ start)
    (hend : start + length ≤ place item + (piece item).size) :
    (bytes.overwriteEach items place piece).slice start length =
      (piece item).slice (start - place item) length := by
  induction items generalizing bytes with
  | nil => simp at hmem
  | cons first rest ih =>
    rw [List.pairwise_cons] at hapart
    have hinside := h first (by simp)
    have hrest : ∀ other ∈ rest, place other + (piece other).size ≤
        (bytes.overwrite (place first) (piece first)).size := by
      intro other hother
      rw [size_overwrite hinside]
      exact h other (List.mem_cons_of_mem _ hother)
    rw [overwriteEach_cons]
    cases List.mem_cons.mp hmem with
    | inl heq =>
      subst heq
      -- the pieces that follow leave this one as it is
      rw [slice_overwriteEach_of_apart hrest]
      · exact slice_overwrite_of_inside hinside hstart hend
      · intro other hother
        have := hapart.1 other hother
        unfold Apart at this
        omega
    | inr hlater => exact ih hrest hapart.2 hlater

/-- Pieces that lie one behind the other may be copied as one. -/
theorem overwriteEach_slices {bytes into : ByteArray} {width count : Nat}
    (hbytes : count * width ≤ bytes.size) (hinto : count * width ≤ into.size) :
    into.overwriteEach (List.range count) (· * width) (fun i => bytes.slice (i * width) width) =
      into.overwrite 0 (bytes.slice 0 (count * width)) := by
  -- induction on the number of pieces: the ones so far are one piece, which the next one extends
  induction count with
  | zero =>
    have hsize : (bytes.slice 0 (0 * width)).size = 0 := by simp
    apply ext_byteAt
    · rw [List.range_zero, overwriteEach_nil, size_overwrite (by omega)]
    · intro i hi
      rw [List.range_zero, overwriteEach_nil, byteAt_overwrite (by omega), if_neg (by omega)]
  | succ count ih =>
    rw [Nat.succ_mul] at hbytes hinto ⊢
    have hfirst : (bytes.slice 0 (count * width)).size = count * width :=
      size_slice_of_le (by omega)
    have hlast : (bytes.slice (count * width) width).size = width := size_slice_of_le (by omega)
    have hjoined : (into.overwrite 0 (bytes.slice 0 (count * width))).overwrite (count * width)
        (bytes.slice (count * width) width) =
          into.overwrite 0 (bytes.slice 0 (count * width) ++ bytes.slice (count * width) width) := by
      rw [← overwrite_overwrite (by omega), hfirst, Nat.zero_add]
    rw [List.range_succ, overwriteEach_append, ih (by omega) (by omega), overwriteEach_cons,
      overwriteEach_nil, hjoined, slice_add (by omega), Nat.zero_add]
end OverwriteEach

end ByteArray
