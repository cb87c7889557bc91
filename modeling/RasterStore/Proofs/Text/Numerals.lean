import RasterStore.Text.Numeral
import RasterStore.Text.Utf8
import RasterStore.Proofs.Bytes.Pieces
import Mathlib.Algebra.Group.Nat.Defs

/-!
# Numerals that are read back

A number written with `paddedDigits` is read by `numeral?`, also from its bytes:

* `numeral?_paddedDigits`  the digits of a number that fits them are a numeral of that number
* `text?_asciiBytes`       the bytes of a text in ASCII are read as this text
-/

namespace RasterStore

/-! ## Digits -/

/-- The digits are ten characters, no blanks and no signs, in the order of their values. -/
private theorem digit_facts : ∀ d < 10,
    (Nat.digitChar d).isDigit = true ∧ (Nat.digitChar d).toNat = '0'.toNat + d ∧
      isBlank (Nat.digitChar d) = false ∧ Nat.digitChar d ≠ '+' := by
  decide

/-- The padded digits of a number are digits. -/
private theorem exists_digit_of_mem {width number : Nat} {c : Char}
    (h : c ∈ paddedDigits width number) : ∃ d < 10, c = Nat.digitChar d := by
  induction width generalizing number with
  | zero => simp [paddedDigits] at h
  | succ width ih =>
    rw [paddedDigits, List.mem_append, List.mem_singleton] at h
    cases h with
    | inl hrest => exact ih hrest
    | inr hlast => exact ⟨number % 10, Nat.mod_lt _ (by decide), hlast⟩

/-- One more digit multiplies the number by ten and adds its own value. -/
theorem ofDigits_append_digit (digits : List Char) {d : Nat} (h : d < 10) :
    ofDigits (digits ++ [Nat.digitChar d]) = 10 * ofDigits digits + d := by
  have hvalue := (digit_facts d h).2.1
  simp only [ofDigits, List.foldl_append, List.foldl_cons, List.foldl_nil]
  omega

/-- The digits of a number keep as much of it as fits into them. -/
theorem ofDigits_paddedDigits (width number : Nat) :
    ofDigits (paddedDigits width number) = number % 10 ^ width := by
  induction width generalizing number with
  | zero => simp [paddedDigits, ofDigits, Nat.mod_one]
  | succ width ih =>
    rw [paddedDigits, ofDigits_append_digit _ (Nat.mod_lt _ (by decide)), ih, Nat.pow_succ,
      Nat.mul_comm (10 ^ width) 10, Nat.mod_mul]
    omega

/-! ## Numerals -/

/-- No character is dropped from a text without blanks. -/
private theorem dropWhile_isBlank {text : List Char} (h : ∀ c ∈ text, isBlank c = false) :
    text.dropWhile isBlank = text := by
  cases text with
  | nil => rfl
  | cons first rest => rw [List.dropWhile_cons, h first (by simp), if_neg (by simp)]

/-- Without blanks there is nothing to trim. -/
theorem trimBlanks_of_no_blank {text : List Char} (h : ∀ c ∈ text, isBlank c = false) :
    trimBlanks text = text := by
  have hreverse : ∀ c ∈ text.reverse, isBlank c = false := fun c hmem =>
    h c (List.mem_reverse.mp hmem)
  rw [trimBlanks, dropWhile_isBlank h, dropWhile_isBlank hreverse, List.reverse_reverse]

/-- A text without a sign and without blanks is read as its digits. -/
theorem numeral?_of_no_sign {text : List Char} (h : '+' ∉ text)
    (hblank : ∀ c ∈ text, isBlank c = false) : numeral? text = digitsNumber? text := by
  unfold numeral?
  rw [trimBlanks_of_no_blank hblank]
  split
  · next digits => exact absurd List.mem_cons_self h
  · rfl

/-- The digits of a number that fits them are a numeral of that number. -/
theorem numeral?_paddedDigits {width number : Nat} (hwidth : 0 < width)
    (h : number < 10 ^ width) (hbytes : number < byteLimit 8) :
    numeral? (paddedDigits width number) = some number := by
  have hfacts : ∀ c ∈ paddedDigits width number,
      c.isDigit = true ∧ isBlank c = false ∧ c ≠ '+' := by
    intro c hmem
    obtain ⟨d, hd, rfl⟩ := exists_digit_of_mem hmem
    obtain ⟨hdigit, -, hblank, hsign⟩ := digit_facts d hd
    exact ⟨hdigit, hblank, hsign⟩
  -- so there is neither a blank to be trimmed nor a sign to be skipped
  have hnonempty : (paddedDigits width number).isEmpty = false := by
    rw [List.isEmpty_eq_false_iff, ← List.length_pos_iff, length_paddedDigits]
    exact hwidth
  have hall : (paddedDigits width number).all Char.isDigit = true :=
    List.all_eq_true.mpr fun c hmem => (hfacts c hmem).1
  rw [numeral?_of_no_sign (fun hmem => (hfacts _ hmem).2.2 rfl) fun c hmem => (hfacts c hmem).2.1,
    digitsNumber?, hnonempty, hall, ofDigits_paddedDigits, Nat.mod_eq_of_lt h]
  simp [hbytes]

/-! ## ASCII text as bytes -/

/-- The bytes of two texts are those of the first, then those of the second. -/
theorem asciiBytes_append (first second : String) :
    asciiBytes (first ++ second) = asciiBytes first ++ asciiBytes second :=
  String.toByteArray_append

/-- The byte of an ASCII character. -/
def asciiByte (c : Char) : UInt8 :=
  UInt8.ofNat c.toNat

/-- Each ASCII character is one byte. -/
theorem asciiBytes_ofList {text : List Char} (h : ∀ c ∈ text, c.toNat < 128) :
    asciiBytes (String.ofList text) = (text.map asciiByte).toByteArray := by
  have hbytes : text.utf8Encode = (text.map asciiByte).toByteArray := by
    induction text with
    | nil => rfl
    | cons first rest ih =>
      -- an ASCII character is encoded in one byte
      have hsize : first.utf8Size = 1 := by
        rw [Char.utf8Size_eq_one_iff, UInt32.le_iff_toNat_le]
        exact Nat.le_of_lt_succ (h first (by simp))
      have hfirst : [first].utf8Encode = [asciiByte first].toByteArray := by
        simp only [List.utf8Encode, List.flatMap_cons, List.flatMap_nil, List.append_nil,
          String.utf8EncodeChar_eq_singleton hsize]
        rfl
      rw [List.utf8Encode_cons, hfirst, ih fun c hmem => h c (List.mem_cons_of_mem _ hmem),
        ← List.toByteArray_append, List.map_cons, List.singleton_append]
  rw [asciiBytes, String.toUTF8_eq_toByteArray, String.toByteArray_ofList, hbytes]

/-- The loop goes through the bytes that are left and adds what is done in front. -/
private theorem toList_loop (bytes : ByteArray) (i : Nat) (done : List UInt8) :
    ByteArray.toList.loop bytes i done = done.reverse ++ bytes.data.toList.drop i := by
  induction i, done using ByteArray.toList.loop.induct bytes with
  | case1 i done hlt ih =>
    have hi : i < bytes.data.toList.length := by simpa using hlt
    have hget : bytes.get! i = bytes.data.toList[i] := by
      rw [Array.getElem_toList]
      exact getElem!_pos bytes.data i (by simpa using hlt)
    rw [ByteArray.toList.loop, if_pos hlt, ih, List.drop_eq_getElem_cons hi, hget]
    simp
  | case2 i done hge =>
    have hdrop : bytes.data.toList.drop i = [] :=
      List.drop_eq_nil_of_le (by simpa using hge)
    rw [ByteArray.toList.loop, if_neg hge, hdrop, List.append_nil]

/-- The bytes of an array are listed in order. -/
theorem toList_eq (bytes : ByteArray) : bytes.toList = bytes.data.toList := by
  rw [ByteArray.toList, toList_loop, List.reverse_nil, List.nil_append, List.drop_zero]

/-- Two arrays of bytes are equal just if their lists are. -/
theorem toList_inj {a b : ByteArray} : a.toList = b.toList ↔ a = b := by
  rw [toList_eq, toList_eq, Array.toList_inj, ByteArray.ext_iff]

@[simp] theorem toList_toByteArray (bytes : List UInt8) : bytes.toByteArray.toList = bytes := by
  rw [toList_eq]
  simp

/-- A row of ASCII bytes has the characters with these numbers. -/
theorem text?_asciiBytes {text : List Char} (h : ∀ c ∈ text, c.toNat < 128) :
    Utf8.text? (text.map asciiByte) = some text := by
  have hunits : Utf8.units (text.map asciiByte) = text.map some := by
    induction text with
    | nil => rw [List.map_nil, Utf8.units, List.map_nil]
    | cons first rest ih =>
      have hfirst := h first (by simp)
      have hvalue : (asciiByte first).toNat = first.toNat := by
        rw [asciiByte, UInt8.toNat_ofNat']
        exact Nat.mod_eq_of_lt (by omega)
      -- no bytes of the rest belong to it
      have hunit : Utf8.firstUnit (asciiByte first) (rest.map asciiByte) = (some first, 0) := by
        have hlt : asciiByte first < 0x80 := by
          rw [UInt8.lt_iff_toNat_lt, hvalue]
          exact hfirst
        rw [Utf8.firstUnit, if_pos hlt, hvalue, Char.ofNat_toNat]
      rw [List.map_cons, Utf8.units, hunit]
      simp only [List.drop_zero, List.map_cons]
      rw [ih fun c hmem => h c (List.mem_cons_of_mem _ hmem)]
  rw [Utf8.text?, hunits]
  simp

/-- The digits of a number are ASCII characters. -/
theorem toNat_lt_of_mem_paddedDigits {width number : Nat} {c : Char}
    (h : c ∈ paddedDigits width number) : c.toNat < 128 := by
  obtain ⟨d, hd, rfl⟩ := exists_digit_of_mem h
  have hvalue := (digit_facts d hd).2.1
  have hzero : '0'.toNat = 48 := rfl
  omega

end RasterStore
