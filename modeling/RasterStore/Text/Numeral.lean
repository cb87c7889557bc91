import RasterStore.Bytes

/-!
# Unsigned numerals

A numeral is a row of decimal digits, which a plus sign may precede and blanks may surround. Blanks
are the characters that Unicode calls white space. A numeral whose number needs more than 64 bits
is not accepted.
-/

namespace RasterStore

/-- The characters that Unicode calls white space. -/
def isBlank (c : Char) : Bool :=
  let n := c.toNat
  (9 ≤ n && n ≤ 13) || n == 0x20 || n == 0x85 || n == 0xA0 || n == 0x1680 ||
    (0x2000 ≤ n && n ≤ 0x200A) || n == 0x2028 || n == 0x2029 || n == 0x202F || n == 0x205F ||
    n == 0x3000

/-- The text without the blanks around it. -/
def trimBlanks (text : List Char) : List Char :=
  ((text.dropWhile isBlank).reverse.dropWhile isBlank).reverse

/-- The number written by decimal digits, most significant first. -/
def ofDigits (digits : List Char) : Nat :=
  digits.foldl (fun number digit => 10 * number + (digit.toNat - '0'.toNat)) 0

/-- The number written by a row of digits, if it is one and its number has at most 64 bits. -/
def digitsNumber? (digits : List Char) : Option Nat :=
  if digits.isEmpty || !digits.all Char.isDigit then none
  else
    let number := ofDigits digits
    if number < byteLimit 8 then some number else none

/-- The number of a numeral, with its surrounding blanks. -/
def numeral? (text : List Char) : Option Nat :=
  match trimBlanks text with
  | '+' :: digits => digitsNumber? digits
  | digits => digitsNumber? digits

/-- The number of a numeral that is not zero. -/
def positiveNumeral? (text : String) : Option Nat :=
  match numeral? text.toList with
  | some number => if number = 0 then none else some number
  | none => none

/-- A number below 10 ^ `width` as exactly `width` decimal digits. -/
def paddedDigits : (width : Nat) → (number : Nat) → List Char
  | 0, _ => []
  | width + 1, number => paddedDigits width (number / 10) ++ [Nat.digitChar (number % 10)]

@[simp] theorem length_paddedDigits (width number : Nat) :
    (paddedDigits width number).length = width := by
  induction width generalizing number with
  | zero => rfl
  | succ width ih => simp [paddedDigits, ih]

end RasterStore
