/-!
# Text in bytes that may be damaged

Bytes are read as UTF-8. Where they do not form a character, the longest start of one that they do
form, and at least one byte, counts as one damaged place. `Utf8.units` lists characters and damaged
places in order.
-/

namespace RasterStore.Utf8

/-- The continuation bytes that a first byte asks for: how many follow, and the bounds of the first
    of them. -/
def continuation? (first : UInt8) : Option (Nat × UInt8 × UInt8) :=
  if first < 0xC2 then none
  else if first < 0xE0 then some (1, 0x80, 0xBF)
  -- a smaller second byte would be a longer form of a shorter character
  else if first == 0xE0 then some (2, 0xA0, 0xBF)
  -- a larger one would be a surrogate
  else if first == 0xED then some (2, 0x80, 0x9F)
  else if first < 0xF0 then some (2, 0x80, 0xBF)
  else if first == 0xF0 then some (3, 0x90, 0xBF)
  else if first < 0xF4 then some (3, 0x80, 0xBF)
  -- a larger one would lie behind the last character
  else if first == 0xF4 then some (3, 0x80, 0x8F)
  else none

/-- The bits that a first byte gives to its character, by the number of bytes that follow it. -/
def leadingBits (first : UInt8) : Nat → Nat
  | 1 => first.toNat % 32
  | 2 => first.toNat % 16
  | _ => first.toNat % 8

/-- Reads `missing` continuation bytes, the first of them between `low` and `high`. The answer is
    the character's number, if all of them are there, and how many bytes were taken. -/
def followers : (missing : Nat) → (low high : UInt8) → (code : Nat) → List UInt8 → Option Nat × Nat
  | 0, _, _, code, _ => (some code, 0)
  | _ + 1, _, _, _, [] => (none, 0)
  | missing + 1, low, high, code, byte :: rest =>
    if low ≤ byte && byte ≤ high then
      match followers missing 0x80 0xBF (64 * code + byte.toNat % 64) rest with
      | (result, taken) => (result, taken + 1)
    else (none, 0)

/-- The first character of a row of bytes, if they start with one, and how many bytes follow its
    first one. -/
def firstUnit (first : UInt8) (rest : List UInt8) : Option Char × Nat :=
  if first < 0x80 then (some (Char.ofNat first.toNat), 0)
  else
    match continuation? first with
    | none => (none, 0)
    | some (missing, low, high) =>
      match followers missing low high (leadingBits first missing) rest with
      | (code, taken) => (code.map Char.ofNat, taken)

/-- The characters of a row of bytes; a damaged place is `none`. -/
def units : List UInt8 → List (Option Char)
  | [] => []
  | first :: rest =>
    match firstUnit first rest with
    | (unit, taken) => unit :: units (rest.drop taken)
termination_by bytes => bytes.length
decreasing_by
  simp only [List.length_drop, List.length_cons]
  omega

/-- The text of the bytes if no place of it is damaged. -/
def text? (bytes : List UInt8) : Option (List Char) :=
  let found := units bytes
  if found.all Option.isSome then some (found.filterMap id) else none

/-- The text of the bytes with a replacement character for each damaged place. -/
def repaired (bytes : List UInt8) : String :=
  String.ofList ((units bytes).map fun unit => unit.getD '\uFFFD')

end RasterStore.Utf8
