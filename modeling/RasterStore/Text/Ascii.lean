/-!
# Names compared without regard to case

Names of pixel types, formats and options are written in ASCII letters and compared without regard
to the case of those letters. Letters outside ASCII have one case here: they equal only themselves.
-/

namespace RasterStore

/-- The characters of a name with its ASCII letters in lower case. Two names are the same up to
    case exactly if these agree. -/
def foldCase (name : String) : List Char :=
  name.toList.map Char.toLower

/-- Two names differ at most in the case of ASCII letters. -/
def sameName (first second : String) : Bool :=
  foldCase first == foldCase second

theorem sameName_iff {first second : String} :
    sameName first second = true ↔ foldCase first = foldCase second := by
  simp [sameName]

@[simp] theorem sameName_self (name : String) : sameName name name = true := by
  simp [sameName]

theorem sameName_comm (first second : String) : sameName first second = sameName second first := by
  simp only [sameName]
  exact Bool.beq_comm

end RasterStore
