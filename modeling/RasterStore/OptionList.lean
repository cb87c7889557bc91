import RasterStore.RasterError
import RasterStore.Text.Ascii
import RasterStore.Text.Numeral

/-!
# Creation options

Options are an ordered list of names with values. Names are compared without regard to case and
keep the spelling of their first use; setting a name again replaces its value in place.
-/

namespace RasterStore

/-- An ordered list of options, each name once. -/
structure OptionList where
  entries : List (String × String) := []

namespace OptionList

/-- A character that an option's name may hold. -/
def isNameChar (c : Char) : Bool :=
  c.isAlphanum || c == '_'

/-- An option's name is a non-empty row of ASCII letters, digits and underscores. -/
def isName (name : String) : Bool :=
  !name.toList.isEmpty && name.toList.all isNameChar

/-- An option's value is one line of text. -/
def isValue (value : String) : Bool :=
  !value.toList.any fun c => c == '\n' || c == '\r'

/-- Gives `name` its new value in place, or adds it at the end. -/
def put (name value : String) : List (String × String) → List (String × String)
  | [] => [(name, value)]
  | (key, old) :: rest =>
    -- the spelling of the first use stays
    if sameName key name then (key, value) :: rest else (key, old) :: put name value rest

/-- Sets one option. -/
def set (options : OptionList) (name value : String) : Except RasterError OptionList :=
  if !isName name then .error (.badArgument s!"Invalid characters in name: '{name}'")
  else if !isValue value then .error (.badArgument s!"Invalid characters in value: '{value}'")
  else .ok ⟨put name value options.entries⟩

/-- The value of an option. -/
def get? (options : OptionList) (name : String) : Option String :=
  (options.entries.find? (fun entry => sameName entry.1 name)).map (·.2)

/-- The value of an option that has to be a positive number. -/
def getPositive (options : OptionList) (name : String) : Except RasterError (Option Nat) :=
  match options.get? name with
  | none => .ok none
  | some value =>
    match positiveNumeral? value with
    | some number => .ok (some number)
    | none => .error (.badArgument s!"{name} must be a positive integer, got '{value}'")

/-- Refuses the first option whose name is not among the known ones. -/
def checkKnown (options : OptionList) (known : List String) : Except RasterError Unit :=
  match options.entries.find? (fun entry => !known.any (sameName · entry.1)) with
  | some (name, _) => .error (.badArgument s!"unsupported creation option '{name}'")
  | none => .ok ()

/-- Sets the given options one after the other. -/
def setAll (options : OptionList) : List (String × String) → Except RasterError OptionList
  | [] => .ok options
  | (name, value) :: rest => do
    let next ← options.set name value
    next.setAll rest

/-- The list of the given options, in order. -/
def ofPairs (pairs : List (String × String)) : Except RasterError OptionList :=
  setAll {} pairs

/-- One line per option. -/
def text (options : OptionList) : String :=
  String.join (options.entries.map fun (name, value) => s!"{name}={value}\n")

end OptionList

end RasterStore
