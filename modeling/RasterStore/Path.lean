/-!
# Paths

A path is a row of names with slashes between them, and is followed from name to name: `pathNames`
are the names, `startOf` is where they begin. Empty names are none, so that `a//b` is `a/b`; but a
path that ends in a slash can only lead to a directory.
-/

namespace RasterStore

/-- What stands before, between and behind the slashes. -/
def splitAtSlashes : List Char → List (List Char)
  | [] => [[]]
  | c :: rest =>
    if c == '/' then [] :: splitAtSlashes rest
    else
      match splitAtSlashes rest with
      | [] => [[c]]
      | first :: others => (c :: first) :: others

theorem splitAtSlashes_ne_nil (cs : List Char) : splitAtSlashes cs ≠ [] := by
  cases cs with
  | nil => simp [splitAtSlashes]
  | cons c rest =>
    rw [splitAtSlashes]
    split
    · simp
    · split <;> simp

/-- Slashes between the parts give back what was split. -/
theorem intercalate_splitAtSlashes (cs : List Char) :
    ['/'].intercalate (splitAtSlashes cs) = cs := by
  induction cs with
  | nil => rfl
  | cons c rest ih =>
    rw [splitAtSlashes]
    split
    · rename_i slash
      rw [List.intercalate_cons_of_ne_nil (splitAtSlashes_ne_nil rest), ih, eq_of_beq slash]
      rfl
    · split
      · rename_i none
        exact absurd none (splitAtSlashes_ne_nil rest)
      · rename_i first others parts
        rw [parts] at ih
        rw [← ih]
        cases others <;> simp [List.intercalate]

/-- The names on a path, in the order in which they are followed. -/
def pathNames (path : String) : List String :=
  ((splitAtSlashes path.toList).filter (!·.isEmpty)).map String.ofList

/-- The directory in which the first name is looked up. -/
def startOf (path : String) : String :=
  if path.toList.head? == some '/' then "/" else ""

/-- The path ends in a slash. -/
def endsInSlash (path : String) : Bool :=
  path.toList.getLast? == some '/'

/-- The last name on a path; a path without names leads to the directory where it starts. -/
def lastName (path : String) : String :=
  (pathNames path).getLastD "."

/-- The path of a name in a directory. -/
def pathIn (directory name : String) : String :=
  if directory == "" then name else directory ++ "/" ++ name

end RasterStore
