import RasterStore.RasterError
import RasterStore.Text.Ascii

/-!
# Pixel types

A pixel has one component, or two for complex types. A component is an unsigned or signed integer
of some number of bytes or a floating point number; `PixelType.component` and
`PixelType.isComplex` say everything else about a type. The code of a type is its number in the
list of all types, counted from one, and is what file headers hold.
-/

namespace RasterStore

/-- How one component of a pixel is stored. Integers are given by their number of bytes. -/
inductive Component where
  | unsigned (width : Nat)
  | signed (width : Nat)
  | single
  | double
deriving DecidableEq

/-- Bytes taken by a component. -/
def Component.bytes : Component → Nat
  | unsigned width => width
  | signed width => width
  | single => 4
  | double => 8

/-- The type of the pixels of a band or of a caller's buffer. -/
inductive PixelType where
  | byte
  | uint16
  | int16
  | uint32
  | int32
  | float32
  | float64
  | complexInt16
  | complexInt32
  | complexFloat32
  | complexFloat64
deriving DecidableEq, Inhabited

namespace PixelType

/-- All types in the order of their codes. -/
def all : List PixelType :=
  [byte, uint16, int16, uint32, int32, float32, float64,
    complexInt16, complexInt32, complexFloat32, complexFloat64]

/-- How each component of a pixel is stored. -/
def component : PixelType → Component
  | byte => .unsigned 1
  | uint16 => .unsigned 2
  | int16 | complexInt16 => .signed 2
  | uint32 => .unsigned 4
  | int32 | complexInt32 => .signed 4
  | float32 | complexFloat32 => .single
  | float64 | complexFloat64 => .double

/-- A complex pixel has a real and an imaginary component. -/
def isComplex : PixelType → Bool
  | complexInt16 | complexInt32 | complexFloat32 | complexFloat64 => true
  | _ => false

/-- The components of the type are floating point numbers. -/
def isFloating (type : PixelType) : Bool :=
  match type.component with
  | .single | .double => true
  | _ => false

/-- The components of the type are integers. -/
def isInteger (type : PixelType) : Bool :=
  !type.isFloating

/-- The type has negative values. -/
def isSigned (type : PixelType) : Bool :=
  match type.component with
  | .unsigned _ => false
  | _ => true

/-- Bytes taken by one component. -/
def componentBytes (type : PixelType) : Nat :=
  type.component.bytes

/-- Bytes taken by one pixel. -/
def bytes (type : PixelType) : Nat :=
  if type.isComplex then 2 * type.componentBytes else type.componentBytes

/-- Bits taken by one pixel. -/
def bits (type : PixelType) : Nat :=
  8 * type.bytes

/-- The type of a single component. -/
def componentType : PixelType → PixelType
  | complexInt16 => int16
  | complexInt32 => int32
  | complexFloat32 => float32
  | complexFloat64 => float64
  | real => real

def name : PixelType → String
  | byte => "Byte"
  | uint16 => "UInt16"
  | int16 => "Int16"
  | uint32 => "UInt32"
  | int32 => "Int32"
  | float32 => "Float32"
  | float64 => "Float64"
  | complexInt16 => "CInt16"
  | complexInt32 => "CInt32"
  | complexFloat32 => "CFloat32"
  | complexFloat64 => "CFloat64"

/-- The number that stands for the type in file headers. -/
def code : PixelType → Nat
  | byte => 1
  | uint16 => 2
  | int16 => 3
  | uint32 => 4
  | int32 => 5
  | float32 => 6
  | float64 => 7
  | complexInt16 => 8
  | complexInt32 => 9
  | complexFloat32 => 10
  | complexFloat64 => 11

/-- The type with the given code. -/
def ofCode (code : Nat) : Except RasterError PixelType :=
  match all.find? (·.code == code) with
  | some type => .ok type
  | none => .error (.badArgument s!"unknown pixel type code {code}")

/-- The type with the given name, in any case of its letters. -/
def ofName (name : String) : Except RasterError PixelType :=
  match all.find? (fun type => sameName type.name name) with
  | some type => .ok type
  | none => .error (.badArgument s!"unknown pixel type '{name}'")

/-! ## Basic facts -/

theorem mem_all (type : PixelType) : type ∈ all := by
  cases type <;> simp [all]

theorem bytes_pos (type : PixelType) : 0 < type.bytes := by
  cases type <;> decide

theorem componentBytes_pos (type : PixelType) : 0 < type.componentBytes := by
  cases type <;> decide

@[simp] theorem ofCode_code (type : PixelType) : ofCode type.code = .ok type := by
  cases type <;> rfl

theorem code_pos (type : PixelType) : 0 < type.code := by
  cases type <;> decide

theorem code_le (type : PixelType) : type.code ≤ 11 := by
  cases type <;> decide

end PixelType

end RasterStore
