/-!
# 64-bit floats

Real values are kept as the 64 bits of their form in memory. Storing and loading them changes
nothing then, also where they are not a number: such values have a sign and a fraction as well,
which go through a change of width and through sums.

* `Binary64.toSingle` and `Binary64.ofSingle` change to the 32 bits of a single float and back.
* `Binary64.add` and `Binary64.divide` are the arithmetic that means need.
-/

namespace RasterStore

/-- A 64-bit float: a sign, eleven bits of exponent, 52 bits of fraction. -/
structure Binary64 where
  bits : UInt64
deriving DecidableEq, Inhabited

namespace Binary64

/-- The float with the value of a machine float. -/
def ofFloat (value : Float) : Binary64 :=
  ⟨value.toBits⟩

/-- The machine float with this value. -/
def toFloat (value : Binary64) : Float :=
  Float.ofBits value.bits

/-- The float nearest to an integer. -/
def ofInt (value : Int) : Binary64 :=
  ofFloat (Float.ofInt value)

/-- The value zero, with no sign. -/
def zero : Binary64 := ⟨0⟩

/-- Not a number: the largest exponent with a fraction. -/
def isNaN (value : Binary64) : Bool :=
  value.bits <<< 1 > 0xFFE0000000000000

/-- What arithmetic makes of a value that is not a number: the first bit of its fraction is set. -/
def quiet (value : Binary64) : Binary64 :=
  ⟨value.bits ||| 0x0008000000000000⟩

/-- What arithmetic gives where there is no result. -/
def undefined : Binary64 := ⟨0xFFF8000000000000⟩

/-- The bits of the nearest 32-bit float. What is not a number keeps its sign and the first bits
    of its fraction. -/
def toSingle (value : Binary64) : UInt32 :=
  if value.isNaN then
    let sign : UInt32 := (value.bits >>> 63).toUInt32 <<< 31
    let fraction : UInt32 := (value.quiet.bits >>> 29).toUInt32 &&& 0x007FFFFF
    sign ||| 0x7F800000 ||| fraction
  else value.toFloat.toFloat32.toBits

/-- The float with the value of a 32-bit float, given by its bits. -/
def ofSingle (bits : UInt32) : Binary64 :=
  if bits <<< 1 > 0xFF000000 then
    let sign : UInt64 := (bits >>> 31).toUInt64 <<< 63
    let fraction : UInt64 := (bits &&& 0x007FFFFF).toUInt64 <<< 29
    quiet ⟨sign ||| 0x7FF0000000000000 ||| fraction⟩
  else ofFloat (Float32.ofBits bits).toFloat

/-- The sum. An operand that is not a number is the result, the first one if there are two. -/
def add (first second : Binary64) : Binary64 :=
  if first.isNaN then first.quiet
  else if second.isNaN then second.quiet
  else
    let sum := first.toFloat + second.toFloat
    -- infinities of both signs have no sum
    if sum.isNaN then undefined else ofFloat sum

/-- The value divided by a positive number. -/
def divide (value : Binary64) (count : Nat) : Binary64 :=
  if value.isNaN then value.quiet else ofFloat (value.toFloat / Float.ofNat count)

/-- The values are equal as numbers; what is not a number equals nothing. -/
def sameNumber (first second : Binary64) : Bool :=
  first.toFloat == second.toFloat

end Binary64

end RasterStore
