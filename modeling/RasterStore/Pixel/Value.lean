import RasterStore.Bytes
import RasterStore.Pixel.Binary64
import RasterStore.Pixel.Type

/-!
# Pixel values

The value of a component is a `Sample`: an exact integer or a 64-bit float. Integer components
never pass through a float on their way from one integer type to another, so converting them is
plain modular arithmetic. A pixel is a pair of samples; the imaginary part of a real pixel is zero.

* `Sample.encode` and `Sample.decode` store and load one component.
* `Pixel.encode` and `Pixel.decode` store and load a whole pixel.
-/

namespace RasterStore

/-- The value of one component of a pixel. -/
inductive Sample where
  | int (value : Int)
  | real (value : Binary64)

/-- The integer nearest to a float on the side of zero, limited to the signed 64-bit range; zero
    for what is not a number. -/
def truncated (value : Float) : Int :=
  -- the conversion to an unsigned number stops at its bounds and sends what is no number to zero
  if value < 0 then -(min (-value).toUInt64.toNat (byteLimit 8 / 2) : Nat)
  else min value.toUInt64.toNat (byteLimit 8 / 2 - 1)

namespace Sample

/-- The value as a float. -/
def toReal : Sample → Binary64
  | int value => .ofInt value
  | real value => value

/-- The value as an integer, cut off toward zero. -/
def toInt : Sample → Int
  | int value => value
  | real value => truncated value.toFloat

/-- The bytes of a sample stored as a component. Integers keep only as many low bits as fit. -/
def encode (component : Component) (sample : Sample) : List UInt8 :=
  match component with
  | .unsigned width | .signed width =>
    littleEndian width (sample.toInt % byteLimit width).toNat
  | .single => littleEndian 4 sample.toReal.toSingle.toNat
  | .double => littleEndian 8 sample.toReal.bits.toNat

/-- The sample held by a component whose bytes form the number `stored`. -/
def decode (component : Component) (stored : Nat) : Sample :=
  match component with
  | .unsigned _ => int stored
  | .signed width => int (Int.bmod stored (byteLimit width))
  | .single => real (.ofSingle stored.toUInt32)
  | .double => real ⟨stored.toUInt64⟩

@[simp] theorem length_encode (component : Component) (sample : Sample) :
    (sample.encode component).length = component.bytes := by
  cases component <;> simp [encode, Component.bytes]

/-- Two samples are equal as numbers; what is not a number equals nothing. -/
def sameNumber : Sample → Sample → Bool
  | int first, int second => first == second
  | first, second => first.toReal.sameNumber second.toReal

end Sample

/-- The value of a pixel. The imaginary part belongs to complex types. -/
structure Pixel where
  re : Sample
  im : Sample

namespace Pixel

/-- A pixel with no imaginary part. -/
def ofReal (value : Binary64) : Pixel :=
  ⟨.real value, .real .zero⟩

/-- The pixel stored at an offset. -/
def decode (type : PixelType) (bytes : ByteArray) (offset : Nat) : Pixel :=
  let width := type.componentBytes
  let re := Sample.decode type.component (numberAt bytes offset width)
  if type.isComplex then
    ⟨re, Sample.decode type.component (numberAt bytes (offset + width) width)⟩
  else
    ⟨re, .int 0⟩

/-- The bytes of a pixel of the given type; a real type drops the imaginary part. -/
def encode (type : PixelType) (pixel : Pixel) : ByteArray :=
  if type.isComplex then
    (pixel.re.encode type.component ++ pixel.im.encode type.component).toByteArray
  else
    (pixel.re.encode type.component).toByteArray

@[simp] theorem size_encode (type : PixelType) (pixel : Pixel) :
    (pixel.encode type).size = type.bytes := by
  unfold encode PixelType.bytes PixelType.componentBytes
  split
  · simp
    omega
  · simp

end Pixel

end RasterStore
