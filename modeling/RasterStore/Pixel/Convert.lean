import RasterStore.Pixel.Value

/-!
# Conversion between pixel types

Conversion is total: integers wrap around to the width of the target, floats are cut off toward
zero and then wrap around, and a complex pixel becomes real by dropping its imaginary part. Pixels
of the target's own type are copied byte for byte.

* `convertPixel` gives the bytes of one converted pixel.
* `convertPixels` converts a packed row of pixels inside a destination.
* `fillPixels` repeats one value over a packed buffer.
-/

namespace RasterStore

/-- The pixel at an offset, as bytes of the target type. -/
def convertPixel (source target : PixelType) (bytes : ByteArray) (offset : Nat) : ByteArray :=
  if source = target then bytes.slice offset source.bytes
  else (Pixel.decode source bytes offset).encode target

/-- Converts the first `count` packed pixels of `bytes` into the start of `into`. -/
def convertPixels (source target : PixelType) (bytes into : ByteArray) (count : Nat) :
    ByteArray :=
  if source = target then into.overwrite 0 (bytes.slice 0 (count * source.bytes))
  else into.overwriteEach (List.range count) (· * target.bytes)
    (fun i => convertPixel source target bytes (i * source.bytes))

/-- The bytes of a real value as one pixel. -/
def pixelBytes (type : PixelType) (value : Binary64) : ByteArray :=
  (Pixel.ofReal value).encode type

/-- Writes the value into every whole pixel of a packed buffer. -/
def fillPixels (type : PixelType) (value : Binary64) (buffer : ByteArray) : ByteArray :=
  let pixel := pixelBytes type value
  buffer.overwriteEach (List.range (buffer.size / type.bytes)) (· * type.bytes) (fun _ => pixel)

end RasterStore
