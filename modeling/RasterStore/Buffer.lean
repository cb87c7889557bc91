import RasterStore.Pixel.Convert

/-!
# Buffers

A buffer is a rectangle of pixels of one type in memory, row by row. A matrix is the same with its
rows and columns counted the other way round, as its shape is written.
-/

namespace RasterStore

/-- A rectangle of packed pixels. Its length is not bound to its size. -/
structure Buffer where
  type : PixelType
  size : Size
  bytes : ByteArray

/-- Pixels of one type in rows and columns. -/
structure PixelMatrix where
  type : PixelType
  rows : Nat
  columns : Nat
  bytes : ByteArray

namespace Buffer

/-- Number of pixels in the buffer. -/
def pixels (buffer : Buffer) : Nat :=
  buffer.bytes.size / buffer.type.bytes

/-- The number of pixels is what the size asks for. -/
def isComplete (buffer : Buffer) : Bool :=
  buffer.pixels == buffer.size.area

/-- A buffer of zeros. -/
def zeros (type : PixelType) (size : Size) : Buffer :=
  ⟨type, size, ByteArray.zeros (size.area * type.bytes)⟩

/-- A buffer that repeats one pixel. -/
def filled (type : PixelType) (size : Size) (pixel : ByteArray) : Buffer :=
  ⟨type, size, (ByteArray.zeros (size.area * type.bytes)).overwriteEach (List.range size.area)
    (· * type.bytes) (fun _ => pixel)⟩

/-- A pixel by its number, counted row by row. -/
def pixel? (buffer : Buffer) (i : Nat) : Option Pixel :=
  if i < buffer.pixels then some (Pixel.decode buffer.type buffer.bytes (i * buffer.type.bytes))
  else none

/-- The pixel in a column and a row. -/
def get? (buffer : Buffer) (column row : Nat) : Option Pixel :=
  if column < buffer.size.width then buffer.pixel? (row * buffer.size.width + column) else none

/-- All pixels, row by row. -/
def toList (buffer : Buffer) : List Pixel :=
  (List.range buffer.pixels).map fun i =>
    Pixel.decode buffer.type buffer.bytes (i * buffer.type.bytes)

/-- The buffers have the same size and equal pixels. What is not a number equals nothing. -/
def sameAs (first second : Buffer) : Bool :=
  first.size == second.size && first.pixels == second.pixels &&
    (first.toList.zip second.toList).all fun (a, b) =>
      a.re.sameNumber b.re && a.im.sameNumber b.im

/-- The sides of a matrix are too long: their product reaches 2 ^ 63. A side of no length counts as
    one, so that an empty matrix can have too long a side as well. -/
def exceedsShapes (size : Size) : Bool :=
  byteLimit 8 / 2 ≤ max 1 size.width * max 1 size.height

/-- The buffer as a matrix. -/
def toMatrix (buffer : Buffer) : Except RasterError PixelMatrix :=
  if exceedsShapes buffer.size then
    .error (.shapeMismatch "ShapeError/Overflow: arithmetic overflow")
  else if buffer.pixels < buffer.size.area then
    .error (.shapeMismatch "ShapeError/OutOfBounds: out of bounds indexing")
  else if buffer.size.area < buffer.pixels then
    .error (.shapeMismatch "ShapeError/IncompatibleShape: incompatible shapes")
  else .ok ⟨buffer.type, buffer.size.height, buffer.size.width, buffer.bytes⟩

/-- A matrix as a buffer. -/
def ofMatrix (matrix : PixelMatrix) : Buffer :=
  ⟨matrix.type, ⟨matrix.columns, matrix.rows⟩, matrix.bytes⟩

theorem ofMatrix_toMatrix {buffer : Buffer} {matrix : PixelMatrix}
    (h : buffer.toMatrix = .ok matrix) : ofMatrix matrix = buffer := by
  unfold toMatrix at h
  split at h
  · contradiction
  · split at h
    · contradiction
    · split at h
      · contradiction
      · cases h
        rfl

end Buffer

/-- The matrix with rows and columns exchanged. -/
def PixelMatrix.transpose (matrix : PixelMatrix) : PixelMatrix :=
  let width := matrix.type.bytes
  { type := matrix.type
    rows := matrix.columns
    columns := matrix.rows
    bytes := (ByteArray.zeros (matrix.rows * matrix.columns * width)).overwriteEach
      (List.range (matrix.rows * matrix.columns))
      (fun i => (i % matrix.columns * matrix.rows + i / matrix.columns) * width)
      (fun i => matrix.bytes.slice (i * width) width) }

end RasterStore
