import RasterStore.BandDescriptor

/-!
# Windows and buffers

A transfer moves pixels between a window of a band and a buffer of the caller. The window may have
another size than the buffer: buffer cell `i` of `count` belongs to the window cell that
`scaled` names, the nearest one at or before it.

* `Window.check` accepts the windows inside the raster.
* `BufferLayout.check` accepts the buffers that hold all pixels at their places.

Sizes and strides come from callers as 64-bit numbers. The checks are exact in unbounded numbers;
the bound of 64 bits shows only in which message a refused layout gets.
-/

namespace RasterStore

/-- What a caller asks to transfer: a window of the raster and the form of the buffer. -/
structure TransferRequest where
  /-- Column of the window's first pixel. -/
  x : Int
  /-- Row of the window's first pixel. -/
  y : Int
  window : Size
  buffer : Size
  /-- Pixel type of the buffer. -/
  type : PixelType
  /-- Bytes from a pixel to the next one of its row; zero if they are packed. -/
  pixelSpace : Nat := 0
  /-- Bytes from a row to the next one; zero if they are packed. -/
  lineSpace : Nat := 0

/-- A rectangle of pixels inside the raster. -/
structure Window where
  x : Nat
  y : Nat
  width : Nat
  height : Nat

/-- Where the pixels of a buffer are. -/
structure BufferLayout where
  width : Nat
  height : Nat
  type : PixelType
  pixelSpace : Nat
  lineSpace : Nat

/-- A refused argument of a transfer. -/
def refused {α : Type} (reason : String) : Except RasterError α :=
  .error (.illegalArgument "raster_io" reason)

/-- The window of a request, if it is not empty and lies inside the raster. -/
def Window.check (request : TransferRequest) (raster : Size) : Except RasterError Window :=
  let origin := pairText (toString request.x) (toString request.y)
  if request.x < 0 ∨ request.y < 0 then
    refused s!"negative window offset {origin}"
  else if request.window.isEmpty then
    refused s!"empty window size {request.window.text}"
  else if raster.width < request.x.toNat + request.window.width ∨
      raster.height < request.y.toNat + request.window.height then
    refused (s!"access window {origin} of size {request.window.text} is outside " ++
      s!"the raster of size {raster.text}")
  else
    .ok ⟨request.x.toNat, request.y.toNat, request.window.width, request.window.height⟩

namespace BufferLayout

/-- Offset of a pixel in the buffer. -/
def offset (layout : BufferLayout) (column row : Nat) : Nat :=
  row * layout.lineSpace + column * layout.pixelSpace

/-- Bytes from the start of the buffer to the end of its last pixel. -/
def extent (layout : BufferLayout) : Nat :=
  layout.offset (layout.width - 1) (layout.height - 1) + layout.type.bytes

/-- The layout that a request asks for, with packed pixels and rows spelled out. -/
def ofRequest (request : TransferRequest) : BufferLayout :=
  let pixelSpace := if request.pixelSpace = 0 then request.type.bytes else request.pixelSpace
  { width := request.buffer.width
    height := request.buffer.height
    type := request.type
    pixelSpace := pixelSpace
    lineSpace :=
      if request.lineSpace = 0 then pixelSpace * request.buffer.width else request.lineSpace }

/-- The layout of a request, if a buffer of `length` bytes holds all of its pixels. -/
def check (request : TransferRequest) (length : Nat) : Except RasterError BufferLayout :=
  let layout := ofRequest request
  if request.buffer.isEmpty then
    refused s!"empty buffer size {request.buffer.text}"
  else if layout.pixelSpace < request.type.bytes then
    refused s!"pixel space {layout.pixelSpace} smaller than a {request.type.name} pixel"
  else if byteLimit 8 ≤ layout.lineSpace ∨ byteLimit 8 ≤ layout.extent then
    refused (s!"buffer of size {request.buffer.text} with pixel space {layout.pixelSpace} " ++
      s!"and line space {request.lineSpace} overflows")
  else if length < layout.extent then
    refused s!"buffer of {length} bytes too small, {layout.extent} needed"
  else
    .ok layout

end BufferLayout

/-! ## Scaling -/

/-- The cell of `extent` cells behind `offset` that belongs to cell `i` of `count`. -/
def scaled (offset i extent count : Nat) : Nat :=
  offset + i * extent / count

/-- The cells that belong to each cell of `count`, in order. -/
def nearestCells (offset extent count : Nat) : List Nat :=
  (List.range count).map fun i => scaled offset i extent count

/-- First cell and number of cells that an average for cell `i` of `count` is taken over. -/
def averagedCells (offset i extent count : Nat) : Nat × Nat :=
  let start := scaled offset i extent count
  (start, max (scaled offset (i + 1) extent count) (start + 1) - start)

end RasterStore
