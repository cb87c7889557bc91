import RasterStore.BlockStore
import RasterStore.Window

/-!
# Transfers between blocks and buffers

Reading copies a window of a band into a buffer, row by row; writing stores a buffer into a window,
block by block. Both convert between the pixel types of band and buffer. A failing block ends the
transfer; what was done before it stays.

* `readNearest` takes for each buffer pixel the nearest window pixel. In each row, the columns that
  lie in one block are served by one request for it (`columnRuns`).
* `readAverage` takes the mean of the window pixels that belong to a buffer pixel, leaving out
  those that equal the no-data value.
* `writeWindow` gives each window pixel the buffer pixel that belongs to it. A block whose inside
  is covered by the window is not decoded first.
-/

namespace RasterStore

/-- How buffer pixels are made from window pixels if the sizes differ. -/
inductive Resampling where
  /-- The nearest window pixel. -/
  | nearest
  /-- The mean of all window pixels that belong to the buffer pixel. -/
  | average
deriving DecidableEq

variable {κ : Type} [Codec κ]

/-- The key of the block that holds a pixel. -/
def BandDescriptor.blockOf (descriptor : BandDescriptor) (band x y : Nat) : BlockRef :=
  ⟨band, x / descriptor.block.width, y / descriptor.block.height⟩

/-- Offset of a pixel of the raster inside its block. -/
def BandDescriptor.offsetOf (descriptor : BandDescriptor) (x y : Nat) : Nat :=
  descriptor.pixelIndex (x % descriptor.block.width) (y % descriptor.block.height) *
    descriptor.type.bytes

/-! ## Nearest neighbour -/

/-- One column of the buffer and the column of the raster that it is read from. -/
structure ColumnPair where
  source : Nat
  target : Nat

/-- The columns of the buffer with their sources, split where the block changes. -/
def columnRuns (blockWidth : Nat) (sources : List Nat) : List (List ColumnPair) :=
  (sources.zipIdx.map fun (source, target) => ⟨source, target⟩).splitBy
    fun first second => first.source / blockWidth == second.source / blockWidth

/-- Copies one run of a buffer row from the bytes of its block. -/
def copyRun (descriptor : BandDescriptor) (layout : BufferLayout) (data : ByteArray)
    (sourceRow row : Nat) (run : List ColumnPair) (buffer : ByteArray) : ByteArray :=
  buffer.overwriteEach run (fun pair => layout.offset pair.target row)
    (fun pair => convertPixel descriptor.type layout.type data
      (descriptor.offsetOf pair.source sourceRow))

/-- Reads one run of a buffer row. -/
def readRun (band : Nat) (descriptor : BandDescriptor) (layout : BufferLayout)
    (sourceRow row : Nat) : List ColumnPair → Action (BlockStore κ × ByteArray) Unit
  | [] => pure ()
  | pair :: rest => do
    -- all columns of the run lie in the block of its first one
    let data ← (BlockStore.fetch (descriptor.blockOf band pair.source sourceRow) .read).onFirst
    Action.onSecond (modify (copyRun descriptor layout data sourceRow row (pair :: rest)))

/-- Fills the buffer with the nearest window pixels. -/
def readNearest (band : Nat) (descriptor : BandDescriptor) (window : Window)
    (layout : BufferLayout) : Action (BlockStore κ × ByteArray) Unit :=
  let runs := columnRuns descriptor.block.width
    (nearestCells window.x window.width layout.width)
  (List.range layout.height).forM fun row =>
    runs.forM fun run =>
      readRun band descriptor layout (scaled window.y row window.height layout.height) row run

/-! ## Average -/

/-- A sum of pixels and their number. -/
structure PixelSum where
  re : Binary64 := .zero
  im : Binary64 := .zero
  count : Nat := 0

namespace PixelSum

/-- The value stands for missing data. A no-data value that is not a number stands for all of
    its kind. -/
def isNoData (value noData : Binary64) : Bool :=
  value.sameNumber noData || (value.isNaN && noData.isNaN)

/-- Adds a pixel, unless it is missing. -/
def add (sum : PixelSum) (noData : Option Binary64) (pixel : Pixel) : PixelSum :=
  let re := pixel.re.toReal
  if noData.any (isNoData re) then sum
  else ⟨sum.re.add re, sum.im.add pixel.im.toReal, sum.count + 1⟩

/-- The mean of the pixels; the no-data value, or zero, if all of them are missing. -/
def mean (sum : PixelSum) (noData : Option Binary64) : Pixel :=
  if sum.count = 0 then Pixel.ofReal (noData.getD .zero)
  else ⟨.real (sum.re.divide sum.count), .real (sum.im.divide sum.count)⟩

end PixelSum

/-- Adds a pixel of the raster to a sum. -/
def addPixel (band : Nat) (descriptor : BandDescriptor) (sum : PixelSum) (cell : Nat × Nat) :
    Action (BlockStore κ) PixelSum := do
  let data ← BlockStore.fetch (descriptor.blockOf band cell.1 cell.2) .read
  pure (sum.add descriptor.noData
    (Pixel.decode descriptor.type data (descriptor.offsetOf cell.1 cell.2)))

/-- The window pixels that belong to a buffer pixel, row by row. -/
def averagedBox (window : Window) (layout : BufferLayout) (column row : Nat) :
    List (Nat × Nat) :=
  let columns := averagedCells window.x column window.width layout.width
  let rows := averagedCells window.y row window.height layout.height
  cells columns.1 rows.1 ⟨columns.2, rows.2⟩

/-- Fills one buffer pixel with the mean of its window pixels. -/
def readMean (band : Nat) (descriptor : BandDescriptor) (window : Window)
    (layout : BufferLayout) (target : Nat × Nat) : Action (BlockStore κ × ByteArray) Unit := do
  let (column, row) := target
  let sum ← Action.onFirst
    ((averagedBox window layout column row).foldlM (addPixel band descriptor) {})
  let pixel := (sum.mean descriptor.noData).encode layout.type
  Action.onSecond (modify fun buffer => buffer.overwrite (layout.offset column row) pixel)

/-- Fills the buffer with means of window pixels. -/
def readAverage (band : Nat) (descriptor : BandDescriptor) (window : Window)
    (layout : BufferLayout) : Action (BlockStore κ × ByteArray) Unit :=
  (cells 0 0 ⟨layout.width, layout.height⟩).forM (readMean band descriptor window layout)

/-- Copies a window of a band into a buffer. -/
def readWindow (band : Nat) (window : Window) (layout : BufferLayout) (resampling : Resampling) :
    Action (BlockStore κ × ByteArray) Unit := do
  let descriptor := (← get).1.descriptor band
  match resampling with
  | .nearest => readNearest band descriptor window layout
  | .average => readAverage band descriptor window layout

/-! ## Writing -/

/-- Columns and rows of the blocks that a window touches, row by row. -/
def touchedBlocks (descriptor : BandDescriptor) (window : Window) : List (Nat × Nat) :=
  let x := window.x / descriptor.block.width
  let y := window.y / descriptor.block.height
  let lastX := (window.x + window.width - 1) / descriptor.block.width
  let lastY := (window.y + window.height - 1) / descriptor.block.height
  cells x y ⟨lastX + 1 - x, lastY + 1 - y⟩

/-- The window covers everything of a block that lies inside the raster. -/
def covers (descriptor : BandDescriptor) (raster : Size) (window : Window) (x y : Nat) : Bool :=
  let valid := descriptor.validSize raster x y
  let x0 := x * descriptor.block.width
  let y0 := y * descriptor.block.height
  window.x ≤ x0 && window.y ≤ y0 &&
    x0 + valid.width ≤ window.x + window.width && y0 + valid.height ≤ window.y + window.height

/-- The pixels of the raster that lie in the window and in a block, row by row. -/
def sharedCells (descriptor : BandDescriptor) (raster : Size) (window : Window) (x y : Nat) :
    List (Nat × Nat) :=
  let valid := descriptor.validSize raster x y
  let x0 := x * descriptor.block.width
  let y0 := y * descriptor.block.height
  let left := max x0 window.x
  let top := max y0 window.y
  cells left top
    ⟨min (x0 + valid.width) (window.x + window.width) - left,
      min (y0 + valid.height) (window.y + window.height) - top⟩

/-- The buffer pixel that belongs to a pixel of the window, in the band's type. -/
def bufferPixel (descriptor : BandDescriptor) (window : Window) (layout : BufferLayout)
    (buffer : ByteArray) (cell : Nat × Nat) : ByteArray :=
  let column := scaled 0 (cell.1 - window.x) layout.width window.width
  let row := scaled 0 (cell.2 - window.y) layout.height window.height
  convertPixel layout.type descriptor.type buffer (layout.offset column row)

/-- Stores the buffer pixels that belong to a block into its bytes. -/
def pasteWindow (descriptor : BandDescriptor) (raster : Size) (window : Window)
    (layout : BufferLayout) (buffer : ByteArray) (x y : Nat) (data : ByteArray) : ByteArray :=
  data.overwriteEach (sharedCells descriptor raster window x y)
    (fun cell => descriptor.offsetOf cell.1 cell.2)
    (bufferPixel descriptor window layout buffer)

/-- Stores the part of a buffer that belongs to one block. -/
def writeBlockPart (band : Nat) (window : Window) (layout : BufferLayout) (buffer : ByteArray)
    (position : Nat × Nat) : Action (BlockStore κ) Unit := do
  let store ← get
  let descriptor := store.descriptor band
  let raster := store.raster
  let (x, y) := position
  -- what the window leaves of the block has to be decoded; if it leaves nothing, padding will do
  let use := if covers descriptor raster window x y then BlockUse.overwrite else BlockUse.update
  BlockStore.change ⟨band, x, y⟩ use (pasteWindow descriptor raster window layout buffer x y)

/-- Stores a buffer into a window of a band. -/
def writeWindow (band : Nat) (window : Window) (layout : BufferLayout) (buffer : ByteArray) :
    Action (BlockStore κ) Unit := do
  let descriptor := (← get).descriptor band
  (touchedBlocks descriptor window).forM (writeBlockPart band window layout buffer)

/-- Sets every pixel of a band to a value. -/
def fillBand (band : Nat) (value : Binary64) : Action (BlockStore κ) Unit := do
  let store ← get
  let descriptor := store.descriptor band
  (cells 0 0 (descriptor.grid store.raster)).forM fun (x, y) =>
    BlockStore.change ⟨band, x, y⟩ .overwrite (fillPixels descriptor.type value)

end RasterStore
