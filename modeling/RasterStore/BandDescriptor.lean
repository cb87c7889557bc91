import RasterStore.Pixel.Convert

/-!
# Bands and their block grids

A band is a raster of one pixel type, cut into blocks of one size. Blocks at the right and lower
edge may reach beyond the raster; the part inside is given by `BandDescriptor.validSize`. What lies
outside, and what was never written, holds the padding: the band's no-data value, or zero.

The sides of a block may have any length, and the numbers of its pixels and bytes are those that
they should be. Blocks are byte strings in memory, though: one of `memoryLimit` bytes or more cannot
be made, and whatever asks for it ends the program (`RasterError.capacityOverflow`). What works with
the bytes of a block checks this first (`Band.checkHeld`); all offsets inside a block that can be
made are numbers that a machine word has.
-/

namespace RasterStore

/-- Pixel type, block size and no-data value of a band. -/
structure BandDescriptor where
  type : PixelType
  block : Size
  noData : Option Binary64 := none
deriving DecidableEq, Inhabited

/-- Number of parts of size `part` that cover `whole`. -/
def partsCovering (whole part : Nat) : Nat :=
  (whole + part - 1) / part

namespace BandDescriptor

/-- Number of pixels in a block, which may be more than a machine word counts. -/
def blockPixels (band : BandDescriptor) : Nat :=
  band.block.area

/-- Number of pixels in a block, if it can be counted in 64 bits. -/
def blockPixels? (band : BandDescriptor) : Option Nat :=
  if band.blockPixels < byteLimit 8 then some band.blockPixels else none

/-- Number of bytes in a block. Only blocks of less than `memoryLimit` bytes can be made. -/
def blockBytes (band : BandDescriptor) : Nat :=
  band.blockPixels * band.type.bytes

/-- Columns and rows of the grid of blocks that covers a raster. -/
def grid (band : BandDescriptor) (raster : Size) : Size :=
  ⟨partsCovering raster.width band.block.width, partsCovering raster.height band.block.height⟩

/-- Number of blocks in the grid. -/
def blockCount (band : BandDescriptor) (raster : Size) : Nat :=
  (band.grid raster).area

/-- The part of the block in column `x` and row `y` of the grid that lies inside the raster. -/
def validSize (band : BandDescriptor) (raster : Size) (x y : Nat) : Size :=
  ⟨min band.block.width (raster.width - x * band.block.width),
    min band.block.height (raster.height - y * band.block.height)⟩

/-- A block filled with the no-data value, or with zeros. -/
def padding (band : BandDescriptor) : ByteArray :=
  match band.noData with
  | some value => fillPixels band.type value (ByteArray.zeros band.blockBytes)
  | none => ByteArray.zeros band.blockBytes

/-- The pixel's number inside a block, counted row by row. It is a machine word for all pixels of a
    block that can be made (`pixel_inside`). -/
def pixelIndex (band : BandDescriptor) (column row : Nat) : Nat :=
  row * band.block.width + column

end BandDescriptor

end RasterStore
