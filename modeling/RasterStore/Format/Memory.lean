import RasterStore.Codec

/-!
# Rasters in memory

Each band is a plane: all of its pixels, row by row. Blocks are cut from the plane and pasted back
into it, so the block size only decides how the cache sees the pixels. What of a block lies outside
the raster is not kept.

A plane is one byte string. There are no planes for a raster that is too large to be held in memory:
the program ends when it makes them.
-/

namespace RasterStore

/-- The planes of all bands of a raster. -/
structure MemoryCodec where
  raster : Size
  planes : Array ByteArray

namespace MemoryCodec

/-- Planes of zeros. -/
def blank (raster : Size) (bands : Array BandDescriptor) : MemoryCodec :=
  ⟨raster, bands.map fun band => ByteArray.zeros (raster.area * band.type.bytes)⟩

/-- The pixels of a raster can be counted, and the planes of its bands held in memory. -/
def isHeld (raster : Size) (bands : Array BandDescriptor) : Bool :=
  raster.area < byteLimit 8 && bands.all fun band => raster.area * band.type.bytes < memoryLimit

/-- Makes planes of zeros. -/
def create (raster : Size) (bands : Array BandDescriptor) : Except RasterError MemoryCodec :=
  if isHeld raster bands then .ok (blank raster bands) else .error .capacityOverflow

/-- The plane of a band, counted from one. -/
def plane? (codec : MemoryCodec) (band : Nat) : Option ByteArray :=
  if band = 0 then none else codec.planes[band - 1]?

/-- Offset in the plane of the first pixel of a row of a block. -/
def planeOffset (raster : Size) (context : BlockContext) (row : Nat) : Nat :=
  let block := context.descriptor.block
  ((context.block.y * block.height + row) * raster.width + context.block.x * block.width) *
    context.descriptor.type.bytes

/-- Offset in the block of the first pixel of one of its rows. -/
def blockOffset (context : BlockContext) (row : Nat) : Nat :=
  context.descriptor.pixelIndex 0 row * context.descriptor.type.bytes

/-- Bytes in the part of a row that lies inside the raster. -/
def rowBytes (context : BlockContext) : Nat :=
  context.validSize.width * context.descriptor.type.bytes

/-- The block cut from a plane. -/
def cut (raster : Size) (context : BlockContext) (plane : ByteArray) : ByteArray :=
  context.descriptor.padding.overwriteEach (List.range context.validSize.height)
    (blockOffset context)
    (fun row => plane.slice (planeOffset raster context row) (rowBytes context))

/-- The plane with a block pasted into it. -/
def paste (raster : Size) (context : BlockContext) (data plane : ByteArray) : ByteArray :=
  plane.overwriteEach (List.range context.validSize.height)
    (planeOffset raster context)
    (fun row => data.slice (blockOffset context row) (rowBytes context))

instance : Codec MemoryCodec where
  name _ := "MEM"
  decode context := do
    let codec ← get
    let plane := codec.planes.getD (context.block.band - 1) ByteArray.empty
    pure { bytes := cut codec.raster context plane }
  encode context data :=
    modify fun codec =>
      { codec with
        planes := codec.planes.modify (context.block.band - 1) (paste codec.raster context data) }
  setNoData _ _ := pure ()

end MemoryCodec

end RasterStore
