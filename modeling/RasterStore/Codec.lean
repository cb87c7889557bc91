import RasterStore.Action
import RasterStore.BandDescriptor
import RasterStore.Reports

/-!
# Codecs

A codec moves whole blocks between a dataset's storage and decoded pixels. It serves all bands of a
dataset and is a value of its own type `κ`; its operations are steps over that value. What a codec
finds wrong and recovers from it returns with the block, as anomalies.

A codec is only asked for blocks inside a band's grid that can be held in memory, and only given
blocks of the right size.
-/

namespace RasterStore

/-- What a codec is told about the block it is asked for. -/
structure BlockContext where
  block : BlockRef
  descriptor : BandDescriptor
  raster : Size

/-- The part of the block inside the raster. -/
def BlockContext.validSize (context : BlockContext) : Size :=
  context.descriptor.validSize context.raster context.block.x context.block.y

/-- A decoded block and the anomalies found in it. -/
structure Decoded where
  bytes : ByteArray
  anomalies : List Anomaly := []

/-- Decoding and encoding of single blocks. Formats that cannot be written keep the defaults. -/
class Codec (κ : Type) where
  /-- Short name of the format. -/
  name : κ → String
  /-- The block's pixels, exactly `blockBytes` bytes of them, padded beyond the raster. -/
  decode : BlockContext → Action κ Decoded
  /-- Stores the block's pixels. -/
  encode : BlockContext → ByteArray → Action κ Unit := fun _ _ =>
    throw (.notSupported "encode_block")
  /-- Records a new no-data value for a band. -/
  setNoData : (band : Nat) → Option Binary64 → Action κ Unit := fun _ _ =>
    throw (.notSupported "set_no_data_value")
  /-- Brings everything stored so far to its final place. -/
  flush : Action κ Unit := pure ()

end RasterStore
