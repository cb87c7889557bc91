import RasterStore.Codec

/-!
# Headers of tiled files

A tiled file starts with a header, followed by one header per band, followed by one index per band,
followed by the tiles. All numbers have their least significant byte first.

| part        | bytes | content                                                                |
|-------------|-------|------------------------------------------------------------------------|
| header      | 24    | magic (8), width (4), height (4), number of bands (4), reserved (4)    |
| band header | 24    | type code (1), flags (1), reserved (2), block width (4), block height (4), reserved (4), no-data value (8) |
| index entry | 12    | offset of the tile (8), size of the tile (4)                           |

An index has an entry for each block of the band's grid, row by row. An entry with offset zero
belongs to a block that was never written.
-/

namespace RasterStore.Tiled

/-- The first bytes of a tiled file. -/
def magic : ByteArray :=
  asciiBytes "BRTILED1"

/-- Bytes in the file header. -/
def headerBytes : Nat := 24

/-- Bytes in a band header. -/
def bandHeaderBytes : Nat := 24

/-- Bytes in an index entry. -/
def entryBytes : Nat := 12

/-- A number that is stored in four bytes. -/
def dimension (n : Nat) : Except RasterError ByteArray :=
  if n < byteLimit 4 then .ok (numberBytes 4 n)
  else .error (.badArgument s!"dimension {n} too large")

/-- A refused file. -/
def malformed {α : Type} (reason : String) : Except RasterError α :=
  .error (.format none reason)

/-! ## The file header -/

/-- The file header of a raster. -/
def header (raster : Size) (bands : Nat) : Except RasterError ByteArray := do
  let width ← dimension raster.width
  let height ← dimension raster.height
  let count ← dimension bands
  pure (magic ++ width ++ height ++ count ++ numberBytes 4 0)

/-- Raster size and number of bands in a file header. -/
def parseHeader (bytes : ByteArray) : Except RasterError (Size × Nat) :=
  if bytes.slice 0 8 != magic then malformed "not a tiled raster, bad magic"
  else
    let raster : Size := ⟨numberAt bytes 8 4, numberAt bytes 12 4⟩
    let bands := numberAt bytes 16 4
    if raster.isEmpty || bands == 0 then
      malformed s!"empty raster: {raster.text} with {bands} band(s)"
    else .ok (raster, bands)

/-! ## Band headers -/

/-- Offset of the header of a band, counted from one. -/
def bandHeaderOffset (band : Nat) : Nat :=
  headerBytes + (band - 1) * bandHeaderBytes

/-- The header of a band. -/
def bandHeader (band : BandDescriptor) : Except RasterError ByteArray := do
  let width ← dimension band.block.width
  let height ← dimension band.block.height
  let flags := if band.noData.isSome then 1 else 0
  pure (numberBytes 1 band.type.code ++ numberBytes 1 flags ++ numberBytes 2 0 ++ width ++ height ++
    numberBytes 4 0 ++ numberBytes 8 (band.noData.getD .zero).bits.toNat)

/-- The headers of several bands, one after the other. -/
def bandHeaders : List BandDescriptor → Except RasterError ByteArray
  | [] => .ok ByteArray.empty
  | band :: rest => do
    let first ← bandHeader band
    let others ← bandHeaders rest
    pure (first ++ others)

/-- The band described by the header at an offset. -/
def parseBandHeader (bytes : ByteArray) (offset : Nat) : Except RasterError BandDescriptor :=
  match PixelType.ofCode (bytes.byteAt offset).toNat with
  | .error error => malformed error.message
  | .ok type =>
    let block : Size := ⟨numberAt bytes (offset + 4) 4, numberAt bytes (offset + 8) 4⟩
    if block.isEmpty then malformed s!"empty block size {block.text}"
    else
      let noData : Binary64 := ⟨(numberAt bytes (offset + 16) 8).toUInt64⟩
      -- only the lowest of the flags has a meaning
      .ok ⟨type, block, if (bytes.byteAt (offset + 1)).toNat % 2 = 1 then some noData else none⟩

/-- The bands described by the headers that follow one another from the start of `bytes`. -/
def parseBandHeaders (bytes : ByteArray) (count : Nat) :
    Except RasterError (List BandDescriptor) :=
  (List.range count).mapM fun i => parseBandHeader bytes (i * bandHeaderBytes)

/-! ## Index entries -/

/-- Where a tile is stored. -/
structure IndexEntry where
  offset : Nat := 0
  size : Nat := 0
deriving DecidableEq

namespace IndexEntry

/-- The block has a tile. -/
def isWritten (entry : IndexEntry) : Bool :=
  entry.offset != 0

/-- The entry as stored. -/
def toBytes (entry : IndexEntry) : ByteArray :=
  numberBytes 8 entry.offset ++ numberBytes 4 entry.size

/-- The entry stored at an offset. -/
def parse (bytes : ByteArray) (offset : Nat) : IndexEntry :=
  ⟨numberAt bytes offset 8, numberAt bytes (offset + 8) 4⟩

end IndexEntry

/-- The index of one band. -/
structure BlockTable where
  /-- Offset of the first entry in the file. -/
  offset : Nat
  blocksPerRow : Nat
  /-- One entry per block, row by row. -/
  entries : Array IndexEntry

namespace BlockTable

/-- Bytes taken by the index. -/
def bytes (table : BlockTable) : Nat :=
  table.entries.size * entryBytes

/-- The number of a block's entry. -/
def entryIndex (table : BlockTable) (x y : Nat) : Nat :=
  y * table.blocksPerRow + x

/-- Offset of a block's entry in the file. -/
def entryOffset (table : BlockTable) (x y : Nat) : Nat :=
  table.offset + table.entryIndex x y * entryBytes

/-- The entry of a block. -/
def entry (table : BlockTable) (x y : Nat) : IndexEntry :=
  table.entries.getD (table.entryIndex x y) {}

/-- The index with a new entry for a block. -/
def setEntry (table : BlockTable) (x y : Nat) (entry : IndexEntry) : BlockTable :=
  { table with entries := table.entries.setIfInBounds (table.entryIndex x y) entry }

/-- The index of a band none of whose blocks is written. -/
def blank (offset : Nat) (band : BandDescriptor) (raster : Size) : BlockTable :=
  ⟨offset, (band.grid raster).width, Array.replicate (band.blockCount raster) {}⟩

/-- The index stored at an offset. -/
def parse (bytes : ByteArray) (offset : Nat) (band : BandDescriptor) (raster : Size) :
    BlockTable :=
  ⟨offset, (band.grid raster).width,
    (Array.range (band.blockCount raster)).map fun i => IndexEntry.parse bytes (i * entryBytes)⟩

end BlockTable

end RasterStore.Tiled
