import RasterStore.Format.Tiled.Header
import RasterStore.Storage

/-!
# Tiled files

A tile is stored when its block is first encoded: it goes to the end of the file, then its index
entry is written, so that a reader never sees an entry without its tile. Encoding the block again
replaces the tile in place. A block without a tile reads as padding.

The writes of one encoding are a list (`TiledCodec.planEncode`), carried out in order.
-/

namespace RasterStore

open Tiled

/-- The storage of a tiled file and the indexes of its bands. -/
structure TiledCodec where
  storage : Storage
  tables : Array BlockTable

namespace TiledCodec

/-! ## New files -/

/-- The indexes of new bands, one after the other from `offset` on. -/
def blankTables (raster : Size) : (offset : Nat) → List BandDescriptor → List BlockTable
  | _, [] => []
  | offset, band :: rest =>
    let table := BlockTable.blank offset band raster
    table :: blankTables raster (offset + table.bytes) rest

/-- Offset behind the last of several indexes that start at `offset`. -/
def tablesEnd : (offset : Nat) → List BlockTable → Nat
  | offset, [] => offset
  | offset, table :: rest => tablesEnd (offset + table.bytes) rest

/-- Writes the headers and blank indexes of a new file. -/
def create (raster : Size) (bands : List BandDescriptor) :
    Action Storage TiledCodec := do
  let header ← Tiled.header raster bands.length
  let bandHeaders ← Tiled.bandHeaders bands
  let headers := header ++ bandHeaders
  let tables := blankTables raster headers.size bands
  Storage.setLength 0
  Storage.write 0 headers
  Storage.setLength (tablesEnd headers.size tables)
  pure ⟨← get, tables.toArray⟩

/-! ## Existing files -/

section Loader

variable {m : Type → Type} [Monad m] [MonadLiftT (Except RasterError) m]

/-- Reads the indexes of bands in a file of some length, one after the other from `offset` on;
    `number` is the first band's. -/
def loadTablesVia (read : (offset count : Nat) → m ByteArray) (length : Nat) (raster : Size) :
    (number offset : Nat) → List BandDescriptor → m (List BlockTable)
  | _, _, [] => pure []
  | number, offset, band :: rest => do
    let bytes := band.blockCount raster * entryBytes
    if byteLimit 4 ≤ band.blockBytes ∨ length < offset + bytes then
      liftM (malformed (s!"band {number} with blocks of {band.block.text} over {raster.text} " ++
        s!"does not fit in {length} bytes") : Except RasterError (List BlockTable))
    else
      let raw ← read offset bytes
      let tables ← loadTablesVia read length raster (number + 1) (offset + bytes) rest
      pure (BlockTable.parse raw offset band raster :: tables)

/-- Reads the headers and indexes of a file, with any way of reading its storage. -/
def loadVia (read : (offset count : Nat) → m ByteArray) (storage : Storage) :
    m (TiledCodec × Size × List BandDescriptor) := do
  let header ← read 0 headerBytes
  let (raster, count) ← liftM (parseHeader header)
  let offset := headerBytes + count * bandHeaderBytes
  -- nothing whose size comes from the file is read before it is known to lie inside
  if storage.length < offset then
    liftM (malformed s!"{count} band headers do not fit in {storage.length} bytes" :
      Except RasterError (TiledCodec × Size × List BandDescriptor))
  else
    let headers ← read headerBytes (count * bandHeaderBytes)
    let bands ← liftM (parseBandHeaders headers count)
    let tables ← loadTablesVia read storage.length raster 1 offset bands
    pure (⟨storage, tables.toArray⟩, raster, bands)

end Loader

/-- Reads the headers and indexes of a file. -/
def load (storage : Storage) : Except RasterError (TiledCodec × Size × List BandDescriptor) :=
  loadVia storage.read storage

/-! ## Blocks -/

/-- The index of a band, counted from one. -/
def table (codec : TiledCodec) (band : Nat) : BlockTable :=
  codec.tables.getD (band - 1) ⟨0, 0, #[]⟩

/-- The pixels of a block. -/
def readBlock (codec : TiledCodec) (context : BlockContext) : Except RasterError ByteArray :=
  let entry := (codec.table context.block.band).entry context.block.x context.block.y
  let expected := context.descriptor.blockBytes
  if !entry.isWritten then .ok context.descriptor.padding
  else if entry.size ≠ expected then
    malformed s!"stored tile of {entry.size} bytes, expected {expected}"
  else codec.storage.read entry.offset expected

/-- The writes that store a block, in order, and the block's index entry after them. -/
def planEncode (codec : TiledCodec) (block : BlockRef) (data : ByteArray) :
    Except RasterError (List (Nat × ByteArray) × IndexEntry) :=
  let table := codec.table block.band
  let entry := table.entry block.x block.y
  if entry.isWritten then
    if entry.size ≠ data.size then
      malformed s!"stored tile of {entry.size} bytes, cannot overwrite with {data.size}"
    else .ok ([(entry.offset, data)], entry)
  else do
    let _ ← dimension data.size
    let added : IndexEntry := ⟨codec.storage.length, data.size⟩
    -- the tile first: until its entry is written, the block reads as it did before
    pure ([(added.offset, data), (table.entryOffset block.x block.y, added.toBytes)], added)

/-- Runs a step on the storage. -/
def onStorage {α : Type} (act : Action Storage α) : Action TiledCodec α := fun codec =>
  match codec with
  | ⟨storage, tables⟩ =>
    match act storage with
    | (outcome, reached) => (outcome, ⟨reached, tables⟩)

/-- Records a block's index entry. -/
def setEntry (codec : TiledCodec) (block : BlockRef) (entry : IndexEntry) : TiledCodec :=
  { codec with
    tables := codec.tables.modify (block.band - 1) (·.setEntry block.x block.y entry) }

/-- Stores a block. -/
def writeBlock (block : BlockRef) (data : ByteArray) : Action TiledCodec Unit := do
  let (writes, entry) ← (← get).planEncode block data
  onStorage (Storage.writeAll writes)
  -- reached only if every write succeeded, so the index in memory is the one in the file
  modify (·.setEntry block entry)

/-- Replaces the no-data value in the header of a band. -/
def writeNoData (band : Nat) (value : Option Binary64) : Action TiledCodec Unit := do
  let offset := bandHeaderOffset band
  let raw ← (← get).storage.read offset bandHeaderBytes
  let descriptor ← parseBandHeader raw 0
  let header ← bandHeader { descriptor with noData := value }
  onStorage (Storage.write offset header)

instance : Codec TiledCodec where
  name _ := "GTiled"
  decode context := do
    let bytes ← (← get).readBlock context
    pure { bytes }
  encode context data := writeBlock context.block data
  setNoData band value := writeNoData band value
  flush := onStorage Storage.flush

end TiledCodec

end RasterStore
