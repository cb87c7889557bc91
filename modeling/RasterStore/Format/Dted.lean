import RasterStore.Format.Dted.Record
import RasterStore.Storage

/-!
# Elevation files

An elevation file has a single band of 16-bit integers. Each column is one block, read from north
to south.
-/

namespace RasterStore

open Dted

/-- The storage of an elevation file, the offset of its first data record and its size. -/
structure DtedCodec where
  storage : Storage
  dataOffset : Nat
  raster : Size

namespace DtedCodec

/-- The only band of a matrix with the given number of rows. -/
def band (rows : Nat) : BandDescriptor :=
  ⟨.int16, ⟨1, rows⟩, some (.ofInt noData)⟩

/-- The record starts with one of the texts. -/
def hasTag (record : ByteArray) (tags : List String) : Bool :=
  tags.any fun tag => record.startsWith (asciiBytes tag)

/-! ## Existing files -/

/-- The first label that is no volume or file label, and the offset behind it. At most `fuel`
    labels are read; a storage holds fewer than one per `labelBytes` of its length. -/
def skipLabels (storage : Storage) : (fuel offset : Nat) → Except RasterError (ByteArray × Nat)
  | 0, offset => do
    let label ← storage.read offset labelBytes
    pure (label, offset + labelBytes)
  | fuel + 1, offset => do
    let label ← storage.read offset labelBytes
    if hasTag label ["VOL", "HDR"] then skipLabels storage fuel (offset + labelBytes)
    else pure (label, offset + labelBytes)

/-- Reads the header records of a file. -/
def load (storage : Storage) : Except RasterError DtedCodec := do
  let (label, offset) ← skipLabels storage (storage.length / labelBytes) 0
  if !hasTag label ["UHL"] then
    .error (.format none "no UHL record, not a DTED file")
  else
    let identification ← storage.read offset 3
    let accuracy ← storage.read (offset + identificationBytes) 3
    if !hasTag identification ["DSI"] || !hasTag accuracy ["ACC"] then
      .error (.format none "DSI or ACC record missing")
    else
      let raster : Size := ⟨← field label 48 4, ← field label 52 4⟩
      if raster.isEmpty then
        .error (.format none s!"empty elevation matrix {raster.text}")
      else
        pure ⟨storage, offset + identificationBytes + accuracyBytes, raster⟩

/-! ## Columns -/

/-- Offset of the data record of a column. -/
def recordOffset (codec : DtedCodec) (column : Nat) : Nat :=
  codec.dataOffset + column * recordBytes codec.raster.height

/-- Runs a step on the storage. -/
def onStorage {α : Type} (act : Action Storage α) : Action DtedCodec α := fun codec =>
  match codec with
  | ⟨storage, dataOffset, raster⟩ =>
    match act storage with
    | (outcome, reached) => (outcome, ⟨reached, dataOffset, raster⟩)

/-- Stores the elevations of a column, from north to south. -/
def writeColumn (column : Nat) (values : List Int) : Action DtedCodec Unit := do
  let codec ← get
  let offset := codec.recordOffset column
  let data := record codec.raster.height column values
  onStorage (Storage.write offset data)

/-- The block of a column. -/
def readColumn (codec : DtedCodec) (column : Nat) : Except RasterError Decoded := do
  let rows := codec.raster.height
  parseRecord rows column (← codec.storage.read (codec.recordOffset column) (recordBytes rows))

/-! ## New files -/

/-- Writes the headers of a new file and a record of zeros for each column. -/
def create (raster : Size) : Action Storage DtedCodec := do
  if raster.isEmpty || maxCount < raster.width || maxCount < raster.height then
    throw (.badArgument
      s!"DTED matrices are 1 to {maxCount} samples on a side, got {raster.text}")
  else
    let headers := headers raster
    Storage.setLength 0
    Storage.write 0 headers
    let zeros := List.replicate raster.height (0 : Int)
    (List.range raster.width).forM fun column =>
      Storage.write (headers.size + column * recordBytes raster.height)
        (record raster.height column zeros)
    pure ⟨← get, headers.size, raster⟩

instance : Codec DtedCodec where
  name _ := "DTED"
  decode context := do
    let codec ← get
    codec.readColumn context.block.x
  encode context data := writeColumn context.block.x (blockValues data)
  flush := onStorage Storage.flush

end DtedCodec

end RasterStore
