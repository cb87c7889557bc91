import RasterStore.Codec
import RasterStore.Text.Numeral
import RasterStore.Text.Quoted
import RasterStore.Text.Utf8

/-!
# Records of elevation files

An elevation file holds a matrix of 16-bit elevations, one data record per column. Three header
records come before the data: the user header label (80 bytes), the data set identification (648)
and the accuracy description (2700). Volume and file labels of 80 bytes each may precede them.

A data record holds a sentinel, three bytes of block count, the column number twice, the column's
samples from south to north and a checksum. All numbers have their most significant byte first.
Samples are stored as sign and magnitude, which has no -32768: `encodeSample` stores it as the
no-data value -32767.
-/

namespace RasterStore.Dted

/-- Bytes in the user header label, and in each label before it. -/
def labelBytes : Nat := 80

/-- Bytes in the data set identification. -/
def identificationBytes : Nat := 648

/-- Bytes in the accuracy description. -/
def accuracyBytes : Nat := 2700

/-- Most rows and columns that a header can count. -/
def maxCount : Nat := 9999

/-- The elevation that stands for missing data. -/
def noData : Int := -32767

/-! ## Header fields -/

/-- The number in the `size` bytes of a label from position `start` on, counted from one. -/
def field (label : ByteArray) (start size : Nat) : Except RasterError Nat :=
  let raw := (label.slice (start - 1) size).toList
  match (Utf8.text? raw).bind numeral? with
  | some number => .ok number
  | none =>
    let shown := quoted (Utf8.repaired raw)
    .error (.format none s!"bad numeric field at {start}: {shown}")

/-- The text of the user header label of a matrix, without the blanks that fill it up. -/
def labelText (raster : Size) : String :=
  "UHL10000000E0000000N03000300NA  U  " ++ "".pushn ' ' 12 ++
    String.ofList (paddedDigits 4 raster.width ++ paddedDigits 4 raster.height) ++ "0"

/-- A record that starts with a text and is filled up with blanks. -/
def blankRecord (text : String) (size : Nat) : ByteArray :=
  asciiBytes (text ++ "".pushn ' ' (size - text.length))

/-- The three header records of a matrix. -/
def headers (raster : Size) : ByteArray :=
  blankRecord (labelText raster) labelBytes ++ blankRecord "DSIU" identificationBytes ++
    blankRecord "ACC" accuracyBytes

/-! ## Samples -/

/-- The two bytes of an elevation, as sign and magnitude. -/
def encodeSample (value : Int) : List UInt8 :=
  let magnitude := (max value noData).natAbs
  let high := if value < 0 then 128 + magnitude / 256 else magnitude / 256
  [UInt8.ofNat high, UInt8.ofNat magnitude]

/-- The elevation in two bytes and whether it had to be read as two's complement: values below
    -16000 are taken to be stored that way, apart from the no-data value. -/
def decodeSample (high low : UInt8) : Int × Bool :=
  let magnitude : Int := (high.toNat % 128 : Nat) * 256 + low.toNat
  -- the sign is in the highest bit
  if high < 128 then (magnitude, false)
  else if -magnitude < -16000 ∧ -magnitude ≠ noData then (magnitude - 32768, true)
  else (-magnitude, false)

/-! ## Data records -/

/-- The first byte of a data record. -/
def sentinel : UInt8 := 0xAA

/-- Bytes in the record of a column. -/
def recordBytes (rows : Nat) : Nat :=
  12 + 2 * rows

/-- The sum of bytes, as a 32-bit number. -/
def checksum (bytes : ByteArray) : UInt32 :=
  bytes.foldl (fun sum byte => sum + byte.toUInt32) 0

/-- The `width` bytes of a number, most significant byte first. -/
def bigEndian (width n : Nat) : List UInt8 :=
  (littleEndian width n).reverse

/-- The part of a data record that its checksum covers. Rows without an elevation hold zero;
    elevations for which there is no row are left out, northern ones first. -/
def recordBody (rows column : Nat) (values : List Int) : ByteArray :=
  let count := bigEndian 2 column
  let samples := (values.reverse.take rows).flatMap encodeSample
  ([sentinel, 0] ++ count ++ count ++ [0, 0] ++ samples).toByteArray ++
    ByteArray.zeros (2 * rows - samples.length)

/-- The data record of a column with the given elevations, from north to south. -/
def record (rows column : Nat) (values : List Int) : ByteArray :=
  let body := recordBody rows column values
  body ++ (bigEndian 4 (checksum body).toNat).toByteArray

/-- The checksum stored in a data record. -/
def storedChecksum (rows : Nat) (record : ByteArray) : Nat :=
  ofLittleEndian (record.slice (8 + 2 * rows) 4).toList.reverse

/-- The elevations of a data record, from south to north. -/
def samples (rows : Nat) (record : ByteArray) : List (Int × Bool) :=
  (List.range rows).map fun i =>
    decodeSample (record.byteAt (8 + 2 * i)) (record.byteAt (9 + 2 * i))

/-- The elevations of a block, from north to south. -/
def blockValues (data : ByteArray) : List Int :=
  (List.range (data.size / 2)).map fun i => Int.bmod (numberAt data (2 * i) 2) (byteLimit 2)

/-- The block with the given elevations, from north to south. -/
def blockOfValues (values : List Int) : ByteArray :=
  (values.flatMap fun (value : Int) => littleEndian 2 (value % byteLimit 2).toNat).toByteArray

/-- What is reported of a record whose checksum is wrong. -/
def checksumAnomaly (column : Nat) : Anomaly :=
  ⟨"dted-checksum", s!"DTED checksum mismatch in column {column}"⟩

/-- What is reported of a record with samples in two's complement. -/
def complementAnomaly : Anomaly :=
  ⟨"dted-twos-complement",
    "found DTED values less than -16000 and adjusted them, assuming they are " ++
      "improperly two's complemented"⟩

/-- The text of a byte as a hexadecimal number. -/
def hexByte (byte : UInt8) : String :=
  let digits := hexDigits byte.toNat
  "0x" ++ (if digits.length < 2 then "0" ++ digits else digits)

/-- The block in the data record of a column, with what was found wrong in it. -/
def parseRecord (rows column : Nat) (record : ByteArray) : Except RasterError Decoded :=
  let first := record.byteAt 0
  if first ≠ sentinel then
    let shown := hexByte first
    .error (.format none s!"data record sentinel is {shown}")
  else
    let body := record.slice 0 (8 + 2 * rows)
    let found := samples rows record
    let wrongSum := storedChecksum rows record ≠ (checksum body).toNat
    .ok
      -- the record runs from south to north, the block from north to south
      { bytes := blockOfValues (found.reverse.map (·.1))
        anomalies :=
          (if wrongSum then [checksumAnomaly column] else []) ++
            (if found.any (·.2) then [complementAnomaly] else []) }

end RasterStore.Dted
