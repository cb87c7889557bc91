import RasterStore.Format.Dted.Record
import RasterStore.Proofs.Bytes.Numbers
import RasterStore.Proofs.Text.Numerals

/-!
# Data records that are read back

Writer and reader agree on the form of a record: sentinel, checksum and the places of the samples.
They do not agree on the samples themselves. The writer stores sign and magnitude, and the reader
takes what it finds below -16000 for two's complement, so that these values come back changed:

* `reread_eq`              what becomes of each 16-bit value
* `parseRecord_record`     a record is read as its values, each one as it is reread
* `blockValues_blockOfValues`  a block holds the values it was made of
-/

namespace RasterStore.Dted

open ByteArray

/-! ## Rows of items of one width -/

/-- Items of one width lie one behind the other. -/
theorem getElem?_flatMap_of_width {ι α : Type} {f : ι → List α} {width : Nat} {items : List ι}
    (h : ∀ item ∈ items, (f item).length = width) {i k : Nat} (hi : i < items.length)
    (hk : k < width) : (items.flatMap f)[width * i + k]? = (f items[i])[k]? := by
  induction items generalizing i with
  | nil => exact absurd hi (Nat.not_lt_zero i)
  | cons first rest ih =>
    have hfirst : (f first).length = width := h first (by simp)
    rw [List.flatMap_cons]
    cases i with
    | zero =>
      rw [Nat.mul_zero, Nat.zero_add, List.getElem?_append_left (by omega)]
      rfl
    | succ i =>
      -- the other items start behind the first one
      have hplace : width * (i + 1) + k = width + (width * i + k) := by
        rw [Nat.mul_succ]
        omega
      rw [hplace, List.getElem?_append_right (by omega), hfirst, Nat.add_sub_cancel_left]
      exact ih (fun item hmem => h item (List.mem_cons_of_mem _ hmem))
        (Nat.lt_of_succ_lt_succ hi)

/-- Items of one width make a list of that width for each. -/
theorem length_flatMap_of_width {ι α : Type} {f : ι → List α} {width : Nat} {items : List ι}
    (h : ∀ item ∈ items, (f item).length = width) :
    (items.flatMap f).length = width * items.length := by
  induction items with
  | nil => rfl
  | cons first rest ih =>
    rw [List.flatMap_cons, List.length_append, h first (by simp),
      ih fun item hmem => h item (List.mem_cons_of_mem _ hmem), List.length_cons, Nat.mul_succ]
    omega

/-- The bytes of a list are its items, and zero behind its end. -/
theorem byteAt_toByteArray (bytes : List UInt8) (i : Nat) :
    bytes.toByteArray.byteAt i = (bytes[i]?).getD 0 := by
  by_cases hi : i < bytes.length
  · rw [byteAt_of_lt (by simpa using hi), List.getElem?_eq_getElem hi]
    exact List.getElem_toByteArray
  · rw [byteAt_of_le (by simpa using hi), List.getElem?_eq_none (by omega)]
    rfl

/-! ## One sample -/

/-- The value of a 16-bit integer. -/
def IsSample (value : Int) : Prop :=
  -32768 ≤ value ∧ value < 32768

/-- The value is one that the reader takes for two's complement. -/
def Misread (value : Int) : Prop :=
  noData < value ∧ value < -16000

instance (value : Int) : Decidable (Misread value) :=
  inferInstanceAs (Decidable (_ ∧ _))

/-- What is read where an elevation was stored, and whether it was read as two's complement. -/
def reread (value : Int) : Int × Bool :=
  decodeSample ((encodeSample value)[0]?.getD 0) ((encodeSample value)[1]?.getD 0)

/-- A sample takes two bytes. -/
@[simp] theorem length_encodeSample (value : Int) : (encodeSample value).length = 2 := rfl

/-- A magnitude without the sign bit is read back as it is. -/
private theorem decodeSample_positive {magnitude : Nat} (h : magnitude < 32768) :
    decodeSample (UInt8.ofNat (magnitude / 256)) (UInt8.ofNat magnitude) =
      ((magnitude : Int), false) := by
  have hhigh : (UInt8.ofNat (magnitude / 256)).toNat = magnitude / 256 := by
    rw [UInt8.toNat_ofNat']
    omega
  have hlow : (UInt8.ofNat magnitude).toNat = magnitude % 256 := UInt8.toNat_ofNat'
  -- the sign bit is not set
  have hsign : UInt8.ofNat (magnitude / 256) < 128 := by
    rw [UInt8.lt_iff_toNat_lt, hhigh]
    show magnitude / 256 < 128
    omega
  have hvalue : (((magnitude / 256) % 128 : Nat) : Int) * 256 + ((magnitude % 256 : Nat) : Int) =
      (magnitude : Int) := by
    omega
  rw [decodeSample, if_pos hsign, hhigh, hlow, hvalue]

/-- A magnitude with the sign bit is read as its negative, or as two's complement if that is below
    the threshold and no void. -/
private theorem decodeSample_negative {magnitude : Nat} (h : magnitude < 32768) :
    decodeSample (UInt8.ofNat (128 + magnitude / 256)) (UInt8.ofNat magnitude) =
      if -(magnitude : Int) < -16000 ∧ -(magnitude : Int) ≠ noData
      then ((magnitude : Int) - 32768, true) else (-(magnitude : Int), false) := by
  have hhigh : (UInt8.ofNat (128 + magnitude / 256)).toNat = 128 + magnitude / 256 := by
    rw [UInt8.toNat_ofNat']
    omega
  have hlow : (UInt8.ofNat magnitude).toNat = magnitude % 256 := UInt8.toNat_ofNat'
  -- the sign bit is set
  have hsign : ¬UInt8.ofNat (128 + magnitude / 256) < 128 := by
    rw [UInt8.lt_iff_toNat_lt, hhigh]
    show ¬128 + magnitude / 256 < 128
    omega
  have hvalue : (((128 + magnitude / 256) % 128 : Nat) : Int) * 256 +
      ((magnitude % 256 : Nat) : Int) = (magnitude : Int) := by
    omega
  rw [decodeSample, if_neg hsign, hhigh, hlow, hvalue]

/-- What becomes of each value: those below -16000 come back as another one, except that the
    lowest two come back as the no-data value. -/
theorem reread_eq {value : Int} (h : IsSample value) :
    reread value =
      if Misread value then (-32768 - value, true) else (max value noData, false) := by
  have hnoData : noData = -32767 := rfl
  obtain ⟨hlow, hhigh⟩ := h
  have hmagnitude : (max value noData).natAbs < 32768 := by omega
  -- a stored sample is the sign of the value and the magnitude of what the format can keep of it
  by_cases hsign : value < 0
  · have hencode : reread value = decodeSample
        (UInt8.ofNat (128 + (max value noData).natAbs / 256))
        (UInt8.ofNat (max value noData).natAbs) := by
      simp [reread, encodeSample, hsign]
    have hvalue : -((max value noData).natAbs : Int) = max value noData := by omega
    rw [hencode, decodeSample_negative hmagnitude, hvalue]
    -- low values are taken for a two's complement, except for the no-data value
    by_cases hmisread : Misread value
    · have hgap : max value noData < -16000 ∧ max value noData ≠ noData := by
        unfold Misread at hmisread
        omega
      have hback : ((max value noData).natAbs : Int) - 32768 = -32768 - value := by
        unfold Misread at hmisread
        omega
      rw [if_pos hgap, if_pos hmisread, hback]
    · have hgap : ¬(max value noData < -16000 ∧ max value noData ≠ noData) := by
        unfold Misread at hmisread
        omega
      rw [if_neg hgap, if_neg hmisread]
  · have hencode : reread value = decodeSample (UInt8.ofNat ((max value noData).natAbs / 256))
        (UInt8.ofNat (max value noData).natAbs) := by
      simp [reread, encodeSample, hsign]
    have hmisread : ¬Misread value := by
      unfold Misread
      omega
    have hvalue : ((max value noData).natAbs : Int) = max value noData := by omega
    rw [hencode, decodeSample_positive hmagnitude, if_neg hmisread, hvalue]

/-! ## A whole record -/

/-- The bytes of a record that do not depend on its samples. -/
private def recordPrefix (column : Nat) : List UInt8 :=
  [sentinel, 0] ++ bigEndian 2 column ++ bigEndian 2 column ++ [0, 0]

/-- A record has eight bytes before its samples. -/
private theorem length_recordPrefix (column : Nat) : (recordPrefix column).length = 8 := by
  simp [recordPrefix, bigEndian]

/-- The samples stand bottom row first, and zeros take the place of rows that have none. -/
private theorem recordBody_eq (rows column : Nat) (values : List Int) :
    recordBody rows column values =
      (recordPrefix column ++ (values.reverse.take rows).flatMap encodeSample).toByteArray ++
        ByteArray.zeros (2 * rows - 2 * min rows values.length) := by
  simp [recordBody, recordPrefix, length_flatMap_of_width fun value _ => length_encodeSample value]

/-- The body of a record takes two bytes for each row, whatever values there are. -/
theorem size_recordBody (rows column : Nat) (values : List Int) :
    (recordBody rows column values).size = 8 + 2 * rows := by
  have hsamples : ((values.reverse.take rows).flatMap encodeSample).length =
      2 * min rows values.length := by
    simp [length_flatMap_of_width fun value _ => length_encodeSample value]
  rw [recordBody_eq, size_append, size_zeros, List.size_toByteArray, List.length_append,
    length_recordPrefix, hsamples]
  omega

/-- A record has the size that its place in the file allows, whatever values there are. -/
@[simp] theorem size_record (rows column : Nat) (values : List Int) :
    (record rows column values).size = recordBytes rows := by
  simp only [record, size_append, size_recordBody, List.size_toByteArray, bigEndian,
    List.length_reverse, length_littleEndian, recordBytes]
  omega

variable {rows column : Nat} {values : List Int}

/-- Before its checksum, a record is its body. -/
private theorem byteAt_record_of_lt {i : Nat} (hi : i < 8 + 2 * rows) :
    (record rows column values).byteAt i = (recordBody rows column values).byteAt i := by
  rw [record, byteAt_append, size_recordBody, if_pos hi]

/-- A record starts with the sentinel. -/
theorem byteAt_record_zero : (record rows column values).byteAt 0 = sentinel := by
  have hstart : (0 : Nat) < (recordPrefix column).length := by
    rw [length_recordPrefix]
    decide
  rw [byteAt_record_of_lt (by omega), recordBody_eq, byteAt_append, if_pos (by simp; omega),
    byteAt_toByteArray, List.getElem?_append_left hstart]
  rfl

/-- What the sum of a record covers. -/
theorem slice_record_body :
    (record rows column values).slice 0 (8 + 2 * rows) = recordBody rows column values := by
  have hsize := size_recordBody rows column values
  rw [record, slice_append_of_le (by omega), ← hsize, slice_zero_size]

/-- The checksum that is stored in a record is the one of its body. -/
theorem storedChecksum_record :
    storedChecksum rows (record rows column values) =
      (checksum (recordBody rows column values)).toNat := by
  have hslice : (record rows column values).slice (8 + 2 * rows) 4 =
      (bigEndian 4 (checksum (recordBody rows column values)).toNat).toByteArray := by
    have hsize := size_recordBody rows column values
    rw [record, slice_append_of_ge (by omega) (by simp [hsize, bigEndian]), hsize, Nat.sub_self]
    exact slice_zero_size _
  have hlt : (checksum (recordBody rows column values)).toNat < byteLimit 4 := UInt32.toNat_lt _
  rw [storedChecksum, hslice, toList_toByteArray, bigEndian, List.reverse_reverse,
    ofLittleEndian_littleEndian, Nat.mod_eq_of_lt hlt]

/-- The samples of a record are its values, from south to north. -/
theorem samples_record (h : values.length = rows) :
    samples rows (record rows column values) = values.reverse.map reread := by
  have hlength : values.reverse.length = rows := by rw [List.length_reverse, h]
  have hbyte : ∀ (i k : Nat) (hi : i < values.reverse.length), k < 2 →
      (record rows column values).byteAt (8 + 2 * i + k) =
        ((encodeSample values.reverse[i])[k]?).getD 0 := by
    intro i k hi hk
    have hsize : ((recordPrefix column ++
        (values.reverse.take rows).flatMap encodeSample).toByteArray).size = 8 + 2 * rows := by
      simp [length_recordPrefix, length_flatMap_of_width fun value _ => length_encodeSample value, h]
    rw [byteAt_record_of_lt (by omega), recordBody_eq, byteAt_append, hsize, if_pos (by omega),
      byteAt_toByteArray, List.getElem?_append_right (by rw [length_recordPrefix]; omega),
      length_recordPrefix, List.take_of_length_le (by omega),
      show 8 + 2 * i + k - 8 = 2 * i + k by omega,
      getElem?_flatMap_of_width (fun value _ => length_encodeSample value) hi hk]
  -- each sample is read from the two bytes of one value
  apply List.ext_getElem
  · simp [samples, h]
  · intro i hi _
    have hrow : i < values.reverse.length := by
      simp only [samples, List.length_map, List.length_range] at hi
      omega
    have hlow := hbyte i 0 hrow (by decide)
    have hhigh := hbyte i 1 hrow (by decide)
    rw [show 8 + 2 * i + 0 = 8 + 2 * i by omega] at hlow
    rw [show 8 + 2 * i + 1 = 9 + 2 * i by omega] at hhigh
    simp only [samples, List.getElem_map, List.getElem_range]
    rw [hlow, hhigh, reread]

/-- A record is read as its values, each one as it is reread, and nothing but their form is found
    wrong with it. -/
theorem parseRecord_record (h : values.length = rows) :
    parseRecord rows column (record rows column values) =
      .ok { bytes := blockOfValues (values.map fun value => (reread value).1)
            anomalies := if values.any (fun value => (reread value).2) then [complementAnomaly]
              else [] } := by
  -- writer and reader both turn the column around
  have hany : (values.reverse.map reread).any (·.2) = values.any fun value => (reread value).2 := by
    simp [List.any_map, Function.comp_def]
  have hvalues : (values.reverse.map reread).reverse.map (·.1) =
      values.map fun value => (reread value).1 := by
    simp [Function.comp_def]
  simp only [parseRecord, byteAt_record_zero, slice_record_body, samples_record h,
    storedChecksum_record, hany, hvalues]
  simp

/-! ## Blocks -/

/-- A block has two bytes for each value. -/
@[simp] theorem size_blockOfValues (values : List Int) :
    (blockOfValues values).size = 2 * values.length := by
  simp [blockOfValues, length_flatMap_of_width fun value _ => length_littleEndian 2 _]

/-- A value is made of two bytes of a block. -/
@[simp] theorem length_blockValues (data : ByteArray) :
    (blockValues data).length = data.size / 2 := by
  simp [blockValues]

/-- A block holds the values it was made of. -/
theorem blockValues_blockOfValues {values : List Int} (h : ∀ value ∈ values, IsSample value) :
    blockValues (blockOfValues values) = values := by
  apply List.ext_getElem
  · simp
  · intro i hi hi'
    have hlimit : byteLimit 2 = 65536 := rfl
    have hnumber : numberAt (blockOfValues values) (2 * i) 2 =
        (values[i] % byteLimit 2).toNat := by
      have hpiece : numberAt (blockOfValues values) (2 * i) 2 =
          numberAt (numberBytes 2 (values[i] % byteLimit 2).toNat) 0 2 := by
        apply numberAt_congr
        intro k hk
        rw [blockOfValues, numberBytes, byteAt_toByteArray, byteAt_toByteArray, Nat.zero_add,
          getElem?_flatMap_of_width (fun value _ => length_littleEndian 2 _) hi' hk]
      rw [hpiece, numberAt_numberBytes, Nat.mod_eq_of_lt]
      rw [hlimit]
      omega
    -- numbers beyond the middle of the range are negative
    have hsample := h values[i] (List.getElem_mem hi')
    have hback : Int.bmod (((values[i] % byteLimit 2).toNat : Nat) : Int) (byteLimit 2) =
        values[i] := by
      obtain ⟨hlow, hhigh⟩ := hsample
      simp only [hlimit, Int.bmod_def]
      omega
    simp only [blockValues, List.getElem_map, List.getElem_range]
    rw [hnumber, hback]

end RasterStore.Dted
