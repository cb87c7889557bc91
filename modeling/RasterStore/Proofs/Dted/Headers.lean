import RasterStore.Format.Dted
import RasterStore.Proofs.Storage
import RasterStore.Proofs.Text.Numerals

/-!
# The header records of elevation files

The three header records of a matrix take `headerBytes` bytes. The size of the matrix stands in
them as two rows of decimal digits, behind a text of fixed length, and is read back from there:

* `load_of_headers`  a file that starts with the headers of a matrix is opened as that matrix
-/

namespace RasterStore.Dted

open ByteArray

/-- Bytes in the header records of a matrix. -/
def headerBytes : Nat :=
  labelBytes + identificationBytes + accuracyBytes

/-- The sides are numbers that a header can count, and not zero. -/
structure FitsHeaders (raster : Size) : Prop where
  width_pos : 0 < raster.width
  height_pos : 0 < raster.height
  width_le : raster.width ≤ maxCount
  height_le : raster.height ≤ maxCount

/-- A raster whose size can be written in the label has pixels. -/
theorem FitsHeaders.isEmpty {raster : Size} (h : FitsHeaders raster) : raster.isEmpty = false := by
  rw [Bool.eq_false_iff, ne_eq, Size.isEmpty_iff]
  have := h.width_pos
  have := h.height_pos
  omega

/-! ## Texts filled up with blanks -/

/-- Blanks take one byte each. -/
private theorem size_blanks (n : Nat) : (asciiBytes ("".pushn ' ' n)).size = n := by
  induction n with
  | zero => rfl
  | succ n ih =>
    have hpush : asciiBytes ("".pushn ' ' (n + 1)) =
        asciiBytes ("".pushn ' ' n) ++ asciiBytes " " := by
      have hstep : "".pushn ' ' (n + 1) = ("".pushn ' ' n).push ' ' := rfl
      rw [hstep, asciiBytes, asciiBytes, String.toUTF8_eq_toByteArray, String.toByteArray_push]
      rfl
    have hblank : (asciiBytes " ").size = 1 := by decide +kernel
    rw [hpush, size_append, ih, hblank]

/-- A record has its own size, whatever the length of its text. -/
theorem size_blankRecord {text : String} {size : Nat}
    (htext : (asciiBytes text).size = text.length) (h : text.length ≤ size) :
    (blankRecord text size).size = size := by
  rw [blankRecord, asciiBytes_append, size_append, size_blanks, htext]
  omega

/-- A record starts with its text. -/
theorem slice_blankRecord {text : String} {size length : Nat}
    (h : length ≤ (asciiBytes text).size) :
    (blankRecord text size).slice 0 length = (asciiBytes text).slice 0 length := by
  rw [blankRecord, asciiBytes_append, slice_append_of_le (by omega)]

/-! ## The user header label -/

/-- What stands before the size of the matrix. -/
private def labelStart : String :=
  "UHL10000000E0000000N03000300NA  U  " ++ "".pushn ' ' 12

/-- The digits of a number below 10000 as bytes. -/
private def countBytes (number : Nat) : ByteArray :=
  asciiBytes (String.ofList (paddedDigits 4 number))

/-- The number of columns is written behind these bytes. -/
private theorem size_labelStart : (asciiBytes labelStart).size = 47 := by
  decide +kernel

/-- The bytes of a count are its digits, one by one. -/
private theorem countBytes_eq (number : Nat) :
    countBytes number = ((paddedDigits 4 number).map asciiByte).toByteArray :=
  asciiBytes_ofList fun _ hmem => toNat_lt_of_mem_paddedDigits hmem

/-- A count takes four bytes. -/
@[simp] private theorem size_countBytes (number : Nat) : (countBytes number).size = 4 := by
  rw [countBytes_eq]
  simp

/-- The label is its fixed start, the two counts and a zero. -/
private theorem labelText_eq (raster : Size) :
    labelText raster =
      labelStart ++ String.ofList (paddedDigits 4 raster.width ++ paddedDigits 4 raster.height) ++
        "0" := by
  unfold labelText labelStart
  with_reducible rfl

/-- The label has the same length for all sizes. -/
private theorem length_labelText (raster : Size) : (labelText raster).length = 56 := by
  have hstart : labelStart.length = 47 := by decide +kernel
  rw [labelText_eq, String.length_append, String.length_append, hstart, String.length_ofList,
    List.length_append, length_paddedDigits, length_paddedDigits]
  rfl

/-- The label: a text of fixed length, width, height and the rest. -/
private theorem label_eq (raster : Size) :
    blankRecord (labelText raster) labelBytes =
      asciiBytes labelStart ++ countBytes raster.width ++ countBytes raster.height ++
        asciiBytes ("0" ++ "".pushn ' ' 24) := by
  have hblanks : labelBytes - 56 = 24 := rfl
  rw [blankRecord, length_labelText, hblanks, labelText_eq, String.ofList_append,
    asciiBytes_append, asciiBytes_append, asciiBytes_append, asciiBytes_append, asciiBytes_append]
  simp only [countBytes, append_assoc]

/-- The label fills its record. -/
private theorem size_label (raster : Size) :
    (blankRecord (labelText raster) labelBytes).size = labelBytes := by
  have hrest : (asciiBytes ("0" ++ "".pushn ' ' 24)).size = 25 := by decide +kernel
  rw [label_eq]
  simp only [size_append, size_labelStart, size_countBytes, hrest]
  rfl

/-- A field of four digits is read as their number. -/
private theorem field_of_countBytes {label : ByteArray} {start number : Nat}
    (hslice : label.slice (start - 1) 4 = countBytes number) (h : number ≤ maxCount) :
    field label start 4 = .ok number := by
  have hmax : maxCount = 9999 := rfl
  -- columns of a label are counted from one
  have htext : Utf8.text? (label.slice (start - 1) 4).toList = some (paddedDigits 4 number) := by
    rw [hslice, countBytes_eq, toList_toByteArray]
    exact text?_asciiBytes fun _ hmem => toNat_lt_of_mem_paddedDigits hmem
  have hnumber : numeral? (paddedDigits 4 number) = some number :=
    numeral?_paddedDigits (by decide) (by omega) (by simp only [byteLimit]; omega)
  simp only [field, htext, Option.bind_some, hnumber]

/-- Behind the start of the label stand the two counts. -/
private theorem slice_label_counts (raster : Size) {start : Nat} (hstart : start ≤ 4) :
    (blankRecord (labelText raster) labelBytes).slice (47 + start) 4 =
      (countBytes raster.width ++ countBytes raster.height).slice start 4 := by
  have hsize := size_labelStart
  have hwidth := size_countBytes raster.width
  have hheight := size_countBytes raster.height
  rw [label_eq, slice_append_of_le (by simp only [size_append]; omega), append_assoc,
    slice_append_of_ge (by omega) (by simp only [size_append]; omega), hsize,
    Nat.add_sub_cancel_left]

/-- The number of columns is read back from where it was written. -/
theorem field_width {raster : Size} (h : FitsHeaders raster) :
    field (blankRecord (labelText raster) labelBytes) 48 4 = .ok raster.width := by
  apply field_of_countBytes _ h.width_le
  have hsize := size_countBytes raster.width
  have hcounts := slice_label_counts raster (Nat.zero_le 4)
  rw [slice_append_of_le (by omega), ← hsize, slice_zero_size, hsize] at hcounts
  exact hcounts

/-- The number of rows is read back from where it was written. -/
theorem field_height {raster : Size} (h : FitsHeaders raster) :
    field (blankRecord (labelText raster) labelBytes) 52 4 = .ok raster.height := by
  apply field_of_countBytes _ h.height_le
  have hwidth := size_countBytes raster.width
  have hsize := size_countBytes raster.height
  have hcounts := slice_label_counts raster (Nat.le_refl 4)
  rw [slice_append_of_ge (by omega) (by omega), hwidth, Nat.sub_self] at hcounts
  rw [hcounts, ← hsize, slice_zero_size]

/-! ## Tags -/

/-- The label starts with the mark that a reader looks for. -/
private theorem slice_label (raster : Size) :
    (blankRecord (labelText raster) labelBytes).slice 0 3 = asciiBytes "UHL" := by
  rw [label_eq]
  simp only [append_assoc]
  rw [slice_append_of_le (by rw [size_labelStart]; decide)]
  decide +kernel

/-- Which of several tags of three letters a record has depends on its first three bytes. -/
theorem hasTag_of_start {record start : ByteArray} (h : record.slice 0 3 = start)
    {tags : List String} (htags : ∀ tag ∈ tags, (asciiBytes tag).size = 3) :
    DtedCodec.hasTag record tags = tags.any fun tag => start == asciiBytes tag := by
  unfold DtedCodec.hasTag
  rw [Bool.eq_iff_iff, List.any_eq_true, List.any_eq_true]
  constructor
  · rintro ⟨tag, hmem, htag⟩
    rw [startsWith, htags tag hmem, h] at htag
    exact ⟨tag, hmem, htag⟩
  · rintro ⟨tag, hmem, htag⟩
    refine ⟨tag, hmem, ?_⟩
    rwa [startsWith, htags tag hmem, h]

/-! ## Opening a file -/

/-- The record behind the label has its own size. -/
private theorem size_identification :
    (blankRecord "DSIU" identificationBytes).size = identificationBytes :=
  size_blankRecord (by decide +kernel) (by decide)

/-- The last record of the headers has its own size. -/
private theorem size_accuracy : (blankRecord "ACC" accuracyBytes).size = accuracyBytes :=
  size_blankRecord (by decide +kernel) (by decide)

/-- The headers take the same number of bytes for all sizes. -/
@[simp] theorem size_headers (raster : Size) : (headers raster).size = headerBytes := by
  simp only [headers, size_append, size_label, size_identification, size_accuracy]
  rfl

/-- The label is the first of the headers. -/
private theorem slice_headers_label (raster : Size) :
    (headers raster).slice 0 labelBytes = blankRecord (labelText raster) labelBytes := by
  have hsize := size_label raster
  simp only [headers, append_assoc]
  have hself := slice_zero_size (blankRecord (labelText raster) labelBytes)
  rw [hsize] at hself
  rw [slice_append_of_le (by omega), hself]

/-- A file with the headers of a matrix starts with the tag of the label. -/
theorem slice_headers_tag (raster : Size) : (headers raster).slice 0 3 = asciiBytes "UHL" := by
  have hinside : 0 + 3 ≤ labelBytes := by decide
  rw [← slice_label raster, ← slice_headers_label, slice_slice hinside]

/-- The mark of the second header stands right behind the label. -/
private theorem slice_headers_identification (raster : Size) :
    (headers raster).slice labelBytes 3 = asciiBytes "DSI" := by
  have hsize := size_label raster
  have hrest := size_identification
  have hbytes : identificationBytes = 648 := rfl
  simp only [headers, append_assoc]
  rw [slice_append_of_ge (by omega) (by simp only [size_append]; omega), hsize, Nat.sub_self,
    slice_append_of_le (by omega), slice_blankRecord (by decide +kernel)]
  decide +kernel

/-- The mark of the third header stands right behind the second one. -/
private theorem slice_headers_accuracy (raster : Size) :
    (headers raster).slice (labelBytes + identificationBytes) 3 = asciiBytes "ACC" := by
  have hsize : (blankRecord (labelText raster) labelBytes ++
      blankRecord "DSIU" identificationBytes).size = labelBytes + identificationBytes := by
    rw [size_append, size_label, size_identification]
  have hrest := size_accuracy
  have hbytes : accuracyBytes = 2700 := rfl
  rw [headers, slice_append_of_ge (by omega) (by omega), hsize, Nat.sub_self,
    slice_blankRecord (by decide +kernel)]
  decide +kernel

/-- A file that starts with the headers of a matrix. -/
structure StartsWithHeaders (storage : Storage) (raster : Size) : Prop where
  readable : storage.Readable
  length : headerBytes ≤ storage.length
  headers : storage.bytes.slice 0 headerBytes = Dted.headers raster

variable {storage : Storage} {raster : Size}

/-- Every read inside the headers finds them. -/
private theorem StartsWithHeaders.read_eq (h : StartsWithHeaders storage raster)
    {offset count : Nat} (hinside : offset + count ≤ headerBytes) :
    storage.read offset count = .ok ((Dted.headers raster).slice offset count) := by
  rw [Storage.read_of_readable h.readable (Nat.le_trans hinside h.length), ← h.headers,
    slice_slice hinside, Nat.zero_add]

/-- There are no labels to be skipped. -/
private theorem StartsWithHeaders.skipLabels_eq (h : StartsWithHeaders storage raster) :
    DtedCodec.skipLabels storage (storage.length / labelBytes) 0 =
      .ok (blankRecord (labelText raster) labelBytes, labelBytes) := by
  have hbytes : headerBytes = labelBytes + identificationBytes + accuracyBytes := rfl
  have hlabelBytes : labelBytes = 80 := rfl
  have hlabel : storage.read 0 labelBytes = .ok (blankRecord (labelText raster) labelBytes) := by
    rw [h.read_eq (by omega), slice_headers_label]
  have hvolume : DtedCodec.hasTag (blankRecord (labelText raster) labelBytes) ["VOL", "HDR"] =
      false := by
    rw [hasTag_of_start (slice_label raster) (by decide +kernel)]
    decide +kernel
  -- the file is long enough for one label at least
  obtain ⟨fuel, hfuel⟩ : ∃ fuel, storage.length / labelBytes = fuel + 1 := by
    have hlength := h.length
    have hpos : 0 < storage.length / labelBytes := Nat.div_pos (by omega) (by omega)
    exact ⟨storage.length / labelBytes - 1, by omega⟩
  rw [hfuel, DtedCodec.skipLabels, hlabel]
  simp only [bind, Except.bind, hvolume]
  rfl

/-- A file that starts with the headers of a matrix is opened as that matrix. -/
theorem load_of_headers (hsides : FitsHeaders raster) (h : StartsWithHeaders storage raster) :
    DtedCodec.load storage = .ok ⟨storage, headerBytes, raster⟩ := by
  have hbytes : headerBytes = labelBytes + identificationBytes + accuracyBytes := rfl
  have hidentificationBytes : identificationBytes = 648 := rfl
  have haccuracyBytes : accuracyBytes = 2700 := rfl
  -- what each check of the reader finds
  have hidentification : storage.read labelBytes 3 = .ok (asciiBytes "DSI") := by
    rw [h.read_eq (by omega), slice_headers_identification]
  have haccuracy : storage.read (labelBytes + identificationBytes) 3 = .ok (asciiBytes "ACC") := by
    rw [h.read_eq (by omega), slice_headers_accuracy]
  have huser : DtedCodec.hasTag (blankRecord (labelText raster) labelBytes) ["UHL"] = true := by
    rw [hasTag_of_start (slice_label raster) (by decide +kernel)]
    decide +kernel
  have htags : DtedCodec.hasTag (asciiBytes "DSI") ["DSI"] = true ∧
      DtedCodec.hasTag (asciiBytes "ACC") ["ACC"] = true := by
    decide +kernel
  unfold DtedCodec.load
  rw [h.skipLabels_eq]
  simp only [bind, Except.bind, huser, hidentification, haccuracy, htags.1, htags.2,
    field_width hsides, field_height hsides, hsides.isEmpty]
  rfl

end RasterStore.Dted
