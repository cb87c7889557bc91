import RasterStore.Proofs.Dted.Headers
import RasterStore.Proofs.Dted.Records
import RasterStore.Proofs.Pixel.Packed

/-!
# Elevation files over whole runs

`Stored raster columns bytes` says that the bytes are those of a matrix: its headers, and behind
them one record for each column. Creating a file makes such bytes of zeros, writing a column keeps
the form and changes one column, and every file of this form is opened as its matrix and read
column by column. `matrix_intact` puts these steps together for any sequence of writes.
-/

namespace RasterStore.Dted

open ByteArray

/-- Offset of the record of a column behind the headers. -/
def recordStart (raster : Size) (column : Nat) : Nat :=
  headerBytes + column * recordBytes raster.height

/-- The bytes are those of a matrix with the given columns, each from north to south. -/
structure Stored (raster : Size) (columns : Nat → List Int) (bytes : ByteArray) : Prop where
  size : bytes.size = recordStart raster raster.width
  headers : bytes.slice 0 headerBytes = headers raster
  rows : ∀ column < raster.width, (columns column).length = raster.height
  records : ∀ column < raster.width,
    bytes.slice (recordStart raster column) (recordBytes raster.height) =
      record raster.height column (columns column)

variable {raster : Size} {columns later : Nat → List Int} {bytes : ByteArray} {column : Nat}

/-- A record ends where the next one starts, or before. -/
theorem recordStart_add_le (raster : Size) {count : Nat} (h : column < count) :
    recordStart raster column + recordBytes raster.height ≤ recordStart raster count := by
  have hplace := packed_inside (recordBytes raster.height) h
  unfold recordStart
  omega

/-- All records come behind the headers. -/
theorem headerBytes_le_recordStart (raster : Size) (column : Nat) :
    headerBytes ≤ recordStart raster column :=
  Nat.le_add_right _ _

/-- The records of different columns do not overlap. -/
theorem records_apart (raster : Size) {other : Nat} (h : column ≠ other) :
    recordStart raster column + recordBytes raster.height ≤ recordStart raster other ∨
      recordStart raster other + recordBytes raster.height ≤ recordStart raster column := by
  have hplaces := packed_apart (recordBytes raster.height) h
  unfold recordStart
  omega

/-- A matrix that a header can describe fits into a file. -/
theorem recordStart_lt_offsetLimit (h : FitsHeaders raster) (hcolumn : column ≤ raster.width) :
    recordStart raster column < offsetLimit := by
  have hmax : maxCount = 9999 := rfl
  have hheader : headerBytes = 3428 := rfl
  have hlimit : offsetLimit = 9223372036854775808 := rfl
  -- at most 9999 records of 12 + 2 * 9999 bytes
  have hrecord : recordBytes raster.height ≤ 20010 := by
    have := h.height_le
    unfold recordBytes
    omega
  have hcolumns : column * recordBytes raster.height ≤ 9999 * 20010 :=
    Nat.mul_le_mul (Nat.le_trans hcolumn h.width_le) hrecord
  unfold recordStart
  omega

/-- A record written over that of a column changes this column and no other one. -/
theorem Stored.overwrite {values : List Int} (h : Stored raster columns bytes)
    (hcolumn : column < raster.width) (hrows : values.length = raster.height)
    (hsame : later column = values) (hothers : ∀ other, other ≠ column → later other = columns other) :
    Stored raster later
      (bytes.overwrite (recordStart raster column) (record raster.height column values)) := by
  -- the record lies in the file, behind the headers
  have hinside : recordStart raster column + (record raster.height column values).size ≤
      bytes.size := by
    rw [size_record, h.size]
    exact recordStart_add_le raster hcolumn
  have hheaders := headerBytes_le_recordStart raster column
  constructor
  · rw [size_overwrite hinside, h.size]
  · rw [slice_overwrite_of_apart hinside (.inl (by omega)), h.headers]
  · intro other hother
    by_cases hsameColumn : other = column
    · rw [hsameColumn, hsame, hrows]
    · rw [hothers other hsameColumn, h.rows other hother]
  · intro other hother
    by_cases hsameColumn : other = column
    · subst hsameColumn
      rw [hsame, slice_overwrite_of_size (by omega) (size_record _ _ _)]
    · -- the record of another column is not touched
      have hapart := records_apart raster hsameColumn
      rw [hothers other hsameColumn, ← h.records other hother]
      apply slice_overwrite_of_apart hinside
      rw [size_record]
      exact hapart

end RasterStore.Dted

namespace RasterStore.DtedCodec

open ByteArray Dted RasterStore.Action

variable {raster : Size} {columns : Nat → List Int} {storage : Storage}

/-! ## New files -/

/-- The bytes of a file while its columns are created one after the other. -/
private structure Growing (raster : Size) (count : Nat) (bytes : ByteArray) : Prop where
  size : bytes.size = recordStart raster count
  headers : bytes.slice 0 headerBytes = headers raster
  records : ∀ column < count, bytes.slice (recordStart raster column) (recordBytes raster.height) =
    record raster.height column (List.replicate raster.height 0)

/-- A file of no columns is its headers. -/
private theorem Growing.headers_only (raster : Size) : Growing raster 0 (Dted.headers raster) where
  size := by
    rw [size_headers, recordStart, Nat.zero_mul, Nat.add_zero]
  headers := by
    have hself := slice_zero_size (Dted.headers raster)
    rw [size_headers] at hself
    exact hself
  records column hcolumn := absurd hcolumn (Nat.not_lt_zero column)

/-- The record of the next column goes to the end of the file. -/
private theorem Growing.append {count : Nat} {bytes : ByteArray} (h : Growing raster count bytes) :
    Growing raster (count + 1)
      (bytes ++ record raster.height count (List.replicate raster.height 0)) := by
  have hstart : headerBytes ≤ bytes.size := by
    rw [h.size]
    exact headerBytes_le_recordStart raster count
  constructor
  · rw [size_append, size_record, h.size, recordStart, recordStart, Nat.add_mul, Nat.one_mul,
      Nat.add_assoc]
  · rw [slice_append_of_le (by omega), h.headers]
  · intro column hcolumn
    by_cases hlast : column = count
    · -- the last record is the one that was appended
      subst hlast
      have hself := slice_zero_size (record raster.height column (List.replicate raster.height 0))
      rw [size_record] at hself
      have hend := h.size
      rw [slice_append_of_ge (by omega) (by rw [size_record]; omega), hend, Nat.sub_self, hself]
    · -- the records before it are where they were
      have hold : column < count := by omega
      have hinside := recordStart_add_le raster hold
      rw [slice_append_of_le (by rw [h.size]; exact hinside), h.records column hold]

/-- A file that has grown to all columns holds zeros in each. -/
private theorem Growing.stored (h : Growing raster raster.width storage.bytes) :
    Stored raster (fun _ => List.replicate raster.height 0) storage.bytes where
  size := h.size
  headers := h.headers
  rows _ _ := List.length_replicate
  records := h.records

/-- The items of a range that come before an item are as many as its number. -/
private theorem eq_length_of_range {n item : Nat} {done rest : List Nat}
    (h : List.range n = done ++ item :: rest) : item = done.length ∧ done.length < n := by
  have hlength : done.length < (List.range n).length := by
    rw [h, List.length_append, List.length_cons]
    omega
  have hitem : (List.range n)[done.length] = item := by
    simp only [h, List.getElem_append_right (Nat.le_refl _), Nat.sub_self, List.getElem_cons_zero]
  rw [List.length_range] at hlength
  rw [List.getElem_range] at hitem
  exact ⟨hitem.symm, hlength⟩

/-- The headers replace what was in the storage. -/
private theorem ends_writeHeaders (husable : storage.Usable) :
    (Storage.setLength 0 >>= fun _ => Storage.write 0 (headers raster)).Ends storage
      (fun _ after => after.Usable ∧ after.bytes = headers raster) (fun _ _ => False) := by
  have hsize := size_headers raster
  have hheaderBytes : headerBytes = 3428 := rfl
  apply Ends.bind
  apply (Storage.ends_setLength husable 0).mono
  · -- an empty file, and the headers at its start
    intro _ emptied hemptied
    obtain ⟨rfl, hemptied⟩ := hemptied
    have hwritten : Storage.written (Storage.resized storage.bytes 0) 0 (headers raster) =
        headers raster := by
      have hempty := Storage.written_at_end ByteArray.empty (headers raster)
      rw [ByteArray.size_empty, empty_append] at hempty
      rw [Storage.resized_zero, hempty]
    apply (Storage.ends_write hemptied (by rw [hsize]; omega)).mono
    · intro _ started hstarted
      obtain ⟨rfl, hstarted⟩ := hstarted
      exact ⟨hstarted, hwritten⟩
    · -- headers never reach the limit of a file
      intro _ _ hfailed
      have hlimit : offsetLimit ≤ 0 + (headers raster).size := hfailed.2.2.1
      rw [hsize] at hlimit
      exact absurd hlimit (by decide)
  · intro _ _ hfailed
    exact absurd hfailed.2 (by decide)

/-- Each turn of the loop of `create` writes one record at the end of the file, so that the records
    come in their order. -/
private theorem ends_writeZeros (husable : storage.Usable) (hsides : FitsHeaders raster)
    (hgrowing : Growing raster 0 storage.bytes) :
    ((List.range raster.width).forM fun column =>
        Storage.write (headerBytes + column * recordBytes raster.height)
          (record raster.height column (List.replicate raster.height 0))).Ends storage
      (fun _ after => after.Usable ∧ Growing raster raster.width after.bytes)
      (fun _ _ => False) := by
  -- after some turns the file has the records of as many columns
  apply (Ends.forM (fun done after => after.Usable ∧ Growing raster done.length after.bytes)
    (fun _ _ _ => False) ⟨husable, hgrowing⟩ ?turn).mono
  case turn =>
    intro done column rest before hitems hbefore
    obtain ⟨hcolumn, hdone⟩ := eq_length_of_range hitems
    subst hcolumn
    have hplace : headerBytes + done.length * recordBytes raster.height = before.bytes.size :=
      hbefore.2.size.symm
    have hnonempty : 0 < recordBytes raster.height := by
      rw [recordBytes]
      omega
    rw [hplace]
    apply (Storage.ends_write hbefore.1 (by rw [size_record]; exact hnonempty)).mono
    · intro _ after hafter
      obtain ⟨rfl, hafter⟩ := hafter
      refine ⟨hafter, ?_⟩
      simp only [List.length_append, List.length_singleton, Storage.written_at_end]
      exact hbefore.2.append
    · intro _ _ hfailed
      have hlimit := hfailed.2.2.1
      -- the file cannot become too long
      have hend := recordStart_lt_offsetLimit hsides (Nat.succ_le_of_lt hdone)
      have hinside := recordStart_add_le raster (Nat.lt_succ_self done.length)
      rw [size_record, hbefore.2.size] at hlimit
      omega
  · intro _ after hafter
    rw [List.length_range] at hafter
    exact hafter
  · rintro _ _ ⟨_, _, _, _, hfalse⟩
    exact hfalse

/-- A new file is a matrix of zeros. -/
theorem ends_create (husable : storage.Usable) (hsides : FitsHeaders raster) :
    (create raster).Ends storage
      (fun codec _ => ∃ after : Storage, codec = ⟨after, headerBytes, raster⟩ ∧ after.Usable ∧
        Stored raster (fun _ => List.replicate raster.height 0) after.bytes)
      (fun _ _ => False) := by
  have hrefused : ¬(raster.isEmpty || maxCount < raster.width || maxCount < raster.height) = true := by
    have hwidth := hsides.width_le
    have hheight := hsides.height_le
    simp only [hsides.isEmpty, Bool.false_or, Bool.or_eq_true, decide_eq_true_eq]
    omega
  -- the sides pass the check of the driver
  unfold create
  rw [if_neg hrefused]
  simp only [size_headers]
  rw [← bind_assoc]
  apply Ends.bind
  apply (ends_writeHeaders husable).imp
  intro _ started hstarted
  -- headers, and no records yet
  have hgrowing : Growing raster 0 started.bytes := by
    rw [hstarted.2]
    exact .headers_only raster
  apply Ends.bind
  apply (ends_writeZeros hstarted.1 hsides hgrowing).imp
  intro _ after hafter
  exact Ends.get_bind (ends_pure.mpr ⟨after, rfl, hafter.1, hafter.2.stored⟩)

/-! ## Columns -/

/-- A step on the storage leaves what the codec knows of the file as it is. -/
theorem ends_onStorage {α : Type} {codec : DtedCodec} {act : Action Storage α}
    {good : α → DtedCodec → Prop} {bad : RasterError → DtedCodec → Prop}
    (h : act.Ends codec.storage
      (fun value storage => good value ⟨storage, codec.dataOffset, codec.raster⟩)
      (fun error storage => bad error ⟨storage, codec.dataOffset, codec.raster⟩)) :
    (onStorage act).Ends codec good bad :=
  h.of_part (fun storage => ⟨storage, codec.dataOffset, codec.raster⟩) rfl

/-- Encoding a block writes a record of its elevations. -/
theorem encode_eq (context : BlockContext) (data : ByteArray) :
    (Codec.encode context data : Action DtedCodec Unit) =
      get >>= fun codec : DtedCodec => onStorage (Storage.write
        (codec.recordOffset context.block.x)
        (record codec.raster.height context.block.x (blockValues data))) := rfl

/-- What is decoded from a record of the given elevations. -/
def reading (values : List Int) : Decoded where
  bytes := blockOfValues (values.map fun value => (reread value).1)
  anomalies := if values.any (fun value => (reread value).2) then [complementAnomaly] else []

/-- A column inside the file is parsed from its record. -/
theorem readColumn_eq {codec : DtedCodec} {column : Nat} (hreadable : codec.storage.Readable)
    (hinside : codec.recordOffset column + recordBytes codec.raster.height ≤
      codec.storage.length) :
    codec.readColumn column = parseRecord codec.raster.height column
      (codec.storage.bytes.slice (codec.recordOffset column)
        (recordBytes codec.raster.height)) := by
  simp only [readColumn, Storage.read_of_readable hreadable hinside, bind, Except.bind]

/-- Decoding a block is reading its column. -/
theorem run_decode (codec : DtedCodec) (context : BlockContext) :
    (Codec.decode context).run codec = (codec.readColumn context.block.x, codec) := rfl

/-- A column whose record stands in its place is decoded as its elevations, each one as it is
    reread. -/
theorem ends_decode_of_record {codec : DtedCodec} {context : BlockContext} {offset rows : Nat}
    {values : List Int} (hoffset : codec.recordOffset context.block.x = offset)
    (hheight : codec.raster.height = rows) (hreadable : codec.storage.Readable)
    (hinside : offset + recordBytes rows ≤ codec.storage.length)
    (hrecord : codec.storage.bytes.slice offset (recordBytes rows) =
      record rows context.block.x values)
    (hrows : values.length = rows) :
    (Codec.decode context).Ends codec
      (fun decoded reached => reached = codec ∧ decoded = reading values) (fun _ _ => False) := by
  subst hoffset hheight
  -- the record that is read is the one that was made of the values
  have hcolumn : codec.readColumn context.block.x = .ok (reading values) := by
    rw [readColumn_eq hreadable hinside, hrecord]
    exact parseRecord_record hrows
  exact ends_of_run_ok (by rw [run_decode, hcolumn]) ⟨rfl, rfl⟩

/-- Once a column is written, its record stands in its place. The write can only fail where a file
    cannot reach that far. -/
theorem ends_writeColumn {codec : DtedCodec} (husable : codec.storage.Usable) (column : Nat)
    (values : List Int) :
    (writeColumn column values).Ends codec
      (fun _ after => after.dataOffset = codec.dataOffset ∧ after.raster = codec.raster ∧
        after.storage.Usable ∧
        codec.recordOffset column + recordBytes codec.raster.height ≤ after.storage.length ∧
        after.storage.bytes.slice (codec.recordOffset column) (recordBytes codec.raster.height) =
          record codec.raster.height column values)
      (fun _ after => after = codec ∧ codec.storage.medium ≠ .memory ∧
        offsetLimit ≤ codec.recordOffset column + recordBytes codec.raster.height) := by
  have hsize := size_record codec.raster.height column values
  have hnonempty : 0 < (record codec.raster.height column values).size := by
    rw [hsize, recordBytes]
    omega
  rw [writeColumn]
  apply Ends.get_bind
  apply ends_onStorage
  apply (Storage.ends_write husable hnonempty).mono
  · -- the record is the last thing of the file, or lies inside it
    rintro _ written ⟨rfl, hwritten⟩
    refine ⟨rfl, rfl, hwritten, ?_, ?_⟩
    · rw [Storage.length, Storage.size_written, hsize]
      exact Nat.le_max_right _ _
    · rw [Storage.written, hsize]
      exact slice_overwrite_of_size (by rw [Storage.size_extended]; omega) hsize
  · -- only a file can be too long
    rintro _ reached ⟨rfl, -, hlimit, hmedium⟩
    rw [hsize] at hlimit
    exact ⟨rfl, hmedium, hlimit⟩

/-- Encoding a block replaces the record of its column. -/
theorem ends_encode {context : BlockContext} {data : ByteArray} (husable : storage.Usable)
    (hstored : Stored raster columns storage.bytes) (hcolumn : context.block.x < raster.width) :
    (Codec.encode context data).Ends (⟨storage, headerBytes, raster⟩ : DtedCodec)
      (fun _ after => ∃ written : Storage, after = ⟨written, headerBytes, raster⟩ ∧
        written.Usable ∧
        written.bytes = storage.bytes.overwrite (recordStart raster context.block.x)
          (record raster.height context.block.x (blockValues data)))
      (fun _ _ => False) := by
  -- the record of the column lies inside the file
  have hinside : recordStart raster context.block.x + recordBytes raster.height ≤
      storage.length := by
    rw [Storage.length, hstored.size]
    exact recordStart_add_le raster hcolumn
  have hnonempty : 0 < recordBytes raster.height := by
    rw [recordBytes]
    omega
  rw [← size_record raster.height context.block.x (blockValues data)] at hinside hnonempty
  rw [encode_eq]
  apply Ends.get_bind
  apply ends_onStorage
  apply (Storage.ends_write_of_inside husable hnonempty hinside).imp
  rintro _ written ⟨rfl, hwritten⟩
  exact ⟨_, rfl, hwritten, rfl⟩

/-- Decoding a column reads its elevations, with the anomalies among them, and changes nothing. -/
theorem ends_decode {context : BlockContext} (hreadable : storage.Readable)
    (hstored : Stored raster columns storage.bytes) (hcolumn : context.block.x < raster.width) :
    (Codec.decode context).Ends (⟨storage, headerBytes, raster⟩ : DtedCodec)
      (fun decoded reached => reached = ⟨storage, headerBytes, raster⟩ ∧
        decoded = reading (columns context.block.x))
      (fun _ _ => False) := by
  have hinside : recordStart raster context.block.x + recordBytes raster.height ≤
      storage.length := by
    rw [Storage.length, hstored.size]
    exact recordStart_add_le raster hcolumn
  exact ends_decode_of_record rfl rfl hreadable hinside (hstored.records _ hcolumn)
    (hstored.rows _ hcolumn)

/-! ## Runs -/

/-- A call that stores a block. -/
structure ColumnWrite where
  context : BlockContext
  data : ByteArray

/-- The block is a column of the matrix, with a sample for each row. -/
def ColumnWrite.Fits (raster : Size) (call : ColumnWrite) : Prop :=
  call.context.block.x < raster.width ∧ call.data.size = 2 * raster.height

/-- Stores blocks one after the other. -/
def encodeAll (calls : List ColumnWrite) : Action DtedCodec Unit :=
  calls.forM fun call => Codec.encode call.context call.data

/-- The elevations last written to a column, zeros if none were. -/
def lastWritten (raster : Size) (calls : List ColumnWrite) (column : Nat) : List Int :=
  match calls.reverse.find? fun call => call.context.block.x == column with
  | some call => blockValues call.data
  | none => List.replicate raster.height 0

/-- The last write decides on its own column and on no other one. -/
theorem lastWritten_append (raster : Size) (calls : List ColumnWrite) (call : ColumnWrite)
    (column : Nat) :
    lastWritten raster (calls ++ [call]) column =
      if call.context.block.x = column then blockValues call.data
      else lastWritten raster calls column := by
  unfold lastWritten
  rw [List.reverse_append, List.reverse_singleton, List.singleton_append, List.find?_cons]
  by_cases h : call.context.block.x = column
  · simp [h]
  · have hbeq : (call.context.block.x == column) = false := beq_eq_false_iff_ne.mpr h
    rw [hbeq, if_neg h]

/-- Any number of writes keeps the form of the file and makes each column what was last written
    to it. -/
theorem ends_encodeAll {calls : List ColumnWrite} (husable : storage.Usable)
    (hstored : Stored raster (fun _ => List.replicate raster.height 0) storage.bytes)
    (hfits : ∀ call ∈ calls, call.Fits raster) :
    (encodeAll calls).Ends (⟨storage, headerBytes, raster⟩ : DtedCodec)
      (fun _ after => ∃ written : Storage, after = ⟨written, headerBytes, raster⟩ ∧
        written.Usable ∧ Stored raster (lastWritten raster calls) written.bytes)
      (fun _ _ => False) := by
  -- after some calls the columns are those last written by them
  apply (Ends.forM
    (fun done (after : DtedCodec) => ∃ written : Storage, after = ⟨written, headerBytes, raster⟩ ∧
      written.Usable ∧ Stored raster (lastWritten raster done) written.bytes)
    (fun _ _ _ => False) ⟨storage, rfl, husable, hstored⟩ ?call).mono
  case call =>
    rintro done call rest _ hcalls ⟨before, rfl, hbefore, hform⟩
    have hmem : call ∈ calls := by
      rw [hcalls]
      exact List.mem_append_right done List.mem_cons_self
    have hcall := hfits call hmem
    apply (ends_encode hbefore hform hcall.1).imp
    rintro _ _ ⟨written, rfl, hwritten, hbytes⟩
    refine ⟨written, rfl, hwritten, ?_⟩
    rw [hbytes]
    apply hform.overwrite hcall.1
    · -- a block has as many values as the raster has rows
      rw [length_blockValues, hcall.2]
      omega
    · rw [lastWritten_append, if_pos rfl]
    · intro other hother
      rw [lastWritten_append, if_neg fun h => hother h.symm]
  · exact fun _ _ hdone => hdone
  · rintro _ _ ⟨_, _, _, _, hfalse⟩
    exact hfalse

/-- What holds of an elevation file after some writes: its length, its headers, the places of its
    records, and what is read from it. -/
structure Intact (raster : Size) (calls : List ColumnWrite) (start after : DtedCodec) : Prop where
  length : after.storage.length = 3428 + raster.width * (12 + 2 * raster.height)
  headers : after.storage.bytes.slice 0 3428 = start.storage.bytes.slice 0 3428
  sides : after.raster = raster
  /-- The records of different columns are disjoint. -/
  apart : ∀ column other, column ≠ other →
    after.recordOffset column + (12 + 2 * raster.height) ≤ after.recordOffset other ∨
      after.recordOffset other + (12 + 2 * raster.height) ≤ after.recordOffset column
  /-- Another write succeeds and changes bytes of its own record only. -/
  footprint : ∀ call : ColumnWrite, call.Fits raster →
    (Codec.encode call.context call.data).Ends after
      (fun _ later => ∀ i,
        (i < after.recordOffset call.context.block.x ∨
          after.recordOffset call.context.block.x + (12 + 2 * raster.height) ≤ i) →
        later.storage.bytes.byteAt i = after.storage.bytes.byteAt i)
      (fun _ _ => False)
  /-- Any storage with the same bytes is opened as the matrix. -/
  reload : ∀ storage : Storage, storage.Readable → storage.bytes = after.storage.bytes →
    load storage = .ok ⟨storage, 3428, raster⟩
  /-- Every column is read, also after opening the file again, as what was last written to it. -/
  reads : ∀ context : BlockContext, context.block.x < raster.width → ∀ opened : DtedCodec,
    opened = after ∨ (opened.storage.Readable ∧ opened.storage.bytes = after.storage.bytes ∧
      load opened.storage = .ok opened) →
    (Codec.decode context).Ends opened
      (fun decoded reached => reached = opened ∧
        decoded.bytes = blockOfValues
          ((lastWritten raster calls context.block.x).map fun value => (reread value).1) ∧
        checksumAnomaly context.block.x ∉ decoded.anomalies)
      (fun _ _ => False)

/-- Storage with the bytes of a matrix is opened as this matrix. -/
theorem load_of_stored (hreadable : storage.Readable) (hsides : FitsHeaders raster)
    (hstored : Stored raster columns storage.bytes) :
    load storage = .ok ⟨storage, headerBytes, raster⟩ := by
  have hlength : headerBytes ≤ storage.length := by
    rw [Storage.length, hstored.size]
    exact headerBytes_le_recordStart raster raster.width
  exact load_of_headers hsides ⟨hreadable, hlength, hstored.headers⟩

/-- Encoding a block changes bytes of its own record only. -/
theorem ends_encode_footprint {call : ColumnWrite} (husable : storage.Usable)
    (hstored : Stored raster columns storage.bytes) (hcolumn : call.context.block.x < raster.width) :
    (Codec.encode call.context call.data).Ends (⟨storage, headerBytes, raster⟩ : DtedCodec)
      -- for all bytes outside the record
      (fun _ later => ∀ i,
        (i < recordStart raster call.context.block.x ∨
          recordStart raster call.context.block.x + recordBytes raster.height ≤ i) →
        later.storage.bytes.byteAt i = storage.bytes.byteAt i)
      (fun _ _ => False) := by
  have hsize := size_record raster.height call.context.block.x (blockValues call.data)
  have hinside : recordStart raster call.context.block.x +
      (record raster.height call.context.block.x (blockValues call.data)).size ≤
      storage.bytes.size := by
    rw [hsize, hstored.size]
    exact recordStart_add_le raster hcolumn
  apply (ends_encode husable hstored hcolumn).imp
  rintro _ _ ⟨later, rfl, -, hbytes⟩ i hi
  have houtside : ¬(recordStart raster call.context.block.x ≤ i ∧
      i < recordStart raster call.context.block.x +
        (record raster.height call.context.block.x (blockValues call.data)).size) := by
    rw [hsize]
    omega
  show later.bytes.byteAt i = storage.bytes.byteAt i
  rw [hbytes, byteAt_overwrite hinside, if_neg houtside]

/-- A wrong checksum is reported as another kind of anomaly than two's complement. -/
theorem checksumAnomaly_ne (column : Nat) : checksumAnomaly column ≠ complementAnomaly := by
  intro h
  have hkind : "dted-checksum" = "dted-twos-complement" := congrArg Anomaly.kind h
  exact absurd hkind (by decide)

/-- The elevations of a column give no reason to report a wrong checksum. -/
theorem checksumAnomaly_not_mem_reading (column : Nat) (values : List Int) :
    checksumAnomaly column ∉ (reading values).anomalies := by
  rw [reading]
  split
  · rw [List.mem_singleton]
    exact checksumAnomaly_ne column
  · exact List.not_mem_nil

/-- A file with the columns last written to it is intact. -/
theorem intact_of_stored {calls : List ColumnWrite} {start written : Storage}
    (hstart : Stored raster (fun _ => List.replicate raster.height 0) start.bytes)
    (husable : written.Usable) (hsides : FitsHeaders raster)
    (hstored : Stored raster (lastWritten raster calls) written.bytes) :
    Intact raster calls ⟨start, headerBytes, raster⟩ ⟨written, headerBytes, raster⟩ where
  length := hstored.size
  headers := hstored.headers.trans hstart.headers.symm
  sides := rfl
  apart _ _ hne := records_apart raster hne
  footprint _ hcall := ends_encode_footprint husable hstored hcall.1
  reload storage hreadable hbytes := by
    -- the same bytes are the same columns, whoever opens them
    have hsame : Stored raster (lastWritten raster calls) storage.bytes := by
      rw [hbytes]
      exact hstored
    exact load_of_stored hreadable hsides hsame
  reads := by
    intro context hcolumn opened hopened
    -- the codec at hand and one that has opened the file again differ in their storage only
    have hform : ∃ storage : Storage, opened = ⟨storage, headerBytes, raster⟩ ∧
        storage.Readable ∧ Stored raster (lastWritten raster calls) storage.bytes := by
      rcases hopened with rfl | ⟨hreadable, hbytes, hopened⟩
      · exact ⟨written, rfl, husable.readable, hstored⟩
      · rw [← hbytes] at hstored
        rw [load_of_stored hreadable hsides hstored, Except.ok.injEq] at hopened
        exact ⟨opened.storage, hopened.symm, hreadable, hstored⟩
    obtain ⟨storage, rfl, hreadable, hcolumns⟩ := hform
    apply (ends_decode hreadable hcolumns hcolumn).imp
    rintro decoded _ ⟨rfl, rfl⟩
    exact ⟨rfl, rfl, checksumAnomaly_not_mem_reading _ _⟩

/-- A new matrix stays intact over any sequence of column writes, all of which succeed. -/
theorem matrix_intact (husable : storage.Usable) (hsides : FitsHeaders raster) :
    (create raster).Ends storage
      (fun codec _ => ∀ calls : List ColumnWrite, (∀ call ∈ calls, call.Fits raster) →
        (encodeAll calls).Ends codec (fun _ after => Intact raster calls codec after)
          (fun _ _ => False))
      (fun _ _ => False) := by
  apply (ends_create husable hsides).imp
  rintro _ _ ⟨start, rfl, hstart, hzeros⟩ calls hfits
  apply (ends_encodeAll hstart hzeros hfits).imp
  rintro _ _ ⟨written, rfl, hwritten, hstored⟩
  exact intact_of_stored hzeros hwritten hsides hstored

/-- Two columns of one row in memory; the second one is written twice. -/
theorem matrix_intact_rewritten :
    (Storage.inMemory ByteArray.empty true).Usable ∧ FitsHeaders ⟨2, 1⟩ ∧
      (create ⟨2, 1⟩).Ends (Storage.inMemory ByteArray.empty true)
        (fun codec _ =>
          (encodeAll [⟨⟨⟨1, 1, 0⟩, band 1, ⟨2, 1⟩⟩, blockOfValues [500]⟩,
            ⟨⟨⟨1, 1, 0⟩, band 1, ⟨2, 1⟩⟩, blockOfValues [-20]⟩]).Ends codec
            (fun _ after => Intact ⟨2, 1⟩ [⟨⟨⟨1, 1, 0⟩, band 1, ⟨2, 1⟩⟩, blockOfValues [500]⟩,
              ⟨⟨⟨1, 1, 0⟩, band 1, ⟨2, 1⟩⟩, blockOfValues [-20]⟩] codec after)
            (fun _ _ => False))
        (fun _ _ => False) := by
  have husable : (Storage.inMemory ByteArray.empty true).Usable := ⟨trivial, rfl⟩
  have hsides : FitsHeaders ⟨2, 1⟩ := ⟨by decide, by decide, by decide, by decide⟩
  refine ⟨husable, hsides, ?_⟩
  apply (matrix_intact husable hsides).imp
  intro codec _ hruns
  apply hruns
  intro call hcall
  -- both calls are for the second column
  have hcolumn : call.context.block.x = 1 ∧ call.data.size = 2 := by
    rcases List.mem_cons.mp hcall with rfl | hlast
    · exact ⟨rfl, size_blockOfValues _⟩
    · rw [List.mem_singleton] at hlast
      subst hlast
      exact ⟨rfl, size_blockOfValues _⟩
  exact ⟨by rw [hcolumn.1]; decide, hcolumn.2⟩

end RasterStore.DtedCodec
