import RasterStore.Proofs.Dted.Matrix

/-!
# Records with a byte that is wrong

The checksum of a record is the sum of its bytes, as a 32-bit number. Two byte strings that differ
in one place only have sums that differ by less than a byte can hold, so the sums are not the same
(`checksum_ne_of_changed`). A record has three parts, and a byte that is wrong is found in each:

* the sentinel, without which a record is no record
* the rest of what the sum covers, which then has another sum than the one stored
* the stored sum, which then is not the one of the bytes before it

`corruption_noticed` says this of any column that was written to an elevation file.
-/

namespace RasterStore.Dted

open ByteArray

/-! ## Sums -/

/-- Going through a byte string is going through the list of its bytes. -/
private theorem foldl_loop {β : Type} (f : β → UInt8 → β) (bytes : ByteArray) (todo start : Nat)
    (value : β) (h : start + todo = bytes.size) :
    ByteArray.foldlM.loop (fun value byte => (pure (f value byte) : Id β)) bytes bytes.size
        (Nat.le_refl _) todo start value =
      (bytes.data.toList.drop start).foldl f value := by
  have hlength : bytes.data.toList.length = bytes.size := Array.length_toList
  -- induction on the bytes that are still to be summed
  induction todo generalizing start value with
  | zero =>
    rw [ByteArray.foldlM.loop, dif_neg (by omega), List.drop_eq_nil_of_le (by omega)]
    rfl
  | succ todo ih =>
    rw [ByteArray.foldlM.loop, dif_pos (by omega), List.drop_eq_getElem_cons (by omega),
      List.foldl_cons, ← ih (start + 1) _ (by omega)]
    rfl

private theorem checksum_eq_foldl (bytes : ByteArray) :
    checksum bytes = bytes.data.toList.foldl (fun sum byte => sum + byte.toUInt32) 0 := by
  rw [checksum, ByteArray.foldl, ByteArray.foldlM, dif_pos (Nat.le_refl _)]
  exact foldl_loop _ bytes bytes.size 0 0 (Nat.zero_add _)

private theorem foldl_add (bytes : List UInt8) (sum : UInt32) :
    bytes.foldl (fun sum byte => sum + byte.toUInt32) sum =
      sum + bytes.foldl (fun sum byte => sum + byte.toUInt32) 0 := by
  induction bytes generalizing sum with
  | nil => simp
  | cons byte rest ih =>
    rw [List.foldl_cons, List.foldl_cons, ih, ih (0 + byte.toUInt32), UInt32.zero_add,
      UInt32.add_assoc]

/-- The checksum of two pieces is the sum of theirs. -/
theorem checksum_append (a b : ByteArray) : checksum (a ++ b) = checksum a + checksum b := by
  rw [checksum_eq_foldl, checksum_eq_foldl, checksum_eq_foldl, data_append, Array.toList_append,
    List.foldl_append, foldl_add]

theorem checksum_singleton (byte : UInt8) : checksum [byte].toByteArray = byte.toUInt32 := by
  rw [checksum_eq_foldl]
  simp

/-- The sum is made up of the byte at one place and the sums of what is before and behind it. -/
theorem checksum_split {bytes : ByteArray} {i : Nat} (h : i < bytes.size) :
    checksum bytes = checksum (bytes.slice 0 i) + (bytes.byteAt i).toUInt32 +
      checksum (bytes.slice (i + 1) (bytes.size - (i + 1))) := by
  -- what is before the byte, the byte, what is behind it
  have hparts : bytes = bytes.slice 0 i ++ [bytes.byteAt i].toByteArray ++
      bytes.slice (i + 1) (bytes.size - (i + 1)) := by
    have hstart : (bytes.slice 0 i).size = i := size_slice_of_le (by omega)
    apply ext_byteAt
    · simp only [size_append, size_slice, List.size_toByteArray, List.length_singleton]
      omega
    · intro k hk
      simp only [byteAt_append, size_append, hstart, List.size_toByteArray,
        List.length_singleton, byteAt_slice, byteAt_toByteArray, Nat.zero_add]
      by_cases hbefore : k < i
      · rw [if_pos (by omega), if_pos hbefore, if_pos hbefore]
      · by_cases hsame : k = i
        · subst hsame
          rw [if_pos (by omega), if_neg hbefore, Nat.sub_self]
          rfl
        · rw [if_neg (by omega), if_pos (by omega), show i + 1 + (k - (i + 1)) = k by omega]
  conv => lhs; rw [hparts]
  rw [checksum_append, checksum_append, checksum_singleton]

/-- Byte strings that differ in one place only have different sums. -/
theorem checksum_ne_of_changed {a b : ByteArray} {i : Nat} (hsize : a.size = b.size)
    (hi : i < a.size) (hothers : ∀ k, k ≠ i → a.byteAt k = b.byteAt k)
    (hbyte : a.byteAt i ≠ b.byteAt i) : checksum a ≠ checksum b := by
  intro hsum
  have hbefore : a.slice 0 i = b.slice 0 i :=
    slice_eq_slice (by omega) (by omega) fun k hk => hothers (0 + k) (by omega)
  have hbehind : a.slice (i + 1) (a.size - (i + 1)) = b.slice (i + 1) (b.size - (i + 1)) := by
    rw [← hsize]
    exact slice_eq_slice (by omega) (by omega) fun k _ => hothers (i + 1 + k) (by omega)
  -- what is around the place is the same on both sides
  rw [checksum_split hi, checksum_split (by omega : i < b.size), hbefore, hbehind,
    UInt32.add_left_inj, UInt32.add_right_inj, UInt8.toUInt32_inj] at hsum
  exact hbyte hsum

/-! ## Records -/

variable {rows column : Nat} {values : List Int}

/-- A record is read as it stands, whatever elevations it was written of, and its sum is right. -/
theorem parseRecord_own (rows column : Nat) (values : List Int) :
    ∃ decoded, parseRecord rows column (record rows column values) = .ok decoded ∧
      ∀ anomaly ∈ decoded.anomalies, anomaly = complementAnomaly := by
  refine ⟨_, by rw [parseRecord, byteAt_record_zero, if_neg (fun h => h rfl)], ?_⟩
  rw [slice_record_body, storedChecksum_record, if_neg (fun h => h rfl), List.nil_append]
  intro anomaly hmem
  split at hmem
  · exact List.mem_singleton.mp hmem
  · exact absurd hmem List.not_mem_nil

/-- A record whose sum is not the one stored in it is refused or reported. -/
theorem parseRecord_of_wrong_sum {bytes : ByteArray}
    (h : storedChecksum rows bytes ≠ (checksum (bytes.slice 0 (8 + 2 * rows))).toNat) :
    (∃ reason, parseRecord rows column bytes = .error (.format none reason)) ∨
      ∃ decoded, parseRecord rows column bytes = .ok decoded ∧
        checksumAnomaly column ∈ decoded.anomalies := by
  rw [parseRecord]
  split
  · exact .inl ⟨_, rfl⟩
  · refine .inr ⟨_, rfl, ?_⟩
    rw [if_pos h]
    exact List.mem_append_left _ (List.mem_singleton_self _)

/-- The stored sum depends on the last four bytes of a record, and on each of them. -/
private theorem storedChecksum_inj {a b : ByteArray} (ha : a.size = recordBytes rows)
    (hb : b.size = recordBytes rows) :
    storedChecksum rows a = storedChecksum rows b ↔
      a.slice (8 + 2 * rows) 4 = b.slice (8 + 2 * rows) 4 := by
  have hlength : (a.slice (8 + 2 * rows) 4).toList.reverse.length =
      (b.slice (8 + 2 * rows) 4).toList.reverse.length := by
    simp only [List.length_reverse, toList_eq, Array.length_toList]
    exact (size_slice a _ _).trans (by rw [ha, ← hb, ← size_slice]; rfl)
  rw [storedChecksum, storedChecksum, ofLittleEndian_inj hlength, List.reverse_inj, toList_inj]

/-- A record with one wrong byte does not have the sum that is stored in it. -/
theorem wrong_sum_of_changed {bytes : ByteArray} {i : Nat} (hsize : bytes.size = recordBytes rows)
    (hi : i < recordBytes rows)
    (hothers : ∀ k, k ≠ i → bytes.byteAt k = (record rows column values).byteAt k)
    (hbyte : bytes.byteAt i ≠ (record rows column values).byteAt i) :
    storedChecksum rows bytes ≠ (checksum (bytes.slice 0 (8 + 2 * rows))).toNat := by
  have hown := size_record rows column values
  have hright : storedChecksum rows (record rows column values) =
      (checksum ((record rows column values).slice 0 (8 + 2 * rows))).toNat := by
    rw [slice_record_body, storedChecksum_record]
  rw [recordBytes] at hi
  intro hsum
  by_cases hplace : i < 8 + 2 * rows
  · -- a byte that the sum covers: the stored sum is as it was
    have hstored : storedChecksum rows bytes = storedChecksum rows (record rows column values) :=
      (storedChecksum_inj hsize hown).mpr (slice_eq_slice (by rw [hsize, recordBytes]; omega)
        (by rw [hown, recordBytes]; omega) fun k _ => hothers _ (by omega))
    have hlength : ∀ r : ByteArray, r.size = recordBytes rows →
        (r.slice 0 (8 + 2 * rows)).size = 8 + 2 * rows := by
      intro r hr
      rw [recordBytes] at hr
      exact size_slice_of_le (by omega)
    have hchanged : checksum (bytes.slice 0 (8 + 2 * rows)) ≠
        checksum ((record rows column values).slice 0 (8 + 2 * rows)) := by
      apply checksum_ne_of_changed (i := i) (by rw [hlength _ hsize, hlength _ hown])
        (by rw [hlength _ hsize]; exact hplace)
      · intro k hk
        rw [byteAt_slice, byteAt_slice, Nat.zero_add, hothers k hk]
      · rwa [byteAt_slice, byteAt_slice, Nat.zero_add, if_pos hplace, if_pos hplace]
    rw [hstored, hright, UInt32.toNat_inj] at hsum
    exact hchanged hsum.symm
  · -- a byte of the stored sum: what it covers is as it was
    have hbody : bytes.slice 0 (8 + 2 * rows) =
        (record rows column values).slice 0 (8 + 2 * rows) :=
      slice_eq_slice (by rw [hsize, recordBytes]; omega) (by rw [hown, recordBytes]; omega)
        fun k hk => hothers _ (by omega)
    rw [hbody, ← hright, storedChecksum_inj hsize hown] at hsum
    have hsame := congrArg (fun piece => piece.byteAt (i - (8 + 2 * rows))) hsum
    simp only [byteAt_slice] at hsame
    rw [if_pos (by omega), if_pos (by omega), Nat.add_sub_cancel' (by omega)] at hsame
    exact hbyte hsame

end RasterStore.Dted

namespace RasterStore

/-! ## Reports -/

/-- Reporting anomalies adds their kinds. -/
theorem Reports.hasReported_warnAll (reports : Reports) (anomalies : List Anomaly) (kind : String) :
    (reports.warnAll anomalies).hasReported kind = true ↔
      reports.hasReported kind = true ∨ ∃ anomaly ∈ anomalies, anomaly.kind = kind := by
  -- induction on the anomalies: each adds its kind, unless it is known already
  induction anomalies generalizing reports with
  | nil => simp [warnAll]
  | cons anomaly rest ih =>
    have hstep : reports.warnAll (anomaly :: rest) = (reports.warn anomaly).warnAll rest := rfl
    have hwarn : (reports.warn anomaly).hasReported kind = true ↔
        reports.hasReported kind = true ∨ anomaly.kind = kind := by
      unfold warn
      split
      · next hknown =>
        refine ⟨.inl, fun h => h.elim id fun hkind => ?_⟩
        rw [← hkind]
        exact hknown
      · simp only [hasReported, List.contains_cons, Bool.or_eq_true, beq_iff_eq]
        rw [or_comm, eq_comm (a := kind)]
    rw [hstep, ih, hwarn, or_assoc]
    simp only [List.mem_cons, exists_eq_or_imp]

namespace DtedCodec

open ByteArray Dted RasterStore.Action

/-- Without earlier reports, the block is reported to have a wrong checksum. -/
def ReportsChecksum (decoded : Decoded) : Prop :=
  (Reports.warnAll {} decoded.anomalies).hasReported "dted-checksum" = true

/-- A wrong checksum is reported just if there is an anomaly of this kind. -/
theorem reportsChecksum_iff (decoded : Decoded) :
    ReportsChecksum decoded ↔ ∃ anomaly ∈ decoded.anomalies, anomaly.kind = "dted-checksum" := by
  rw [ReportsChecksum, Reports.hasReported_warnAll]
  simp [Reports.hasReported]

/-- The file with another byte at one offset. -/
def withByte (codec : DtedCodec) (offset : Nat) (byte : UInt8) : DtedCodec :=
  { codec with storage :=
      { codec.storage with bytes := codec.storage.bytes.overwrite offset [byte].toByteArray } }

variable {codec : DtedCodec} {column : Nat} {values : List Int}

private theorem fits_byte {bytes : ByteArray} {offset : Nat} (h : offset < bytes.size)
    (byte : UInt8) : offset + [byte].toByteArray.size ≤ bytes.size := by
  rw [List.size_toByteArray, List.length_singleton]
  exact h

theorem length_withByte {offset : Nat} (h : offset < codec.storage.length) (byte : UInt8) :
    (codec.withByte offset byte).storage.length = codec.storage.length :=
  size_overwrite (fits_byte h byte)

/-- One byte is the new one, and the others are as they were. -/
theorem byteAt_withByte {offset : Nat} (h : offset < codec.storage.length) (byte : UInt8)
    (k : Nat) : (codec.withByte offset byte).storage.bytes.byteAt k =
      if k = offset then byte else codec.storage.bytes.byteAt k := by
  rw [withByte, byteAt_overwrite (fits_byte h byte), List.size_toByteArray, List.length_singleton]
  by_cases hk : k = offset
  · rw [if_pos (by omega), if_pos hk, hk, Nat.sub_self]
    rfl
  · rw [if_neg (by omega), if_neg hk]

/-- Changing a byte does not change what can be read. -/
theorem readable_withByte {offset : Nat} (h : offset < codec.storage.length) (byte : UInt8)
    (hreadable : codec.storage.Readable) : (codec.withByte offset byte).storage.Readable := by
  have hlength := length_withByte h byte
  obtain ⟨⟨medium, bytes, writable⟩, dataOffset, raster⟩ := codec
  cases medium with
  | memory => trivial
  | file path => exact Nat.lt_of_le_of_lt (Nat.le_of_eq hlength) hreadable
  | directory path => exact hreadable.elim

/-- A record that was written to a file and not touched since is decoded without a report of a
    wrong checksum. -/
theorem ends_decode_of_own {context : BlockContext} (hreadable : codec.storage.Readable)
    (hinside : codec.recordOffset context.block.x + recordBytes codec.raster.height ≤
      codec.storage.length)
    (hrecord : codec.storage.bytes.slice (codec.recordOffset context.block.x)
        (recordBytes codec.raster.height) =
      record codec.raster.height context.block.x values) :
    (Codec.decode context).Ends codec (fun decoded _ => ¬ReportsChecksum decoded)
      (fun _ _ => False) := by
  obtain ⟨decoded, hparse, hanomalies⟩ :=
    parseRecord_own codec.raster.height context.block.x values
  -- the record that is read is the one that was written
  rw [← hrecord, ← readColumn_eq hreadable hinside] at hparse
  refine ends_of_run_ok (by rw [run_decode, hparse]) fun hreport => ?_
  -- whatever anomaly there is, it is of another kind
  obtain ⟨anomaly, hmem, hkind⟩ := (reportsChecksum_iff decoded).mp hreport
  rw [hanomalies anomaly hmem] at hkind
  exact absurd hkind (by decide)

/-- A record with one byte changed since it was written is refused, or decoded with a report. -/
theorem ends_decode_of_changed {context : BlockContext} {i : Nat} {byte : UInt8}
    (hreadable : codec.storage.Readable)
    (hinside : codec.recordOffset context.block.x + recordBytes codec.raster.height ≤
      codec.storage.length)
    (hrecord : codec.storage.bytes.slice (codec.recordOffset context.block.x)
        (recordBytes codec.raster.height) =
      record codec.raster.height context.block.x values)
    (hi : i < recordBytes codec.raster.height)
    (hbyte : byte ≠ codec.storage.bytes.byteAt (codec.recordOffset context.block.x + i)) :
    (Codec.decode context).Ends (codec.withByte (codec.recordOffset context.block.x + i) byte)
      (fun decoded _ => ReportsChecksum decoded)
      (fun error _ => ∃ reason, error = .format none reason) := by
  have hlength : codec.recordOffset context.block.x + i < codec.storage.length := by omega
  -- what the file with the other byte is like
  have hsize := length_withByte hlength byte
  have hbyteAt := byteAt_withByte hlength byte
  have hcolumn : (codec.withByte (codec.recordOffset context.block.x + i) byte).readColumn
      context.block.x = parseRecord codec.raster.height context.block.x
        ((codec.withByte (codec.recordOffset context.block.x + i) byte).storage.bytes.slice
          (codec.recordOffset context.block.x) (recordBytes codec.raster.height)) :=
    readColumn_eq (readable_withByte hlength byte hreadable)
      (Nat.le_trans hinside (Nat.le_of_eq hsize.symm))
  generalize codec.withByte (codec.recordOffset context.block.x + i) byte = changed at *
  -- one byte of the record is another
  have hbytes : ∀ k, (changed.storage.bytes.slice (codec.recordOffset context.block.x)
        (recordBytes codec.raster.height)).byteAt k =
      if k = i then byte else (record codec.raster.height context.block.x values).byteAt k := by
    intro k
    rw [← hrecord, byteAt_slice, byteAt_slice, hbyteAt]
    simp only [Nat.add_left_cancel_iff]
    by_cases hk : k = i
    · subst hk
      rw [if_pos rfl, if_pos rfl, if_pos hi]
    · rw [if_neg hk, if_neg hk]
  -- so that the sum no longer fits, wherever the byte is
  have hwrong : storedChecksum codec.raster.height
        (changed.storage.bytes.slice (codec.recordOffset context.block.x)
          (recordBytes codec.raster.height)) ≠
      (checksum ((changed.storage.bytes.slice (codec.recordOffset context.block.x)
        (recordBytes codec.raster.height)).slice 0 (8 + 2 * codec.raster.height))).toNat := by
    apply wrong_sum_of_changed (size_slice_of_le (Nat.le_trans hinside (Nat.le_of_eq hsize.symm))) hi
    · intro k hk
      rw [hbytes, if_neg hk]
    · rwa [hbytes, if_pos rfl, ← hrecord, byteAt_slice, if_pos hi]
  rcases parseRecord_of_wrong_sum hwrong with ⟨reason, hrefused⟩ | ⟨decoded, hparse, hreport⟩
  · exact ends_of_run_error (by rw [run_decode, hcolumn.trans hrefused]) ⟨reason, rfl⟩
  · refine ends_of_run_ok (by rw [run_decode, hcolumn.trans hparse]) ?_
    exact (reportsChecksum_iff decoded).mpr ⟨_, hreport, rfl⟩

/-- A column that was written to a file is decoded without a report of a wrong checksum. If any one
    byte of its record is changed, the decoding is refused for its format, or it is reported. -/
theorem corruption_noticed (husable : codec.storage.Usable) :
    (writeColumn column values).Ends codec
      (fun _ written => ∀ context : BlockContext, context.block.x = column →
        (Codec.decode context).Ends written (fun decoded _ => ¬ReportsChecksum decoded)
          (fun _ _ => False) ∧
        ∀ i < recordBytes codec.raster.height, ∀ byte,
          byte ≠ written.storage.bytes.byteAt (codec.recordOffset column + i) →
          (Codec.decode context).Ends (written.withByte (codec.recordOffset column + i) byte)
            (fun decoded _ => ReportsChecksum decoded)
            (fun error _ => ∃ reason, error = .format none reason))
      (fun _ after => after = codec ∧ codec.storage.medium ≠ .memory ∧
        offsetLimit ≤ codec.recordOffset column + recordBytes codec.raster.height) := by
  apply (ends_writeColumn husable column values).imp
  rintro _ ⟨written, dataOffset, raster⟩ ⟨rfl, rfl, hwritten, hinside, hrecord⟩ context rfl
  refine ⟨ends_decode_of_own hwritten.readable hinside hrecord, fun i hi byte hbyte => ?_⟩
  exact ends_decode_of_changed hwritten.readable hinside hrecord hi hbyte

/-- A single elevation of 5, in memory: it is read without a report, and with one if its low byte
    has become 6. -/
theorem corruption_noticed_sample :
    (Storage.inMemory ByteArray.empty true).Usable ∧
      (writeColumn 0 [5]).Ends
        (⟨Storage.inMemory ByteArray.empty true, headerBytes, ⟨1, 1⟩⟩ : DtedCodec)
        (fun _ written =>
          (Codec.decode ⟨⟨1, 0, 0⟩, band 1, ⟨1, 1⟩⟩).Ends written
            (fun decoded _ => ¬ReportsChecksum decoded) (fun _ _ => False) ∧
          (Codec.decode ⟨⟨1, 0, 0⟩, band 1, ⟨1, 1⟩⟩).Ends (written.withByte (headerBytes + 9) 6)
            (fun decoded _ => ReportsChecksum decoded)
            (fun error _ => ∃ reason, error = .format none reason))
        (fun _ _ => False) := by
  have husable : (Storage.inMemory ByteArray.empty true).Usable := ⟨trivial, rfl⟩
  refine ⟨husable, ?_⟩
  have hlow : (record 1 0 [5]).byteAt 9 = 5 := by decide +kernel
  apply ((corruption_noticed husable).and (ends_writeColumn husable 0 [5])).mono
  · rintro _ written ⟨hnoticed, -, -, -, -, hrecord⟩
    obtain ⟨hown, hchanged⟩ := hnoticed ⟨⟨1, 0, 0⟩, band 1, ⟨1, 1⟩⟩ rfl
    refine ⟨hown, hchanged 9 (by decide) 6 ?_⟩
    -- the byte that was written is the one of the record
    have hbyte := congrArg (ByteArray.byteAt · 9) hrecord
    simp only [byteAt_slice] at hbyte
    rw [if_pos (by decide), hlow] at hbyte
    intro hsame
    exact absurd (hsame.trans hbyte) (by decide)
  · rintro _ _ ⟨⟨-, hmedium, -⟩, -⟩
    exact absurd rfl hmedium

end DtedCodec

end RasterStore
