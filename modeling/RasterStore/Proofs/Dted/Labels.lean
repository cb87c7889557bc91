import RasterStore.Proofs.Dted.Matrix
import RasterStore.Proofs.Storage.Behind
import Mathlib.Data.List.Forall2

/-!
# Labels before an elevation file

Volume and file labels of 80 bytes may stand before the user header label. They are skipped one
after the other, without a limit of their own: `Scan` is this loop, and it comes to an end on every
storage because each label that is skipped takes bytes of it (`scan_skipLabels`).

Where the loop ends, every later offset starts. `Behind leading alone behind` relates a storage to
one that has other bytes before the same ones. Reading and writing at an offset that is moved by
the leading bytes does the same on both, apart from what the failure of a read quotes (`Alike`).
So a file is opened, read and written behind labels as it is alone: `labels_transparent`.
-/

namespace RasterStore.Dted

open ByteArray

/-! ## The first header label -/

/-- The texts that volume and file labels start with. -/
def labelTags : List String :=
  ["VOL", "HDR"]

/-- The loop over the labels of a storage, from an offset on: it goes on behind a volume or file
    label, and ends with the first other record or where nothing can be read. -/
inductive Scan (storage : Storage) : Nat → Except RasterError (ByteArray × Nat) → Prop
  | failed {offset : Nat} {error : RasterError}
      (hread : storage.read offset labelBytes = .error error) : Scan storage offset (.error error)
  | found {offset : Nat} {label : ByteArray} (hread : storage.read offset labelBytes = .ok label)
      (htag : DtedCodec.hasTag label labelTags = false) :
      Scan storage offset (.ok (label, offset + labelBytes))
  | skipped {offset : Nat} {label : ByteArray} {result : Except RasterError (ByteArray × Nat)}
      (hread : storage.read offset labelBytes = .ok label)
      (htag : DtedCodec.hasTag label labelTags = true)
      (hrest : Scan storage (offset + labelBytes) result) : Scan storage offset result

variable {storage : Storage} {offset : Nat}

/-- The loop ends in one way only. -/
theorem Scan.unique {first second : Except RasterError (ByteArray × Nat)}
    (h : Scan storage offset first) (h' : Scan storage offset second) : first = second := by
  -- induction on the first scan; the second one reads the same record and goes the same way
  induction h with
  | failed hread =>
    cases h' with
    | failed hread' => rw [hread] at hread'; cases hread'; rfl
    | found hread' _ => rw [hread] at hread'; cases hread'
    | skipped hread' _ _ => rw [hread] at hread'; cases hread'
  | found hread htag =>
    cases h' with
    | failed hread' => rw [hread] at hread'; cases hread'
    | found hread' _ => rw [hread] at hread'; cases hread'; rfl
    | skipped hread' htag' _ => rw [hread] at hread'; cases hread'; rw [htag] at htag'; cases htag'
  | skipped hread htag _ ih =>
    cases h' with
    | failed hread' => rw [hread] at hread'; cases hread'
    | found hread' htag' => rw [hread] at hread'; cases hread'; rw [htag] at htag'; cases htag'
    | skipped _ _ hrest => exact ih hrest

/-- With a step for each label that the storage has room for, the loop is run to its end. -/
theorem scan_skipLabels {fuel : Nat}
    (h : storage.length < offset + (fuel + 1) * labelBytes) :
    Scan storage offset (DtedCodec.skipLabels storage fuel offset) := by
  have hpos : 0 < labelBytes := by decide
  induction fuel generalizing offset with
  | zero =>
    -- there is no room for another label
    have hnoRoom : storage.length < offset + labelBytes := by omega
    obtain ⟨reason, hread⟩ := Storage.read_of_outside hpos hnoRoom
    rw [DtedCodec.skipLabels, hread]
    exact .failed hread
  | succ fuel ih =>
    rw [DtedCodec.skipLabels]
    cases hread : storage.read offset labelBytes with
    | error error => exact .failed hread
    | ok label =>
      simp only [bind, Except.bind]
      cases htag : DtedCodec.hasTag label ["VOL", "HDR"] with
      | false => exact .found hread htag
      | true =>
        apply Scan.skipped hread htag
        apply ih
        rw [Nat.succ_mul] at h
        omega

/-- Opening a file starts with the loop over its labels. -/
theorem scan_load (storage : Storage) :
    Scan storage 0 (DtedCodec.skipLabels storage (storage.length / labelBytes) 0) := by
  apply scan_skipLabels
  rw [Nat.zero_add, Nat.mul_comm]
  exact Nat.lt_mul_div_succ storage.length (by decide)

/-- The storage has nothing but labels: no record that fits into it starts otherwise. -/
def OnlyLabels (bytes : ByteArray) : Prop :=
  ∀ k, (k + 1) * labelBytes ≤ bytes.size →
    DtedCodec.hasTag (bytes.slice (k * labelBytes) labelBytes) labelTags = true

/-- Where the records run out before another one is found, the storage fails. -/
theorem Scan.error_of_onlyLabels {result : Except RasterError (ByteArray × Nat)}
    (h : Scan storage offset result) (hlabels : OnlyLabels storage.bytes) {k : Nat}
    (hoffset : offset = k * labelBytes) : ∃ reason, result = .error (.io none reason) := by
  have hpos : 0 < labelBytes := by decide
  -- induction on the scan: every record inside the storage is a label, so that it ends outside
  induction h generalizing k with
  | @failed offset error hread =>
    rcases Storage.read_cases storage offset hpos with ⟨hok, -⟩ | ⟨reason, hfailed⟩
    · rw [hread] at hok
      cases hok
    · rw [hread] at hfailed
      cases hfailed
      exact ⟨reason, rfl⟩
  | @found offset label hread htag =>
    rcases Storage.read_cases storage offset hpos with ⟨hok, hinside⟩ | ⟨reason, hfailed⟩
    · rw [hread] at hok
      cases hok
      -- the record that was found fits into the storage
      rw [hoffset] at htag hinside
      rw [hlabels k (by rw [Nat.succ_mul]; exact hinside)] at htag
      cases htag
    · rw [hread] at hfailed
      cases hfailed
  | skipped _ _ _ ih =>
    apply ih (k := k + 1)
    rw [hoffset, Nat.succ_mul]

theorem load_of_onlyLabels (hlabels : OnlyLabels storage.bytes) :
    ∃ reason, DtedCodec.load storage = .error (.io none reason) := by
  obtain ⟨reason, hresult⟩ := (scan_load storage).error_of_onlyLabels hlabels (Nat.zero_mul _).symm
  refine ⟨reason, ?_⟩
  rw [DtedCodec.load, hresult]
  rfl

end RasterStore.Dted

namespace RasterStore.DtedCodec

open ByteArray Dted RasterStore.Action

variable {labels : List ByteArray} {leading bytes : ByteArray} {alone behind storage : Storage}

/-! ## Opening a file behind labels -/

/-- Byte strings one behind the other. -/
def joined (pieces : List ByteArray) : ByteArray :=
  pieces.foldr (· ++ ·) ByteArray.empty

/-- The loop over labels passes those that it can read. -/
private theorem scan_of_labels {done rest : ByteArray}
    {result : Except RasterError (ByteArray × Nat)}
    (hlabels : ∀ label ∈ labels, label.size = labelBytes ∧ hasTag label labelTags = true)
    (hreadable : storage.Readable) (hbytes : storage.bytes = done ++ (joined labels ++ rest))
    (h : Scan storage (done.size + (joined labels).size) result) :
    Scan storage done.size result := by
  -- induction on the labels: each is skipped, and the scan goes on behind it
  induction labels generalizing done with
  | nil => exact h
  | cons label others ih =>
    obtain ⟨hsize, htag⟩ := hlabels label List.mem_cons_self
    have hjoined : joined (label :: others) = label ++ joined others := rfl
    rw [hjoined] at hbytes h
    have hinside : done.size + labelBytes ≤ storage.length := by
      rw [Storage.length, hbytes, size_append, size_append, size_append]
      omega
    have hread : storage.read done.size labelBytes = .ok label := by
      rw [Storage.read_of_readable hreadable hinside, hbytes,
        slice_append_of_ge (Nat.le_refl _) (by simp only [size_append]; omega), Nat.sub_self,
        append_assoc, slice_append_of_le (by omega), ← hsize, slice_zero_size]
    -- the others start where this label ends
    have hrest : Scan storage (done ++ label).size result := by
      apply ih (fun other hmem => hlabels other (List.mem_cons_of_mem _ hmem))
      · rw [hbytes]
        simp only [append_assoc]
      · rw [size_append, Nat.add_assoc, ← size_append]
        exact h
    rw [size_append, hsize] at hrest
    exact .skipped hread htag hrest

/-- Where there is no label to be skipped, the loop ends with the first record. -/
theorem scan_of_read {offset : Nat}
    (h : ∀ label, storage.read offset labelBytes = .ok label → hasTag label labelTags = false) :
    Scan storage offset
      ((storage.read offset labelBytes).map fun label => (label, offset + labelBytes)) := by
  cases hread : storage.read offset labelBytes with
  | error error => exact .failed hread
  | ok label => exact .found hread (h label hread)

/-- What follows the loop over the labels. -/
private def openBehind (storage : Storage) (found : ByteArray × Nat) :
    Except RasterError DtedCodec := do
  let (label, offset) := found
  if !hasTag label ["UHL"] then
    .error (.format none "no UHL record, not a DTED file")
  else
    let identification ← storage.read offset 3
    let accuracy ← storage.read (offset + identificationBytes) 3
    if !hasTag identification ["DSI"] || !hasTag accuracy ["ACC"] then
      .error (.format none "DSI or ACC record missing")
    else
      let raster : Size := ⟨← field label 48 4, ← field label 52 4⟩
      if raster.isEmpty then
        .error (.format none s!"empty elevation matrix {raster.text}")
      else
        pure ⟨storage, offset + identificationBytes + accuracyBytes, raster⟩

private theorem load_eq (storage : Storage) :
    load storage = skipLabels storage (storage.length / labelBytes) 0 >>= openBehind storage := rfl

/-- The codecs of a file that is alone and of the same file behind other bytes. -/
structure CodecBehind (leading : ByteArray) (alone behind : DtedCodec) : Prop where
  storage : Behind leading alone.storage behind.storage
  dataOffset : behind.dataOffset = leading.size + alone.dataOffset
  raster : behind.raster = alone.raster

/-- The loop skips what stands before a file and finds there what it finds in the file alone. -/
private theorem skipLabels_alike
    (hlabels : ∀ label ∈ labels, label.size = labelBytes ∧ hasTag label labelTags = true)
    (hfirst : ∀ label, alone.read 0 labelBytes = .ok label → hasTag label labelTags = false)
    (h : Behind (joined labels) alone behind) (hreadable : behind.Readable)
    (hreach : behind.medium.Reaches ((joined labels).size + labelBytes)) :
    Alike (joined labels).size
      (fun found found' => found.2 = labelBytes ∧
        found' = (found.1, (joined labels).size + labelBytes))
      (skipLabels alone (alone.length / labelBytes) 0)
      (skipLabels behind (behind.length / labelBytes) 0) := by
  have hread : Alike (joined labels).size Eq (alone.read 0 labelBytes)
      (behind.read (joined labels).size labelBytes) := h.read hreach
  have halone := scan_of_read hfirst
  have hbehind : Scan behind 0 ((behind.read (joined labels).size labelBytes).map
      fun label => (label, (joined labels).size + labelBytes)) := by
    have hbytes : behind.bytes = ByteArray.empty ++ (joined labels ++ alone.bytes) := by
      rw [empty_append]
      exact h.bytes
    apply scan_of_labels hlabels hreadable hbytes
    rw [ByteArray.size_empty, Nat.zero_add]
    apply scan_of_read
    intro label hlabel
    rw [hlabel] at hread
    -- the record that is found behind the labels is the first one of the file
    cases hfound : alone.read 0 labelBytes with
    | ok first =>
      rw [hfound] at hread
      cases hread with
      | ok hsame => exact hsame ▸ hfirst first hfound
    | error error =>
      rw [hfound] at hread
      cases hread
  rw [(scan_load alone).unique halone, (scan_load behind).unique hbehind]
  apply hread.map
  rintro label _ rfl
  exact ⟨Nat.zero_add _, rfl⟩

/-- The other header records are found as far behind the label as in the file alone. -/
private theorem openBehind_alike (h : Behind leading alone behind)
    (hreach : behind.medium.Reaches (leading.size + headerBytes)) (label : ByteArray) :
    Alike leading.size (CodecBehind leading) (openBehind alone (label, labelBytes))
      (openBehind behind (label, leading.size + labelBytes)) := by
  have hbytes : headerBytes = labelBytes + identificationBytes + accuracyBytes := rfl
  have haccuracyBytes : accuracyBytes = 2700 := rfl
  have hidentification : Alike leading.size Eq (alone.read labelBytes 3)
      (behind.read (leading.size + labelBytes) 3) := h.read (hreach.mono (by omega))
  have haccuracy : Alike leading.size Eq (alone.read (labelBytes + identificationBytes) 3)
      (behind.read (leading.size + labelBytes + identificationBytes) 3) := by
    rw [Nat.add_assoc leading.size]
    exact h.read (hreach.mono (by omega))
  -- the checks read the same bytes behind the labels, and fail alike
  simp only [openBehind]
  split
  · exact .failed _
  · apply hidentification.bind
    rintro identification _ - rfl
    apply haccuracy.bind
    rintro accuracy _ - rfl
    split
    · exact .failed _
    · -- the sides are in the label, which is the same one
      apply (Alike.refl _).bind
      rintro width _ - rfl
      apply (Alike.refl _).bind
      rintro height _ - rfl
      split
      · exact .failed _
      · exact .ok ⟨h, by simp only [Nat.add_assoc], rfl⟩

/-- A file behind labels is opened as it is alone. -/
theorem load_alike
    (hlabels : ∀ label ∈ labels, label.size = labelBytes ∧ hasTag label labelTags = true)
    (hfirst : ∀ label, alone.read 0 labelBytes = .ok label → hasTag label labelTags = false)
    (h : Behind (joined labels) alone behind) (hreadable : behind.Readable)
    (hreach : behind.medium.Reaches ((joined labels).size + headerBytes)) :
    Alike (joined labels).size (CodecBehind (joined labels)) (load alone) (load behind) := by
  rw [load_eq, load_eq]
  have hfits : labelBytes ≤ headerBytes := by decide
  -- the labels are skipped, and then the matrix is opened behind them
  apply (skipLabels_alike hlabels hfirst h hreadable
    (hreach.mono (Nat.add_le_add_left hfits _))).bind
  rintro ⟨label, _⟩ _ - ⟨rfl, rfl⟩
  exact openBehind_alike h hreach label

/-! ## Columns of a file behind labels -/

/-- A call for a column. -/
inductive ColumnCall where
  | decode (context : BlockContext)
  | encode (context : BlockContext) (data : ByteArray)

/-- The column that a call is for. -/
def ColumnCall.column : ColumnCall → Nat
  | decode context => context.block.x
  | encode context _ => context.block.x

/-- Makes a call. A decoded block is answered with what was found wrong in it. -/
def ColumnCall.perform : ColumnCall → Action DtedCodec (Option Decoded)
  | decode context => do
    let decoded ← Codec.decode context
    pure (some decoded)
  | encode context data => do
    Codec.encode context data
    pure none

/-- Makes calls one after the other, also behind a failed one. -/
def performAll : List ColumnCall → DtedCodec →
    List (Except RasterError (Option Decoded)) × DtedCodec
  | [], codec => ([], codec)
  | call :: rest, codec =>
    match call.perform.run codec with
    | (outcome, reached) =>
      match performAll rest reached with
      | (outcomes, last) => (outcome :: outcomes, last)

/-- The medium allows for the record of the column. -/
def ColumnCall.Reaches (call : ColumnCall) (codec : DtedCodec) : Prop :=
  codec.storage.medium.Reaches (codec.recordOffset call.column + recordBytes codec.raster.height)

variable {call : ColumnCall} {codec later : DtedCodec}

theorem run_perform_decode (context : BlockContext) (codec : DtedCodec) :
    (ColumnCall.decode context).perform.run codec =
      ((codec.readColumn context.block.x).map some, codec) := by
  rw [ColumnCall.perform, run_bind, run_decode]
  cases codec.readColumn context.block.x with
  | ok decoded => rfl
  | error error => rfl

theorem run_perform_encode (context : BlockContext) (data : ByteArray) (codec : DtedCodec) :
    (ColumnCall.encode context data).perform.run codec =
      (((Storage.write (codec.recordOffset context.block.x)
          (record codec.raster.height context.block.x (blockValues data))).run codec.storage).1.map
        fun _ => none,
      ⟨((Storage.write (codec.recordOffset context.block.x)
          (record codec.raster.height context.block.x (blockValues data))).run codec.storage).2,
        codec.dataOffset, codec.raster⟩) := by
  have hencode : (Codec.encode context data).run codec =
      (((Storage.write (codec.recordOffset context.block.x)
          (record codec.raster.height context.block.x (blockValues data))).run codec.storage).1,
        ⟨((Storage.write (codec.recordOffset context.block.x)
          (record codec.raster.height context.block.x (blockValues data))).run codec.storage).2,
          codec.dataOffset, codec.raster⟩) := rfl
  rw [ColumnCall.perform, run_bind, hencode]
  cases ((Storage.write (codec.recordOffset context.block.x)
    (record codec.raster.height context.block.x (blockValues data))).run codec.storage).1 with
  | ok written => rfl
  | error error => rfl

/-- Calls change neither the places of the records nor the medium. -/
theorem reaches_perform {other : ColumnCall} (h : other.Reaches codec) :
    other.Reaches (call.perform.run codec).2 := by
  cases call with
  | decode context =>
    rw [run_perform_decode]
    exact h
  | encode context data =>
    rw [run_perform_encode]
    -- writing leaves the storage on its medium
    have hmedium := (Storage.keeps_medium_write codec.storage.medium
      (codec.recordOffset context.block.x)
      (record codec.raster.height context.block.x (blockValues data))).reached rfl
    show Medium.Reaches _ _
    rw [hmedium]
    exact h

theorem CodecBehind.recordOffset (h : CodecBehind leading codec later) (column : Nat) :
    later.recordOffset column = leading.size + codec.recordOffset column := by
  rw [DtedCodec.recordOffset, DtedCodec.recordOffset, h.dataOffset, h.raster, Nat.add_assoc]

/-- A call ends behind other bytes as it does in the file alone, and changes the file alike. -/
theorem perform_alike (h : CodecBehind leading codec later) (hreach : call.Reaches later) :
    Alike leading.size Eq (call.perform.run codec).1 (call.perform.run later).1 ∧
      CodecBehind leading (call.perform.run codec).2 (call.perform.run later).2 := by
  rw [ColumnCall.Reaches, h.recordOffset, h.raster] at hreach
  -- a column is read, or replaced, at the same place behind the labels
  cases call with
  | decode context =>
    rw [run_perform_decode, run_perform_decode]
    have hcolumn : Alike leading.size Eq (codec.readColumn context.block.x)
        (later.readColumn context.block.x) := by
      rw [readColumn, readColumn, h.recordOffset, h.raster]
      apply (h.storage.read hreach).bind
      rintro bytes _ - rfl
      exact .refl _
    refine ⟨hcolumn.map ?_, h⟩
    rintro decoded _ rfl
    rfl
  | encode context data =>
    rw [run_perform_encode, run_perform_encode, h.recordOffset, h.raster, h.dataOffset]
    rw [← size_record codec.raster.height context.block.x (blockValues data),
      ColumnCall.column] at hreach
    obtain ⟨houtcome, hstorage⟩ := h.storage.write hreach
    refine ⟨?_, hstorage, rfl, rfl⟩
    rw [houtcome]
    exact .refl _

/-- So do any number of calls. -/
theorem performAll_alike {calls : List ColumnCall} (h : CodecBehind leading codec later)
    (hreach : ∀ call ∈ calls, call.Reaches later) :
    List.Forall₂ (Alike leading.size Eq) (performAll calls codec).1 (performAll calls later).1 ∧
      CodecBehind leading (performAll calls codec).2 (performAll calls later).2 := by
  induction calls generalizing codec later with
  | nil => exact ⟨.nil, h⟩
  | cons call rest ih =>
    obtain ⟨houtcome, hreached⟩ := perform_alike h (hreach call List.mem_cons_self)
    obtain ⟨houtcomes, hlast⟩ := ih hreached fun other hmem =>
      reaches_perform (hreach other (List.mem_cons_of_mem _ hmem))
    exact ⟨.cons houtcome houtcomes, hlast⟩

/-- Labels before a file make no difference. On every storage the loop over the labels comes to an
    end, and opening fails as storage does if there is nothing but labels. A file behind labels is
    opened if it is opened alone, as a matrix of the same size. Every later call then ends alike,
    leaves the labels as they are and does to the file what it does to the file alone. -/
theorem labels_transparent
    (hlabels : ∀ label ∈ labels, label.size = labelBytes ∧ hasTag label labelTags = true)
    (hfirst : labelBytes ≤ alone.length →
      hasTag (alone.bytes.slice 0 labelBytes) labelTags = false)
    (h : Behind (joined labels) alone behind)
    (hreach : behind.medium.Reaches (behind.length + headerBytes)) :
    (∀ storage : Storage,
      Scan storage 0 (skipLabels storage (storage.length / labelBytes) 0) ∧
      (OnlyLabels storage.bytes → ∃ reason, load storage = .error (.io none reason))) ∧
    Alike (joined labels).size (CodecBehind (joined labels)) (load alone) (load behind) ∧
    ∀ codec later, load alone = .ok codec → load behind = .ok later →
      ∀ calls : List ColumnCall, (∀ call ∈ calls, call.Reaches later) →
        List.Forall₂ (Alike (joined labels).size Eq) (performAll calls codec).1
          (performAll calls later).1 ∧
        CodecBehind (joined labels) (performAll calls codec).2 (performAll calls later).2 := by
  -- a record that was read lies in the file, so that the file has one label at least
  have hfound : ∀ label, alone.read 0 labelBytes = .ok label →
      hasTag label labelTags = false := by
    intro label hlabel
    rcases Storage.read_cases alone 0 (by decide : 0 < labelBytes) with
      ⟨hread, hinside⟩ | ⟨reason, hread⟩
    · rw [hread, Except.ok.injEq] at hlabel
      rw [← hlabel]
      exact hfirst (by omega)
    · rw [hread] at hlabel
      cases hlabel
  have hlength := h.length
  have hload := load_alike hlabels hfound h hreach.readable (hreach.mono (by omega))
  refine ⟨fun storage => ⟨scan_load storage, load_of_onlyLabels⟩, hload, ?_⟩
  intro codec later halone hbehind calls hcalls
  rw [halone, hbehind] at hload
  cases hload with
  | ok hcodecs => exact performAll_alike hcodecs hcalls

/-- A volume label. -/
private def volumeLabel : ByteArray :=
  blankRecord "VOL1" labelBytes

/-- A matrix of a single elevation. -/
private def singleElevation : ByteArray :=
  headers ⟨1, 1⟩ ++ record 1 0 [5]

/-- The file of one elevation starts with its headers. -/
private theorem startsWithHeaders_singleElevation :
    StartsWithHeaders (Storage.inMemory singleElevation true) ⟨1, 1⟩ := by
  have hsize := size_headers ⟨1, 1⟩
  refine ⟨trivial, ?_, ?_⟩
  · show headerBytes ≤ singleElevation.size
    rw [singleElevation, size_append, hsize]
    exact Nat.le_add_right _ _
  · show singleElevation.slice 0 headerBytes = headers ⟨1, 1⟩
    rw [singleElevation, slice_append_of_le (by omega), ← hsize, slice_zero_size]

/-- Its first record is not one of the labels in front of a file. -/
private theorem hasTag_singleElevation :
    hasTag ((Storage.inMemory singleElevation true).bytes.slice 0 labelBytes) labelTags =
      false := by
  have hstart : ((Storage.inMemory singleElevation true).bytes.slice 0 labelBytes).slice 0 3 =
      asciiBytes "UHL" := by
    rw [slice_slice (by decide), ← slice_headers_tag ⟨1, 1⟩,
      ← startsWithHeaders_singleElevation.headers, slice_slice (by decide)]
  rw [hasTag_of_start hstart (by decide +kernel)]
  decide +kernel

/-- A volume label before a matrix of one elevation, which is replaced and read again. -/
theorem labels_transparent_volume :
    (∀ label ∈ [volumeLabel], label.size = labelBytes ∧ hasTag label labelTags = true) ∧
    (labelBytes ≤ (Storage.inMemory singleElevation true).length →
      hasTag ((Storage.inMemory singleElevation true).bytes.slice 0 labelBytes) labelTags =
        false) ∧
    Behind (joined [volumeLabel]) (Storage.inMemory singleElevation true)
      (Storage.inMemory (joined [volumeLabel] ++ singleElevation) true) ∧
    ∃ codec later, load (Storage.inMemory singleElevation true) = .ok codec ∧
      load (Storage.inMemory (joined [volumeLabel] ++ singleElevation) true) = .ok later ∧
      List.Forall₂ (Alike (joined [volumeLabel]).size Eq)
        (performAll [.encode ⟨⟨1, 0, 0⟩, band 1, ⟨1, 1⟩⟩ (blockOfValues [7]),
          .decode ⟨⟨1, 0, 0⟩, band 1, ⟨1, 1⟩⟩] codec).1
        (performAll [.encode ⟨⟨1, 0, 0⟩, band 1, ⟨1, 1⟩⟩ (blockOfValues [7]),
          .decode ⟨⟨1, 0, 0⟩, band 1, ⟨1, 1⟩⟩] later).1 := by
  have hlabels : ∀ label ∈ [volumeLabel], label.size = labelBytes ∧
      hasTag label labelTags = true := by
    intro label hlabel
    rw [List.mem_singleton.mp hlabel]
    decide +kernel
  have hbehind : Behind (joined [volumeLabel]) (Storage.inMemory singleElevation true)
      (Storage.inMemory (joined [volumeLabel] ++ singleElevation) true) := ⟨rfl, rfl, rfl⟩
  have hsides : FitsHeaders ⟨1, 1⟩ := ⟨by decide, by decide, by decide, by decide⟩
  have halone := load_of_headers hsides startsWithHeaders_singleElevation
  obtain ⟨-, hload, hcalls⟩ := @labels_transparent [volumeLabel]
    (Storage.inMemory singleElevation true)
    (Storage.inMemory (joined [volumeLabel] ++ singleElevation) true)
    hlabels (fun _ => hasTag_singleElevation) hbehind trivial
  rw [halone] at hload
  refine ⟨hlabels, fun _ => hasTag_singleElevation, hbehind,
    ⟨Storage.inMemory singleElevation true, headerBytes, ⟨1, 1⟩⟩, ?_⟩
  -- alone it is loaded, so behind the label it is as well
  cases hlater : load (Storage.inMemory (joined [volumeLabel] ++ singleElevation) true) with
  | ok later =>
    rw [hlater] at hload
    cases hload with
    | ok hcodecs =>
      have hmedium : later.storage.medium = .memory := hcodecs.storage.medium
      refine ⟨later, halone, rfl, (hcalls _ later halone hlater _ fun call _ => ?_).1⟩
      rw [ColumnCall.Reaches, hmedium]
      trivial
  | error error =>
    rw [hlater] at hload
    cases hload

end RasterStore.DtedCodec
