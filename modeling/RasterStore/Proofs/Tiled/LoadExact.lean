import RasterStore.Proofs.Action.Keeps
import RasterStore.Proofs.Tiled.Load

/-!
# Which bytes are a tiled file

`TiledCodec.load` gets its bytes from anywhere, and all sizes it works with stand in them.
`Tiled.Loadable` says in plain numbers which bytes it accepts:

* `load_of_loadable`       these are loaded, with the indexes that stand in them
* `load_of_not_loadable`   all other ones are refused as malformed, not by a failing read
* `keeps_loadVia`          no read reaches behind the end of the file

`TiledCodec.load` is `TiledCodec.loadVia` with plain reads. With reads that note each range that is
asked for it has the same outcome (`outcome_loadVia`), and so all ranges are seen.
-/

namespace RasterStore.Tiled

open ByteArray

/-! ## What the bytes of a file say -/

section Stored

variable (bytes : ByteArray)

/-- The raster size in the file header. -/
def storedRaster : Size :=
  ⟨numberAt bytes 8 4, numberAt bytes 12 4⟩

/-- The number of bands in the file header. -/
def storedCount : Nat :=
  numberAt bytes 16 4

/-- The band in the header at an offset. What is no code of a type counts as one of bytes. -/
def storedBand (offset : Nat) : BandDescriptor where
  type := (PixelType.ofCode (bytes.byteAt offset).toNat).toOption.getD .byte
  block := ⟨numberAt bytes (offset + 4) 4, numberAt bytes (offset + 8) 4⟩
  noData :=
    if (bytes.byteAt (offset + 1)).toNat % 2 = 1 then
      some ⟨(numberAt bytes (offset + 16) 8).toUInt64⟩
    else none

/-- The bands in the headers behind the file header. -/
def storedBands : List BandDescriptor :=
  (List.range (storedCount bytes)).map fun i =>
    storedBand bytes (headerBytes + i * bandHeaderBytes)

/-- A file header that names a raster with pixels and bands. -/
structure IsHeader : Prop where
  magic : bytes.slice 0 8 = Tiled.magic
  width_pos : 0 < (storedRaster bytes).width
  height_pos : 0 < (storedRaster bytes).height
  count_pos : 0 < storedCount bytes

/-- A band header that has the code of a type and blocks with pixels. -/
structure IsBandHeader (offset : Nat) : Prop where
  code_pos : 1 ≤ (bytes.byteAt offset).toNat
  code_le : (bytes.byteAt offset).toNat ≤ 11
  width_pos : 0 < (storedBand bytes offset).block.width
  height_pos : 0 < (storedBand bytes offset).block.height

/-- The bytes are accepted as a tiled file. -/
structure Loadable : Prop extends IsHeader bytes where
  headers_le : headerBytes + storedCount bytes * bandHeaderBytes ≤ bytes.size
  bandHeader : ∀ i < storedCount bytes, IsBandHeader bytes (headerBytes + i * bandHeaderBytes)
  blockBytes_lt : ∀ band ∈ storedBands bytes, band.blockBytes < byteLimit 4
  tables_le : tilesStart (storedRaster bytes) (storedBands bytes) ≤ bytes.size

end Stored

variable {bytes : ByteArray} {offset : Nat}

/-- The file describes as many bands as it says. -/
@[simp] theorem length_storedBands (bytes : ByteArray) :
    (storedBands bytes).length = storedCount bytes := by
  rw [storedBands, List.length_map, List.length_range]

/-! ## Headers -/

/-- Bytes that are compared with a Boolean test differ just if they are different. -/
private theorem bne_iff (a b : ByteArray) : (a != b) = true ↔ a ≠ b := by
  rw [bne, Bool.not_eq_true', ← Bool.not_eq_true, beq_iff]

/-- A file header is read from its own bytes. -/
theorem parseHeader_slice (bytes : ByteArray) :
    parseHeader (bytes.slice 0 headerBytes) = parseHeader bytes := by
  simp only [parseHeader]
  rw [slice_slice (by decide), numberAt_slice (by decide), numberAt_slice (by decide),
    numberAt_slice (by decide)]

/-- A file header that is one is parsed to what it says. -/
theorem parseHeader_of_isHeader (h : IsHeader bytes) :
    parseHeader bytes = .ok (storedRaster bytes, storedCount bytes) := by
  have hmagic : ¬(bytes.slice 0 8 != magic) = true := by
    rw [bne_iff, h.magic]
    exact fun hne => hne rfl
  -- the two checks behind the magic bytes: the sides and the number of bands
  have hraster : (storedRaster bytes).isEmpty = false := by
    rw [← Bool.not_eq_true, Size.isEmpty_iff]
    have := h.width_pos
    have := h.height_pos
    omega
  have hcount : (storedCount bytes == 0) = false := by
    rw [beq_eq_false_iff_ne]
    have := h.count_pos
    omega
  unfold parseHeader
  rw [if_neg hmagic]
  show (if ((storedRaster bytes).isEmpty || storedCount bytes == 0) = true then _ else _) = _
  rw [hraster, hcount]
  rfl

/-- A file header that is none is refused as a fault of the format. -/
theorem parseHeader_of_not_isHeader (h : ¬IsHeader bytes) :
    ∃ reason, parseHeader bytes = .error (.format none reason) := by
  unfold parseHeader
  split
  · exact ⟨_, rfl⟩
  · next hmagic =>
    simp only
    split
    · exact ⟨_, rfl⟩
    · next hempty =>
      -- a header with the magic and no zeros lacks nothing
      rw [Bool.or_eq_true, Size.isEmpty_iff, beq_iff_eq] at hempty
      simp only at hempty
      refine absurd ⟨?_, ?_, ?_, ?_⟩ h
      · rwa [bne_iff, ne_eq, Decidable.not_not] at hmagic
      · show 0 < numberAt bytes 8 4
        omega
      · show 0 < numberAt bytes 12 4
        omega
      · show 0 < numberAt bytes 16 4
        omega

/-- What was parsed from a file header is what stands in it. -/
theorem isHeader_of_parseHeader {raster : Size} {count : Nat}
    (h : parseHeader bytes = .ok (raster, count)) :
    IsHeader bytes ∧ storedRaster bytes = raster ∧ storedCount bytes = count := by
  by_cases hheader : IsHeader bytes
  · rw [parseHeader_of_isHeader hheader] at h
    cases h
    exact ⟨hheader, rfl, rfl⟩
  · obtain ⟨reason, hrefused⟩ := parseHeader_of_not_isHeader hheader
    rw [hrefused] at h
    contradiction

/-! ## Band headers -/

/-- The codes of the pixel types are the numbers from one to eleven. -/
theorem exists_code {code : Nat} (hpos : 1 ≤ code) (hle : code ≤ 11) :
    ∃ type : PixelType, type.code = code := by
  have hall : ∀ code < 12, 1 ≤ code → ∃ type ∈ PixelType.all, type.code = code := by decide
  obtain ⟨type, -, htype⟩ := hall code (by omega) hpos
  exact ⟨type, htype⟩

/-- Only the numbers from 1 to 11 are codes. -/
theorem ofCode_of_not {code : Nat} (h : ¬(1 ≤ code ∧ code ≤ 11)) :
    ∃ error, PixelType.ofCode code = .error error := by
  unfold PixelType.ofCode
  split
  · next type hfind =>
    have hcode : type.code = code := by simpa using List.find?_some hfind
    have := type.code_pos
    have := type.code_le
    omega
  · exact ⟨_, rfl⟩

/-- A band header that is one is parsed to the band that it describes. -/
theorem parseBandHeader_of_isBandHeader (h : IsBandHeader bytes offset) :
    parseBandHeader bytes offset = .ok (storedBand bytes offset) := by
  obtain ⟨type, htype⟩ := exists_code h.code_pos h.code_le
  have hcode : PixelType.ofCode (bytes.byteAt offset).toNat = .ok type := by
    rw [← htype, PixelType.ofCode_code]
  -- the one check behind the code of the type: the sides of a block
  have hblock : (storedBand bytes offset).block.isEmpty = false := by
    rw [← Bool.not_eq_true, Size.isEmpty_iff]
    have := h.width_pos
    have := h.height_pos
    omega
  have htypeAt : (storedBand bytes offset).type = type := by
    rw [storedBand, hcode]
    rfl
  unfold parseBandHeader
  rw [hcode]
  show (if (storedBand bytes offset).block.isEmpty = true then _ else _) = _
  rw [hblock, ← htypeAt]
  rfl

/-- A band header that is none is refused as a fault of the format. -/
theorem parseBandHeader_of_not_isBandHeader (h : ¬IsBandHeader bytes offset) :
    ∃ reason, parseBandHeader bytes offset = .error (.format none reason) := by
  -- a code that stands for no type is refused first
  by_cases hcode : 1 ≤ (bytes.byteAt offset).toNat ∧ (bytes.byteAt offset).toNat ≤ 11
  · unfold parseBandHeader
    split
    · exact ⟨_, rfl⟩
    · simp only
      split
      · exact ⟨_, rfl⟩
      · next hblock =>
        rw [Size.isEmpty_iff] at hblock
        simp only at hblock
        refine absurd ⟨hcode.1, hcode.2, ?_, ?_⟩ h
        · show 0 < numberAt bytes (offset + 4) 4
          omega
        · show 0 < numberAt bytes (offset + 8) 4
          omega
  · -- the type is one of the list, so that only the block can be wrong
    obtain ⟨error, herror⟩ := ofCode_of_not hcode
    unfold parseBandHeader
    rw [herror]
    exact ⟨_, rfl⟩

/-- Only a band header is parsed, and to nothing but the band that it describes. -/
theorem isBandHeader_of_parseBandHeader {band : BandDescriptor}
    (h : parseBandHeader bytes offset = .ok band) :
    IsBandHeader bytes offset ∧ storedBand bytes offset = band := by
  by_cases hheader : IsBandHeader bytes offset
  · rw [parseBandHeader_of_isBandHeader hheader] at h
    cases h
    exact ⟨hheader, rfl⟩
  · obtain ⟨reason, hrefused⟩ := parseBandHeader_of_not_isBandHeader hheader
    rw [hrefused] at h
    contradiction

/-- The header of a band is found where the headers of all bands were read. -/
private theorem parseBandHeader_of_lt {i count : Nat} (hi : i < count) (bytes : ByteArray) :
    parseBandHeader (bytes.slice headerBytes (count * bandHeaderBytes)) (i * bandHeaderBytes) =
      parseBandHeader bytes (headerBytes + i * bandHeaderBytes) := by
  rw [← parseBandHeader_slice, slice_slice (packed_inside bandHeaderBytes hi),
    parseBandHeader_slice]

/-- The headers of all bands are parsed one after the other. -/
theorem parseBandHeaders_of_forall {count : Nat}
    (h : ∀ i < count, IsBandHeader bytes (headerBytes + i * bandHeaderBytes)) :
    parseBandHeaders (bytes.slice headerBytes (count * bandHeaderBytes)) count =
      .ok ((List.range count).map fun i => storedBand bytes (headerBytes + i * bandHeaderBytes)) := by
  apply TiledCodec.mapM_of_ok
  intro i hmem
  have hi := List.mem_range.mp hmem
  rw [parseBandHeader_of_lt hi, parseBandHeader_of_isBandHeader (h i hi)]

/-- A list with a malformed item is malformed. -/
private theorem mapM_of_malformed {α β : Type} {f : α → Except RasterError β} {good : α → Prop}
    {items : List α} (hgood : ∀ item ∈ items, good item → ∃ value, f item = .ok value)
    (hbad : ∀ item ∈ items, ¬good item → ∃ reason, f item = .error (.format none reason))
    (h : ¬∀ item ∈ items, good item) :
    ∃ reason, items.mapM f = .error (.format none reason) := by
  induction items with
  | nil => exact absurd (fun _ hmem => absurd hmem List.not_mem_nil) h
  | cons item rest ih =>
    rw [List.mapM_cons]
    -- the first item is bad, or some later one is
    by_cases hfirst : good item
    · obtain ⟨value, hvalue⟩ := hgood item List.mem_cons_self hfirst
      obtain ⟨reason, hrest⟩ := ih (fun other hmem => hgood other (List.mem_cons_of_mem _ hmem))
        (fun other hmem => hbad other (List.mem_cons_of_mem _ hmem))
        (fun hall => h (List.forall_mem_cons.mpr ⟨hfirst, hall⟩))
      rw [hvalue, hrest]
      exact ⟨reason, rfl⟩
    · obtain ⟨reason, herror⟩ := hbad item List.mem_cons_self hfirst
      rw [herror]
      exact ⟨reason, rfl⟩

/-- One band header that is none spoils all of them. -/
theorem parseBandHeaders_of_not_forall {count : Nat}
    (h : ¬∀ i < count, IsBandHeader bytes (headerBytes + i * bandHeaderBytes)) :
    ∃ reason, parseBandHeaders (bytes.slice headerBytes (count * bandHeaderBytes)) count =
      .error (.format none reason) := by
  -- each header is parsed for itself
  apply @mapM_of_malformed _ _ _ fun i => IsBandHeader bytes (headerBytes + i * bandHeaderBytes)
  · intro i hmem hgood
    rw [parseBandHeader_of_lt (List.mem_range.mp hmem)]
    exact ⟨_, parseBandHeader_of_isBandHeader hgood⟩
  · intro i hmem hbad
    rw [parseBandHeader_of_lt (List.mem_range.mp hmem)]
    exact parseBandHeader_of_not_isBandHeader hbad
  · intro hall
    exact h fun i hi => hall i (List.mem_range.mpr hi)

end RasterStore.Tiled

namespace RasterStore.TiledCodec

open ByteArray Tiled RasterStore.Action

variable {storage : Storage} {raster : Size} {bands : List BandDescriptor}

/-! ## Indexes -/

/-- Indexes that do not fit, or whose blocks are too large, are refused. -/
private theorem loadTablesVia_of_not_inside (raster : Size) (hread : storage.Readable)
    (number offset : Nat) (hoffset : offset ≤ storage.length)
    (h : ¬((∀ band ∈ bands, band.blockBytes < byteLimit 4) ∧
      offset + entriesBefore raster bands bands.length * entryBytes ≤ storage.length)) :
    ∃ reason, loadTablesVia storage.read storage.length raster number offset bands =
      Except.error (RasterError.format none reason) := by
  induction bands generalizing number offset with
  | nil =>
    rw [List.length_nil, entriesBefore, Nat.zero_mul, Nat.add_zero] at h
    exact absurd ⟨fun _ hmem => absurd hmem List.not_mem_nil, hoffset⟩ h
  | cons band rest ih =>
    rw [loadTablesVia]
    split
    · exact ⟨_, rfl⟩
    · next haccepted =>
      -- the first index is read, so one of the others does not fit
      have hinside : offset + band.blockCount raster * entryBytes ≤ storage.length := by omega
      rw [List.length_cons, entriesBefore_cons, Nat.add_mul] at h
      obtain ⟨reason, hrest⟩ := ih (number + 1) (offset + band.blockCount raster * entryBytes)
        hinside (fun hfits => h ⟨List.forall_mem_cons.mpr ⟨by omega, hfits.1⟩, by
          have := hfits.2
          omega⟩)
      rw [Storage.read_of_readable hread hinside, hrest]
      exact ⟨reason, rfl⟩

/-- The indexes stand behind the headers, one after the other, with an entry for each block. -/
structure StoredTables (bytes : ByteArray) (raster : Size) (bands : List BandDescriptor)
    (tables : Array BlockTable) : Prop where
  size : tables.size = bands.length
  first : (tableAt tables 0).offset = headerBytes + bands.length * bandHeaderBytes
  next : ∀ i, i + 1 < bands.length →
    (tableAt tables (i + 1)).offset = (tableAt tables i).offset + (tableAt tables i).bytes
  apart : ∀ i j, i < j → j < bands.length →
    (tableAt tables i).offset + (tableAt tables i).bytes ≤ (tableAt tables j).offset
  inside : ∀ i < bands.length,
    (tableAt tables i).offset + (tableAt tables i).bytes ≤ bytes.size
  blocksPerRow : ∀ i < bands.length,
    (tableAt tables i).blocksPerRow = ((bandAt bands i).grid raster).width
  count : ∀ i < bands.length, (tableAt tables i).entries.size =
    ((bandAt bands i).grid raster).width * ((bandAt bands i).grid raster).height
  entry : ∀ i < bands.length, ∀ j < (tableAt tables i).entries.size,
    entryAt tables i j = ⟨numberAt bytes ((tableAt tables i).offset + j * entryBytes) 8,
      numberAt bytes ((tableAt tables i).offset + j * entryBytes + 8) 4⟩

/-- The entries of an index are parsed where they stand in the file. -/
private theorem entries_parse {bytes : ByteArray} {start j : Nat} {band : BandDescriptor}
    (hj : j < band.blockCount raster) :
    (BlockTable.parse (bytes.slice start (band.blockCount raster * entryBytes)) start band
      raster).entries.getD j {} = IndexEntry.parse bytes (start + j * entryBytes) := by
  have hrange : j < (Array.range (band.blockCount raster)).size := by rwa [Array.size_range]
  rw [Array.getD_eq_getD_getElem?, BlockTable.parse, Array.getElem?_map,
    Array.getElem?_eq_getElem hrange, Array.getElem_range]
  exact parse_slice (packed_inside _ hj)

/-- Indexes that were parsed where they stand. -/
theorem storedTables_of_parsed {bytes : ByteArray} {tables : Array BlockTable}
    (hpos : 0 < bands.length) (hsize : tables.size = bands.length)
    (hinside : tilesStart raster bands ≤ bytes.size)
    (htable : ∀ i < bands.length, tableAt tables i = BlockTable.parse
      (bytes.slice (entryPlace raster bands i 0) (entryCount raster bands i * entryBytes))
      (entryPlace raster bands i 0) (bandAt bands i) raster) :
    StoredTables bytes raster bands tables := by
  -- where the index of a band starts and how long it is
  have hoffset (i : Nat) (hi : i < bands.length) :
      (tableAt tables i).offset = entryPlace raster bands i 0 := by
    rw [htable i hi]
    rfl
  have hcount (i : Nat) (hi : i < bands.length) :
      (tableAt tables i).entries.size = entryCount raster bands i := by
    rw [htable i hi]
    simp [BlockTable.parse, entryCount]
  have hend (i : Nat) (hi : i < bands.length) :
      (tableAt tables i).offset + (tableAt tables i).bytes = entryPlace raster bands (i + 1) 0 := by
    rw [hoffset i hi, BlockTable.bytes, hcount i hi]
    simp only [entryPlace, entriesBefore, Nat.add_zero, Nat.add_mul, Nat.add_assoc]
  -- indexes come in the order of the bands, and the tiles behind all of them
  have hmono {i j : Nat} (hle : i < j) :
      entryPlace raster bands (i + 1) 0 ≤ entryPlace raster bands j 0 := by
    have hbefore := entriesBefore_le raster bands hle
    have := Nat.mul_le_mul_right entryBytes hbefore
    simp only [entryPlace, entriesBefore, Nat.add_zero]
    omega
  constructor
  · -- the number of tables, where the first one starts
    exact hsize
  · rw [hoffset 0 hpos, entryPlace, entriesBefore, Nat.add_zero, Nat.zero_mul, Nat.add_zero]
    rfl
  · intro i hi
    rw [hend i (by omega), hoffset (i + 1) hi]
  · -- tables that are not neighbours do not overlap either
    intro i j hlt hj
    rw [hend i (by omega), hoffset j hj]
    exact hmono hlt
  · intro i hi
    rw [hend i hi]
    exact Nat.le_trans (hmono hi) hinside
  · intro i hi
    rw [htable i hi]
    rfl
  · intro i hi
    rw [hcount i hi]
    rfl
  · -- each entry is the one that the file has
    intro i hi j hj
    rw [hcount i hi] at hj
    rw [hoffset i hi, entryAt, htable i hi]
    exact entries_parse hj

/-! ## Whole files -/

/-- Bytes that can be loaded are loaded, with the indexes that stand in them. -/
theorem load_of_loadable (hread : storage.Readable) (h : Loadable storage.bytes) :
    ∃ tables, load storage =
        .ok (⟨storage, tables⟩, storedRaster storage.bytes, storedBands storage.bytes) ∧
      StoredTables storage.bytes (storedRaster storage.bytes) (storedBands storage.bytes) tables := by
  -- the three places that `load` reads up to, each inside the file
  have hstart : tablesStart (storedBands storage.bytes) =
      headerBytes + storedCount storage.bytes * bandHeaderBytes := by
    rw [tablesStart, length_storedBands]
  have hlength : headerBytes + storedCount storage.bytes * bandHeaderBytes ≤ storage.length :=
    h.headers_le
  have htables : tablesStart (storedBands storage.bytes) + entriesBefore (storedRaster storage.bytes)
      (storedBands storage.bytes) (storedBands storage.bytes).length * entryBytes ≤
        storage.length := by
    have htables := h.tables_le
    rwa [tilesStart, entryPlace, Nat.add_zero] at htables
  obtain ⟨loaded, hloaded, hcount, hget⟩ := loadTablesVia_of_inside (storedRaster storage.bytes) hread
    1 (tablesStart (storedBands storage.bytes)) h.blockBytes_lt htables
  -- the checks of `load`, in their order
  have hload : load storage = .ok
      (⟨storage, loaded.toArray⟩, storedRaster storage.bytes, storedBands storage.bytes) := by
    rw [load, loadVia, Storage.read_of_readable hread (by omega)]
    simp only [bind, Except.bind, liftM, monadLift]
    rw [parseHeader_slice, parseHeader_of_isHeader h.toIsHeader]
    simp only
    rw [if_neg (by omega), Storage.read_of_readable hread hlength]
    simp only
    rw [parseBandHeaders_of_forall h.bandHeader]
    simp only
    rw [← storedBands, ← hstart, hloaded]
    rfl
  have hstored : StoredTables storage.bytes (storedRaster storage.bytes)
      (storedBands storage.bytes) loaded.toArray := by
    apply storedTables_of_parsed
    · rw [length_storedBands]
      exact h.count_pos
    · rw [List.size_toArray, hcount]
    · exact h.tables_le
    · intro i hi
      rw [tableAt, Array.getD_eq_getD_getElem?, List.getElem?_toArray, hget i hi, Option.getD_some]
      rfl
  exact ⟨_, hload, hstored⟩

/-- All other bytes are refused as malformed. -/
theorem load_of_not_loadable (hread : storage.Readable) (hlength : headerBytes ≤ storage.length)
    (h : ¬Loadable storage.bytes) :
    ∃ reason, load storage = .error (.format none reason) := by
  rw [load, loadVia, Storage.read_of_readable hread (by omega)]
  simp only [bind, Except.bind, liftM, monadLift]
  rw [parseHeader_slice]
  by_cases hheader : IsHeader storage.bytes
  · rw [parseHeader_of_isHeader hheader]
    simp only
    split
    · exact ⟨_, rfl⟩
    · next hheaders =>
      have hinside : headerBytes + storedCount storage.bytes * bandHeaderBytes ≤ storage.length := by
        omega
      rw [Storage.read_of_readable hread hinside]
      simp only
      by_cases hbands : ∀ i < storedCount storage.bytes,
          IsBandHeader storage.bytes (headerBytes + i * bandHeaderBytes)
      · rw [parseBandHeaders_of_forall hbands]
        -- only the indexes are left to be wrong
        have hindexes : ¬((∀ band ∈ storedBands storage.bytes, band.blockBytes < byteLimit 4) ∧
            headerBytes + storedCount storage.bytes * bandHeaderBytes +
              entriesBefore (storedRaster storage.bytes) (storedBands storage.bytes)
                (storedBands storage.bytes).length * entryBytes ≤ storage.length) := by
          rintro ⟨hbytes, htables⟩
          refine h ⟨hheader, hinside, hbands, hbytes, ?_⟩
          rw [tilesStart, entryPlace, tablesStart, length_storedBands, Nat.add_zero,
            ← length_storedBands]
          rwa [← length_storedBands] at htables
        obtain ⟨reason, hrefused⟩ := loadTablesVia_of_not_inside _ hread 1 _ hinside hindexes
        simp only
        rw [← storedBands, hrefused]
        exact ⟨reason, rfl⟩
      · -- a header of a band is wrong
        obtain ⟨reason, hrefused⟩ := parseBandHeaders_of_not_forall hbands
        rw [hrefused]
        exact ⟨reason, rfl⟩
  · -- the header of the file is wrong
    obtain ⟨reason, hrefused⟩ := parseHeader_of_not_isHeader hheader
    rw [hrefused]
    exact ⟨reason, rfl⟩

/-! ## The reads of the loader -/

/-- Reads, and notes the range that was asked for: where it starts and how long it is. -/
def readNoted (storage : Storage) (offset count : Nat) : Action (List (Nat × Nat)) ByteArray := do
  modify (· ++ [(offset, count)])
  storage.read offset count

/-- The step answers the same whatever was noted before it. -/
private def Answers {σ α : Type} (act : Action σ α) (outcome : Except RasterError α) : Prop :=
  ∀ state, (act.run state).1 = outcome

/-- A value that was computed is answered whatever was noted. -/
private theorem answers_lift {σ α : Type} (outcome : Except RasterError α) :
    Answers (liftM outcome : Action σ α) outcome :=
  fun _ => rfl

/-- Two steps that do not depend on the notes make one that does not. -/
private theorem answers_bind {σ α β : Type} {act : Action σ α} {next : α → Action σ β}
    {outcome : Except RasterError α} {rest : α → Except RasterError β} (h : Answers act outcome)
    (hnext : ∀ value, Answers (next value) (rest value)) :
    Answers (act >>= next) (outcome >>= rest) := by
  intro state
  have hact := h state
  rw [run_bind]
  cases hrun : act.run state with
  | mk reached after =>
    rw [hrun] at hact
    subst hact
    -- the second step is taken just if the first one succeeded
    cases reached with
    | ok value => exact hnext value after
    | error error => rfl

/-- A read that is noted answers what the read answers. -/
private theorem answers_readNoted (storage : Storage) (offset count : Nat) :
    Answers (readNoted storage offset count) (storage.read offset count) :=
  fun _ => rfl

/-- Loading the indexes with notes answers what loading them without does. -/
private theorem answers_loadTablesVia (storage : Storage) (raster : Size) (number offset : Nat)
    (bands : List BandDescriptor) :
    Answers (loadTablesVia (readNoted storage) storage.length raster number offset bands)
      (loadTablesVia storage.read storage.length raster number offset bands) := by
  induction bands generalizing number offset with
  | nil => exact fun _ => rfl
  | cons band rest ih =>
    unfold loadTablesVia
    simp only
    -- an index behind the end is refused before it is read
    split
    · exact answers_lift _
    · exact answers_bind (answers_readNoted storage _ _) fun _ =>
        answers_bind (ih _ _) fun _ _ => rfl

/-- Noting the reads does not change what is loaded. -/
theorem outcome_loadVia (storage : Storage) (noted : List (Nat × Nat)) :
    ((loadVia (readNoted storage) storage).run noted).1 = load storage := by
  revert noted
  -- each read is noted and answered as without the notes
  show Answers _ (loadVia storage.read storage)
  unfold loadVia
  apply answers_bind (answers_readNoted storage _ _)
  intro header
  apply answers_bind (answers_lift _)
  intro parsed
  simp only
  split
  · exact answers_lift _
  · apply answers_bind (answers_readNoted storage _ _)
    intro headers
    apply answers_bind (answers_lift _)
    intro bands
    exact answers_bind (answers_loadTablesVia storage _ _ _ bands) fun _ _ => rfl

/-- All ranges that were noted end inside the storage. -/
def NotedInside (storage : Storage) (noted : List (Nat × Nat)) : Prop :=
  ∀ range ∈ noted, range.1 + range.2 ≤ storage.length

/-- A range inside the storage is noted as one. -/
theorem keeps_readNoted {offset count : Nat} (h : offset + count ≤ storage.length) :
    Keeps (NotedInside storage) (readNoted storage offset count) := by
  apply (keeps_modify _).bind fun _ => keeps_lift _
  intro noted hnoted range hmem
  rcases List.mem_append.mp hmem with hbefore | hlast
  · exact hnoted range hbefore
  · rw [List.mem_singleton.mp hlast]
    exact h

/-- The indexes are loaded from inside the storage only. -/
theorem keeps_loadTablesVia (raster : Size) (number offset : Nat) (bands : List BandDescriptor) :
    Keeps (NotedInside storage)
      (loadTablesVia (readNoted storage) storage.length raster number offset bands) := by
  induction bands generalizing number offset with
  | nil => exact keeps_pure _
  | cons band rest ih =>
    unfold loadTablesVia
    apply Keeps.ite
    · exact fun _ => keeps_lift _
    · intro haccepted
      -- the guard of the loader is what keeps the read inside
      apply (keeps_readNoted (by omega)).bind
      exact fun _ => (ih _ _).bind fun _ => keeps_pure _

/-- No read of the loader reaches behind the end of a file that has a header. -/
theorem keeps_loadVia (hlength : headerBytes ≤ storage.length) :
    Keeps (NotedInside storage) (loadVia (readNoted storage) storage) := by
  unfold loadVia
  apply (keeps_readNoted (by omega)).bind
  intro header
  apply (keeps_lift _).bind
  intro parsed
  -- the headers of the bands are read only if they are inside
  apply Keeps.ite
  · exact fun _ => keeps_lift _
  · intro hheaders
    apply (keeps_readNoted (by omega)).bind
    intro headers
    apply (keeps_lift _).bind
    exact fun bands => (keeps_loadTablesVia _ _ _ bands).bind fun _ => keeps_pure _

/-- Bytes that are long enough for a header are loaded exactly if they are `Loadable`, with the
    raster, the bands and the indexes that stand in them; else they are refused as malformed.
    All that is read on the way lies inside the file. -/
theorem load_exact (hread : storage.Readable) (hlength : headerBytes ≤ storage.length) :
    (Loadable storage.bytes → ∃ tables,
      load storage =
        .ok (⟨storage, tables⟩, storedRaster storage.bytes, storedBands storage.bytes) ∧
      StoredTables storage.bytes (storedRaster storage.bytes) (storedBands storage.bytes) tables) ∧
    (¬Loadable storage.bytes → ∃ reason, load storage = .error (.format none reason)) ∧
    ∃ reads, (loadVia (readNoted storage) storage).run [] = (load storage, reads) ∧
      ∀ range ∈ reads, range.1 + range.2 ≤ storage.length := by
  have hempty : NotedInside storage [] := fun _ hmem => absurd hmem List.not_mem_nil
  have hreads := (keeps_loadVia hlength).reached hempty
  -- noting the reads does not change the outcome
  have hrun : (loadVia (readNoted storage) storage).run [] = (load storage, _) :=
    Prod.ext (outcome_loadVia storage []) rfl
  exact ⟨load_of_loadable hread, load_of_not_loadable hread hlength, _, hrun, hreads⟩

/-! ## A file of two bands -/

/-- A row of three pixels. The first band has blocks of two pixels, the second one of one pixel; of
    all blocks only the one in the middle of the second band has a tile. -/
def twoBandFile : ByteArray :=
  headerRecord ⟨3, 1⟩ 2 ++ bandRecord ⟨.int16, ⟨2, 1⟩, none⟩ ++ bandRecord ⟨.byte, ⟨1, 1⟩, none⟩ ++
    ByteArray.zeros (3 * entryBytes) ++ (IndexEntry.mk 132 1).toBytes ++ ByteArray.zeros entryBytes ++
    ⟨#[7]⟩

/-- The file of two bands meets each condition. -/
private theorem loadable_twoBandFile : Loadable twoBandFile := by
  have hmagic : twoBandFile.slice 0 8 = magic := by decide +kernel
  have hheader : IsHeader twoBandFile :=
    ⟨hmagic, by decide +kernel, by decide +kernel, by decide +kernel⟩
  -- each header, then how many there are and how large their blocks
  have hfirst : IsBandHeader twoBandFile (headerBytes + 0 * bandHeaderBytes) :=
    ⟨by decide +kernel, by decide +kernel, by decide +kernel, by decide +kernel⟩
  have hsecond : IsBandHeader twoBandFile (headerBytes + 1 * bandHeaderBytes) :=
    ⟨by decide +kernel, by decide +kernel, by decide +kernel, by decide +kernel⟩
  have hcount : storedCount twoBandFile = 2 := by decide +kernel
  have hblocks : ∀ band ∈ storedBands twoBandFile, band.blockBytes < byteLimit 4 := by
    decide +kernel
  refine ⟨hheader, by decide +kernel, ?_, hblocks, by decide +kernel⟩
  intro i hi
  rw [hcount] at hi
  obtain rfl | rfl : i = 0 ∨ i = 1 := by omega
  · exact hfirst
  · exact hsecond

/-- The file is loaded, and the index of its second band comes behind the two entries of the first
    one. Without the last byte of the indexes it is refused. -/
theorem load_exact_twoBands :
    (∃ tables, load (.inMemory twoBandFile false) =
      .ok (⟨.inMemory twoBandFile false, tables⟩, ⟨3, 1⟩,
        [⟨.int16, ⟨2, 1⟩, none⟩, ⟨.byte, ⟨1, 1⟩, none⟩]) ∧
      (tableAt tables 1).offset = 96 ∧ entryAt tables 1 1 = ⟨132, 1⟩) ∧
    ∃ reason, load (.inMemory (twoBandFile.slice 0 131) false) = .error (.format none reason) := by
  have hraster : storedRaster twoBandFile = ⟨3, 1⟩ := by decide +kernel
  have hbands : storedBands twoBandFile =
      [⟨.int16, ⟨2, 1⟩, none⟩, ⟨.byte, ⟨1, 1⟩, none⟩] := by decide +kernel
  have hcut : ¬Loadable (twoBandFile.slice 0 131) :=
    fun h => absurd h.tables_le (by decide +kernel)
  constructor
  · obtain ⟨tables, hload, hstored⟩ := (@load_exact (.inMemory twoBandFile false) trivial
      (by decide +kernel)).1 loadable_twoBandFile
    have hbytes : (Storage.inMemory twoBandFile false).bytes = twoBandFile := rfl
    rw [hbytes, hraster, hbands] at hload hstored
    -- the first index has two entries, the second one three
    have hfirst : (tableAt tables 0).entries.size = 2 := hstored.count 0 (by decide)
    have hsecond : (tableAt tables 1).entries.size = 3 := hstored.count 1 (by decide)
    have hoffset : (tableAt tables 1).offset = 96 := by
      rw [hstored.next 0 (by decide), hstored.first, BlockTable.bytes, hfirst]
      rfl
    refine ⟨tables, hload, hoffset, ?_⟩
    rw [hstored.entry 1 (by decide) 1 (by omega), hoffset]
    decide +kernel
  · exact (@load_exact (.inMemory (twoBandFile.slice 0 131) false) trivial
      (by decide +kernel)).2.1 hcut

end RasterStore.TiledCodec
