import RasterStore.Format.Tiled
import RasterStore.Proofs.Pixel.Packed
import RasterStore.Proofs.Tiled.Records

/-!
# The image of a tiled file

`Tiled.Image` is the invariant of tiled files: the bytes hold the headers and the index entry by
entry, and each tile has a range of its own behind the index. Entries are addressed by the number of
their band and their number in its index, both counted from zero.

* `Image.of_prefix`   changes behind the index keep the image
* `Image.setEntry`    so does an entry for a new tile
* `Image.setNoData`   so does another no-data value
-/

namespace RasterStore.Tiled

open ByteArray

/-! ## Places -/

section Places

variable (raster : Size) (bands : List BandDescriptor)

/-- A band by its number, counted from zero. -/
def bandAt (i : Nat) : BandDescriptor :=
  bands.getD i default

/-- Number of entries in the index of a band. -/
def entryCount (i : Nat) : Nat :=
  (bandAt bands i).blockCount raster

/-- Number of entries in the indexes of the first bands. -/
def entriesBefore : Nat → Nat
  | 0 => 0
  | i + 1 => entriesBefore i + entryCount raster bands i

/-- Where the first index starts. -/
def tablesStart : Nat :=
  headerBytes + bands.length * bandHeaderBytes

/-- Where the entry `j` of band `i` is. -/
def entryPlace (i j : Nat) : Nat :=
  tablesStart bands + (entriesBefore raster bands i + j) * entryBytes

/-- Where the last index ends. -/
def tilesStart : Nat :=
  entryPlace raster bands bands.length 0

variable {raster bands} {i j i' j' : Nat}

/-- A band within the count is one of the list. -/
theorem bandAt_mem (h : i < bands.length) : bandAt bands i ∈ bands := by
  rw [bandAt, List.getD_eq_getElem?_getD, List.getElem?_eq_getElem h, Option.getD_some]
  exact List.getElem_mem h

/-- Only a band that exists has entries. -/
theorem lt_of_lt_entryCount (h : j < entryCount raster bands i) : i < bands.length := by
  by_cases hi : i < bands.length
  · exact hi
  · -- a band that does not exist has an empty grid
    rw [entryCount, bandAt, List.getD_eq_getElem?_getD, List.getElem?_eq_none (by omega)] at h
    simp [BandDescriptor.blockCount, BandDescriptor.grid, partsCovering, Size.area,
      default, instInhabitedBandDescriptor.default, instInhabitedSize.default] at h

/-- A band in front of the others has its entries before theirs. -/
theorem entriesBefore_cons (raster : Size) (band : BandDescriptor) (rest : List BandDescriptor)
    (i : Nat) :
    entriesBefore raster (band :: rest) (i + 1) =
      band.blockCount raster + entriesBefore raster rest i := by
  induction i with
  | zero => rw [entriesBefore, entriesBefore, entriesBefore, Nat.zero_add, Nat.add_zero]; rfl
  | succ i ih =>
    rw [entriesBefore, ih, entriesBefore, Nat.add_assoc]
    rfl

/-- The entries of a band come before those of the bands that follow. -/
theorem entriesBefore_le (raster : Size) (bands : List BandDescriptor) (h : i < i') :
    entriesBefore raster bands i + entryCount raster bands i ≤ entriesBefore raster bands i' := by
  induction i' with
  | zero => omega
  | succ k ih =>
    rw [entriesBefore]
    by_cases heq : i = k
    · subst heq
      omega
    · have := ih (by omega)
      omega

/-- The entries of all bands have different numbers. -/
theorem entriesBefore_add_inj (hj : j < entryCount raster bands i)
    (hj' : j' < entryCount raster bands i')
    (h : entriesBefore raster bands i + j = entriesBefore raster bands i' + j') :
    i = i' ∧ j = j' := by
  rcases Nat.lt_trichotomy i i' with hlt | rfl | hgt
  · have := entriesBefore_le raster bands hlt
    omega
  · omega
  · have := entriesBefore_le raster bands hgt
    omega

/-- Different entries are at different places. -/
theorem entryPlace_apart (hj : j < entryCount raster bands i)
    (hj' : j' < entryCount raster bands i') (hne : ¬(i = i' ∧ j = j')) :
    entryPlace raster bands i j + entryBytes ≤ entryPlace raster bands i' j' ∨
      entryPlace raster bands i' j' + entryBytes ≤ entryPlace raster bands i j := by
  have hnumber : entriesBefore raster bands i + j ≠ entriesBefore raster bands i' + j' :=
    fun h => hne (entriesBefore_add_inj hj hj' h)
  have := packed_apart entryBytes hnumber
  simp only [entryPlace]
  omega

/-- An entry ends before the tiles start. -/
theorem entryPlace_add_le (hj : j < entryCount raster bands i) :
    entryPlace raster bands i j + entryBytes ≤ tilesStart raster bands := by
  have hbefore := entriesBefore_le raster bands (lt_of_lt_entryCount hj)
  have hinside : entriesBefore raster bands i + j < entriesBefore raster bands bands.length := by
    omega
  have := packed_inside entryBytes hinside
  simp only [tilesStart, entryPlace, Nat.add_zero]
  omega

/-- The indexes start where the first of them does. -/
theorem tablesStart_le : tablesStart bands ≤ entryPlace raster bands i j := by
  rw [entryPlace]
  omega

/-- The header of a band ends before the indexes start. -/
theorem bandHeader_add_le (h : i < bands.length) :
    headerBytes + i * bandHeaderBytes + bandHeaderBytes ≤ tablesStart bands := by
  have := packed_inside bandHeaderBytes h
  rw [tablesStart]
  omega

end Places

/-! ## Images -/

/-- The index of a band, counted from zero. -/
def tableAt (tables : Array BlockTable) (i : Nat) : BlockTable :=
  tables.getD i ⟨0, 0, #[]⟩

/-- The entry `j` in the index of band `i`. -/
def entryAt (tables : Array BlockTable) (i j : Nat) : IndexEntry :=
  (tableAt tables i).entries.getD j {}

/-- The geometry can be stored: sides and block sizes fit into four bytes. -/
structure Geometry (raster : Size) (bands : List BandDescriptor) : Prop where
  raster : Storable raster
  bands_pos : 0 < bands.length
  bands_lt : bands.length < byteLimit 4
  block : ∀ band ∈ bands, Storable band.block
  blockBytes_lt : ∀ band ∈ bands, band.blockBytes < byteLimit 4

/-- The indexes follow one another and have an entry for each block. -/
structure Laid (raster : Size) (bands : List BandDescriptor) (tables : Array BlockTable) : Prop where
  size : tables.size = bands.length
  offset : ∀ i, i < bands.length → (tableAt tables i).offset = entryPlace raster bands i 0
  blocksPerRow : ∀ i, i < bands.length →
    (tableAt tables i).blocksPerRow = ((bandAt bands i).grid raster).width
  entries : ∀ i, i < bands.length → (tableAt tables i).entries.size = entryCount raster bands i

/-- A tile of the size `bytes` that lies between `start` and `length`, or none. -/
def Tile (bytes start length : Nat) (entry : IndexEntry) : Prop :=
  entry = {} ∨ entry.size = bytes ∧ start ≤ entry.offset ∧ entry.offset + entry.size ≤ length

/-- The tiles of two entries do not overlap. -/
def TilesApart (first second : IndexEntry) : Prop :=
  first = {} ∨ second = {} ∨
    first.offset + first.size ≤ second.offset ∨ second.offset + second.size ≤ first.offset

/-- The bytes of a tiled file with the given geometry and indexes. -/
structure Image (raster : Size) (bands : List BandDescriptor) (tables : Array BlockTable)
    (bytes : ByteArray) : Prop where
  geometry : Geometry raster bands
  laid : Laid raster bands tables
  inside : tilesStart raster bands ≤ bytes.size
  header : bytes.slice 0 headerBytes = headerRecord raster bands.length
  bandHeader : ∀ i, i < bands.length →
    bytes.slice (headerBytes + i * bandHeaderBytes) bandHeaderBytes = bandRecord (bandAt bands i)
  index : ∀ i j, j < entryCount raster bands i →
    bytes.slice (entryPlace raster bands i j) entryBytes = (entryAt tables i j).toBytes
  tile : ∀ i j, Tile (bandAt bands i).blockBytes (tilesStart raster bands) bytes.size
    (entryAt tables i j)
  apart : ∀ i j i' j', ¬(i = i' ∧ j = j') → TilesApart (entryAt tables i j) (entryAt tables i' j')

variable {raster : Size} {bands : List BandDescriptor} {tables tables' : Array BlockTable}
variable {bytes bytes' : ByteArray} {entry : IndexEntry} {i j : Nat}

/-- No tile is at offset zero, which stands for a block that was never written. -/
theorem tilesStart_pos (raster : Size) (bands : List BandDescriptor) :
    0 < tilesStart raster bands := by
  simp only [tilesStart, entryPlace, tablesStart, headerBytes]
  omega

/-- A written entry points to a tile of the full size within the file. -/
theorem Tile.of_isWritten {size start length : Nat} (h : Tile size start length entry)
    (hwritten : entry.isWritten = true) :
    entry.size = size ∧ start ≤ entry.offset ∧ entry.offset + entry.size ≤ length := by
  rcases h with rfl | htile
  · simp [IndexEntry.isWritten] at hwritten
  · exact htile

/-- Two tiles are apart whichever is named first. -/
theorem TilesApart.symm {first second : IndexEntry} (h : TilesApart first second) :
    TilesApart second first := by
  rcases h with hfirst | hsecond | hbefore | hbehind
  · exact .inr (.inl hfirst)
  · exact .inl hsecond
  · exact .inr (.inr (.inr hbefore))
  · exact .inr (.inr (.inl hbehind))

/-! ## Changes that keep the image -/

/-- Changes behind the index do not matter, as long as nothing is cut off. -/
theorem Image.of_prefix (h : Image raster bands tables bytes) (hsize : bytes.size ≤ bytes'.size)
    (hbefore : ∀ start length, start + length ≤ tilesStart raster bands →
      bytes'.slice start length = bytes.slice start length) :
    Image raster bands tables bytes' := by
  have hstart : tablesStart bands ≤ tilesStart raster bands := tablesStart_le
  refine ⟨h.geometry, h.laid, Nat.le_trans h.inside hsize, ?_, fun i hi => ?_, fun i j hj => ?_,
    fun i j => ?_, h.apart⟩
  · -- headers and indexes are among the bytes that did not change
    have : headerBytes ≤ tablesStart bands := Nat.le_add_right _ _
    rw [hbefore _ _ (by omega), h.header]
  · have := bandHeader_add_le hi
    rw [hbefore _ _ (by omega), h.bandHeader i hi]
  · rw [hbefore _ _ (entryPlace_add_le hj), h.index i j hj]
  · exact (h.tile i j).imp_right fun ⟨hbytes, hfrom, hto⟩ => ⟨hbytes, hfrom, by omega⟩

/-- Bytes that are added at the end leave the image intact. -/
theorem Image.append (h : Image raster bands tables bytes) (data : ByteArray) :
    Image raster bands tables (bytes ++ data) := by
  have := h.inside
  refine h.of_prefix (by simp only [size_append]; omega) fun start length hle => ?_
  exact slice_append_of_le (by omega)

/-- Bytes that are overwritten behind the indexes leave the image intact. -/
theorem Image.overwrite {data : ByteArray} {offset : Nat} (h : Image raster bands tables bytes)
    (hstart : tilesStart raster bands ≤ offset) (hend : offset + data.size ≤ bytes.size) :
    Image raster bands tables (bytes.overwrite offset data) := by
  refine h.of_prefix (Nat.le_of_eq (size_overwrite hend).symm) fun start length hle => ?_
  exact slice_overwrite_of_apart hend (.inl (by omega))

/-- The entry of a new tile, which lies apart from all other ones. -/
theorem Image.setEntry (h : Image raster bands tables bytes) (hlaid : Laid raster bands tables')
    (hj : j < entryCount raster bands i)
    (hentries : ∀ i' j', entryAt tables' i' j' =
      if i' = i ∧ j' = j then entry else entryAt tables i' j')
    (htile : Tile (bandAt bands i).blockBytes (tilesStart raster bands) bytes.size entry)
    (hapart : ∀ i' j', ¬(i' = i ∧ j' = j) → TilesApart entry (entryAt tables i' j')) :
    Image raster bands tables' (bytes.overwrite (entryPlace raster bands i j) entry.toBytes) := by
  have hinside := h.inside
  have hplace := entryPlace_add_le hj
  have hbehind : tablesStart bands ≤ entryPlace raster bands i j := tablesStart_le
  have hend : entryPlace raster bands i j + entry.toBytes.size ≤ bytes.size := by
    rw [size_toBytes]
    omega
  refine ⟨h.geometry, hlaid, by rwa [size_overwrite hend], ?_, fun i' hi' => ?_,
    fun i' j' hj' => ?_, fun i' j' => ?_, fun i₁ j₁ i₂ j₂ hne => ?_⟩
  · -- the headers stand before all entries
    have : headerBytes ≤ tablesStart bands := Nat.le_add_right _ _
    rw [slice_overwrite_of_apart hend (.inl (by omega)), h.header]
  · have := bandHeader_add_le hi'
    rw [slice_overwrite_of_apart hend (.inl (by omega)), h.bandHeader i' hi']
  · -- the entry itself is the new one, any other is not touched
    rw [hentries]
    split
    · next heq =>
      obtain ⟨rfl, rfl⟩ := heq
      exact slice_overwrite_of_size (by omega) (size_toBytes entry)
    · next hne =>
      have := entryPlace_apart hj' hj hne
      rw [slice_overwrite_of_apart hend (by rw [size_toBytes]; exact this), h.index i' j' hj']
  · -- its tile is in the file, as those of the others are
    rw [hentries, size_overwrite hend]
    split
    · next heq => rwa [heq.1]
    · exact h.tile i' j'
  · -- and it overlaps none of them
    rw [hentries, hentries]
    split
    · next heq₁ =>
      rw [if_neg (by omega)]
      exact hapart i₂ j₂ (by omega)
    · next hne₁ =>
      split
      · exact (hapart i₁ j₁ hne₁).symm
      · exact h.apart i₁ j₁ i₂ j₂ hne

/-! ## Another no-data value -/

/-- The bands with another no-data value for one of them. -/
def withNoData (bands : List BandDescriptor) (i : Nat) (value : Option Binary64) :
    List BandDescriptor :=
  bands.modify i ({ · with noData := value })

/-- Another no-data value leaves the number of bands alone. -/
@[simp] theorem length_withNoData (i : Nat) (value : Option Binary64) :
    (withNoData bands i value).length = bands.length :=
  List.length_modify _ _ _

/-- Another no-data value changes the descriptor of one band. -/
theorem bandAt_withNoData (hi : i < bands.length) (value : Option Binary64) (k : Nat) :
    bandAt (withNoData bands i value) k =
      if k = i then { bandAt bands i with noData := value } else bandAt bands k := by
  simp only [bandAt, withNoData, List.getD_eq_getElem?_getD, List.getElem?_modify]
  by_cases hk : k = i
  · subst hk
    simp [hi]
  · simp [hk, Ne.symm hk]

/-- Another no-data value moves no entry and adds none. -/
theorem entryPlace_withNoData (raster : Size) (hi : i < bands.length) (value : Option Binary64)
    (k l : Nat) :
    entryPlace raster (withNoData bands i value) k l = entryPlace raster bands k l ∧
      entryCount raster (withNoData bands i value) k = entryCount raster bands k := by
  -- another no-data value changes no grid, and so no index
  have hcount (k : Nat) :
      entryCount raster (withNoData bands i value) k = entryCount raster bands k := by
    rw [entryCount, entryCount, bandAt_withNoData hi]
    split
    · next heq => rw [heq]; rfl
    · rfl
  have hbefore (k : Nat) :
      entriesBefore raster (withNoData bands i value) k = entriesBefore raster bands k := by
    induction k with
    | zero => rfl
    | succ k ih => rw [entriesBefore, entriesBefore, ih, hcount]
  refine ⟨?_, hcount k⟩
  rw [entryPlace, entryPlace, hbefore, tablesStart, tablesStart, length_withNoData]

/-- Another no-data value leaves the blocks of every band as large as they were. -/
theorem mem_withNoData {band : BandDescriptor} {value : Option Binary64}
    (h : band ∈ withNoData bands i value) :
    ∃ old ∈ bands, band.block = old.block ∧ band.blockBytes = old.blockBytes := by
  obtain ⟨k, hk, rfl⟩ := List.mem_iff_getElem.mp h
  rw [withNoData, List.length_modify] at hk
  refine ⟨bands[k], List.getElem_mem hk, ?_⟩
  simp only [withNoData, List.getElem_modify]
  split <;> exact ⟨rfl, rfl⟩

/-- Another no-data value leaves the grid of every band and the size of its blocks alone. -/
private theorem band_withNoData (raster : Size) (hi : i < bands.length)
    (value : Option Binary64) (k : Nat) :
    ((bandAt (withNoData bands i value) k).grid raster).width =
        ((bandAt bands k).grid raster).width ∧
      (bandAt (withNoData bands i value) k).blockBytes = (bandAt bands k).blockBytes := by
  rw [bandAt_withNoData hi]
  split
  · next heq =>
    rw [heq]
    exact ⟨rfl, rfl⟩
  · exact ⟨rfl, rfl⟩

/-- Bands that fit in a file still do with another no-data value. -/
private theorem Geometry.withNoData (h : Geometry raster bands) (i : Nat)
    (value : Option Binary64) : Geometry raster (withNoData bands i value) := by
  refine ⟨h.raster, ?_, ?_, fun band hmem => ?_, fun band hmem => ?_⟩
  · rw [length_withNoData]
    exact h.bands_pos
  · rw [length_withNoData]
    exact h.bands_lt
  · obtain ⟨old, hold, hblock, -⟩ := mem_withNoData hmem
    rw [hblock]
    exact h.block old hold
  · obtain ⟨old, hold, -, hbytes⟩ := mem_withNoData hmem
    rw [hbytes]
    exact h.blockBytes_lt old hold

/-- The indexes are laid out in the same way with another no-data value. -/
private theorem Laid.withNoData (h : Laid raster bands tables) (hi : i < bands.length)
    (value : Option Binary64) : Laid raster (withNoData bands i value) tables := by
  have hplaces := entryPlace_withNoData raster hi value
  refine ⟨by rw [length_withNoData, h.size], fun k hk => ?_, fun k hk => ?_, fun k hk => ?_⟩
  all_goals rw [length_withNoData] at hk
  · rw [(hplaces k 0).1, h.offset k hk]
  · rw [(band_withNoData raster hi value k).1, h.blocksPerRow k hk]
  · rw [(hplaces k 0).2, h.entries k hk]

/-- A new no-data value changes the band's header and nothing else. -/
theorem Image.setNoData (h : Image raster bands tables bytes) (hi : i < bands.length)
    (value : Option Binary64) :
    Image raster (withNoData bands i value) tables
      (bytes.overwrite (headerBytes + i * bandHeaderBytes)
        (bandRecord { bandAt bands i with noData := value })) := by
  have hinside := h.inside
  have hplace := bandHeader_add_le hi
  have hstart : tablesStart bands ≤ tilesStart raster bands := tablesStart_le
  have hplaces := entryPlace_withNoData raster hi value
  have htiles : tilesStart raster (withNoData bands i value) = tilesStart raster bands := by
    rw [tilesStart, length_withNoData, (hplaces _ _).1, tilesStart]
  have hend : headerBytes + i * bandHeaderBytes +
      (bandRecord { bandAt bands i with noData := value }).size ≤ bytes.size := by
    rw [size_bandRecord]
    omega
  refine ⟨h.geometry.withNoData i value, h.laid.withNoData hi value, ?_, ?_, fun k hk => ?_,
    fun k l hl => ?_, fun k l => ?_, h.apart⟩
  · -- the file is as long as before
    rw [htiles, size_overwrite hend]
    exact hinside
  · rw [slice_overwrite_of_apart hend (.inl (by omega)), h.header, length_withNoData]
  · -- the record of the band is new, those of the others are not touched
    rw [length_withNoData] at hk
    rw [bandAt_withNoData hi]
    split
    · next heq =>
      subst heq
      exact slice_overwrite_of_size (by omega) (size_bandRecord _)
    · next hne =>
      have := packed_apart bandHeaderBytes hne
      rw [slice_overwrite_of_apart hend (by rw [size_bandRecord]; omega), h.bandHeader k hk]
  · -- indexes stand behind all records
    rw [(hplaces k l).2] at hl
    have : tablesStart bands ≤ entryPlace raster bands k l := tablesStart_le
    rw [(hplaces k l).1, slice_overwrite_of_apart hend (by rw [size_bandRecord]; omega),
      h.index k l hl]
  · -- the tiles are where they were
    rw [(band_withNoData raster hi value k).2, htiles, size_overwrite hend]
    exact h.tile k l

end RasterStore.Tiled
