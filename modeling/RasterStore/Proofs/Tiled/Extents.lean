import RasterStore.Proofs.Tiled.Encode
import Mathlib.Algebra.BigOperators.Group.List.Basic
import Mathlib.Algebra.GroupWithZero.Nat
import Mathlib.Data.List.Dedup

/-!
# The extents of tiles

`Packed raster bands encoded codec` says how an open tiled file is filled by the blocks that were
encoded so far: each has a range of its own behind the indexes, as long as its block has bytes, and
the ranges of all of them make up the rest of the file. Nothing is asked of the raster, of blocks
that were not encoded or of what the headers hold.

* `Packed.written`       encoding a block keeps this, and changes nothing of other blocks
* `ends_encode_packed`   it fails only where a file cannot become longer
* `extents_packed`       so it holds after any calls on a new file
-/

namespace RasterStore.TiledCodec

open ByteArray Tiled RasterStore.Action

variable {raster : Size} {bands : List BandDescriptor} {codec after : TiledCodec}
variable {encoded : List BlockRef} {block other : BlockRef} {data : ByteArray}

/-- Bytes in the tile of a block. -/
def tileBytes (bands : List BandDescriptor) (block : BlockRef) : Nat :=
  (bandAt bands (block.band - 1)).blockBytes

/-- The index entry of a block as the file holds it. -/
def storedEntry (raster : Size) (bands : List BandDescriptor) (codec : TiledCodec)
    (block : BlockRef) : ByteArray :=
  codec.storage.bytes.slice
    (entryPlace raster bands (block.band - 1) (blockNumber raster bands block)) entryBytes

/-- The tile of a block as the file holds it. -/
def payload (bands : List BandDescriptor) (codec : TiledCodec) (block : BlockRef) : ByteArray :=
  codec.storage.bytes.slice (codec.entryOf block).offset (tileBytes bands block)

/-- The blocks that were encoded, which may be listed more than once, have tiles of their size that
    lie apart from each other, and the file consists of these and of what is before all tiles. -/
structure Packed (raster : Size) (bands : List BandDescriptor) (encoded : List BlockRef)
    (codec : TiledCodec) : Prop where
  usable : codec.storage.Usable
  laid : Laid raster bands codec.tables
  inGrid : ∀ block ∈ encoded, InGrid raster bands block
  /-- No space is lost: each block that was encoded takes its bytes once. -/
  length : codec.storage.length =
    tilesStart raster bands + (encoded.dedup.map (tileBytes bands)).sum
  isWritten : ∀ block, InGrid raster bands block →
    ((codec.entryOf block).isWritten = true ↔ block ∈ encoded)
  /-- The index in the file is the one in memory. -/
  index : ∀ block, InGrid raster bands block →
    storedEntry raster bands codec block = (codec.entryOf block).toBytes
  size : ∀ block ∈ encoded, (codec.entryOf block).size = tileBytes bands block
  inside : ∀ block ∈ encoded, tilesStart raster bands ≤ (codec.entryOf block).offset ∧
    (codec.entryOf block).offset + tileBytes bands block ≤ codec.storage.length
  apart : ∀ first ∈ encoded, ∀ second ∈ encoded, first ≠ second →
    (codec.entryOf first).offset + tileBytes bands first ≤ (codec.entryOf second).offset ∨
      (codec.entryOf second).offset + tileBytes bands second ≤ (codec.entryOf first).offset

/-- Encoding a block leaves alone what is not its own. -/
structure Spares (raster : Size) (bands : List BandDescriptor) (before : TiledCodec)
    (block : BlockRef) (after : TiledCodec) : Prop where
  header : after.storage.bytes.slice 0 (tablesStart bands) =
    before.storage.bytes.slice 0 (tablesStart bands)
  entries : ∀ other, InGrid raster bands other → other ≠ block →
    after.entryOf other = before.entryOf other ∧
      storedEntry raster bands after other = storedEntry raster bands before other
  payloads : ∀ other, InGrid raster bands other → other ≠ block →
    (before.entryOf other).isWritten = true →
    payload bands after other = payload bands before other
  /-- A block that has a tile already does not make the file longer. -/
  length : (before.entryOf block).isWritten = true → after.storage.length = before.storage.length

/-! ## Encoding a block -/

/-- The reserved offset is the one of no tile. -/
theorem Packed.offset_ne_zero (h : Packed raster bands encoded codec) (hmem : block ∈ encoded) :
    (codec.entryOf block).offset ≠ 0 := by
  have hstart := tilesStart_pos raster bands
  have hplace := (h.inside block hmem).1
  omega

/-- A packed file is at least as long as its headers and indexes. -/
theorem Packed.tilesStart_le (h : Packed raster bands encoded codec) :
    tilesStart raster bands ≤ codec.storage.length := by
  rw [h.length]
  exact Nat.le_add_right _ _

/-! ### A tile in the place of the old one -/

section Replaced

variable (h : Packed raster bands encoded codec) (hgrid : InGrid raster bands block)
variable (hsize : data.size = tileBytes bands block)
variable (hwritten : (codec.entryOf block).isWritten = true)
variable (hbytes : after.storage.bytes =
  codec.storage.bytes.overwrite (codec.entryOf block).offset data)
variable (htables : after.tables = codec.tables)

include h hgrid hsize hwritten

/-- The new bytes of a written block end where the file does, or before. -/
private theorem replaced_inside :
    (codec.entryOf block).offset + data.size ≤ codec.storage.bytes.size := by
  rw [hsize]
  exact (h.inside block ((h.isWritten block hgrid).mp hwritten)).2

include hbytes

/-- Bytes in the place of the old ones leave the file as long as it was. -/
private theorem length_of_replaced : after.storage.length = codec.storage.length := by
  rw [Storage.length, hbytes, size_overwrite (replaced_inside h hgrid hsize hwritten)]
  rfl

/-- What stands before the tiles is not touched. -/
private theorem slice_of_replaced {start length : Nat}
    (hbefore : start + length ≤ tilesStart raster bands) :
    after.storage.bytes.slice start length = codec.storage.bytes.slice start length := by
  have hstart := (h.inside block ((h.isWritten block hgrid).mp hwritten)).1
  rw [hbytes, slice_overwrite_of_apart (replaced_inside h hgrid hsize hwritten)
    (.inl (by omega))]

include htables

/-- Bytes in the place of the old ones touch the tile of their block alone. -/
private theorem spares_of_replaced : Spares raster bands codec block after := by
  have hmem := (h.isWritten block hgrid).mp hwritten
  have hstart := h.inside block hmem
  have hfits := replaced_inside h hgrid hsize hwritten
  have hentry := entryOf_congr htables
  refine ⟨?_, fun other hother _ => ⟨hentry other, ?_⟩, fun other hother hne hholds => ?_,
    fun _ => length_of_replaced h hgrid hsize hwritten hbytes⟩
  · have htablesStart : tablesStart bands ≤ tilesStart raster bands := tablesStart_le
    exact slice_of_replaced h hgrid hsize hwritten hbytes (by omega)
  · exact slice_of_replaced h hgrid hsize hwritten hbytes (entryPlace_add_le hother.blockNumber_lt)
  · -- the tiles of two blocks do not overlap
    have hapart := h.apart other ((h.isWritten other hother).mp hholds) block hmem hne
    rw [payload, payload, hentry, hbytes, slice_overwrite_of_apart hfits (by omega)]

/-- A file stays packed when a tile is replaced: the same blocks are encoded, and each is where it
    was. -/
private theorem packed_of_replaced (husable : after.storage.Usable) :
    Packed raster bands (block :: encoded) after := by
  have hmem := (h.isWritten block hgrid).mp hwritten
  have hlength := length_of_replaced h hgrid hsize hwritten hbytes
  have hentry := entryOf_congr htables
  -- no block is new
  have hsame : ∀ other, other ∈ block :: encoded ↔ other ∈ encoded := by
    intro other
    rw [List.mem_cons, or_iff_right_of_imp]
    rintro rfl
    exact hmem
  refine ⟨husable, ?_, fun other hother => ?_, ?_, fun other hother => ?_, fun other hother => ?_,
    fun other hother => ?_, fun other hother => ?_, fun first hfirst second hsecond => ?_⟩
  · rw [htables]
    exact h.laid
  · exact h.inGrid other ((hsame other).mp hother)
  · -- a block that was encoded before adds nothing to the length
    rw [List.dedup_cons_of_mem hmem, hlength, h.length]
  · rw [hentry, hsame, h.isWritten other hother]
  · -- index and tile are in different places
    rw [hentry, ← h.index other hother]
    exact slice_of_replaced h hgrid hsize hwritten hbytes (entryPlace_add_le hother.blockNumber_lt)
  · rw [hentry]
    exact h.size other ((hsame other).mp hother)
  · rw [hentry, hlength]
    exact h.inside other ((hsame other).mp hother)
  · rw [hentry, hentry]
    exact h.apart first ((hsame first).mp hfirst) second ((hsame second).mp hsecond)

end Replaced

/-! ### A new tile -/

section Added

variable (h : Packed raster bands encoded codec) (hgrid : InGrid raster bands block)
variable (hsize : data.size = tileBytes bands block)
variable (hblank : (codec.entryOf block).isWritten = false)
variable (hbytes : after.storage.bytes = (codec.storage.bytes ++ data).overwrite
  (entryPlace raster bands (block.band - 1) (blockNumber raster bands block))
  (IndexEntry.mk codec.storage.length data.size).toBytes)
variable (htables : after.tables = codec.tables.modify (block.band - 1)
  (·.setEntry block.x block.y ⟨codec.storage.length, data.size⟩))

include h hgrid

include hblank in
/-- A block without a tile was never encoded. -/
private theorem not_mem_of_blank : block ∉ encoded := by
  intro hmem
  rw [(h.isWritten block hgrid).mpr hmem] at hblank
  contradiction

/-- The entry of a new tile is inside the file that has grown by the tile. -/
private theorem added_inside (data : ByteArray) :
    entryPlace raster bands (block.band - 1) (blockNumber raster bands block) +
      (IndexEntry.mk codec.storage.length data.size).toBytes.size ≤
        (codec.storage.bytes ++ data).size := by
  apply hgrid.entry_inside
  rw [size_append]
  exact Nat.le_trans h.tilesStart_le (Nat.le_add_right _ _)

include hbytes in
/-- Only the entry of the block changes among the bytes that were there. -/
private theorem slice_of_added {start length : Nat} (hold : start + length ≤ codec.storage.length)
    (hapart : start + length ≤
        entryPlace raster bands (block.band - 1) (blockNumber raster bands block) ∨
      entryPlace raster bands (block.band - 1) (blockNumber raster bands block) + entryBytes ≤
        start) :
    after.storage.bytes.slice start length = codec.storage.bytes.slice start length := by
  have hfits := added_inside h hgrid data
  rw [hbytes, slice_overwrite_of_apart hfits (by rwa [size_toBytes]), slice_append_of_le hold]

include hbytes in
/-- The entries of other blocks are in the file as before. -/
private theorem storedEntry_of_added (hother : InGrid raster bands other) (hne : other ≠ block) :
    storedEntry raster bands after other = storedEntry raster bands codec other := by
  have hplace := entryPlace_add_le hother.blockNumber_lt
  have hstart := h.tilesStart_le
  exact slice_of_added h hgrid hbytes (by omega) (entryPlace_apart hother.blockNumber_lt
    hgrid.blockNumber_lt fun hboth => hne (hgrid.eq_of_blockNumber hother hboth.1 hboth.2))

include htables

/-- A new entry leaves the indexes laid out as they were. -/
private theorem laid_of_added : Laid raster bands after.tables := by
  rw [htables]
  exact h.laid.setEntry hgrid.lt _ _ _

/-- Only the block itself has another entry: it points to the old end of the file. -/
private theorem entryOf_of_added (hother : InGrid raster bands other) :
    after.entryOf other =
      if other = block then ⟨codec.storage.length, data.size⟩ else codec.entryOf other := by
  rw [(laid_of_added h hgrid htables).entryOf_eq hother, h.laid.entryAt_setEntry hgrid htables]
  by_cases hsame : other = block
  · subst hsame
    rw [if_pos ⟨rfl, rfl⟩, if_pos rfl]
  · rw [if_neg hsame, if_neg, h.laid.entryOf_eq hother]
    exact fun hboth => hsame (hgrid.eq_of_blockNumber hother hboth.1 hboth.2)

/-- The new tile starts at the old end of the file. -/
private theorem entryOf_self_of_added : after.entryOf block = ⟨codec.storage.length, data.size⟩ :=
  (entryOf_of_added h hgrid htables hgrid).trans (if_pos rfl)

include hblank

/-- Blocks that were encoded before keep their entries. -/
private theorem entryOf_of_mem (hmem : other ∈ encoded) :
    after.entryOf other = codec.entryOf other := by
  rw [entryOf_of_added h hgrid htables (h.inGrid other hmem), if_neg]
  rintro rfl
  exact not_mem_of_blank h hgrid hblank hmem

/-- The new tile starts where all others have ended. -/
private theorem apart_of_added {first second : BlockRef} (hfirst : first ∈ block :: encoded)
    (hsecond : second ∈ block :: encoded) (hne : first ≠ second) :
    (after.entryOf first).offset + tileBytes bands first ≤ (after.entryOf second).offset ∨
      (after.entryOf second).offset + tileBytes bands second ≤ (after.entryOf first).offset := by
  have hown := entryOf_self_of_added h hgrid htables
  -- of two different tiles one at most is new
  rcases List.mem_cons.mp hfirst with hfirst | hfirst
  · rcases List.mem_cons.mp hsecond with hsecond | hsecond
    · exact absurd (hfirst.trans hsecond.symm) hne
    · rw [hfirst, hown, entryOf_of_mem h hgrid hblank htables hsecond]
      exact .inr (h.inside second hsecond).2
  · rw [entryOf_of_mem h hgrid hblank htables hfirst]
    rcases List.mem_cons.mp hsecond with hsecond | hsecond
    · rw [hsecond, hown]
      exact .inl (h.inside first hfirst).2
    · rw [entryOf_of_mem h hgrid hblank htables hsecond]
      exact h.apart first hfirst second hsecond hne

include hbytes

/-- A new tile at the end of the file touches no entry and no tile of another block. -/
private theorem spares_of_added : Spares raster bands codec block after := by
  have hstart := h.tilesStart_le
  have hplace := entryPlace_add_le hgrid.blockNumber_lt
  have htablesStart : tablesStart bands ≤
    entryPlace raster bands (block.band - 1) (blockNumber raster bands block) := tablesStart_le
  refine ⟨slice_of_added h hgrid hbytes (by omega) (.inl (by omega)),
    fun other hother hne => ⟨?_, storedEntry_of_added h hgrid hbytes hother hne⟩,
    fun other hother hne hholds => ?_, fun hwritten => ?_⟩
  · rw [entryOf_of_added h hgrid htables hother, if_neg hne]
  · -- a tile lies behind the indexes and before the old end of the file
    obtain ⟨hfrom, hto⟩ := h.inside other ((h.isWritten other hother).mp hholds)
    rw [payload, payload, entryOf_of_added h hgrid htables hother, if_neg hne]
    exact slice_of_added h hgrid hbytes hto (.inr (by omega))
  · rw [hblank] at hwritten
    cases hwritten

include hsize in
/-- A file stays packed when a tile is added: it has grown by the size of the one block that is new.
    -/
private theorem packed_of_added (husable : after.storage.Usable) :
    Packed raster bands (block :: encoded) after := by
  have hstart := h.tilesStart_le
  have hpos := tilesStart_pos raster bands
  have hnew := not_mem_of_blank h hgrid hblank
  have hlength : after.storage.length = codec.storage.length + tileBytes bands block := by
    rw [Storage.length, hbytes, size_indexed hstart hgrid, hsize]
  have hlaid := laid_of_added h hgrid htables
  have hentry : ∀ other, InGrid raster bands other → after.entryOf other =
      if other = block then ⟨codec.storage.length, data.size⟩ else codec.entryOf other :=
    fun _ hother => entryOf_of_added h hgrid htables hother
  have hown := entryOf_self_of_added h hgrid htables
  have hold : ∀ other ∈ encoded, after.entryOf other = codec.entryOf other := fun _ hmem =>
    entryOf_of_mem h hgrid hblank htables hmem
  -- each field speaks of the new block and of those that were there
  refine ⟨husable, hlaid, ?_, ?_, fun other hother => ?_, fun other hother => ?_, ?_, ?_,
    fun first hfirst second hsecond hne => ?_⟩
  · exact List.forall_mem_cons.mpr ⟨hgrid, h.inGrid⟩
  · -- a new block adds its own length once
    rw [hlength, List.dedup_cons_of_notMem hnew, List.map_cons, List.sum_cons, h.length]
    omega
  · -- which blocks have a tile
    rw [List.mem_cons, ← h.isWritten other hother, hentry other hother]
    by_cases hsame : other = block
    · rw [if_pos hsame, IndexEntry.isWritten, bne_iff_ne]
      exact ⟨fun _ => .inl hsame, fun _ => Nat.ne_of_gt (Nat.lt_of_lt_of_le hpos hstart)⟩
    · rw [if_neg hsame, or_iff_right hsame]
  · -- the entries in the file
    by_cases hsame : other = block
    · subst hsame
      have hfits := added_inside h hgrid data
      rw [storedEntry, hown, hbytes]
      exact slice_overwrite_of_size (by omega) (size_toBytes _)
    · rw [storedEntry_of_added h hgrid hbytes hother hsame, h.index other hother,
        hentry other hother, if_neg hsame]
  · -- the sizes and the places of the tiles
    rw [List.forall_mem_cons, hown]
    refine ⟨hsize, fun other hmem => ?_⟩
    rw [hold other hmem]
    exact h.size other hmem
  · rw [List.forall_mem_cons, hown, hlength]
    refine ⟨⟨hstart, Nat.le_refl _⟩, fun other hmem => ?_⟩
    have hinside := h.inside other hmem
    rw [hold other hmem]
    omega
  · exact apart_of_added h hgrid hblank htables hfirst hsecond hne

end Added

/-- Encoding a block keeps the file packed and spares what is not the block's own. It fails only if
    the block has no tile and the file cannot become longer. -/
theorem ends_writeBlock_packed (h : Packed raster bands encoded codec)
    (hgrid : InGrid raster bands block) (hsize : data.size = tileBytes bands block)
    (hlimit : data.size < byteLimit 4) :
    (writeBlock block data).Ends codec
      (fun _ after => Packed raster bands (block :: encoded) after ∧
        Spares raster bands codec block after)
      (fun _ after => after = codec ∧ block ∉ encoded ∧ codec.storage.medium ≠ .memory ∧
        offsetLimit ≤ codec.storage.length + tileBytes bands block) := by
  have hdata : 0 < data.size := by
    rw [hsize]
    exact hgrid.blockBytes_pos
  have htile : (codec.entryOf block).isWritten = true → (codec.entryOf block).size = data.size ∧
      (codec.entryOf block).offset + data.size ≤ codec.storage.length := by
    intro hwritten
    have hmem := (h.isWritten block hgrid).mp hwritten
    rw [hsize]
    exact ⟨h.size block hmem, (h.inside block hmem).2⟩
  apply (ends_writeBlock_written h.usable h.laid h.tilesStart_le hgrid hdata hlimit htile).mono
  · -- either way the file is packed with the block in front
    intro _ after hafter
    obtain ⟨husable, -, hwritten⟩ := hafter
    cases hwritten with
    | replaced hwritten hbytes htables =>
      exact ⟨packed_of_replaced h hgrid hsize hwritten hbytes htables husable,
        spares_of_replaced h hgrid hsize hwritten hbytes htables⟩
    | added hblank hbytes htables =>
      exact ⟨packed_of_added h hgrid hsize hblank hbytes htables husable,
        spares_of_added h hgrid hblank hbytes htables⟩
  · intro _ after hfailed
    obtain ⟨rfl, hblank, hmedium, hfull⟩ := hfailed
    exact ⟨rfl, not_mem_of_blank h hgrid hblank, hmedium, by rwa [← hsize]⟩

/-! ## Another no-data value -/

/-- A no-data value replaces the header of its band, or nothing changes. -/
theorem ends_writeNoData_header {band : Nat} (husable : codec.storage.Usable)
    (hinside : tablesStart bands ≤ codec.storage.length) (hpos : 0 < band)
    (hband : band ≤ bands.length) (value : Option Binary64) :
    (writeNoData band value).Ends codec
      (fun _ after => after.storage.Usable ∧ after.tables = codec.tables ∧
        ∃ header : ByteArray, header.size = bandHeaderBytes ∧
          after.storage.bytes = codec.storage.bytes.overwrite (bandHeaderOffset band) header)
      (fun _ after => after = codec) := by
  have hi : band - 1 < bands.length := by omega
  have hheader : bandHeaderOffset band + bandHeaderBytes ≤ codec.storage.length := by
    rw [bandHeaderOffset]
    exact Nat.le_trans (bandHeader_add_le hi) hinside
  obtain ⟨raw, hread⟩ : ∃ raw, codec.storage.read (bandHeaderOffset band) bandHeaderBytes =
      .ok raw := ⟨_, Storage.read_of_readable husable.readable hheader⟩
  -- the header is read, and made anew with the other value
  refine Ends.get_bind (Ends.lift_bind hread ?_)
  apply Ends.of_lift_bind
  case error => exact fun _ _ => rfl
  intro descriptor _
  apply Ends.of_lift_bind
  case error => exact fun _ _ => rfl
  intro header hprinted
  obtain ⟨-, -, rfl⟩ := bandHeader_eq_ok_iff.mp hprinted
  -- the new header has the size of the old one, and is written over it
  rw [← size_bandRecord { descriptor with noData := value }] at hheader
  have hdata : 0 < (bandRecord { descriptor with noData := value }).size := by
    rw [size_bandRecord]
    decide
  apply ends_onStorage
  apply (Storage.ends_write_of_inside husable hdata hheader).mono
  · intro _ storage hstorage
    obtain ⟨hstorage, hafter⟩ := hstorage
    have hbytes := congrArg Storage.bytes hstorage
    exact ⟨hafter, rfl, bandRecord { descriptor with noData := value }, size_bandRecord _, hbytes⟩
  · exact fun _ _ hfalse => hfalse.elim

/-- Headers stand before the indexes and the tiles. -/
theorem ends_writeNoData_packed {band : Nat} (h : Packed raster bands encoded codec)
    (hpos : 0 < band) (hband : band ≤ bands.length) (value : Option Binary64) :
    (writeNoData band value).Ends codec (fun _ after => Packed raster bands encoded after)
      (fun _ after => after = codec) := by
  have hstart : tablesStart bands ≤ tilesStart raster bands := tablesStart_le
  have hi : band - 1 < bands.length := by omega
  have hheader := bandHeader_add_le hi
  have hinside := Nat.le_trans hstart h.tilesStart_le
  apply (ends_writeNoData_header h.usable hinside hpos hband value).imp
  rintro _ after ⟨husable, htables, header, hsize, hbytes⟩
  have hentry := entryOf_congr htables
  have hfits : bandHeaderOffset band + header.size ≤ codec.storage.bytes.size := by
    rw [hsize]
    exact Nat.le_trans hheader hinside
  have hlength : after.storage.length = codec.storage.length := by
    rw [Storage.length, hbytes, size_overwrite hfits]
    rfl
  -- the headers stand before indexes and tiles, so that all else is as before
  refine ⟨husable, htables ▸ h.laid, h.inGrid, hlength.trans h.length, fun other hother => ?_,
    fun other hother => ?_, fun other hother => ?_, fun other hother => ?_,
    fun first hfirst second hsecond => ?_⟩
  · rw [hentry, h.isWritten other hother]
  · -- the entries in the file
    have hplace : tablesStart bands ≤
      entryPlace raster bands (other.band - 1) (blockNumber raster bands other) := tablesStart_le
    rw [hentry, ← h.index other hother, storedEntry, storedEntry, hbytes,
      slice_overwrite_of_apart hfits (.inr ?_)]
    rw [hsize]
    exact Nat.le_trans hheader hplace
  · rw [hentry]
    exact h.size other hother
  · rw [hentry, hlength]
    exact h.inside other hother
  · rw [hentry, hentry]
    exact h.apart first hfirst second hsecond

/-! ## Runs -/

/-- A call that changes the file. -/
inductive TileCall where
  | encode (context : BlockContext) (data : ByteArray)
  | setNoData (band : Nat) (value : Option Binary64)

namespace TileCall

/-- The call is for a block of the grid, with the bytes of this block, or for a band of the file. -/
def Fits (raster : Size) (bands : List BandDescriptor) : TileCall → Prop
  | encode context data => InGrid raster bands context.block ∧
    data.size = tileBytes bands context.block ∧ data.size < byteLimit 4
  | setNoData band _ => 0 < band ∧ band ≤ bands.length

/-- Makes the call. -/
def perform : TileCall → Action TiledCodec Unit
  | encode context data => Codec.encode context data
  | setNoData band value => Codec.setNoData band value

/-- The block that the call stores. -/
def blocks : TileCall → List BlockRef
  | encode context _ => [context.block]
  | setNoData _ _ => []

/-- Makes the call and notes its block if it succeeds. -/
def noted (reached : TiledCodec × List BlockRef) (call : TileCall) : TiledCodec × List BlockRef :=
  match call.perform.run reached.1 with
  | (.ok _, codec) => (codec, call.blocks ++ reached.2)
  | (.error _, codec) => (codec, reached.2)

end TileCall

/-- Makes calls one after the other, also behind a failed one. Beside the codec that is reached
    stand the blocks that were encoded, the latest first. -/
def performAll (calls : List TileCall) (codec : TiledCodec) : TiledCodec × List BlockRef :=
  calls.foldl TileCall.noted (codec, [])

/-- One more call leaves the file packed with the blocks that were encoded so far. -/
theorem packed_noted {call : TileCall} {reached : TiledCodec × List BlockRef}
    (h : Packed raster bands reached.2 reached.1) (hfits : call.Fits raster bands) :
    Packed raster bands (TileCall.noted reached call).2 (TileCall.noted reached call).1 := by
  have hends : call.perform.Ends reached.1
      (fun _ after => Packed raster bands (call.blocks ++ reached.2) after)
      (fun _ after => Packed raster bands reached.2 after) := by
    -- each call keeps the file packed, or fails and changes nothing
    cases call with
    | encode context data =>
      obtain ⟨hgrid, hsize, hlimit⟩ := hfits
      apply (ends_writeBlock_packed h hgrid hsize hlimit).mono
      · exact fun _ _ hafter => hafter.1
      · rintro _ _ ⟨rfl, -⟩
        exact h
    | setNoData band value =>
      apply (ends_writeNoData_packed h hfits.1 hfits.2 value).mono
      · exact fun _ _ hafter => hafter
      · rintro _ _ rfl
        exact h
  unfold Ends at hends
  unfold TileCall.noted
  split
  · next hrun =>
    rw [hrun] at hends
    exact hends
  · next hrun =>
    rw [hrun] at hends
    exact hends

/-- Any calls leave the file packed with the blocks that they encoded. -/
theorem packed_foldl {calls : List TileCall} {reached : TiledCodec × List BlockRef}
    (h : Packed raster bands reached.2 reached.1) (hfits : ∀ call ∈ calls, call.Fits raster bands) :
    Packed raster bands (calls.foldl TileCall.noted reached).2
      (calls.foldl TileCall.noted reached).1 := by
  induction calls generalizing reached with
  | nil => exact h
  | cons call rest ih =>
    rw [List.forall_mem_cons] at hfits
    exact ih (packed_noted h hfits.1) hfits.2

/-- A new file has no tiles. -/
theorem packed_blank (husable : codec.storage.Usable) (htables : codec.tables = newTables raster bands)
    (hbytes : codec.storage.bytes = blankFile raster bands) : Packed raster bands [] codec := by
  have hlaid : Laid raster bands codec.tables := by
    rw [htables]
    exact laid_newTables
  have hentry : ∀ block, InGrid raster bands block → codec.entryOf block = {} := by
    intro block hgrid
    rw [hlaid.entryOf_eq hgrid, htables, entryAt_newTables]
  have hlength : codec.storage.length = tilesStart raster bands := by
    rw [Storage.length, hbytes, size_blankFile]
  -- no block is encoded, so that no entry is written and no tile has to lie anywhere
  refine ⟨husable, hlaid, ?_, hlength, fun block hgrid => ?_, fun block hgrid => ?_, ?_, ?_, ?_⟩
  · exact fun _ hmem => absurd hmem List.not_mem_nil
  · rw [hentry block hgrid]
    simp [IndexEntry.isWritten]
  · rw [hentry block hgrid, storedEntry, hbytes, slice_blankFile_entry hgrid.blockNumber_lt]
  · exact fun _ hmem => absurd hmem List.not_mem_nil
  · exact fun _ hmem => absurd hmem List.not_mem_nil
  · exact fun _ hmem => absurd hmem List.not_mem_nil

/-- After any calls on a new file, the tiles of the blocks that were encoded fill it without gaps
    and overlaps. Another encoding of a block spares what is not its own, and if it fails, nothing
    changes and the block was not encoded before. -/
theorem extents_packed {storage : Storage} {calls : List TileCall} (husable : storage.Usable)
    (hfits : ∀ call ∈ calls, call.Fits raster bands) :
    (create raster bands).Ends storage
      (fun codec _ =>
        Packed raster bands (performAll calls codec).2 (performAll calls codec).1 ∧
        (∀ block ∈ (performAll calls codec).2,
          ((performAll calls codec).1.entryOf block).offset ≠ 0) ∧
        ∀ context data, (TileCall.encode context data).Fits raster bands →
          (Codec.encode context data).Ends (performAll calls codec).1
            (fun _ after => Spares raster bands (performAll calls codec).1 context.block after ∧
              (context.block ∈ (performAll calls codec).2 →
                after.storage.length = (performAll calls codec).1.storage.length))
            (fun _ after => after = (performAll calls codec).1 ∧
              context.block ∉ (performAll calls codec).2 ∧ after.storage.medium ≠ .memory ∧
              offsetLimit ≤ after.storage.length + tileBytes bands context.block))
      (fun _ _ => ¬Counted raster bands ∨ storage.medium ≠ .memory) := by
  apply (ends_create_blank husable).imp
  rintro codec _ ⟨-, -, -, hcodec, htables, hbytes⟩
  have hpacked : Packed raster bands (performAll calls codec).2 (performAll calls codec).1 :=
    packed_foldl (packed_blank hcodec htables hbytes) hfits
  refine ⟨hpacked, fun block hmem => hpacked.offset_ne_zero hmem, ?_⟩
  rintro context data ⟨hgrid, hsize, hlimit⟩
  apply (ends_writeBlock_packed hpacked hgrid hsize hlimit).mono
  · rintro _ after ⟨-, hspares⟩
    exact ⟨hspares, fun hmem => hspares.length ((hpacked.isWritten _ hgrid).mpr hmem)⟩
  · rintro _ _ ⟨rfl, hfull⟩
    exact ⟨rfl, hfull⟩

/-- Two bands with blocks of 8 and of 3 bytes. -/
private def twoBands : List BandDescriptor :=
  [⟨.int16, ⟨2, 2⟩, none⟩, ⟨.byte, ⟨1, 3⟩, none⟩]

/-- A block of the first band is encoded twice, with a block and another no-data value of the second
    band between. -/
private def mixedCalls : List TileCall :=
  [.encode ⟨⟨1, 1, 0⟩, ⟨.int16, ⟨2, 2⟩, none⟩, ⟨3, 3⟩⟩ (ByteArray.zeros 8),
    .setNoData 2 (some .zero),
    .encode ⟨⟨2, 2, 0⟩, ⟨.byte, ⟨1, 3⟩, some .zero⟩, ⟨3, 3⟩⟩ (ByteArray.zeros 3),
    .encode ⟨⟨1, 1, 0⟩, ⟨.int16, ⟨2, 2⟩, none⟩, ⟨3, 3⟩⟩ (ByteArray.zeros 8)]

/-- Calls for both bands of a file in memory. -/
theorem extents_packed_twoBands :
    (Storage.inMemory ByteArray.empty true).Usable ∧
      (∀ call ∈ mixedCalls, call.Fits ⟨3, 3⟩ twoBands) ∧
      (create ⟨3, 3⟩ twoBands).Ends (Storage.inMemory ByteArray.empty true)
        (fun codec _ => Packed ⟨3, 3⟩ twoBands (performAll mixedCalls codec).2
          (performAll mixedCalls codec).1)
        (fun _ _ => ¬Counted ⟨3, 3⟩ twoBands) := by
  have husable : (Storage.inMemory ByteArray.empty true).Usable := ⟨trivial, rfl⟩
  have hfits : ∀ call ∈ mixedCalls, call.Fits ⟨3, 3⟩ twoBands := by
    simp only [mixedCalls, List.forall_mem_cons, TileCall.Fits, size_zeros]
    refine ⟨⟨⟨by decide, by decide, by decide, by decide⟩, by decide, by decide⟩, by decide,
      ⟨⟨by decide, by decide, by decide, by decide⟩, by decide, by decide⟩,
      ⟨⟨by decide, by decide, by decide, by decide⟩, by decide, by decide⟩, ?_⟩
    exact fun _ hmem => absurd hmem List.not_mem_nil
  refine ⟨husable, hfits, ?_⟩
  apply (extents_packed husable hfits).mono
  · exact fun _ _ h => h.1
  · exact fun _ _ hfailed => hfailed.resolve_right fun hmedium => hmedium rfl

end RasterStore.TiledCodec
