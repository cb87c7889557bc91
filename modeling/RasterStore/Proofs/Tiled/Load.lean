import RasterStore.Proofs.Storage
import RasterStore.Proofs.Tiled.Image

/-!
# Reading tiled files

From an image everything is read back: `load_of_image` gives the geometry and the indexes that the
bytes are an image of, and `readBlock_of_image` the tile of a block, or padding.
-/

namespace RasterStore.TiledCodec

open ByteArray Tiled

variable {raster : Size} {bands : List BandDescriptor} {tables : Array BlockTable}
variable {storage : Storage} {i j : Nat}

/-- A list is parsed if each of its items is. -/
theorem mapM_of_ok {α β : Type} {f : α → Except RasterError β} {g : α → β} {items : List α}
    (h : ∀ item ∈ items, f item = .ok (g item)) : items.mapM f = .ok (items.map g) := by
  induction items with
  | nil => rfl
  | cons item rest ih =>
    rw [List.mapM_cons, h item (by simp), ih fun other hmem => h other (List.mem_cons_of_mem _ hmem)]
    rfl

theorem map_bandAt (bands : List BandDescriptor) :
    (List.range bands.length).map (bandAt bands) = bands := by
  apply List.ext_getElem
  · simp
  · intro i hi hi'
    rw [List.getElem_map, List.getElem_range, bandAt, List.getD_eq_getElem?_getD,
      List.getElem?_eq_getElem hi', Option.getD_some]

/-! ## Headers -/

/-- The headers of an image are parsed to its bands. -/
private theorem parseBandHeaders_of_image {bytes : ByteArray} (h : Image raster bands tables bytes) :
    parseBandHeaders (bytes.slice headerBytes (bands.length * bandHeaderBytes)) bands.length =
      .ok bands := by
  rw [parseBandHeaders, mapM_of_ok (g := bandAt bands), map_bandAt]
  intro i hi
  have hlt := List.mem_range.mp hi
  have hinside := packed_inside bandHeaderBytes hlt
  rw [← parseBandHeader_slice, slice_slice hinside, h.bandHeader i hlt,
    parseBandHeader_bandRecord (h.geometry.block _ (bandAt_mem hlt))]

/-! ## Indexes -/

/-- The tables that are loaded are the ones stored one behind the other. -/
theorem loadTablesVia_of_inside (raster : Size) (hread : storage.Readable) (number offset : Nat)
    (hbytes : ∀ band ∈ bands, band.blockBytes < byteLimit 4)
    (hinside : offset + entriesBefore raster bands bands.length * entryBytes ≤ storage.length) :
    ∃ loaded, loadTablesVia storage.read storage.length raster number offset bands =
        Except.ok (ε := RasterError) loaded ∧
      loaded.length = bands.length ∧ ∀ i, i < bands.length →
        let start := offset + entriesBefore raster bands i * entryBytes
        loaded[i]? = some (BlockTable.parse
          (storage.bytes.slice start (entryCount raster bands i * entryBytes)) start
          (bandAt bands i) raster) := by
  -- induction on the bands; the tables of the others start behind that of the first
  induction bands generalizing number offset with
  | nil => exact ⟨[], rfl, rfl, fun i hi => absurd hi (Nat.not_lt_zero i)⟩
  | cons band rest ih =>
    rw [List.length_cons, entriesBefore_cons, Nat.add_mul] at hinside
    obtain ⟨loaded, hloaded, hlength, hget⟩ := ih (number + 1)
      (offset + band.blockCount raster * entryBytes)
      (fun other hmem => hbytes other (List.mem_cons_of_mem _ hmem)) (by omega)
    -- the check of the reader lets the band pass
    have haccepted : ¬(byteLimit 4 ≤ band.blockBytes ∨
        storage.length < offset + band.blockCount raster * entryBytes) := by
      have := hbytes band (by simp)
      omega
    refine ⟨BlockTable.parse (storage.bytes.slice offset (band.blockCount raster * entryBytes))
      offset band raster :: loaded, ?_, by rw [List.length_cons, hlength, List.length_cons], ?_⟩
    · rw [loadTablesVia]
      simp only [if_neg haccepted]
      rw [Storage.read_of_readable hread (by omega), hloaded]
      rfl
    · intro i hi
      cases i with
      | zero => rw [entriesBefore, Nat.zero_mul]; rfl
      | succ i =>
        rw [List.getElem?_cons_succ, hget i (by simpa using hi), entriesBefore_cons, Nat.add_mul,
          ← Nat.add_assoc]
        rfl

/-- The index entries of an image are read back. -/
private theorem parse_entry (h : Image raster bands tables storage.bytes)
    (hlimit : storage.length < byteLimit 8) (hj : j < entryCount raster bands i) :
    IndexEntry.parse storage.bytes (entryPlace raster bands i j) = entryAt tables i j := by
  have hband := h.geometry.blockBytes_lt _ (bandAt_mem (lt_of_lt_entryCount hj))
  have hslice : IndexEntry.parse (storage.bytes.slice (entryPlace raster bands i j) entryBytes) 0 =
      IndexEntry.parse storage.bytes (entryPlace raster bands i j) :=
    parse_slice (Nat.le_of_eq (Nat.zero_add entryBytes))
  rw [← hslice, h.index i j hj]
  -- a blank entry is all zeros, and a written one points into the file
  rcases h.tile i j with hblank | ⟨hsize, -, hend⟩
  · rw [hblank]
    exact parse_toBytes (byteLimit_pos 8) (byteLimit_pos 4)
  · have : storage.bytes.size < byteLimit 8 := hlimit
    exact parse_toBytes (by omega) (by omega)

/-- The index of a band is parsed to the one in memory. -/
private theorem parseTable_of_image (h : Image raster bands tables storage.bytes)
    (hlimit : storage.length < byteLimit 8) (hi : i < bands.length) :
    BlockTable.parse (storage.bytes.slice (entryPlace raster bands i 0)
      (entryCount raster bands i * entryBytes)) (entryPlace raster bands i 0) (bandAt bands i)
        raster = tableAt tables i := by
  -- entry by entry, as the slice of the index has them
  have hentries : (Array.range (entryCount raster bands i)).map (fun j =>
      IndexEntry.parse (storage.bytes.slice (entryPlace raster bands i 0)
        (entryCount raster bands i * entryBytes)) (j * entryBytes)) =
      (tableAt tables i).entries := by
    apply Array.ext
    · rw [Array.size_map, Array.size_range, h.laid.entries i hi]
    · intro j hj hj'
      have hcount : j < entryCount raster bands i := by simpa using hj
      have hplace : entryPlace raster bands i 0 + j * entryBytes = entryPlace raster bands i j := by
        rw [entryPlace, entryPlace, Nat.add_zero, Nat.add_mul, Nat.add_assoc]
      rw [Array.getElem_map, Array.getElem_range, parse_slice (packed_inside _ hcount), hplace,
        parse_entry h hlimit hcount, entryAt, Array.getD_eq_getD_getElem?,
        Array.getElem?_eq_getElem hj', Option.getD_some]
  have hoffset := h.laid.offset i hi
  have hrow := h.laid.blocksPerRow i hi
  cases htable : tableAt tables i with
  | mk offset blocksPerRow entries =>
    rw [htable] at hoffset hrow hentries
    simp only at hoffset hrow hentries
    rw [BlockTable.parse, hoffset, hrow]
    congr 1

/-- An image is loaded with the geometry and the indexes that it is an image of. -/
theorem load_of_image (h : Image raster bands tables storage.bytes) (hread : storage.Readable)
    (hlimit : storage.length < byteLimit 8) :
    load storage = .ok (⟨storage, tables⟩, raster, bands) := by
  have hinside : tilesStart raster bands ≤ storage.length := h.inside
  have hstart : tablesStart bands ≤ tilesStart raster bands := tablesStart_le
  have hheaders : headerBytes + bands.length * bandHeaderBytes = tablesStart bands := rfl
  have hindexes : tablesStart bands + entriesBefore raster bands bands.length * entryBytes =
      tilesStart raster bands := rfl
  obtain ⟨loaded, hloaded, hlength, hget⟩ := loadTablesVia_of_inside raster hread 1
    (tablesStart bands) h.geometry.blockBytes_lt (by omega)
  -- the tables that were read are those of the image
  have htables : loaded.toArray = tables := by
    apply Array.ext
    · rw [List.size_toArray, hlength, h.laid.size]
    · intro i hi hi'
      have hband : i < bands.length := by simpa [hlength] using hi
      have hparsed := hget i hband
      simp only at hparsed
      rw [show tablesStart bands + entriesBefore raster bands i * entryBytes =
        entryPlace raster bands i 0 from rfl, parseTable_of_image h hlimit hband, tableAt,
        Array.getD_eq_getD_getElem?, Array.getElem?_eq_getElem hi', Option.getD_some] at hparsed
      rw [List.getElem_toArray]
      exact (List.getElem?_eq_some_iff.mp hparsed).2
  -- the checks of `load`, in their order
  rw [load, loadVia, Storage.read_of_readable hread (by omega), h.header]
  simp only [bind, Except.bind, liftM, monadLift]
  rw [parseHeader_headerRecord h.geometry.raster h.geometry.bands_lt h.geometry.bands_pos]
  simp only
  rw [if_neg (by omega), Storage.read_of_readable hread (by omega)]
  simp only
  rw [parseBandHeaders_of_image h]
  simp only [hheaders]
  rw [hloaded]
  simp only [htables]
  rfl

/-! ## Tiles -/

/-- The index entry of a block. -/
def entryOf (codec : TiledCodec) (block : BlockRef) : IndexEntry :=
  (codec.table block.band).entry block.x block.y

/-- The bytes of a block: its tile, or padding if it has none. -/
def tile (codec : TiledCodec) (context : BlockContext) : ByteArray :=
  if (codec.entryOf context.block).isWritten then
    codec.storage.bytes.slice (codec.entryOf context.block).offset context.descriptor.blockBytes
  else context.descriptor.padding

/-- The tile of a block that has one lies in the file and has the size of the block. -/
private theorem tile_inside {codec : TiledCodec} {context : BlockContext}
    (h : Image raster bands codec.tables codec.storage.bytes)
    (hbytes : context.descriptor.blockBytes =
      (bandAt bands (context.block.band - 1)).blockBytes)
    (hwritten : (codec.entryOf context.block).isWritten = true) :
    (codec.entryOf context.block).size = context.descriptor.blockBytes ∧
      (codec.entryOf context.block).offset + context.descriptor.blockBytes ≤
        codec.storage.bytes.size := by
  -- the entry of the block is that of a tile
  have htile : Tile context.descriptor.blockBytes (tilesStart raster bands)
      codec.storage.bytes.size (codec.entryOf context.block) := by
    rw [hbytes]
    exact h.tile _ _
  obtain ⟨hsize, -, hend⟩ := htile.of_isWritten hwritten
  exact ⟨hsize, by rwa [← hsize]⟩

/-- The tile of a block has the size of the block. -/
theorem size_tile {codec : TiledCodec} {context : BlockContext}
    (h : Image raster bands codec.tables codec.storage.bytes)
    (hbytes : context.descriptor.blockBytes =
      (bandAt bands (context.block.band - 1)).blockBytes) :
    (codec.tile context).size = context.descriptor.blockBytes := by
  rw [tile]
  split
  · next hwritten => exact size_slice_of_le (tile_inside h hbytes hwritten).2
  · exact BandDescriptor.size_padding _

/-- A block of an image is read as its tile. -/
theorem readBlock_of_image {codec : TiledCodec} {context : BlockContext}
    (h : Image raster bands codec.tables codec.storage.bytes) (hread : codec.storage.Readable)
    (hbytes : context.descriptor.blockBytes =
      (bandAt bands (context.block.band - 1)).blockBytes) :
    codec.readBlock context = .ok (codec.tile context) := by
  rw [readBlock, tile]
  -- the entry decides whether there is something to read
  show (if !(codec.entryOf context.block).isWritten then _ else _) = _
  cases hwritten : (codec.entryOf context.block).isWritten with
  | false => rfl
  | true =>
    obtain ⟨hsize, hinside⟩ := tile_inside h hbytes hwritten
    simp only [Bool.not_true, if_true]
    rw [if_neg (by simp), if_neg (fun hne => hne hsize)]
    exact Storage.read_of_readable hread hinside

end RasterStore.TiledCodec
