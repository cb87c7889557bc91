import RasterStore.Proofs.Action.Keeps
import RasterStore.Proofs.Calls
import RasterStore.Proofs.Tiled.Encode

/-!
# Invariants of transfers

A transfer gets the blocks of its band one by one: it fetches those that it reads and changes those
that it writes. Each of them lies in the grid of the band, and a change keeps the size of a block.
So an invariant of the block store that single fetches and changes keep is kept by whole transfers,
wherever a failing block ends them.

`KeptByFetching`, `KeptByReading` and `KeptByWriting` list the steps that a dataset does with its
blocks. The bands may get other no-data values, but never another shape. An invariant about the
contents of blocks is kept by the steps that read if a model of the codec knows these contents
(`KeptByModels`).
-/

namespace RasterStore

open BlockStore RasterStore.Action
open Tiled (InGrid)

variable {κ : Type} [Codec κ]

/-- Fetching blocks, making room for them and writing them back keeps the invariant. -/
structure KeptByFetching (raster : Size) (bands : List BandDescriptor)
    (inv : BlockStore κ → Prop) : Prop where
  sameRaster : ∀ store, inv store → store.raster = raster
  shapes : ∀ store, inv store → SameShapes bands store.bands.toList
  fetch : ∀ key, InGrid raster bands key → Keeps inv (fetch key .read)
  setCapacity : ∀ capacity, Keeps inv (setCapacity (κ := κ) capacity)
  flushSelected : ∀ selected, Keeps inv (flushSelected (κ := κ) selected)
  flushCodec : Keeps inv (onCodec (κ := κ) Codec.flush)

/-- What a dataset does with its blocks for calls that only read keeps the invariant. -/
structure KeptByReading (raster : Size) (bands : List BandDescriptor)
    (inv : BlockStore κ → Prop) : Prop extends KeptByFetching raster bands inv where
  invalidate : ∀ key, Keeps inv (invalidate (κ := κ) key)
  note : ∀ notice, Keeps inv (modifyReports (κ := κ) (·.note notice))

/-- The change of a block keeps its size. -/
def KeepsSize (bands : List BandDescriptor) (key : BlockRef) (f : ByteArray → ByteArray) : Prop :=
  ∀ data, data.size = (bandOf bands key.band).blockBytes →
    (f data).size = (bandOf bands key.band).blockBytes

/-- What a dataset does with its blocks for calls that write keeps the invariant. -/
structure KeptByWriting (raster : Size) (bands : List BandDescriptor)
    (inv : BlockStore κ → Prop) : Prop where
  change : ∀ key use f, InGrid raster bands key → use.forWriting = true → KeepsSize bands key f →
    Keeps inv (change key use f)
  setNoData : ∀ band value, 0 < band ∧ band ≤ bands.length →
    Keeps inv (onCodec (κ := κ) (Codec.setNoData band value))
  withNoData : ∀ store i value, inv store →
    inv { store with bands := store.bands.modify i ({ · with noData := value }) }
  invalidateBand : ∀ band, Keeps inv (invalidateBand (κ := κ) band)

variable {raster : Size} {bands : List BandDescriptor} {inv : BlockStore κ → Prop}
variable {descriptor : BandDescriptor} {band x y : Nat} {window : Window} {layout : BufferLayout}
variable {store : BlockStore κ}

/-! ## Blocks of the grid -/

/-- A part of a covering of a line starts on the line. -/
theorem mul_lt_of_lt_partsCovering {whole part i : Nat} (h : i < partsCovering whole part) :
    i * part < whole := by
  rcases Nat.eq_zero_or_pos part with rfl | hpart
  · simp [partsCovering] at h
  · exact (lt_partsCovering_iff hpart).mp h

/-- The first pixel of a block of the grid lies in the raster. -/
theorem Tiled.InGrid.left_lt {key : BlockRef} (h : InGrid raster bands key) :
    key.x * (bandOf bands key.band).block.width < raster.width :=
  mul_lt_of_lt_partsCovering h.x_lt

/-- The first row of a block of the grid lies in the raster. -/
theorem Tiled.InGrid.top_lt {key : BlockRef} (h : InGrid raster bands key) :
    key.y * (bandOf bands key.band).block.height < raster.height :=
  mul_lt_of_lt_partsCovering h.y_lt

/-- The band exists, and its blocks have pixels. -/
structure HasGrid (bands : List BandDescriptor) (band : Nat) : Prop where
  pos : 0 < band
  le : band ≤ bands.length
  blocked : (bandOf bands band).Blocked

/-- A block whose first pixel lies in the raster belongs to the grid. -/
theorem HasGrid.inGrid (hgrid : HasGrid bands band)
    (hx : x * (bandOf bands band).block.width < raster.width)
    (hy : y * (bandOf bands band).block.height < raster.height) :
    InGrid raster bands ⟨band, x, y⟩ where
  band_pos := hgrid.pos
  band_le := hgrid.le
  x_lt := (lt_partsCovering_iff hgrid.blocked.1).mpr hx
  y_lt := (lt_partsCovering_iff hgrid.blocked.2).mpr hy

/-- The block of a pixel of the raster belongs to the grid. -/
theorem HasGrid.inGrid_blockOf (hgrid : HasGrid bands band)
    (hblock : descriptor.block = (bandOf bands band).block) (hx : x < raster.width)
    (hy : y < raster.height) : InGrid raster bands (descriptor.blockOf band x y) := by
  rw [BandDescriptor.blockOf, hblock]
  apply hgrid.inGrid
  · exact Nat.lt_of_le_of_lt (Nat.div_mul_le_self _ _) hx
  · exact Nat.lt_of_le_of_lt (Nat.div_mul_le_self _ _) hy

namespace BlockStore

omit [Codec κ] in
/-- The descriptor of a band is the one of the list of bands. -/
theorem descriptor_eq_bandOf (store : BlockStore κ) (band : Nat) :
    store.descriptor band = bandOf store.bands.toList band := by
  rw [descriptor, bandOf, Array.getD_eq_getD_getElem?, List.getD_eq_getElem?_getD,
    Array.getElem?_toList]

end BlockStore

omit [Codec κ] in
/-- The size that is kept is the one of the store's own blocks. -/
theorem KeepsSize.of_sameShapes {key : BlockRef} {f : ByteArray → ByteArray}
    (hf : KeepsSize bands key f) (hshapes : SameShapes bands store.bands.toList) (data : ByteArray)
    (hsize : data.size = (store.descriptor key.band).blockBytes) :
    (f data).size = (store.descriptor key.band).blockBytes := by
  rw [descriptor_eq_bandOf, hshapes.blockBytes] at hsize ⊢
  exact hf data hsize

/-! ## Invariants that speak of contents -/

/-- At each store with the invariant, some model of the codec tells what keeps it: fetching blocks,
    making room and writing back keep the contents of the model. Blocks that are given up, and
    reports, do not matter to the invariant. -/
structure KeptByModels (raster : Size) (bands : List BandDescriptor)
    (inv : BlockStore κ → Prop) : Prop where
  sameRaster : ∀ store, inv store → store.raster = raster
  shapes : ∀ store, inv store → SameShapes bands store.bands.toList
  model : ∀ store, inv store → ∃ M : CodecModel κ, M.Sound store ∧
    (∀ key, InGrid raster bands key → M.Serves (store.context key)) ∧
    ∀ after, M.Keeps store after → inv after
  subset : ∀ (store : BlockStore κ) (cache : BlockCache), inv store → cache.Distinct →
    (∀ key block, cache.find? key = some block → store.cache.find? key = some block) →
    inv { store with cache }
  reports : ∀ (store : BlockStore κ) (reports : Reports), inv store → inv { store with reports }
  flushCodec : Keeps inv (onCodec (κ := κ) Codec.flush)

namespace KeptByModels

/-- Fetching a block of the grid keeps the invariant. -/
theorem keeps_fetch (h : KeptByModels raster bands inv) {key : BlockRef}
    (hkey : InGrid raster bands key) : Keeps inv (fetch key .read) := by
  intro store hstore
  obtain ⟨M, hsound, hserves, hkeeps⟩ := h.model store hstore
  apply (CodecModel.ends_fetch hsound (hserves key hkey) .read).mono
  · exact fun _ _ hfetched => hkeeps _ (hfetched.keeps rfl)
  · exact fun _ _ hfailed => hkeeps _ hfailed.1

/-- Another capacity keeps the invariant: what goes is written back. -/
theorem keeps_setCapacity (h : KeptByModels raster bands inv) (capacity : Nat) :
    Keeps inv (setCapacity (κ := κ) capacity) := by
  intro store hstore
  obtain ⟨M, hsound, -, hkeeps⟩ := h.model store hstore
  apply (CodecModel.ends_setCapacity hsound capacity).mono
  · exact fun _ _ hafter => hkeeps _ hafter
  · exact fun _ _ hfailed => hkeeps _ hfailed.1

/-- Writing blocks back keeps the invariant. -/
theorem keeps_flushSelected (h : KeptByModels raster bands inv) (selected : BlockRef → Bool) :
    Keeps inv (flushSelected (κ := κ) selected) := by
  intro store hstore
  obtain ⟨M, hsound, -, hkeeps⟩ := h.model store hstore
  apply (CodecModel.ends_flushSelected_keeps hsound selected).mono
  · exact fun _ _ hflushed => hkeeps _ hflushed.1
  · exact fun _ _ hfailed => hkeeps _ hfailed.1

/-- The blocks of a sound store are held once each. -/
theorem distinct (h : KeptByModels raster bands inv) (hstore : inv store) : store.cache.Distinct := by
  obtain ⟨M, hsound, -, -⟩ := h.model store hstore
  exact hsound.distinct

/-- Dropping a block keeps the invariant, since the invariant does not mind blocks that are gone. -/
theorem keeps_invalidate (h : KeptByModels raster bands inv) (key : BlockRef) :
    Keeps inv (invalidate (κ := κ) key) := by
  apply keeps_get_bind
  intro _ _
  apply Keeps.bind _ fun _ => keeps_pure _
  apply keeps_modify
  intro store hstore
  apply h.subset store _ hstore ((h.distinct hstore).remove key)
  -- what is left in the cache was there before
  intro other block hfind
  rw [BlockCache.find?_remove] at hfind
  split at hfind
  · contradiction
  · exact hfind

/-- Dropping the blocks of a band keeps the invariant. -/
theorem keeps_invalidateBand (h : KeptByModels raster bands inv) (band : Nat) :
    Keeps inv (invalidateBand (κ := κ) band) := by
  apply keeps_modify
  intro store hstore
  apply h.subset store _ hstore ((h.distinct hstore).removeBand band)
  intro other block hfind
  rw [BlockCache.find?_removeBand] at hfind
  split at hfind
  · contradiction
  · exact hfind

/-- An invariant that speaks of contents is kept by all that is done for reading calls. -/
theorem keptByReading (h : KeptByModels raster bands inv) : KeptByReading raster bands inv where
  sameRaster := h.sameRaster
  shapes := h.shapes
  fetch _ hkey := h.keeps_fetch hkey
  setCapacity := h.keeps_setCapacity
  flushSelected := h.keeps_flushSelected
  flushCodec := h.flushCodec
  invalidate := h.keeps_invalidate
  note _ := keeps_modify fun store hstore => h.reports store _ hstore

end KeptByModels

/-! ## Reading -/

namespace KeptByFetching

/-- The blocks of a band are as large as those of the list of bands. -/
theorem block_eq (h : KeptByFetching raster bands inv) (hstore : inv store) (band : Nat) :
    (store.descriptor band).block = (bandOf bands band).block := by
  rw [descriptor_eq_bandOf]
  exact (h.shapes store hstore).block band

/-- The blocks of a band take as many bytes as those of the list of bands. -/
theorem blockBytes_eq (h : KeptByFetching raster bands inv) (hstore : inv store) (band : Nat) :
    (store.descriptor band).blockBytes = (bandOf bands band).blockBytes := by
  rw [descriptor_eq_bandOf]
  exact (h.shapes store hstore).blockBytes band

/-- One block is fetched for each run of a row. -/
private theorem keeps_readRun (h : KeptByFetching raster bands inv) (hgrid : HasGrid bands band)
    (hblock : descriptor.block = (bandOf bands band).block) (hwindow : window.Inside raster)
    {row : Nat} (hrow : row < layout.height) {run : List ColumnPair}
    (hrun : run ∈ columnRuns descriptor.block.width
      (nearestCells window.x window.width layout.width)) :
    Keeps (fun state => inv state.1) (readRun (κ := κ) band descriptor layout
      (scaled window.y row window.height layout.height) row run) := by
  cases run with
  | nil => exact keeps_pure _
  | cons first rest =>
    obtain ⟨hlt, hsource⟩ := PixelModel.source_of_mem_columnRuns hrun List.mem_cons_self
    have hinside := hwindow.scaled_lt hlt hrow
    rw [hsource] at hinside
    -- the first pixel of the run lies in the raster, and all of them in one block
    have hkey := hgrid.inGrid_blockOf hblock hinside.1 hinside.2
    exact (h.fetch _ hkey).onFirst.bind fun _ => keeps_onSecond _

/-- Reading nearest pixels fetches blocks of the grid, and so keeps the invariant. -/
theorem keeps_readNearest (h : KeptByFetching raster bands inv) (hgrid : HasGrid bands band)
    (hblock : descriptor.block = (bandOf bands band).block) (hwindow : window.Inside raster) :
    Keeps (fun state => inv state.1) (readNearest (κ := κ) band descriptor window layout) := by
  apply keeps_forM
  intro row hrow
  apply keeps_forM
  intro run hrun
  exact h.keeps_readRun hgrid hblock hwindow (List.mem_range.mp hrow) hrun

/-- The blocks of all pixels that a mean is taken over are fetched. -/
private theorem keeps_readMean (h : KeptByFetching raster bands inv) (hgrid : HasGrid bands band)
    (hblock : descriptor.block = (bandOf bands band).block) (hwindow : window.Inside raster)
    {cell : Nat × Nat} (hcell : cell ∈ layout.cells) :
    Keeps (fun state => inv state.1) (readMean (κ := κ) band descriptor window layout cell) := by
  obtain ⟨column, row⟩ := cell
  obtain ⟨hcolumn, hrow⟩ := BufferLayout.mem_cells.mp hcell
  -- the pixels of a mean lie in the window
  have hright := Nat.le_trans (PixelModel.averagedCells_le hcolumn hwindow.width_pos)
    hwindow.right_le
  have hlower := Nat.le_trans (PixelModel.averagedCells_le hrow hwindow.height_pos)
    hwindow.lower_le
  apply Keeps.bind
  · apply Keeps.onFirst
    apply keeps_foldlM
    -- a pixel that is read lies in a block of the grid
    intro sum source hsource
    obtain ⟨⟨-, hx⟩, -, hy⟩ := mem_cells.mp hsource
    have hkey := hgrid.inGrid_blockOf hblock (Nat.lt_of_lt_of_le hx hright)
      (Nat.lt_of_lt_of_le hy hlower)
    exact (h.fetch _ hkey).bind fun _ => keeps_pure _
  · exact fun _ => keeps_onSecond _

/-- Reading averages fetches blocks of the grid, and so keeps the invariant. -/
theorem keeps_readAverage (h : KeptByFetching raster bands inv) (hgrid : HasGrid bands band)
    (hblock : descriptor.block = (bandOf bands band).block) (hwindow : window.Inside raster) :
    Keeps (fun state => inv state.1) (readAverage (κ := κ) band descriptor window layout) := by
  apply keeps_forM
  intro cell hcell
  exact h.keeps_readMean hgrid hblock hwindow hcell

/-- Reading a window keeps the invariant. -/
theorem keeps_readWindow (h : KeptByFetching raster bands inv) (hgrid : HasGrid bands band)
    (hwindow : window.Inside raster) (resampling : Resampling) :
    Keeps (fun state => inv state.1) (readWindow (κ := κ) band window layout resampling) := by
  apply keeps_get_bind
  intro state hstate
  have hblock := h.block_eq hstate band
  cases resampling with
  | nearest => exact h.keeps_readNearest hgrid hblock hwindow
  | average => exact h.keeps_readAverage hgrid hblock hwindow

end KeptByFetching

/-! ## Writing -/

namespace KeptByWriting

variable {buffer : ByteArray}

/-- The part of a window in one block is written by a change of the block. -/
private theorem keeps_writeBlockPart (h : KeptByWriting raster bands inv)
    (hfetching : KeptByFetching raster bands inv) (hgrid : HasGrid bands band)
    (hwindow : window.Inside raster) (hlayout : layout.Fits buffer.size) {block : Nat × Nat}
    (hinside : block.1 * (bandOf bands band).block.width < raster.width ∧
      block.2 * (bandOf bands band).block.height < raster.height) :
    Keeps inv (writeBlockPart (κ := κ) band window layout buffer block) := by
  apply keeps_get_bind
  intro store hstore
  have hblock := hfetching.block_eq hstore band
  have hbytes := hfetching.blockBytes_eq hstore band
  have hblocked : (store.descriptor band).Blocked := by
    rw [BandDescriptor.Blocked, hblock]
    exact hgrid.blocked
  -- pasting keeps the size of the block
  have hpaints := paints_pasteWindow hblocked hwindow hlayout block
  rw [← hfetching.sameRaster store hstore] at hpaints
  apply h.change _ _ _ (hgrid.inGrid hinside.1 hinside.2) hpaints.forWriting
  intro data hsize
  rw [hpaints.size data (hsize.trans hbytes.symm), hsize]

/-- Writing a window keeps the invariant. -/
theorem keeps_writeWindow (h : KeptByWriting raster bands inv)
    (hfetching : KeptByFetching raster bands inv) (hgrid : HasGrid bands band)
    (hwindow : window.Inside raster) (hlayout : layout.Fits buffer.size) :
    Keeps inv (writeWindow (κ := κ) band window layout buffer) := by
  apply keeps_get_bind
  intro store hstore
  have hblock := hfetching.block_eq hstore band
  have hblocked : (store.descriptor band).Blocked := by
    rw [BandDescriptor.Blocked, hblock]
    exact hgrid.blocked
  -- each block that the window touches lies in the raster
  apply keeps_forM
  intro block hmem
  have hinside := inside_of_touched hblocked hwindow hmem
  rw [hblock] at hinside
  exact h.keeps_writeBlockPart hfetching hgrid hwindow hlayout hinside

/-- Filling a band keeps the invariant. -/
theorem keeps_fillBand (h : KeptByWriting raster bands inv)
    (hfetching : KeptByFetching raster bands inv) (hgrid : HasGrid bands band) (value : Binary64) :
    Keeps inv (fillBand (κ := κ) band value) := by
  apply keeps_get_bind
  intro store hstore
  apply keeps_forM
  intro block hmem
  obtain ⟨⟨-, hcolumn⟩, -, hrow⟩ := mem_cells.mp hmem
  rw [Nat.zero_add, BandDescriptor.grid, hfetching.block_eq hstore,
    hfetching.sameRaster store hstore] at hcolumn hrow
  apply h.change _ _ _ ⟨hgrid.pos, hgrid.le, hcolumn, hrow⟩ rfl
  intro data hsize
  rw [size_fillPixels, hsize]

end KeptByWriting

end RasterStore
