import Mathlib.Data.List.SplitBy
import RasterStore.Proofs.Transfer.Write

/-!
# Reading windows

What a caller's buffer holds after a window was read. The nearest window pixels are copied run by
run, but the result does not show the runs: as with means, the buffer is overwritten cell by cell,
row by row (`Filled`). A failure stops this at the first cell that cannot be read (`Stopped`): the
blocks for the cells before it were fetched, and one of its own could not be (`Unread`). No read
changes the raster.

* `ends_readWindow`                       how a read ends
* `BufferLayout.slice_overwriteCells`     cells that do not overlap hold their pixels
-/

namespace RasterStore

open ByteArray BlockStore RasterStore.Action

/-- The cells of a buffer, row by row. -/
def BufferLayout.cells (layout : BufferLayout) : List (Nat × Nat) :=
  RasterStore.cells 0 0 ⟨layout.width, layout.height⟩

theorem BufferLayout.mem_cells {layout : BufferLayout} {cell : Nat × Nat} :
    cell ∈ layout.cells ↔ cell.1 < layout.width ∧ cell.2 < layout.height := by
  rw [BufferLayout.cells, RasterStore.mem_cells]
  simp only [Nat.zero_add, Nat.zero_le, true_and]

/-! ## Runs of columns -/

section Runs

variable {blockWidth : Nat} {sources : List Nat} {run : List ColumnPair}

/-- The runs are all columns, in order. -/
theorem flatten_columnRuns (blockWidth : Nat) (sources : List Nat) :
    (columnRuns blockWidth sources).flatten =
      sources.zipIdx.map fun (source, target) => ⟨source, target⟩ :=
  List.flatten_splitBy _ _

/-- The sources of the columns after the first one of a run lie in the same block as it. -/
private theorem source_div_of_isChain {first : ColumnPair} {rest : List ColumnPair}
    (hchain : (first :: rest).IsChain
      fun a b => (a.source / blockWidth == b.source / blockWidth) = true) :
    ∀ pair ∈ first :: rest, pair.source / blockWidth = first.source / blockWidth := by
  -- along the chain, each pixel lies in the block of the one before it
  induction rest generalizing first with
  | nil =>
    intro pair hmem
    rw [List.mem_singleton.mp hmem]
  | cons second rest ih =>
    obtain ⟨hsame, hrest⟩ := List.isChain_cons_cons.mp hchain
    intro pair hmem
    rcases List.mem_cons.mp hmem with rfl | hlater
    · rfl
    · rw [ih hrest pair hlater]
      exact (beq_iff_eq.mp hsame).symm

/-- The pixels of one run lie in one column of blocks. -/
theorem source_div_of_mem_columnRuns {first : ColumnPair} {rest : List ColumnPair}
    (hrun : first :: rest ∈ columnRuns blockWidth sources) :
    ∀ pair ∈ first :: rest, pair.source / blockWidth = first.source / blockWidth :=
  source_div_of_isChain (List.isChain_of_mem_splitBy hrun)

/-- The columns of a run read the sources that they are listed with. -/
theorem getElem?_of_mem_columnRuns {pair : ColumnPair} (hrun : run ∈ columnRuns blockWidth sources)
    (hmem : pair ∈ run) : sources[pair.target]? = some pair.source := by
  have hall : pair ∈ (columnRuns blockWidth sources).flatten :=
    List.mem_flatten.mpr ⟨run, hrun, hmem⟩
  rw [flatten_columnRuns] at hall
  obtain ⟨entry, hentry, rfl⟩ := List.mem_map.mp hall
  exact List.mem_zipIdx_iff_getElem?.mp hentry

/-- The targets of the runs are all columns of the buffer. -/
theorem targets_columnRuns (blockWidth : Nat) (sources : List Nat) :
    (columnRuns blockWidth sources).flatten.map ColumnPair.target = List.range sources.length := by
  rw [flatten_columnRuns, List.map_map]
  have htargets : (ColumnPair.target ∘ fun (source, target) => ⟨source, target⟩ :
      Nat × Nat → Nat) = Prod.snd := rfl
  rw [htargets, List.zipIdx_map_snd, List.range_eq_range']

end Runs

/-! ## Means of pixels -/

namespace PixelSum

/-- The sum of some pixels. -/
def total (pixels : List Pixel) : PixelSum :=
  pixels.foldl (fun sum pixel => sum.add none pixel) {}

/-- Adding up pixels passes over those that are missing. -/
theorem foldl_add (noData : Option Binary64) (pixels : List Pixel) :
    pixels.foldl (fun sum pixel => sum.add noData pixel) {} =
      total (pixels.filter fun pixel => !noData.any (isNoData pixel.re.toReal)) := by
  rw [total, List.foldl_filter]
  congr 1
  funext sum pixel
  rw [add, add]
  cases noData.any (isNoData pixel.re.toReal) <;> rfl

theorem total_concat (pixels : List Pixel) (pixel : Pixel) :
    total (pixels ++ [pixel]) = (total pixels).add none pixel := by
  rw [total, List.foldl_append]
  rfl

end PixelSum

namespace BandDescriptor

/-- The values of the pixels that are not missing. -/
def present (descriptor : BandDescriptor) (pixels : List ByteArray) : List Pixel :=
  (pixels.map (Pixel.decode descriptor.type · 0)).filter fun pixel =>
    !descriptor.noData.any (PixelSum.isNoData pixel.re.toReal)

/-- The mean of the pixels that are not missing; the no-data value if all are. -/
def meanOf (descriptor : BandDescriptor) (pixels : List ByteArray) : Pixel :=
  (PixelSum.total (descriptor.present pixels)).mean descriptor.noData

end BandDescriptor

/-! ## Fetching one block after another -/

namespace BlockStore

variable {κ : Type} [Codec κ] {before middle after : BlockStore κ}
variable {descriptor : BandDescriptor} {band : Nat} {sources : List (Nat × Nat)}

/-- Fetches blocks for reading. -/
def fetchEach : List BlockRef → Action (BlockStore κ) PUnit
  | [] => pure ⟨⟩
  | key :: rest => do
    let _ ← fetch key .read
    fetchEach rest

/-- Blocks that are fetched behind others are fetched from what those left. -/
theorem run_fetchEach_append {keys rest : List BlockRef}
    (h : (fetchEach keys).run before = (.ok ⟨⟩, middle)) :
    (fetchEach (keys ++ rest)).run before = (fetchEach rest).run middle := by
  induction keys generalizing before with
  | nil =>
    cases h
    rfl
  | cons key keys ih =>
    rw [fetchEach, run_bind] at h
    rw [List.cons_append, fetchEach, run_bind]
    split at h
    · -- only if the first fetch succeeds is there anything left to append to
      exact ih h
    · cases h

/-- The blocks of these pixels of a band were fetched one after the other, and no other blocks. -/
def Visits (descriptor : BandDescriptor) (band : Nat) (sources : List (Nat × Nat))
    (before after : BlockStore κ) : Prop :=
  ∃ keys, (fetchEach keys).run before = (.ok ⟨⟩, after) ∧
    ∀ key, key ∈ keys ↔ ∃ source ∈ sources, descriptor.blockOf band source.1 source.2 = key

/-- A step that begins at `before` ends with `error` because the block of one of these pixels cannot
    be fetched, after those of the pixels in front of it. -/
def Unread (descriptor : BandDescriptor) (band : Nat) (sources : List (Nat × Nat))
    (before : BlockStore κ) (error : RasterError) (after : BlockStore κ) : Prop :=
  ∃ earlier source rest reached, sources = earlier ++ source :: rest ∧
    Visits descriptor band earlier before reached ∧
    (fetch (descriptor.blockOf band source.1 source.2) .read).run reached = (.error error, after)

theorem Visits.refl (store : BlockStore κ) : Visits descriptor band [] store store :=
  ⟨[], rfl, fun key => by simp⟩

/-- The pixels visited behind others start from what those left. -/
theorem Visits.append {rest : List (Nat × Nat)} (h : Visits descriptor band sources before middle)
    (hrest : Visits descriptor band rest middle after) :
    Visits descriptor band (sources ++ rest) before after := by
  obtain ⟨keys, hkeys, hmem⟩ := h
  obtain ⟨others, hothers, hmemOthers⟩ := hrest
  refine ⟨keys ++ others, (run_fetchEach_append hkeys).trans hothers, fun key => ?_⟩
  simp only [List.mem_append, hmem, hmemOthers, or_and_right, exists_or]

/-- One fetch is enough for several pixels of one block. -/
theorem Visits.of_fetch {key : BlockRef} {data : ByteArray}
    (hrun : (fetch key .read).run before = (.ok data, after)) (hsome : sources ≠ [])
    (hblock : ∀ source ∈ sources, descriptor.blockOf band source.1 source.2 = key) :
    Visits descriptor band sources before after := by
  refine ⟨[key], ?_, fun other => ?_⟩
  · -- the one block is fetched
    rw [fetchEach, run_bind_of_ok hrun]
    rfl
  · -- it is the block of each of these pixels, and there is one
    rw [List.mem_singleton]
    constructor
    · rintro rfl
      obtain ⟨source, hsource⟩ := List.exists_mem_of_ne_nil _ hsome
      exact ⟨source, hsource, hblock source hsource⟩
    · rintro ⟨source, hsource, rfl⟩
      exact hblock source hsource

end BlockStore

/-! ## Cells and their sources -/

/-- Column and row of the raster that a cell of the buffer is copied from. -/
def nearestSource (window : Window) (layout : BufferLayout) (cell : Nat × Nat) : Nat × Nat :=
  (scaled window.x cell.1 window.width layout.width,
    scaled window.y cell.2 window.height layout.height)

/-- The pixels of the raster that a cell of the buffer is read from. -/
def Resampling.sources (window : Window) (layout : BufferLayout) (cell : Nat × Nat) :
    Resampling → List (Nat × Nat)
  | .nearest => [nearestSource window layout cell]
  | .average => averagedBox window layout cell.1 cell.2

namespace PixelModel

variable {κ : Type} [Codec κ] {P : PixelModel κ} {store reached : BlockStore κ}
variable {band column row : Nat} {window : Window} {layout : BufferLayout} {buffer : ByteArray}
variable {resampling : Resampling}

variable (P) in
/-- The pixel that a cell of the buffer gets: the nearest one of the window, converted. -/
def nearestPixel (store : BlockStore κ) (band : Nat) (window : Window) (layout : BufferLayout)
    (cell : Nat × Nat) : ByteArray :=
  convertPixel (store.descriptor band).type layout.type
    (P.pixelAt store band (scaled window.x cell.1 window.width layout.width)
      (scaled window.y cell.2 window.height layout.height)) 0

variable (P) in
/-- The window pixels that belong to a cell of the buffer. -/
def boxPixels (store : BlockStore κ) (band : Nat) (window : Window) (layout : BufferLayout)
    (cell : Nat × Nat) : List ByteArray :=
  (averagedBox window layout cell.1 cell.2).map fun source =>
    P.pixelAt store band source.1 source.2

variable (P) in
/-- The pixel that a cell of the buffer gets: the mean of those that belong to it, converted. -/
def meanPixel (store : BlockStore κ) (band : Nat) (window : Window) (layout : BufferLayout)
    (cell : Nat × Nat) : ByteArray :=
  ((store.descriptor band).meanOf (P.boxPixels store band window layout cell)).encode layout.type

variable (P) in
/-- The pixels that a cell of the buffer is read from. -/
def sourcePixels (store : BlockStore κ) (band : Nat) (window : Window) (layout : BufferLayout)
    (resampling : Resampling) (cell : Nat × Nat) : List ByteArray :=
  (resampling.sources window layout cell).map fun source => P.pixelAt store band source.1 source.2

variable (P) in
/-- The pixel that a cell of the buffer gets for them. -/
def readPixel (store : BlockStore κ) (band : Nat) (window : Window) (layout : BufferLayout)
    (resampling : Resampling) (cell : Nat × Nat) : ByteArray :=
  match resampling with
  | .nearest => P.nearestPixel store band window layout cell
  | .average => P.meanPixel store band window layout cell

/-- A cell gets a whole pixel for whole pixels. -/
theorem size_readPixel {cell : Nat × Nat}
    (h : ∀ pixel ∈ P.sourcePixels store band window layout resampling cell,
      pixel.size = (store.descriptor band).type.bytes) :
    (P.readPixel store band window layout resampling cell).size = layout.type.bytes := by
  cases resampling with
  | nearest =>
    apply size_convertPixel
    rw [Nat.zero_add]
    exact Nat.le_of_eq (h _ List.mem_cons_self).symm
  | average => exact Pixel.size_encode _ _

variable (P) in
/-- The buffer after some of its cells were copied. -/
def copied (store : BlockStore κ) (band : Nat) (window : Window) (layout : BufferLayout)
    (buffer : ByteArray) (copiedCells : List (Nat × Nat)) : ByteArray :=
  buffer.overwriteEach copiedCells (fun cell => layout.offset cell.1 cell.2)
    (P.nearestPixel store band window layout)

/-! ## Filling cells -/

variable (P) in
/-- From one state of a transfer to another, some cells got their pixels and the blocks of these
    pixels were fetched. The raster is as in `store`. -/
structure Filled (store : BlockStore κ) (band : Nat) (window : Window) (layout : BufferLayout)
    (resampling : Resampling) (start : BlockStore κ × ByteArray) (done : List (Nat × Nat))
    (state : BlockStore κ × ByteArray) : Prop where
  keeps : P.Keeps store state.1
  visits : Visits (store.descriptor band) band
    (done.flatMap (resampling.sources window layout ·)) start.1 state.1
  buffer : state.2 = start.2.overwriteEach done (fun cell => layout.offset cell.1 cell.2)
    (P.readPixel store band window layout resampling)
  sizes : ∀ cell ∈ done, ∀ pixel ∈ P.sourcePixels store band window layout resampling cell,
    pixel.size = (store.descriptor band).type.bytes

variable (P) in
/-- A failure has stopped a transfer that was to fill these cells. The first ones are filled, and
    the next one cannot be read. -/
def Stopped (store : BlockStore κ) (band : Nat) (window : Window) (layout : BufferLayout)
    (resampling : Resampling) (start : BlockStore κ × ByteArray) (cells : List (Nat × Nat))
    (error : RasterError) (after : BlockStore κ × ByteArray) : Prop :=
  ∃ first cell rest reached, cells = first ++ cell :: rest ∧
    P.Filled store band window layout resampling start first (reached, after.2) ∧
    Unread (store.descriptor band) band (resampling.sources window layout cell) reached error
      after.1 ∧
    P.Keeps store after.1 ∧ P.MayFail

variable {start middle state : BlockStore κ × ByteArray} {first rest : List (Nat × Nat)}
variable {error : RasterError}

theorem Filled.nil (hkeeps : P.Keeps store state.1) :
    P.Filled store band window layout resampling state [] state :=
  ⟨hkeeps, .refl _, rfl, fun _ hcell => absurd hcell List.not_mem_nil⟩

/-- Cells are filled after others. -/
theorem Filled.append (hfirst : P.Filled store band window layout resampling start first middle)
    (h : P.Filled store band window layout resampling middle rest state) :
    P.Filled store band window layout resampling start (first ++ rest) state := by
  refine ⟨h.keeps, ?_, ?_, fun cell hcell => ?_⟩
  · rw [List.flatMap_append]
    exact hfirst.visits.append h.visits
  · rw [h.buffer, hfirst.buffer]
    exact (overwriteEach_append start.2 first rest).symm
  · rcases List.mem_append.mp hcell with hbefore | hafter
    · exact hfirst.sizes cell hbefore
    · exact h.sizes cell hafter

/-- A transfer is stopped after some cells were filled. -/
theorem Stopped.of_filled (h : P.Stopped store band window layout resampling middle rest error state)
    (hfirst : P.Filled store band window layout resampling start first middle) :
    P.Stopped store band window layout resampling start (first ++ rest) error state := by
  obtain ⟨done, cell, todo, reached, rfl, hdone, hfailed⟩ := h
  exact ⟨first ++ done, cell, todo, reached, by simp, hfirst.append hdone, hfailed⟩

/-- A transfer is stopped before other cells are filled. -/
theorem Stopped.append (h : P.Stopped store band window layout resampling start first error state)
    (rest : List (Nat × Nat)) :
    P.Stopped store band window layout resampling start (first ++ rest) error state := by
  obtain ⟨done, cell, todo, reached, rfl, hdone, hfailed⟩ := h
  exact ⟨done, cell, todo ++ rest, reached, by simp, hdone, hfailed⟩

/-- The transfer is stopped by its first fetch. -/
private theorem stopped_of_fetch {cell source : Nat × Nat} {later : List (Nat × Nat)}
    {after : BlockStore κ} (hkeeps : P.Keeps store reached)
    (hsources : resampling.sources window layout cell = source :: later)
    (hrun : (fetch ((store.descriptor band).blockOf band source.1 source.2) .read).run reached =
      (.error error, after))
    (hafter : P.Keeps store after ∧ P.MayFail) :
    P.Stopped store band window layout resampling (reached, buffer) (cell :: rest) error
      (after, buffer) :=
  ⟨[], cell, rest, reached, rfl, .nil hkeeps, ⟨[], source, later, reached, hsources, .refl _, hrun⟩,
    hafter⟩

/-- A loop whose steps fill some cells each fills all of them. -/
private theorem ends_forM_filled {ι : Type} {items : List ι} {cellsOf : ι → List (Nat × Nat)}
    {act : ι → Action (BlockStore κ × ByteArray) PUnit} (hstart : P.Keeps store start.1)
    (hstep : ∀ item ∈ items, ∀ middle : BlockStore κ × ByteArray, P.Keeps store middle.1 →
      (act item).Ends middle
        (fun _ => P.Filled store band window layout resampling middle (cellsOf item))
        (P.Stopped store band window layout resampling middle (cellsOf item))) :
    (items.forM act).Ends start
      (fun _ => P.Filled store band window layout resampling start (items.flatMap cellsOf))
      (P.Stopped store band window layout resampling start (items.flatMap cellsOf)) := by
  -- the invariant: the cells of the items that are done are filled
  refine Ends.mono (Ends.forM
    (fun done => P.Filled store band window layout resampling start (done.flatMap cellsOf))
    (fun done error state => ∃ item rest, items = done ++ item :: rest ∧
      P.Stopped store band window layout resampling start (done.flatMap cellsOf ++ cellsOf item)
        error state) (.nil hstart) ?_) (fun _ _ hfilled => hfilled) ?_
  · -- one item more
    intro done item rest middle hitems hdone
    have hitem : item ∈ items := by
      rw [hitems]
      simp
    apply (hstep item hitem middle hdone.keeps).mono
    · intro _ after hafter
      rw [List.flatMap_append, List.flatMap_singleton]
      exact hdone.append hafter
    · intro error after hstopped
      exact ⟨item, rest, hitems, hstopped.of_filled hdone⟩
  · -- an item that stops leaves its own cells and those behind it as they were
    rintro error after ⟨done, _, _, -, item, rest, hitems, hstopped⟩
    rw [hitems, List.flatMap_append, List.flatMap_cons, ← List.append_assoc]
    exact hstopped.append _

/-! ## Copying -/

/-- A column of a run has its place in the buffer, and its source is the nearest column. -/
theorem source_of_mem_columnRuns {blockWidth : Nat} {run : List ColumnPair}
    {pair : ColumnPair} (hrun : run ∈ columnRuns blockWidth
      (nearestCells window.x window.width layout.width)) (hmem : pair ∈ run) :
    pair.target < layout.width ∧
      scaled window.x pair.target window.width layout.width = pair.source := by
  -- the pixel comes from the list of sources, by its place in the row
  have hget := getElem?_of_mem_columnRuns hrun hmem
  rw [nearestCells, List.getElem?_map, Option.map_eq_some_iff] at hget
  obtain ⟨target, htarget, hsource⟩ := hget
  obtain ⟨hlt, rfl⟩ := List.getElem?_eq_some_iff.mp htarget
  rw [List.length_range] at hlt
  rw [List.getElem_range] at hsource
  exact ⟨hlt, hsource⟩

section Run

variable {first pair : ColumnPair} {rest : List ColumnPair} {data : ByteArray}
variable {after : BlockStore κ}

omit [Codec κ] in
/-- All pixels of a run lie in the block of its first one. -/
private theorem blockOf_of_mem_run
    (hrun : first :: rest ∈ columnRuns (store.descriptor band).block.width
      (nearestCells window.x window.width layout.width)) (hmem : pair ∈ first :: rest) (y : Nat) :
    (store.descriptor band).blockOf band pair.source y =
      (store.descriptor band).blockOf band first.source y := by
  rw [BandDescriptor.blockOf, BandDescriptor.blockOf, source_div_of_mem_columnRuns hrun pair hmem]

/-- What a run copies from the bytes of its block are the pixels of the raster. -/
private theorem filled_of_run (hserving : P.Serving store band)
    (hwindow : window.Inside store.raster) (hkeeps : P.Keeps store reached)
    (hrow : row < layout.height)
    (hrun : first :: rest ∈ columnRuns (store.descriptor band).block.width
      (nearestCells window.x window.width layout.width))
    (hfetched : P.Fetched reached ((store.descriptor band).blockOf band first.source
      (scaled window.y row window.height layout.height)) .read data after)
    (hfetch : (fetch ((store.descriptor band).blockOf band first.source
      (scaled window.y row window.height layout.height)) .read).run reached = (.ok data, after)) :
    P.Filled store band window layout .nearest (reached, buffer)
      ((first :: rest).map fun pair => (pair.target, row))
      (after, copyRun (store.descriptor band) layout data
        (scaled window.y row window.height layout.height) row (first :: rest) buffer) := by
  have hmiddle := hserving.of_sameBands hkeeps.bands
  -- the pixel of a pair, as the fetched bytes and as the raster have it
  have hpair (pair : ColumnPair) (hmem : pair ∈ first :: rest) :
      (store.descriptor band).pixel data (pair.source % (store.descriptor band).block.width)
          (scaled window.y row window.height layout.height % (store.descriptor band).block.height) =
        P.pixelAt store band (scaled window.x pair.target window.width layout.width)
          (scaled window.y row window.height layout.height) ∧
      (P.pixelAt store band (scaled window.x pair.target window.width layout.width)
        (scaled window.y row window.height layout.height)).size =
          (store.descriptor band).type.bytes := by
    obtain ⟨hlt, hsource⟩ := source_of_mem_columnRuns hrun hmem
    obtain ⟨hx, hy⟩ := hwindow.scaled_lt hlt hrow
    rw [hsource] at hx ⊢
    have hx' : pair.source < reached.raster.width := by rwa [hkeeps.bands.raster]
    have hy' : scaled window.y row window.height layout.height < reached.raster.height := by
      rwa [hkeeps.bands.raster]
    rw [← blockOf_of_mem_run hrun hmem, ← hkeeps.bands.descriptor] at hfetched
    have hpixel := pixel_of_fetched hmiddle hfetched hx' hy'
    have hsize := size_pixelAt_of_fetched hmiddle hfetched hx' hy'
    rw [hkeeps.bands.descriptor, pixelAt_of_keeps hkeeps hserving hx hy] at hpixel hsize
    exact ⟨hpixel, hsize⟩
  -- what is kept, which blocks were visited, what the buffer holds
  constructor
  · exact hkeeps.trans (hfetched.keeps rfl)
  · apply Visits.of_fetch hfetch
    · simp [Resampling.sources]
    · intro source hsource
      rw [List.flatMap_map, List.mem_flatMap] at hsource
      obtain ⟨pair, hmem, hsource⟩ := hsource
      rw [List.mem_singleton.mp hsource, nearestSource, (source_of_mem_columnRuns hrun hmem).2]
      exact blockOf_of_mem_run hrun hmem _
  · -- the cells of a run are written from one block
    dsimp only
    rw [overwriteEach_map, copyRun]
    apply overwriteEach_congr
    intro pair hmem
    refine ⟨rfl, ?_⟩
    rw [BandDescriptor.convertPixel_offsetOf, (hpair pair hmem).1]
    rfl
  · intro cell hcell pixel hpixel
    obtain ⟨pair, hmem, rfl⟩ := List.mem_map.mp hcell
    rw [List.mem_singleton.mp hpixel]
    exact (hpair pair hmem).2

end Run

variable {run : List ColumnPair}

/-- Reading a run copies its cells. If it fails, the block of its first column cannot be read. -/
private theorem ends_readRun (hserving : P.Serving store band)
    (hwindow : window.Inside store.raster) (hrow : row < layout.height)
    (hrun : run ∈ columnRuns (store.descriptor band).block.width
      (nearestCells window.x window.width layout.width)) (hkeeps : P.Keeps store middle.1) :
    (readRun (κ := κ) band (store.descriptor band) layout
        (scaled window.y row window.height layout.height) row run).Ends middle
      (fun _ => P.Filled store band window layout .nearest middle
        (run.map fun pair => (pair.target, row)))
      (P.Stopped store band window layout .nearest middle
        (run.map fun pair => (pair.target, row))) := by
  obtain ⟨reached, buffer⟩ := middle
  cases run with
  | nil => exact ends_pure.mpr (.nil hkeeps)
  | cons first rest =>
    obtain ⟨hlt, hsource⟩ := source_of_mem_columnRuns hrun List.mem_cons_self
    have hinside := hwindow.scaled_lt hlt hrow
    -- the nearest source of the first cell names the block to fetch
    have hcell : Resampling.nearest.sources window layout (first.target, row) =
        [(first.source, scaled window.y row window.height layout.height)] := by
      rw [Resampling.sources, nearestSource, hsource]
    rw [hsource] at hinside
    have hserves : P.Serves (reached.context ((store.descriptor band).blockOf band first.source
        (scaled window.y row window.height layout.height))) := by
      rw [hkeeps.bands.context]
      exact hserving.serves_blockOf hinside.1 hinside.2
    -- one block is fetched for the whole run
    refine Ends.bind (Ends.onFirst (((CodecModel.ends_fetch hkeeps.sound hserves .read).and
      ends_run).mono ?_ ?_))
    · rintro data after ⟨hfetched, hfetch⟩
      exact Ends.onSecond (ends_modify.mpr
        (filled_of_run hserving hwindow hkeeps hrow hrun hfetched hfetch))
    · -- the fetch fails before any cell of the run is written
      rintro error after ⟨⟨hafter, hfail⟩, hfetch⟩
      exact stopped_of_fetch hkeeps hcell hfetch ⟨hkeeps.trans hafter, hfail⟩

/-- The cells of one row of a buffer. -/
private def rowCells (width row : Nat) : List (Nat × Nat) :=
  (List.range width).map fun column => (column, row)

private theorem cells_eq_flatMap (layout : BufferLayout) :
    layout.cells = (List.range layout.height).flatMap (rowCells layout.width) := by
  simp only [BufferLayout.cells, cells, Nat.zero_add]
  rfl

/-- The cells of the runs are those of the row. -/
private theorem flatMap_columnRuns (blockWidth row : Nat) (window : Window)
    (layout : BufferLayout) :
    (columnRuns blockWidth (nearestCells window.x window.width layout.width)).flatMap
      (fun run => run.map fun pair => (pair.target, row)) = rowCells layout.width row := by
  have htargets := targets_columnRuns blockWidth
    (nearestCells window.x window.width layout.width)
  rw [nearestCells, List.length_map, List.length_range] at htargets
  rw [rowCells, ← htargets, List.map_map, List.map_flatten]
  rfl

/-- Reading the nearest pixels copies all cells of the buffer, row by row, and leaves the raster as
    it is. A failure stops it at the first cell that cannot be read. -/
theorem ends_readNearest (hsound : P.Sound store) (hserving : P.Serving store band)
    (hwindow : window.Inside store.raster) :
    (readNearest (κ := κ) band (store.descriptor band) window layout).Ends (store, buffer)
      (fun _ => P.Filled store band window layout .nearest (store, buffer) layout.cells)
      (P.Stopped store band window layout .nearest (store, buffer) layout.cells) := by
  -- row by row, and in each row run by run
  rw [cells_eq_flatMap]
  apply ends_forM_filled (.refl hsound)
  intro row hrow middle hkeeps
  rw [← flatMap_columnRuns (store.descriptor band).block.width row window]
  apply ends_forM_filled hkeeps
  intro run hrun reached hreached
  exact ends_readRun hserving hwindow (List.mem_range.mp hrow) hrun hreached

/-! ## Averages -/

/-- The cells that an average is taken over lie in the range that is scaled. -/
theorem averagedCells_le {offset i extent count : Nat} (hi : i < count)
    (hextent : 0 < extent) :
    (averagedCells offset i extent count).1 + (averagedCells offset i extent count).2 ≤
      offset + extent := by
  have hstart : scaled offset i extent count < offset + extent := scaled_lt hi hextent
  have hnext : scaled offset (i + 1) extent count ≤ offset + extent := by
    have hle : (i + 1) * extent / count ≤ extent :=
      Nat.div_le_of_le_mul (Nat.mul_le_mul_right extent hi)
    exact Nat.add_le_add_left hle offset
  simp only [averagedCells]
  omega

variable (P) in
/-- The state while pixels are added up. -/
private structure Added (store : BlockStore κ) (band : Nat) (start : BlockStore κ)
    (done : List (Nat × Nat)) (sum : PixelSum) (state : BlockStore κ) : Prop where
  keeps : P.Keeps store state
  visits : Visits (store.descriptor band) band done start state
  sum : sum = ((done.map fun source => P.pixelAt store band source.1 source.2).map
    (Pixel.decode (store.descriptor band).type · 0)).foldl
      (fun sum pixel => sum.add (store.descriptor band).noData pixel) {}
  sizes : ∀ source ∈ done, (P.pixelAt store band source.1 source.2).size =
    (store.descriptor band).type.bytes

/-- Adding a pixel of the raster to the sum of others. If it fails, its block cannot be read. -/
private theorem ends_addPixel {start : BlockStore κ} {done : List (Nat × Nat)} {sum : PixelSum}
    {source : Nat × Nat} (hserving : P.Serving store band)
    (hadded : P.Added store band start done sum reached)
    (hx : source.1 < store.raster.width) (hy : source.2 < store.raster.height) :
    (addPixel (κ := κ) band (store.descriptor band) sum source).Ends reached
      (P.Added store band start (done ++ [source]))
      (fun error after => (P.Keeps store after ∧ P.MayFail) ∧
        (fetch ((store.descriptor band).blockOf band source.1 source.2) .read).run reached =
          (.error error, after)) := by
  obtain ⟨hkeeps, hvisits, rfl, hsizes⟩ := hadded
  have hmiddle := hserving.of_sameBands hkeeps.bands
  have hserves : P.Serves (reached.context
      ((store.descriptor band).blockOf band source.1 source.2)) := by
    rw [hkeeps.bands.context]
    exact hserving.serves_blockOf hx hy
  have hx' : source.1 < reached.raster.width := by rwa [hkeeps.bands.raster]
  have hy' : source.2 < reached.raster.height := by rwa [hkeeps.bands.raster]
  refine Ends.bind (((CodecModel.ends_fetch hkeeps.sound hserves .read).and ends_run).mono ?_ ?_)
  · -- the pixel is read from the bytes that were fetched
    rintro data after ⟨hfetched, hfetch⟩
    have hkeepsAfter := hkeeps.trans (hfetched.keeps rfl)
    rw [← hkeeps.bands.descriptor] at hfetched
    have hpixel := pixel_of_fetched hmiddle hfetched hx' hy'
    have hsize := size_pixelAt_of_fetched hmiddle hfetched hx' hy'
    rw [hkeeps.bands.descriptor, pixelAt_of_keeps hkeeps hserving hx hy] at hpixel hsize
    refine ends_pure.mpr ⟨hkeepsAfter, ?_, ?_, fun other hother => ?_⟩
    · exact hvisits.append (.of_fetch hfetch (List.cons_ne_nil _ _) (by simp))
    · rw [List.map_append, List.map_append, List.foldl_append, List.map_singleton,
        List.map_singleton, List.foldl_cons, List.foldl_nil, ← hpixel]
      exact congrArg _ (decode_slice _ _ _).symm
    · rcases List.mem_append.mp hother with hbefore | hsource
      · exact hsizes other hbefore
      · rw [List.mem_singleton.mp hsource]
        exact hsize
  · -- a fetch that fails ends the sum
    rintro error after ⟨⟨hafter, hfail⟩, hfetch⟩
    exact ⟨⟨hkeeps.trans hafter, hfail⟩, hfetch⟩

/-- Reading one mean. If it fails, the block of one of the pixels cannot be read, and the buffer is
    as before. -/
private theorem ends_readMean (hserving : P.Serving store band)
    (hwindow : window.Inside store.raster) {cell : Nat × Nat} (hcell : cell ∈ layout.cells)
    (hkeeps : P.Keeps store middle.1) :
    (readMean (κ := κ) band (store.descriptor band) window layout cell).Ends middle
      (fun _ => P.Filled store band window layout .average middle [cell])
      (P.Stopped store band window layout .average middle [cell]) := by
  obtain ⟨reached, buffer⟩ := middle
  obtain ⟨column, row⟩ := cell
  obtain ⟨hcolumn, hrow⟩ := BufferLayout.mem_cells.mp hcell
  have hright := Nat.le_trans (averagedCells_le hcolumn hwindow.width_pos) hwindow.right_le
  have hlower := Nat.le_trans (averagedCells_le hrow hwindow.height_pos) hwindow.lower_le
  -- the invariant of the loop: the sources that are done are summed up
  refine Ends.bind (Ends.onFirst ((Ends.foldlM (P.Added store band reached)
    (fun error after => Unread (store.descriptor band) band (averagedBox window layout column row)
      reached error after ∧ P.Keeps store after ∧ P.MayFail)
    ⟨hkeeps, .refl _, rfl, by simp⟩ ?_).mono ?_ ?_))
  · -- every source lies in the window, and so in the raster
    intro done source rest sum middle hsources hadded
    have hsource : source ∈ averagedBox window layout column row := by
      rw [hsources]
      simp
    obtain ⟨⟨-, hx⟩, -, hy⟩ := mem_cells.mp hsource
    apply (ends_addPixel hserving hadded (Nat.lt_of_lt_of_le hx hright)
      (Nat.lt_of_lt_of_le hy hlower)).mono fun _ _ hafter => hafter
    rintro error after ⟨hafter, hfetch⟩
    exact ⟨⟨done, source, rest, middle, hsources, hadded.visits, hfetch⟩, hafter⟩
  · -- the mean goes into the cell only after all its sources were read
    rintro _ after ⟨hafter, hvisits, rfl, hsizes⟩
    refine Ends.onSecond (ends_modify.mpr ⟨hafter, ?_, ?_, ?_⟩)
    · rw [List.flatMap_singleton]
      exact hvisits
    · dsimp only
      rw [PixelSum.foldl_add]
      rfl
    · intro cell hcell pixel hpixel
      rw [List.mem_singleton.mp hcell] at hpixel
      obtain ⟨source, hsource, rfl⟩ := List.mem_map.mp hpixel
      exact hsizes source hsource
  · -- the cell is not written
    rintro error after ⟨hunread, hafter⟩
    exact ⟨[], _, [], reached, rfl, .nil hkeeps, hunread, hafter⟩

/-- Reading means gives each cell of the buffer its own, row by row, and leaves the raster as it is.
    A failure stops it at the first cell that cannot be read. -/
theorem ends_readAverage (hsound : P.Sound store) (hserving : P.Serving store band)
    (hwindow : window.Inside store.raster) :
    (readAverage (κ := κ) band (store.descriptor band) window layout).Ends (store, buffer)
      (fun _ => P.Filled store band window layout .average (store, buffer) layout.cells)
      (P.Stopped store band window layout .average (store, buffer) layout.cells) := by
  rw [← List.flatMap_singleton' layout.cells]
  apply ends_forM_filled (.refl hsound)
  intro cell hcell middle hkeeps
  exact ends_readMean hserving hwindow hcell hkeeps

/-- Reading a window fills all cells of the buffer, or is stopped at the first one that cannot be
    read. -/
theorem ends_readWindow (hsound : P.Sound store) (hserving : P.Serving store band)
    (hwindow : window.Inside store.raster) :
    (readWindow (κ := κ) band window layout resampling).Ends (store, buffer)
      (fun _ => P.Filled store band window layout resampling (store, buffer) layout.cells)
      (P.Stopped store band window layout resampling (store, buffer) layout.cells) := by
  apply Ends.get_bind
  cases resampling with
  | nearest => exact ends_readNearest hsound hserving hwindow
  | average => exact ends_readAverage hsound hserving hwindow

end PixelModel

/-! ## Reading back from the buffer -/

namespace BufferLayout

variable {layout : BufferLayout} {buffer : ByteArray} {piece : Nat × Nat → ByteArray}

/-- The cells of the layout do not overlap. -/
def Separate (layout : BufferLayout) : Prop :=
  layout.cells.Pairwise fun cell other =>
    layout.offset cell.1 cell.2 + layout.type.bytes ≤ layout.offset other.1 other.2 ∨
      layout.offset other.1 other.2 + layout.type.bytes ≤ layout.offset cell.1 cell.2

instance (layout : BufferLayout) : Decidable layout.Separate :=
  inferInstanceAs (Decidable (List.Pairwise _ _))

section Cells

variable {done : List (Nat × Nat)} {cell : Nat × Nat}

/-- Each cell lies inside the buffer. -/
theorem cell_inside (hfits : layout.Fits buffer.size) (hdone : done.Sublist layout.cells)
    (hsizes : ∀ cell ∈ done, (piece cell).size = layout.type.bytes) :
    ∀ cell ∈ done, layout.offset cell.1 cell.2 + (piece cell).size ≤ buffer.size := by
  intro cell hmem
  rw [hsizes cell hmem]
  obtain ⟨hcolumn, hrow⟩ := mem_cells.mp (hdone.subset hmem)
  exact Nat.le_trans (offset_add_le hcolumn hrow) hfits.extent_le

/-- Each cell has its own bytes if the cells do not overlap. -/
theorem slice_overwriteCells (hseparate : layout.Separate) (hfits : layout.Fits buffer.size)
    (hdone : done.Sublist layout.cells)
    (hsizes : ∀ cell ∈ done, (piece cell).size = layout.type.bytes) (hmem : cell ∈ done) :
    (buffer.overwriteEach done (fun cell => layout.offset cell.1 cell.2) piece).slice
      (layout.offset cell.1 cell.2) layout.type.bytes = piece cell := by
  -- cells that do not overlap in the layout do not overlap in what was done
  have hapart : done.Pairwise (Apart (fun cell => layout.offset cell.1 cell.2) piece) := by
    apply List.Pairwise.imp_of_mem _ (List.Pairwise.sublist hdone hseparate)
    intro first second hfirst hsecond hcells
    rw [Apart, hsizes first hfirst, hsizes second hsecond]
    exact hcells
  have hsize := hsizes cell hmem
  rw [slice_overwriteEach_of_mem (cell_inside hfits hdone hsizes) hapart hmem (Nat.le_refl _)
    (by rw [hsize]), Nat.sub_self, ← hsize, slice_zero_size]

/-- The cells that are not written keep their bytes if the cells do not overlap. -/
theorem slice_overwriteCells_of_notMem (hseparate : layout.Separate)
    (hfits : layout.Fits buffer.size) (hdone : done.Sublist layout.cells)
    (hsizes : ∀ cell ∈ done, (piece cell).size = layout.type.bytes) (hmem : cell ∈ layout.cells)
    (hnot : cell ∉ done) :
    (buffer.overwriteEach done (fun cell => layout.offset cell.1 cell.2) piece).slice
      (layout.offset cell.1 cell.2) layout.type.bytes =
        buffer.slice (layout.offset cell.1 cell.2) layout.type.bytes := by
  apply slice_overwriteEach_of_apart (cell_inside hfits hdone hsizes)
  intro other hother
  rw [hsizes other hother]
  have hne : cell ≠ other := fun heq => hnot (heq ▸ hother)
  -- which of two cells comes first in the layout does not matter
  have hsymm : Std.Symm fun cell other : Nat × Nat =>
      layout.offset cell.1 cell.2 + layout.type.bytes ≤ layout.offset other.1 other.2 ∨
        layout.offset other.1 other.2 + layout.type.bytes ≤ layout.offset cell.1 cell.2 :=
    ⟨fun _ _ => Or.symm⟩
  exact hseparate.forall hmem (hdone.subset hother) hne

end Cells

end BufferLayout

/-- After a read, each cell has its pixel if the cells do not overlap. -/
theorem PixelModel.Filled.slice {κ : Type} [Codec κ] {P : PixelModel κ} {store : BlockStore κ}
    {band : Nat} {window : Window} {layout : BufferLayout} {resampling : Resampling}
    {start state : BlockStore κ × ByteArray} {cell : Nat × Nat}
    (h : P.Filled store band window layout resampling start layout.cells state)
    (hseparate : layout.Separate) (hfits : layout.Fits start.2.size) (hmem : cell ∈ layout.cells) :
    state.2.slice (layout.offset cell.1 cell.2) layout.type.bytes =
      P.readPixel store band window layout resampling cell := by
  rw [h.buffer]
  exact BufferLayout.slice_overwriteCells hseparate hfits (List.Sublist.refl _)
    (fun cell hcell => size_readPixel (h.sizes cell hcell)) hmem

end RasterStore
