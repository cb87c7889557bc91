import RasterStore.Proofs.Dataset.ExactBlocks

/-!
# Reads that are interrupted

Reading a window fills the cells of a buffer one after the other, row by row. If a call of the codec
fails, the cells before the failing one have the pixels that a whole read would have given them, and
all other bytes of the buffer are as before: the later cells, the gaps that the strides leave and
whatever follows the last cell. This holds for both ways of resampling, over any codec that stores
blocks exactly.

* `BufferLayout.FilledPrefix`   the first cells of a buffer are filled, and nothing else is
* `PlainRaster.sample`          the pixel that a read gives to a cell
* `read_fills_first_cells`           what any read leaves behind
-/

namespace RasterStore

open ByteArray BlockStore RasterStore.Action
open Tiled (InGrid)

/-! ## The first cells of a buffer -/

namespace BufferLayout

variable {layout : BufferLayout} {buffer : ByteArray} {piece : Nat × Nat → ByteArray} {count : Nat}

/-- The cell with a number, counted row by row. -/
def cell (layout : BufferLayout) (i : Nat) : Nat × Nat :=
  (i % layout.width, i / layout.width)

theorem cell_add {column row : Nat} (hcolumn : column < layout.width) :
    layout.cell (row * layout.width + column) = (column, row) := by
  rw [cell, Nat.mul_comm, Nat.mul_add_mod, Nat.mod_eq_of_lt hcolumn, Nat.mul_add_div (by omega),
    Nat.div_eq_of_lt hcolumn, Nat.add_zero]

/-- The cells are listed by their numbers. -/
theorem cells_eq_map_range (layout : BufferLayout) :
    layout.cells = (List.range (layout.height * layout.width)).map layout.cell := by
  rw [cells, RasterStore.cells]
  simp only [Nat.zero_add]
  -- each row adds a range to those before it
  induction layout.height with
  | zero => simp
  | succ height ih =>
    rw [List.range_succ, List.flatMap_append, ih, Nat.succ_mul, List.range_add, List.map_append,
      List.flatMap_singleton, List.map_map]
    congr 1
    apply List.map_congr_left
    intro column hcolumn
    exact (cell_add (List.mem_range.mp hcolumn)).symm

theorem length_cells (layout : BufferLayout) :
    layout.cells.length = layout.height * layout.width := by
  rw [cells_eq_map_range, List.length_map, List.length_range]

/-- The first cells are those with the lower numbers. -/
theorem mem_take_cells {column row : Nat} (hcolumn : column < layout.width)
    (hrow : row < layout.height) :
    (column, row) ∈ layout.cells.take count ↔ row * layout.width + column < count := by
  -- cells are numbered row by row
  have hnumber : row * layout.width + column < layout.height * layout.width := by
    have hrows : (row + 1) * layout.width ≤ layout.height * layout.width :=
      Nat.mul_le_mul_right _ hrow
    rw [Nat.add_mul] at hrows
    omega
  rw [cells_eq_map_range, ← List.map_take, List.take_range, List.mem_map]
  constructor
  · rintro ⟨i, hi, hcell⟩
    obtain ⟨rfl, rfl⟩ := (Prod.mk.injEq ..).mp hcell
    rw [Nat.div_add_mod']
    exact Nat.lt_of_lt_of_le (List.mem_range.mp hi) (Nat.min_le_left _ _)
  · intro hlt
    exact ⟨_, List.mem_range.mpr (Nat.lt_min.mpr ⟨hlt, hnumber⟩), cell_add hcolumn⟩

/-- The cell behind the first ones has the next number. -/
theorem cell_of_eq_append {first rest : List (Nat × Nat)} {next : Nat × Nat}
    (h : layout.cells = first ++ next :: rest) : layout.cell first.length = next := by
  have hget : layout.cells[first.length]? = some next := by
    rw [h, List.getElem?_append_right (Nat.le_refl _), Nat.sub_self]
    rfl
  rw [cells_eq_map_range, List.getElem?_map, Option.map_eq_some_iff] at hget
  obtain ⟨i, hi, rfl⟩ := hget
  obtain ⟨hlt, rfl⟩ := List.getElem?_eq_some_iff.mp hi
  rw [List.getElem_range]

/-- The first `count` cells of the buffer, counted row by row, have got their pieces. All other
    bytes are as before. -/
structure FilledPrefix (layout : BufferLayout) (piece : Nat × Nat → ByteArray) (count : Nat)
    (buffer filled : ByteArray) : Prop where
  size : filled.size = buffer.size
  cells : ∀ column row, column < layout.width → row < layout.height →
    filled.slice (layout.offset column row) layout.type.bytes =
      if row * layout.width + column < count then piece (column, row)
      else buffer.slice (layout.offset column row) layout.type.bytes
  outside : ∀ i, (∀ column row, column < layout.width → row < layout.height →
      i < layout.offset column row ∨ layout.offset column row + layout.type.bytes ≤ i) →
    filled.byteAt i = buffer.byteAt i

theorem filledPrefix_overwriteEach (hseparate : layout.Separate) (hfits : layout.Fits buffer.size)
    (hsizes : ∀ cell ∈ layout.cells.take count, (piece cell).size = layout.type.bytes) :
    layout.FilledPrefix piece count buffer (buffer.overwriteEach (layout.cells.take count)
      (fun cell => layout.offset cell.1 cell.2) piece) := by
  have hdone : (layout.cells.take count).Sublist layout.cells := List.take_sublist _ _
  have hinside := cell_inside hfits hdone hsizes
  constructor
  · exact size_overwriteEach hinside
  · -- a cell of the buffer is filled if it comes before the `count`-th, and is untouched if not
    intro column row hcolumn hrow
    have hmem : (column, row) ∈ layout.cells.take count ↔ row * layout.width + column < count :=
      mem_take_cells hcolumn hrow
    split
    · next hlt =>
      have hslice := slice_overwriteCells hseparate hfits hdone hsizes (hmem.mpr hlt)
      exact hslice
    · next hnot =>
      have hcell : (column, row) ∈ layout.cells := mem_cells.mpr ⟨hcolumn, hrow⟩
      have hslice := slice_overwriteCells_of_notMem hseparate hfits hdone hsizes hcell
        (mt hmem.mp hnot)
      exact hslice
  · -- a byte of no cell that was filled is untouched
    intro i hi
    apply byteAt_overwriteEach_of_apart hinside
    intro cell hcell
    rw [hsizes cell hcell]
    obtain ⟨hcolumn, hrow⟩ := mem_cells.mp (hdone.subset hcell)
    exact hi cell.1 cell.2 hcolumn hrow

end BufferLayout

/-! ## Reads -/

/-- The pixel that a read of the raster gives to a cell of a buffer: the nearest one of the window
    or the mean of those that belong to the cell, in the type of the buffer. -/
def PlainRaster.sample (plain : PlainRaster) (descriptor : BandDescriptor) (band : Nat)
    (window : Window) (layout : BufferLayout) (resampling : Resampling) (cell : Nat × Nat) :
    ByteArray :=
  match resampling with
  | .nearest =>
    let source := nearestSource window layout cell
    convertPixel descriptor.type layout.type (plain band source.1 source.2) 0
  | .average =>
    let pixels := (averagedBox window layout cell.1 cell.2).map fun source =>
      plain band source.1 source.2
    (descriptor.meanOf pixels).encode layout.type

variable {κ : Type} [Codec κ] [ExactCodec κ]
variable {raster : Size} {bands : List BandDescriptor} {band : Nat}

/-- What a read of a window leaves behind, whatever its outcome. The first cells of the buffer are
    filled, all of them if it succeeds; if it fails, it has fetched the blocks for these cells, and
    a block for the next one cannot be fetched. No block has changed. -/
def FillsPrefix (raster : Size) (bands : List BandDescriptor) (band : Nat)
    (request : TransferRequest) (resampling : Resampling) (before : Dataset κ) (buffer : ByteArray)
    (outcome : Except RasterError Unit) (after : Dataset κ × ByteArray) : Prop :=
  let descriptor := before.descriptor band
  let window := Window.ofRequest request
  let layout := BufferLayout.ofRequest request
  ∃ count,
    layout.FilledPrefix (before.store.pixels.sample descriptor band window layout resampling) count
      buffer after.2 ∧
    (∀ key, InGrid raster bands key → after.1.store.content key = before.store.content key) ∧
    match outcome with
    | .ok _ => count = layout.height * layout.width
    | .error error => count < layout.height * layout.width ∧
      ∃ reached,
        Visits descriptor band ((layout.cells.take count).flatMap
          (resampling.sources window layout ·)) before.store reached ∧
        Unread descriptor band (resampling.sources window layout (layout.cell count)) reached error
          after.1.store

/-- The model of an exact codec gives cells the pixels that its blocks have. -/
theorem readPixel_exactPixels (store : BlockStore κ) (window : Window) (layout : BufferLayout)
    (resampling : Resampling) :
    (exactPixels raster bands).readPixel store band window layout resampling =
      store.pixels.sample (store.descriptor band) band window layout resampling := by
  funext cell
  cases resampling with
  | nearest => rfl
  | average => rfl

namespace ExactDataset

variable {access : Access} {dataset : Dataset κ} {request : TransferRequest}
variable {resampling : Resampling} {buffer : ByteArray} {after : BlockStore κ × ByteArray}

/-- The buffer after some of its first cells were filled. -/
private theorem filledPrefix_of_filled {first rest : List (Nat × Nat)}
    (hseparate : (BufferLayout.ofRequest request).Separate)
    (hfits : (BufferLayout.ofRequest request).Fits buffer.size)
    (hcells : (BufferLayout.ofRequest request).cells = first ++ rest)
    (hfilled : (exactPixels raster bands).Filled dataset.store band (.ofRequest request)
      (.ofRequest request) resampling (dataset.store, buffer) first after) :
    (BufferLayout.ofRequest request).FilledPrefix
      (dataset.store.pixels.sample (dataset.descriptor band) band (.ofRequest request)
        (.ofRequest request) resampling) first.length buffer after.2 := by
  have hfirst : first = (BufferLayout.ofRequest request).cells.take first.length := by
    rw [hcells, List.take_left]
  have hbuffer := hfilled.buffer
  have hsizes := fun cell hcell => PixelModel.size_readPixel (hfilled.sizes cell hcell)
  rw [readPixel_exactPixels] at hbuffer hsizes
  rw [hbuffer]
  -- the cells are the first ones of the buffer, while their number stays that of the list
  rw [hfirst] at hsizes
  nth_rewrite 2 [hfirst]
  exact BufferLayout.filledPrefix_overwriteEach hseparate hfits hsizes

/-- The blocks of the grid are as before if the raster is. -/
private theorem content_of_keeps (h : ExactDataset access raster bands dataset)
    {store : BlockStore κ} (hkeeps : (exactPixels raster bands).Keeps dataset.store store) :
    ∀ key, InGrid raster bands key → store.content key = dataset.store.content key :=
  fun key hkey => hkeeps.logical key (h.blocks.served hkey)

/-- Reading a window fills the first cells of the buffer. -/
theorem ends_readRaw (h : ExactDataset access raster bands dataset) (hband : IsBand bands band)
    (hheld : (bandOf bands band).blockBytes < memoryLimit)
    (hvalid : request.Valid raster buffer.size)
    (hseparate : (BufferLayout.ofRequest request).Separate) :
    (Band.readRaw band request resampling).Ends (dataset, buffer)
      (fun value after => FillsPrefix raster bands band request resampling dataset buffer (.ok value)
        after)
      (fun error after => FillsPrefix raster bands band request resampling dataset buffer
        (.error error) after) := by
  have hfits := hvalid.accepted.fits
  apply (Band.ends_readRaw h.blocks.sound (h.serving hband)).mono
  · -- a read that succeeds fills all cells
    rintro _ _ ⟨-, store, filled, rfl, hfilled⟩
    exact ⟨_, filledPrefix_of_filled hseparate hfits (List.append_nil _).symm hfilled,
      h.content_of_keeps hfilled.keeps, BufferLayout.length_cells _⟩
  · rintro error _ (⟨hrefused, -⟩ | ⟨-, store, filled, rfl, hstopped⟩)
    · -- a valid request is not refused
      have hsize : dataset.size = raster := h.blocks.sameRaster
      rw [← hsize] at hvalid
      exact absurd ⟨hvalid.accepted, h.held hheld⟩ hrefused
    · -- a read that stops has filled the cells before the one it stopped at
      obtain ⟨first, cell, rest, reached, hcells, hfilled, hunread, hkeeps, -⟩ := hstopped
      refine ⟨first.length, filledPrefix_of_filled hseparate hfits hcells hfilled,
        h.content_of_keeps hkeeps, ?_, reached, ?_, ?_⟩
      · rw [← BufferLayout.length_cells, hcells, List.length_append, List.length_cons]
        omega
      · rw [hcells, List.take_left]
        exact hfilled.visits
      · rw [BufferLayout.cell_of_eq_append hcells]
        exact hunread

end ExactDataset

/-- After any calls to a dataset over a codec that stores blocks exactly, a window of a band is read
    into a buffer whose cells do not overlap; its blocks are not too large to be held in memory. The
    cells are filled row by row, each with its pixel of the raster. If the read succeeds, all of
    them are; if it fails, whatever call of the codec failed, those are that come before the first
    cell that needs a block that could not be fetched. No other byte of the buffer changes, and no
    block. -/
theorem read_fills_first_cells [EncodesOnly κ] {codec : κ} {options : OpenOptions}
    {environment : Option String} {dataset : Dataset κ}
    (hnew : Dataset.ofCodec codec raster bands options environment = .ok dataset)
    (calls : List DatasetCall) (hband : IsBand bands band)
    (hheld : (bandOf bands band).blockBytes < memoryLimit) {request : TransferRequest}
    {buffer : ByteArray} (hvalid : request.Valid raster buffer.size)
    (hseparate : (BufferLayout.ofRequest request).Separate) (resampling : Resampling) :
    let before := DatasetCall.performAll calls dataset
    let read := (Band.readRaw band request resampling).run (before, buffer)
    FillsPrefix raster bands band request resampling before buffer read.1 read.2 := by
  intro before read
  exact ((exactDataset_performAll hnew calls).ends_readRaw hband hheld hvalid
    hseparate).outcome _

/-- A request for three pixels of a row, with a gap of one byte between them. -/
def spacedRow : TransferRequest :=
  { x := 0, y := 0, window := ⟨3, 1⟩, buffer := ⟨3, 1⟩, type := .byte, pixelSpace := 2 }

open ScriptedCodec in
/-- The block of the third pixel cannot be decoded. The first two pixels are read, and the third one
    keeps its byte in the buffer, as do the gaps and the last byte. -/
theorem read_fills_first_cells_spaced :
    let read := (Band.readRaw 1 spacedRow .nearest).run (row, ⟨#[1, 2, 3, 4, 5, 6]⟩)
    FillsPrefix ⟨3, 1⟩ [⟨.byte, ⟨1, 1⟩, none⟩] 1 spacedRow .nearest row ⟨#[1, 2, 3, 4, 5, 6]⟩ read.1
        read.2 ∧
      read.1 = .error (.io (some ⟨1, 2, 0⟩) "no such block") ∧
      read.2.2 = ⟨#[10, 2, 11, 4, 5, 6]⟩ := by
  intro read
  have hvalid : spacedRow.Valid ⟨3, 1⟩ 6 :=
    ⟨by decide, by decide, by decide, by decide, by decide, by decide, .inr (by decide), by decide,
      by decide, by decide, by decide⟩
  -- the third block cannot be read, and two pixels were copied before
  refine ⟨?_, by rfl, by decide +kernel⟩
  exact read_fills_first_cells new_row [] (by decide) (by decide) hvalid (by decide) .nearest

end RasterStore
