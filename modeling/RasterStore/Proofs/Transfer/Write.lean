import RasterStore.Proofs.Transfer.Paint

/-!
# Writing windows and filling bands

What the writing transfers do to the raster of a band:

* `ends_writeWindow`   each pixel of the window gets the buffer pixel that belongs to it
* `ends_fillBand`      each pixel gets the value
* `ends_replaceBlock`  each pixel of the block gets its new bytes

All of them paint blocks, so a failing one leaves a prefix of its blocks painted.
-/

namespace RasterStore

open ByteArray BlockStore RasterStore.Action

/-! ## Windows and buffers -/

/-- The pixel lies in the window. -/
def Window.Contains (window : Window) (x y : Nat) : Prop :=
  (window.x ≤ x ∧ x < window.x + window.width) ∧ (window.y ≤ y ∧ y < window.y + window.height)

instance (window : Window) (x y : Nat) : Decidable (window.Contains x y) :=
  inferInstanceAs (Decidable (_ ∧ _))

/-- The window has pixels and lies inside the raster. -/
structure Window.Inside (window : Window) (raster : Size) : Prop where
  width_pos : 0 < window.width
  height_pos : 0 < window.height
  right_le : window.x + window.width ≤ raster.width
  lower_le : window.y + window.height ≤ raster.height

/-- The pixels of the window lie in the raster. -/
theorem Window.Inside.contains_lt {window : Window} {raster : Size} {x y : Nat}
    (h : window.Inside raster) (hcontains : window.Contains x y) :
    x < raster.width ∧ y < raster.height := by
  obtain ⟨⟨-, hx⟩, -, hy⟩ := hcontains
  exact ⟨Nat.lt_of_lt_of_le hx h.right_le, Nat.lt_of_lt_of_le hy h.lower_le⟩

/-- The layout has pixels, and a buffer of `length` bytes holds them. -/
structure BufferLayout.Fits (layout : BufferLayout) (length : Nat) : Prop where
  width_pos : 0 < layout.width
  height_pos : 0 < layout.height
  extent_le : layout.extent ≤ length

/-- A scaled index stays inside its range. -/
theorem scaled_lt {offset i extent count : Nat} (hi : i < count) (hextent : 0 < extent) :
    scaled offset i extent count < offset + extent := by
  have hlt : i * extent < extent * count := by
    rw [Nat.mul_comm extent]
    exact Nat.mul_lt_mul_of_pos_right hi hextent
  have := (Nat.div_lt_iff_lt_mul (by omega : 0 < count)).mpr hlt
  rw [scaled]
  omega

/-- The pixel of the window that belongs to a cell of a buffer lies in the raster. -/
theorem Window.Inside.scaled_lt {window : Window} {raster : Size} {column row width height : Nat}
    (h : window.Inside raster) (hcolumn : column < width) (hrow : row < height) :
    scaled window.x column window.width width < raster.width ∧
      scaled window.y row window.height height < raster.height :=
  ⟨Nat.lt_of_lt_of_le (RasterStore.scaled_lt hcolumn h.width_pos) h.right_le,
    Nat.lt_of_lt_of_le (RasterStore.scaled_lt hrow h.height_pos) h.lower_le⟩

/-- The pixels of a layout end before its extent. -/
theorem BufferLayout.offset_add_le {layout : BufferLayout} {column row : Nat}
    (hcolumn : column < layout.width) (hrow : row < layout.height) :
    layout.offset column row + layout.type.bytes ≤ layout.extent := by
  have hrows : row * layout.lineSpace ≤ (layout.height - 1) * layout.lineSpace :=
    Nat.mul_le_mul_right _ (by omega)
  have hcolumns : column * layout.pixelSpace ≤ (layout.width - 1) * layout.pixelSpace :=
    Nat.mul_le_mul_right _ (by omega)
  simp only [extent, offset]
  omega

variable {descriptor : BandDescriptor} {raster : Size} {window : Window} {layout : BufferLayout}
variable {buffer data : ByteArray} {x y : Nat} {block : Nat × Nat}

/-- The buffer pixel that belongs to a pixel of the window has the size of the band's pixels. -/
theorem size_bufferPixel (hlayout : layout.Fits buffer.size) (hcontains : window.Contains x y) :
    (bufferPixel descriptor window layout buffer (x, y)).size = descriptor.type.bytes := by
  obtain ⟨⟨hleft, hright⟩, htop, hbottom⟩ := hcontains
  have hcolumn : scaled 0 (x - window.x) layout.width window.width < 0 + layout.width :=
    scaled_lt (by omega) hlayout.width_pos
  have hrow : scaled 0 (y - window.y) layout.height window.height < 0 + layout.height :=
    scaled_lt (by omega) hlayout.height_pos
  rw [Nat.zero_add] at hcolumn hrow
  apply size_convertPixel
  exact Nat.le_trans (BufferLayout.offset_add_le hcolumn hrow) hlayout.extent_le

/-! ## Pixels of one block -/

theorem div_eq_iff_between {n d q : Nat} (hd : 0 < d) :
    n / d = q ↔ q * d ≤ n ∧ n < q * d + d := by
  rw [← Nat.le_div_iff_mul_le hd]
  have hlt := Nat.div_lt_iff_lt_mul (x := n) (y := q + 1) hd
  rw [Nat.add_mul, Nat.one_mul] at hlt
  omega

/-- Different pixels of a block are at different places. -/
theorem BandDescriptor.offsetOf_apart {x' y' : Nat} (hblocked : descriptor.Blocked)
    (hblock : (x / descriptor.block.width, y / descriptor.block.height) =
      (x' / descriptor.block.width, y' / descriptor.block.height)) (hne : (x, y) ≠ (x', y')) :
    descriptor.offsetOf x y + descriptor.type.bytes ≤ descriptor.offsetOf x' y' ∨
      descriptor.offsetOf x' y' + descriptor.type.bytes ≤ descriptor.offsetOf x y := by
  apply packed_apart
  -- pixels of one block have different numbers in it
  intro heq
  obtain ⟨hcolumn, hrow⟩ := BandDescriptor.pixelIndex_inj (Nat.mod_lt x hblocked.1)
    (Nat.mod_lt x' hblocked.1) heq
  obtain ⟨hbx, hby⟩ := Prod.mk.inj hblock
  apply hne
  rw [← Nat.div_add_mod' x descriptor.block.width, ← Nat.div_add_mod' y descriptor.block.height,
    hcolumn, hrow, hbx, hby, Nat.div_add_mod', Nat.div_add_mod']

theorem BandDescriptor.offsetOf_inside (hblocked : descriptor.Blocked) (x y : Nat) :
    descriptor.offsetOf x y + descriptor.type.bytes ≤ descriptor.blockBytes :=
  BandDescriptor.pixel_inside (Nat.mod_lt x hblocked.1) (Nat.mod_lt y hblocked.2)

/-- The cells of a rectangle are listed row by row. -/
theorem pairwise_cells (x y : Nat) (size : Size) :
    (cells x y size).Pairwise fun a b => a.2 < b.2 ∨ a.2 = b.2 ∧ a.1 < b.1 := by
  unfold cells
  rw [List.pairwise_flatMap]
  constructor
  · -- along a row
    intro row _
    rw [List.pairwise_map]
    exact List.pairwise_lt_range.imp fun hlt => .inr ⟨rfl, Nat.add_lt_add_left hlt x⟩
  · -- from row to row
    apply List.pairwise_lt_range.imp
    intro first second hlt cell hcell other hother
    obtain ⟨_, -, rfl⟩ := List.mem_map.mp hcell
    obtain ⟨_, -, rfl⟩ := List.mem_map.mp hother
    exact .inl (Nat.add_lt_add_left hlt y)

/-- The cells of a rectangle are listed once. -/
theorem nodup_cells (x y : Nat) (size : Size) : (cells x y size).Nodup := by
  apply (pairwise_cells x y size).imp
  rintro cell _ hbefore rfl
  omega

/-- The columns that a window shares with a block. -/
private theorem shared_iff {first count start width limit x : Nat} (h : start + width ≤ limit) :
    (max first start ≤ x ∧ x < max first start +
        (min (first + min count (limit - first)) (start + width) - max first start)) ↔
      (start ≤ x ∧ x < start + width) ∧ first ≤ x ∧ x < first + count := by
  omega

/-- The cells that a window shares with a block. -/
theorem mem_sharedCells (hblocked : descriptor.Blocked) (hwindow : window.Inside raster) :
    (x, y) ∈ sharedCells descriptor raster window block.1 block.2 ↔
      window.Contains x y ∧
        (x / descriptor.block.width, y / descriptor.block.height) = block := by
  rw [sharedCells, mem_cells]
  simp only [BandDescriptor.validSize, shared_iff hwindow.right_le, shared_iff hwindow.lower_le]
  rw [← div_eq_iff_between hblocked.1, ← div_eq_iff_between hblocked.2, Prod.ext_iff]
  exact and_and_and_comm

variable (descriptor window layout buffer) in
/-- The new pixels of a window. -/
def windowPixels (x y : Nat) : Option ByteArray :=
  if window.Contains x y then some (bufferPixel descriptor window layout buffer (x, y)) else none

/-- The pixels of a block after a window was pasted into it. -/
theorem pixel_pasteWindow (hblocked : descriptor.Blocked) (hwindow : window.Inside raster)
    (hlayout : layout.Fits buffer.size) (hsize : data.size = descriptor.blockBytes)
    (hblock : (x / descriptor.block.width, y / descriptor.block.height) = block) :
    descriptor.pixel (pasteWindow descriptor raster window layout buffer block.1 block.2 data)
        (x % descriptor.block.width) (y % descriptor.block.height) =
      if window.Contains x y then bufferPixel descriptor window layout buffer (x, y)
      else descriptor.pixel data (x % descriptor.block.width) (y % descriptor.block.height) := by
  -- every cell that is pasted is one pixel long
  have hpiece {cell : Nat × Nat}
      (hcell : cell ∈ sharedCells descriptor raster window block.1 block.2) :
      (bufferPixel descriptor window layout buffer cell).size = descriptor.type.bytes :=
    size_bufferPixel hlayout ((mem_sharedCells hblocked hwindow).mp hcell).1
  have hinside : ∀ cell ∈ sharedCells descriptor raster window block.1 block.2,
      descriptor.offsetOf cell.1 cell.2 + (bufferPixel descriptor window layout buffer cell).size ≤
        data.size := by
    intro cell hcell
    rw [hpiece hcell, hsize]
    exact BandDescriptor.offsetOf_inside hblocked _ _
  show (pasteWindow descriptor raster window layout buffer block.1 block.2 data).slice
    (descriptor.offsetOf x y) descriptor.type.bytes = _
  rw [pasteWindow]
  split
  · next hcontains =>
    -- the pixel is one of the cells that are pasted
    have hmem : (x, y) ∈ sharedCells descriptor raster window block.1 block.2 :=
      (mem_sharedCells hblocked hwindow).mpr ⟨hcontains, hblock⟩
    have hapart : (sharedCells descriptor raster window block.1 block.2).Pairwise
        (Apart (fun cell => descriptor.offsetOf cell.1 cell.2)
          (bufferPixel descriptor window layout buffer)) := by
      apply List.Pairwise.imp_of_mem _ (nodup_cells _ _ _)
      intro first second hfirst hsecond hne
      simp only [Apart, hpiece hfirst, hpiece hsecond]
      have hblocks := ((mem_sharedCells hblocked hwindow).mp hfirst).2.trans
        ((mem_sharedCells hblocked hwindow).mp hsecond).2.symm
      exact BandDescriptor.offsetOf_apart hblocked hblocks hne
    have hown := hpiece hmem
    rw [slice_overwriteEach_of_mem hinside hapart hmem (Nat.le_refl _) (by omega), Nat.sub_self,
      ← hown, slice_zero_size]
  · next hcontains =>
    -- no cell that is pasted is this pixel
    apply slice_overwriteEach_of_apart hinside
    intro cell hcell
    obtain ⟨hcellContains, hcellBlock⟩ := (mem_sharedCells hblocked hwindow).mp hcell
    rw [hpiece hcell]
    apply BandDescriptor.offsetOf_apart hblocked (hblock.trans hcellBlock.symm)
    intro heq
    obtain ⟨hx, hy⟩ := Prod.mk.inj heq
    rw [hx, hy] at hcontains
    exact hcontains hcellContains

/-- A covered block has all of its pixels in the window. -/
theorem contains_of_covers {column row : Nat} (hblocked : descriptor.Blocked)
    (hcovers : covers descriptor raster window column row = true) (hx : x < raster.width)
    (hy : y < raster.height)
    (hblock : (x / descriptor.block.width, y / descriptor.block.height) = (column, row)) :
    window.Contains x y := by
  simp only [covers, Bool.and_eq_true, decide_eq_true_eq] at hcovers
  simp only [BandDescriptor.validSize] at hcovers
  obtain ⟨hcolumn, hrow⟩ := Prod.mk.inj hblock
  -- the block lies in the window, and the pixel in the block
  have hcolumns := (div_eq_iff_between hblocked.1).mp hcolumn
  have hrows := (div_eq_iff_between hblocked.2).mp hrow
  constructor
  · omega
  · omega

/-- A block of the raster is covered exactly if all pixels that it has there lie in the window, also
    where it reaches over the edge. -/
theorem covers_iff {column row : Nat} (hblocked : descriptor.Blocked)
    (hleft : column * descriptor.block.width < raster.width)
    (htop : row * descriptor.block.height < raster.height) :
    covers descriptor raster window column row = true ↔
      ∀ x y, x < raster.width → y < raster.height →
        (x / descriptor.block.width, y / descriptor.block.height) = (column, row) →
        window.Contains x y := by
  constructor
  · exact fun hcovers x y hx hy hblock => contains_of_covers hblocked hcovers hx hy hblock
  · intro hall
    have hwidth := hblocked.1
    have hheight := hblocked.2
    -- its first and its last pixel are enough
    obtain ⟨⟨hfirstLeft, -⟩, hfirstTop, -⟩ := hall (column * descriptor.block.width)
      (row * descriptor.block.height) hleft htop
      (Prod.ext (Nat.mul_div_cancel column hwidth) (Nat.mul_div_cancel row hheight))
    obtain ⟨⟨-, hlastRight⟩, -, hlastBottom⟩ := hall
      (column * descriptor.block.width + (descriptor.validSize raster column row).width - 1)
      (row * descriptor.block.height + (descriptor.validSize raster column row).height - 1)
      (by simp only [BandDescriptor.validSize]; omega)
      (by simp only [BandDescriptor.validSize]; omega)
      (Prod.ext ((div_eq_iff_between hwidth).mpr (by simp only [BandDescriptor.validSize]; omega))
        ((div_eq_iff_between hheight).mpr (by simp only [BandDescriptor.validSize]; omega)))
    simp only [covers, Bool.and_eq_true, decide_eq_true_eq]
    omega

/-- Pasting a window into a block paints the pixels of the window. -/
theorem paints_pasteWindow (hblocked : descriptor.Blocked) (hwindow : window.Inside raster)
    (hlayout : layout.Fits buffer.size) (block : Nat × Nat) :
    Paints descriptor raster (windowPixels descriptor window layout buffer) block
      (if covers descriptor raster window block.1 block.2 then .overwrite else .update)
      (pasteWindow descriptor raster window layout buffer block.1 block.2) := by
  obtain ⟨column, row⟩ := block
  refine ⟨?_, fun data hsize => ?_, fun data x y hsize _ _ hblock => ?_,
    fun huse x y hx hy hblock => ?_⟩
  · -- what the callers of `Paints` ask for: the use, the size, the pixels, and that nothing old is
    -- left
    split <;> rfl
  · apply size_overwriteEach
    intro cell hcell
    have hcontains := ((mem_sharedCells hblocked hwindow).mp hcell).1
    rw [size_bufferPixel hlayout hcontains, hsize]
    exact BandDescriptor.offsetOf_inside hblocked _ _
  · -- a pixel of the window is new, any other is the old one
    rw [pixel_pasteWindow hblocked hwindow hlayout hsize hblock, windowPixels]
    split
    · rfl
    · rfl
  · -- an overwritten block lies in the window as a whole
    have hcovers : covers descriptor raster window column row = true := by
      split at huse
      · assumption
      · simp at huse
    have hcontains := contains_of_covers hblocked hcovers hx hy hblock
    rw [windowPixels, if_pos hcontains]
    rfl

/-! ## The blocks of a window -/

/-- A part of a line that touches a span of it has a point in the span. -/
private theorem exists_in_part {first count part i : Nat} (hpart : 0 < part) (hcount : 0 < count)
    (hfirst : first / part ≤ i) (hlast : i ≤ (first + count - 1) / part) :
    ∃ x, (first ≤ x ∧ x < first + count) ∧ x / part = i := by
  rw [Nat.le_div_iff_mul_le hpart] at hlast
  have hnext : first < i * part + part := by
    have := Nat.lt_div_mul_add hpart (a := first)
    have := Nat.mul_le_mul_right part hfirst
    omega
  refine ⟨max first (i * part), by omega, (div_eq_iff_between hpart).mpr ?_⟩
  omega

/-- The blocks that a window touches hold pixels of the window. -/
theorem contains_of_touched (hblocked : descriptor.Blocked) (hwindow : window.Inside raster)
    (hmem : block ∈ touchedBlocks descriptor window) :
    ∃ x y, window.Contains x y ∧
      (x / descriptor.block.width, y / descriptor.block.height) = block := by
  obtain ⟨⟨hcolumn, hcolumn'⟩, hrow, hrow'⟩ := mem_cells.mp hmem
  simp only at hcolumn' hrow'
  obtain ⟨x, hx, hxblock⟩ := exists_in_part hblocked.1 hwindow.width_pos hcolumn (by omega)
  obtain ⟨y, hy, hyblock⟩ := exists_in_part hblocked.2 hwindow.height_pos hrow (by omega)
  exact ⟨x, y, ⟨hx, hy⟩, Prod.ext hxblock hyblock⟩

/-- The blocks that a window touches lie in the raster. -/
theorem inside_of_touched (hblocked : descriptor.Blocked) (hwindow : window.Inside raster)
    (hmem : block ∈ touchedBlocks descriptor window) :
    block.1 * descriptor.block.width < raster.width ∧
      block.2 * descriptor.block.height < raster.height := by
  obtain ⟨x, y, ⟨⟨-, hx⟩, -, hy⟩, rfl⟩ := contains_of_touched hblocked hwindow hmem
  have hright := hwindow.right_le
  have hlower := hwindow.lower_le
  -- the corner of a block comes before the pixels in it
  have hcolumn := Nat.div_mul_le_self x descriptor.block.width
  have hrow := Nat.div_mul_le_self y descriptor.block.height
  constructor
  · simp only
    omega
  · simp only
    omega

/-- A window touches the blocks of its pixels. -/
theorem touched_of_contains (hcontains : window.Contains x y) :
    (x / descriptor.block.width, y / descriptor.block.height) ∈ touchedBlocks descriptor window := by
  obtain ⟨⟨hleft, hright⟩, htop, hbottom⟩ := hcontains
  -- the block of a pixel lies between those of the window's corners
  have hfirstColumn := Nat.div_le_div_right (c := descriptor.block.width) hleft
  have hlastColumn := Nat.div_le_div_right (c := descriptor.block.width)
    (show x ≤ window.x + window.width - 1 by omega)
  have hfirstRow := Nat.div_le_div_right (c := descriptor.block.height) htop
  have hlastRow := Nat.div_le_div_right (c := descriptor.block.height)
    (show y ≤ window.y + window.height - 1 by omega)
  rw [touchedBlocks, mem_cells]
  simp only
  omega

/-- The first pixel of a part lies in the whole if the part does. -/
theorem lt_partsCovering_iff {whole part i : Nat} (hpart : 0 < part) :
    i < partsCovering whole part ↔ i * part < whole := by
  rw [partsCovering, ← Nat.add_one_le_iff, Nat.le_div_iff_mul_le hpart, Nat.add_mul, Nat.one_mul]
  omega

namespace PixelModel

variable {κ : Type} [Codec κ] {P : PixelModel κ} {store : BlockStore κ} {band : Nat}

/-- Writing a window paints the blocks that it touches, one after the other. -/
theorem ends_paintWindow (hsound : P.Sound store) (hserving : P.Serving store band)
    (hwindow : window.Inside store.raster) (hlayout : layout.Fits buffer.size) :
    (writeWindow (κ := κ) band window layout buffer).Ends store
      (fun _ after => P.Painted store band
        (windowPixels (store.descriptor band) window layout buffer)
        (touchedBlocks (store.descriptor band) window) after)
      (P.Halted store band (windowPixels (store.descriptor band) window layout buffer)
        (touchedBlocks (store.descriptor band) window)) := by
  have hblocked := hserving.blocked
  refine Ends.get_bind (ends_paint (windowPixels (store.descriptor band) window layout buffer)
    (fun block => if covers (store.descriptor band) store.raster window block.1 block.2
      then .overwrite else .update)
    (fun block => pasteWindow (store.descriptor band) store.raster window layout buffer
      block.1 block.2) hsound hserving (fun _ hmem => inside_of_touched hblocked hwindow hmem)
    (fun block _ => paints_pasteWindow hblocked hwindow hlayout block) ?_)
  -- `writeWindow` reads raster and descriptor anew for each block, and they are those of before
  intro block _ reached hbands good bad hchange
  refine Ends.get_bind ?_
  rw [hbands.descriptor, hbands.raster]
  exact hchange

/-- Writing a window draws its pixels. -/
theorem ends_writeWindow (hsound : P.Sound store) (hserving : P.Serving store band)
    (hwindow : window.Inside store.raster) (hlayout : layout.Fits buffer.size) :
    (writeWindow (κ := κ) band window layout buffer).Ends store
      (fun _ after =>
        P.Drawn store band (windowPixels (store.descriptor band) window layout buffer) after)
      (P.Halted store band (windowPixels (store.descriptor band) window layout buffer)
        (touchedBlocks (store.descriptor band) window)) := by
  apply (ends_paintWindow hsound hserving hwindow hlayout).imp
  -- the blocks that are painted are those of the pixels that are drawn
  intro _ after hpainted
  refine hpainted.drawn (fun x y _ _ hnew => ?_) fun block hmem => ?_
  · apply touched_of_contains
    simpa [windowPixels] using hnew
  · obtain ⟨x, y, hcontains, hblock⟩ := contains_of_touched hserving.blocked hwindow hmem
    refine ⟨x, y, hwindow.contains_lt hcontains, hblock, ?_⟩
    rw [windowPixels, if_pos hcontains]
    rfl

/-- The blocks of the grid lie in the raster. -/
private theorem inside_of_grid (hblocked : descriptor.Blocked)
    (hmem : block ∈ cells 0 0 (descriptor.grid raster)) :
    block.1 * descriptor.block.width < raster.width ∧
      block.2 * descriptor.block.height < raster.height := by
  obtain ⟨⟨-, hcolumn⟩, -, hrow⟩ := mem_cells.mp hmem
  rw [Nat.zero_add] at hcolumn hrow
  exact ⟨(lt_partsCovering_iff hblocked.1).mp hcolumn, (lt_partsCovering_iff hblocked.2).mp hrow⟩

/-- Filling a band paints the blocks of its grid, one after the other. -/
theorem ends_paintBand (hsound : P.Sound store) (hserving : P.Serving store band)
    (value : Binary64) :
    (fillBand (κ := κ) band value).Ends store
      (fun _ after => P.Painted store band
        (fun _ _ => some (pixelBytes (store.descriptor band).type value))
        (cells 0 0 ((store.descriptor band).grid store.raster)) after)
      (P.Halted store band (fun _ _ => some (pixelBytes (store.descriptor band).type value))
        (cells 0 0 ((store.descriptor band).grid store.raster))) := by
  have hblocked := hserving.blocked
  refine Ends.get_bind (ends_paint
    (fun _ _ => some (pixelBytes (store.descriptor band).type value)) (fun _ => .overwrite)
    (fun _ => fillPixels (store.descriptor band).type value) hsound hserving
    (fun _ hmem => inside_of_grid hblocked hmem) ?_ ?_)
  · -- each block is overwritten with the value
    intro block _
    refine ⟨rfl, fun data _ => size_fillPixels _ _ _, fun data x y hsize _ _ _ => ?_,
      fun _ _ _ _ _ _ => rfl⟩
    exact BandDescriptor.pixel_fillPixels value hsize (Nat.mod_lt x hblocked.1)
      (Nat.mod_lt y hblocked.2)
  · exact fun _ _ _ _ _ _ hchange => hchange

/-- Filling a band draws the value in all of its pixels. -/
theorem ends_fillBand (hsound : P.Sound store) (hserving : P.Serving store band)
    (value : Binary64) :
    (fillBand (κ := κ) band value).Ends store
      (fun _ after => P.Drawn store band
        (fun _ _ => some (pixelBytes (store.descriptor band).type value)) after)
      (P.Halted store band (fun _ _ => some (pixelBytes (store.descriptor band).type value))
        (cells 0 0 ((store.descriptor band).grid store.raster))) := by
  have hblocked := hserving.blocked
  apply (ends_paintBand hsound hserving value).imp
  -- every block is painted, and every pixel lies in one
  intro _ after hpainted
  refine hpainted.drawn (fun x y hx hy _ => ?_) fun block hmem =>
    ⟨block.1 * (store.descriptor band).block.width, block.2 * (store.descriptor band).block.height,
      inside_of_grid hblocked hmem,
      Prod.ext (Nat.mul_div_cancel _ hblocked.1) (Nat.mul_div_cancel _ hblocked.2), rfl⟩
  -- the pixel lies in a block of the grid
  have hcolumn : x / (store.descriptor band).block.width <
      partsCovering store.raster.width (store.descriptor band).block.width :=
    (lt_partsCovering_iff hblocked.1).mpr (Nat.lt_of_le_of_lt (Nat.div_mul_le_self _ _) hx)
  have hrow : y / (store.descriptor band).block.height <
      partsCovering store.raster.height (store.descriptor band).block.height :=
    (lt_partsCovering_iff hblocked.2).mpr (Nat.lt_of_le_of_lt (Nat.div_mul_le_self _ _) hy)
  rw [mem_cells]
  simp only [Nat.zero_add]
  exact ⟨⟨Nat.zero_le _, hcolumn⟩, Nat.zero_le _, hrow⟩

/-- The new pixels of a block that is replaced. -/
def blockPixels (descriptor : BandDescriptor) (block : Nat × Nat) (data : ByteArray)
    (x y : Nat) : Option ByteArray :=
  if (x / descriptor.block.width, y / descriptor.block.height) = block then
    some (descriptor.pixel data (x % descriptor.block.width) (y % descriptor.block.height))
  else none

theorem isSome_blockPixels {descriptor : BandDescriptor} {column row x y : Nat} {data : ByteArray}
    (band : Nat) : (blockPixels descriptor (column, row) data x y).isSome = true ↔
      descriptor.blockOf band x y = ⟨band, column, row⟩ := by
  simp [blockPixels, BandDescriptor.blockOf]

/-- Replacing a block draws the pixels of the new one. -/
theorem ends_replaceBlock {column row : Nat} (hsound : P.Sound store)
    (hserving : P.Serving store band)
    (hinside : column * (store.descriptor band).block.width < store.raster.width ∧
      row * (store.descriptor band).block.height < store.raster.height)
    (hsize : data.size = (store.descriptor band).blockBytes) :
    (change (κ := κ) ⟨band, column, row⟩ .overwrite fun _ => data).Ends store
      (fun _ after =>
        P.Drawn store band (blockPixels (store.descriptor band) (column, row) data) after)
      (fun _ after =>
        P.Painted store band (blockPixels (store.descriptor band) (column, row) data) [] after ∧
          P.MayFail) := by
  have hpaints : Paints (store.descriptor band) store.raster
      (blockPixels (store.descriptor band) (column, row) data) (column, row) .overwrite
      fun _ => data := by
    -- the new bytes do not depend on the old ones
    refine ⟨rfl, fun old hold => by rw [hsize, hold], fun old x y _ _ _ hblock => ?_,
      fun _ x y _ _ hblock => ?_⟩
    · rw [blockPixels, if_pos hblock]
      rfl
    · rw [blockPixels, if_pos hblock]
      rfl
  refine (ends_paintBlock (.nil hsound) hserving hinside hpaints).mono ?_ ?_
  · intro _ after hpainted
    refine hpainted.drawn (fun x y _ _ hnew => ?_) fun block hmem => ?_
    · have hblock : (x / (store.descriptor band).block.width,
          y / (store.descriptor band).block.height) = (column, row) := by
        simpa [blockPixels] using hnew
      rw [hblock]
      exact List.mem_cons_self
    · -- the first pixel of the block is one of them
      rw [List.mem_singleton.mp hmem]
      have hfirst : (column * (store.descriptor band).block.width /
            (store.descriptor band).block.width,
          row * (store.descriptor band).block.height / (store.descriptor band).block.height) =
          (column, row) :=
        Prod.ext (Nat.mul_div_cancel _ hserving.blocked.1) (Nat.mul_div_cancel _ hserving.blocked.2)
      refine ⟨_, _, hinside, hfirst, ?_⟩
      rw [blockPixels, if_pos hfirst]
      rfl
  · exact fun _ _ hfailed => hfailed.2

end PixelModel

end RasterStore
