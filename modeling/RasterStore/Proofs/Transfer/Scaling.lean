import Mathlib.Logic.ExistsUnique
import RasterStore.Proofs.Transfer.Words

/-!
# Scaled indices

A transfer between a window and a buffer of another size scales indices: cell `i` of `count` belongs
to the cell `offset + i * extent / count` of a range, rounded down. From one `i` to the next this
goes up by at least one cell if there are no more indices than cells, and by at most one if there
are no fewer. The first makes the spans of an average follow each other without gaps, the second
lets no cell be left out.

* `scaled_lt_succ`, `scaled_succ_le`   the steps from an index to the next one
* `exists_scaled_eq`                   every cell up to the last scaled one belongs to an index
* `flatMap_spanCells`                  the spans, in order, are the range
* `Word.toNat_scaled`                  scaling in words, with a product of 128 bits
* `scaling_exact_and_covering`         all of it, for ranges and for the pixels of windows
-/

namespace RasterStore

variable {offset i j n extent count cell x y : Nat}

/-! ## Steps -/

/-- The first index belongs to the start of the range. -/
@[simp] theorem scaled_zero : scaled offset 0 extent count = offset := by
  simp [scaled]

/-- The index behind the last one belongs to the end of the range. -/
theorem scaled_count (hcount : 0 < count) : scaled offset count extent count = offset + extent := by
  rw [scaled, Nat.mul_div_cancel_left _ hcount]

/-- Later indices never belong to earlier cells. -/
theorem scaled_mono (h : i ≤ j) : scaled offset i extent count ≤ scaled offset j extent count :=
  Nat.add_le_add_left (Nat.div_le_div_right (Nat.mul_le_mul_right extent h)) offset

/-- Indices are in the order of their cells. -/
theorem index_le (hi : scaled offset i extent count ≤ cell)
    (hj : cell < scaled offset (j + 1) extent count) : i ≤ j := by
  by_contra hlt
  have hmono : scaled offset (j + 1) extent count ≤ scaled offset i extent count :=
    scaled_mono (by omega)
  omega

/-- With no more indices than cells, each index goes on by at least one cell. -/
theorem scaled_lt_succ (hcount : 0 < count) (hle : count ≤ extent) :
    scaled offset i extent count < scaled offset (i + 1) extent count := by
  have hstep : (i * extent + count) / count ≤ (i + 1) * extent / count := by
    apply Nat.div_le_div_right
    rw [Nat.succ_mul]
    omega
  rw [Nat.add_div_right _ hcount] at hstep
  simp only [scaled]
  omega

/-- With no fewer indices than cells, each index goes on by at most one cell. -/
theorem scaled_succ_le (hcount : 0 < count) (hle : extent ≤ count) :
    scaled offset (i + 1) extent count ≤ scaled offset i extent count + 1 := by
  have hstep : (i + 1) * extent / count ≤ (i * extent + count) / count := by
    apply Nat.div_le_div_right
    rw [Nat.succ_mul]
    omega
  rw [Nat.add_div_right _ hcount] at hstep
  simp only [scaled]
  omega

/-! ## Nearest cells -/

/-- With no more indices than cells, different indices belong to different cells. -/
theorem scaled_strictMono (hcount : 0 < count) (hle : count ≤ extent) (h : i < j) :
    scaled offset i extent count < scaled offset j extent count :=
  Nat.lt_of_lt_of_le (scaled_lt_succ hcount hle) (scaled_mono h)

/-- Steps of at most one cell pass no cell. -/
theorem exists_scaled_eq (hcount : 0 < count) (hle : extent ≤ count) (hoffset : offset ≤ cell)
    (hcell : cell ≤ scaled offset n extent count) : ∃ i ≤ n, scaled offset i extent count = cell := by
  induction n with
  | zero =>
    rw [scaled_zero] at hcell
    exact ⟨0, Nat.le_refl 0, by rw [scaled_zero]; omega⟩
  | succ n ih =>
    -- the last step goes to the cell, or an earlier one has been there
    cases Nat.lt_or_ge (scaled offset n extent count) cell with
    | inl hlt =>
      have hstep : scaled offset (n + 1) extent count ≤ scaled offset n extent count + 1 :=
        scaled_succ_le hcount hle
      exact ⟨n + 1, Nat.le_refl _, by omega⟩
    | inr hge =>
      obtain ⟨i, hi, hscaled⟩ := ih hge
      exact ⟨i, Nat.le_succ_of_le hi, hscaled⟩

/-- The nearest cells are those of the indices. -/
theorem mem_nearestCells :
    cell ∈ nearestCells offset extent count ↔ ∃ i < count, scaled offset i extent count = cell := by
  simp [nearestCells]

/-- The nearest cells do not go back. -/
theorem pairwise_nearestCells (offset extent count : Nat) :
    (nearestCells offset extent count).Pairwise (· ≤ ·) := by
  rw [nearestCells, List.pairwise_map]
  exact List.pairwise_le_range.imp scaled_mono

/-- With no more indices than cells, the nearest cells ascend strictly. -/
theorem pairwise_lt_nearestCells (hcount : 0 < count) (hle : count ≤ extent) :
    (nearestCells offset extent count).Pairwise (· < ·) := by
  rw [nearestCells, List.pairwise_map]
  exact List.pairwise_lt_range.imp (scaled_strictMono hcount hle)

/-- With no fewer indices than cells, every cell of the range is the nearest one of some index. -/
theorem mem_nearestCells_of_ge (hcount : 0 < count) (hle : extent ≤ count)
    (hoffset : offset ≤ cell) (hcell : cell < offset + extent) :
    cell ∈ nearestCells offset extent count := by
  have hend : scaled offset count extent count = offset + extent := scaled_count hcount
  obtain ⟨i, hi, hscaled⟩ : ∃ i ≤ count, scaled offset i extent count = cell :=
    exists_scaled_eq hcount hle hoffset (by omega)
  -- the index behind the last one belongs to the end, which is not in the range
  have hne : i ≠ count := by
    rintro rfl
    omega
  exact mem_nearestCells.mpr ⟨i, by omega, hscaled⟩

/-! ## Spans of averages -/

/-- The cells that an average for cell `i` of `count` is taken over. -/
def spanCells (offset i extent count : Nat) : List Nat :=
  let span := averagedCells offset i extent count
  List.range' span.1 span.2

/-- With no more indices than cells, a span ends where the next one starts. -/
theorem averagedCells_of_le (hcount : 0 < count) (hle : count ≤ extent) :
    averagedCells offset i extent count = (scaled offset i extent count,
      scaled offset (i + 1) extent count - scaled offset i extent count) := by
  have hlt : scaled offset i extent count < scaled offset (i + 1) extent count :=
    scaled_lt_succ hcount hle
  simp only [averagedCells]
  congr 1
  omega

/-- With no fewer indices than cells, a span is the nearest cell. -/
theorem averagedCells_of_ge (hcount : 0 < count) (hle : extent ≤ count) :
    averagedCells offset i extent count = (scaled offset i extent count, 1) := by
  have hstep : scaled offset (i + 1) extent count ≤ scaled offset i extent count + 1 :=
    scaled_succ_le hcount hle
  simp only [averagedCells]
  congr 1
  omega

/-- The span of an index goes up to the cell of the next one, or is one cell. -/
theorem mem_spanCells : cell ∈ spanCells offset i extent count ↔
    scaled offset i extent count ≤ cell ∧
      cell < max (scaled offset (i + 1) extent count) (scaled offset i extent count + 1) := by
  simp only [spanCells, averagedCells, List.mem_range'_1]
  omega

/-- With no more indices than cells, the span ends where the next one starts. -/
theorem mem_spanCells_of_le (hcount : 0 < count) (hle : count ≤ extent) :
    cell ∈ spanCells offset i extent count ↔
      scaled offset i extent count ≤ cell ∧ cell < scaled offset (i + 1) extent count := by
  have hlt : scaled offset i extent count < scaled offset (i + 1) extent count :=
    scaled_lt_succ hcount hle
  rw [mem_spanCells]
  omega

/-- The first spans, one after the other, are the cells up to the next one. -/
theorem flatMap_spanCells (hcount : 0 < count) (hle : count ≤ extent) :
    (List.range n).flatMap (spanCells offset · extent count) =
      List.range' offset (scaled offset n extent count - offset) := by
  induction n with
  | zero => simp
  | succ n ih =>
    have hlt : scaled offset n extent count < scaled offset (n + 1) extent count :=
      scaled_lt_succ hcount hle
    -- the next span starts where the others have come to
    obtain ⟨done, hdone⟩ : ∃ done, scaled offset n extent count = offset + done := ⟨_, rfl⟩
    rw [List.range_succ, List.flatMap_append, ih, List.flatMap_singleton]
    simp only [spanCells, averagedCells_of_le hcount hle]
    rw [hdone, Nat.add_sub_cancel_left, List.range'_append_1]
    congr 1
    omega

/-- Each cell of the range is in one span. -/
theorem existsUnique_spanCells (hcount : 0 < count) (hle : count ≤ extent)
    (hoffset : offset ≤ cell) (hcell : cell < offset + extent) :
    ∃! i, i < count ∧ cell ∈ spanCells offset i extent count := by
  have hmem : cell ∈ (List.range count).flatMap (spanCells offset · extent count) := by
    rw [flatMap_spanCells hcount hle, scaled_count hcount, List.mem_range'_1]
    omega
  obtain ⟨i, hi, hspan⟩ := List.mem_flatMap.mp hmem
  refine ⟨i, ⟨List.mem_range.mp hi, hspan⟩, fun j ⟨_, hother⟩ => ?_⟩
  rw [mem_spanCells_of_le hcount hle] at hspan hother
  exact Nat.le_antisymm (index_le hother.1 hspan.2) (index_le hspan.1 hother.2)

/-! ## Words -/

namespace Word

/-- A word as a number of 128 bits. -/
def widen (a : UInt64) : BitVec 128 :=
  a.toBitVec.setWidth 128

/-- `scaled` in words. The product and the quotient have 128 bits; the sum wraps. -/
def scaled (offset i extent count : UInt64) : UInt64 :=
  offset + ⟨(widen i * widen extent / widen count).setWidth 64⟩

/-- `nearestCells` in words. -/
def nearestCells (offset extent count : UInt64) : List UInt64 :=
  (List.range count.toNat).map fun i => scaled offset (.ofNat i) extent count

/-- First cell of the span of an average, and the cell behind its last one, in words. -/
def span (offset i extent count : UInt64) : UInt64 × UInt64 :=
  let start := scaled offset i extent count
  (start, max (scaled offset (i + 1) extent count) (start + 1))

variable {a b offset i extent count : UInt64}

/-- A word is the same number in twice the width. -/
theorem toNat_widen : (widen a).toNat = a.toNat := by
  have ha := a.toNat_lt
  simp only [widen, BitVec.toNat_setWidth, UInt64.toNat_toBitVec]
  omega

/-- The larger of two words is the larger number. -/
theorem toNat_max : (max a b).toNat = max a.toNat b.toNat := by
  show (if a ≤ b then b else a).toNat = _
  split
  · next hle => exact (Nat.max_eq_right (UInt64.le_iff_toNat_le.mp hle)).symm
  · next hlt =>
    rw [UInt64.le_iff_toNat_le] at hlt
    exact (Nat.max_eq_left (by omega)).symm

/-- The product of two words is not too large for 128 bits. -/
theorem toNat_widen_mul : (widen a * widen b).toNat = a.toNat * b.toNat := by
  rw [BitVec.toNat_mul, toNat_widen, toNat_widen]
  have hlt : a.toNat * b.toNat < 2 ^ 64 * 2 ^ 64 := Nat.mul_lt_mul'' a.toNat_lt b.toNat_lt
  exact Nat.mod_eq_of_lt hlt

/-- Up to the index behind the last one, nothing wraps if the range ends in a word. -/
theorem toNat_scaled (hi : i.toNat ≤ count.toNat) (hrange : offset.toNat + extent.toNat < 2 ^ 64) :
    (scaled offset i extent count).toNat =
      RasterStore.scaled offset.toNat i.toNat extent.toNat count.toNat := by
  -- the quotient is at most the extent, and so it is a word
  have hquotient : i.toNat * extent.toNat / count.toNat ≤ extent.toNat :=
    Nat.div_le_of_le_mul (Nat.mul_le_mul_right _ hi)
  have hlow : ((widen i * widen extent / widen count).setWidth 64).toNat =
      i.toNat * extent.toNat / count.toNat := by
    rw [BitVec.toNat_setWidth, BitVec.toNat_udiv, toNat_widen_mul, toNat_widen]
    exact Nat.mod_eq_of_lt (by omega)
  rw [scaled, UInt64.toNat_add]
  show (offset.toNat + ((widen i * widen extent / widen count).setWidth 64).toNat) % 2 ^ 64 = _
  rw [hlow, RasterStore.scaled]
  exact Nat.mod_eq_of_lt (by omega)

/-- The nearest cells in words are those in numbers if the range ends below the limit. -/
theorem map_toNat_nearestCells (hrange : offset.toNat + extent.toNat < 2 ^ 64) :
    (nearestCells offset extent count).map (·.toNat) =
      RasterStore.nearestCells offset.toNat extent.toNat count.toNat := by
  rw [nearestCells, RasterStore.nearestCells, List.map_map]
  apply List.map_congr_left
  intro i hi
  have hcount := count.toNat_lt
  have hword : (UInt64.ofNat i).toNat = i := toNat_word (by rw [List.mem_range] at hi; omega)
  show (scaled offset (.ofNat i) extent count).toNat = _
  rw [toNat_scaled (by rw [hword]; exact Nat.le_of_lt (List.mem_range.mp hi)) hrange, hword]

/-- The span of an average starts and ends as in numbers without bound. -/
theorem toNat_span (hi : i.toNat < count.toNat) (hextent : 0 < extent.toNat)
    (hrange : offset.toNat + extent.toNat < 2 ^ 64) :
    let ideal := averagedCells offset.toNat i.toNat extent.toNat count.toNat
    (span offset i extent count).1.toNat = ideal.1 ∧
      (span offset i extent count).2.toNat = ideal.1 + ideal.2 := by
  have hcount := count.toNat_lt
  -- the increment of the index does not overflow, as the index is below the count
  have hnext : (i + 1).toNat = i.toNat + 1 := by
    rw [UInt64.toNat_add, UInt64.toNat_one]
    omega
  have hstart := toNat_scaled (Nat.le_of_lt hi) hrange
  have hend := toNat_scaled (show (i + 1).toNat ≤ count.toNat by omega) hrange
  rw [hnext] at hend
  have hinside : RasterStore.scaled offset.toNat i.toNat extent.toNat count.toNat <
      offset.toNat + extent.toNat := scaled_lt hi hextent
  refine ⟨hstart, ?_⟩
  -- the cell behind the first one still lies in the range or at its end
  have hsucc : (scaled offset i extent count + 1).toNat =
      RasterStore.scaled offset.toNat i.toNat extent.toNat count.toNat + 1 := by
    rw [UInt64.toNat_add, UInt64.toNat_one, hstart]
    omega
  simp only [span, averagedCells]
  rw [toNat_max, hend, hsucc]
  omega

/-- For a range that ends in a word, words are enough: no product, sum or span of an index wraps. -/
structure Exact (offset extent count : UInt64) : Prop where
  product : ∀ i : UInt64, (widen i * widen extent).toNat = i.toNat * extent.toNat
  nearest : (nearestCells offset extent count).map (·.toNat) =
    RasterStore.nearestCells offset.toNat extent.toNat count.toNat
  span : ∀ i : UInt64, i.toNat < count.toNat →
    let ideal := averagedCells offset.toNat i.toNat extent.toNat count.toNat
    (span offset i extent count).1.toNat = ideal.1 ∧
      (span offset i extent count).2.toNat = ideal.1 + ideal.2

end Word

/-! ## Ranges and windows -/

/-- How the indices below `count` are scaled to a range of `extent` cells. -/
structure Scaling (offset extent count : Nat) : Prop where
  length : (nearestCells offset extent count).length = count
  /-- The entry of an index is rounded down. -/
  entry : ∀ i < count, (nearestCells offset extent count)[i]? = some (offset + i * extent / count)
  ascending : (nearestCells offset extent count).Pairwise (· ≤ ·)
  inside : ∀ cell ∈ nearestCells offset extent count, offset ≤ cell ∧ cell < offset + extent
  /-- With no fewer indices than cells, no cell is left out. -/
  covers : extent ≤ count → ∀ cell, offset ≤ cell → cell < offset + extent →
    cell ∈ nearestCells offset extent count
  /-- With no more indices than cells, no cell is taken twice. -/
  strict : count ≤ extent → (nearestCells offset extent count).Pairwise (· < ·)
  /-- The span of an average goes up to the next nearest cell, or one cell if that is the same. -/
  span : ∀ i < count, ∀ cell, cell ∈ spanCells offset i extent count ↔
    scaled offset i extent count ≤ cell ∧
      cell < max (scaled offset (i + 1) extent count) (scaled offset i extent count + 1)
  /-- So no span is empty. -/
  nonempty : ∀ i < count, offset + i * extent / count ∈ spanCells offset i extent count
  /-- With no more indices than cells, the spans are, one after the other, the whole range. -/
  spans : count ≤ extent →
    (List.range count).flatMap (spanCells offset · extent count) = List.range' offset extent
  /-- With no fewer indices than cells, the span of an average is the nearest cell. -/
  single : extent ≤ count → ∀ i < count,
    spanCells offset i extent count = [offset + i * extent / count]

/-- Indices are scaled to cells by these rules, whatever the range and the count. -/
theorem scaling (hextent : 0 < extent) (hcount : 0 < count) : Scaling offset extent count where
  length := by simp [nearestCells]
  entry := by
    intro i hi
    simp [nearestCells, hi, scaled]
  ascending := pairwise_nearestCells offset extent count
  inside := by
    intro cell hcell
    obtain ⟨i, hi, rfl⟩ := mem_nearestCells.mp hcell
    exact ⟨Nat.le_add_right _ _, scaled_lt hi hextent⟩
  covers := fun hle _ => mem_nearestCells_of_ge hcount hle
  strict := pairwise_lt_nearestCells hcount
  span := fun _ _ _ => mem_spanCells
  nonempty := by
    intro i _
    rw [mem_spanCells, scaled]
    omega
  spans := by
    intro hle
    rw [flatMap_spanCells hcount hle, scaled_count hcount, Nat.add_sub_cancel_left]
  single := by
    intro hle i _
    simp [spanCells, averagedCells_of_ge hcount hle, scaled]

variable {window : Window} {layout : BufferLayout}

/-- The pixels of an average are those of a column span in a row span. -/
theorem mem_averagedBox {column row : Nat} : (x, y) ∈ averagedBox window layout column row ↔
    x ∈ spanCells window.x column window.width layout.width ∧
      y ∈ spanCells window.y row window.height layout.height := by
  simp only [averagedBox, mem_cells, spanCells, List.mem_range'_1]

/-- With no more buffer pixels than window pixels, each window pixel is in one average. -/
theorem existsUnique_averagedBox (hwidth : 0 < layout.width) (hheight : 0 < layout.height)
    (hcolumns : layout.width ≤ window.width) (hrows : layout.height ≤ window.height)
    (hcontains : window.Contains x y) :
    ∃! cell, cell ∈ layout.cells ∧ (x, y) ∈ averagedBox window layout cell.1 cell.2 := by
  obtain ⟨⟨hleft, hright⟩, htop, hbottom⟩ := hcontains
  obtain ⟨column, ⟨hcolumn, hx⟩, huniqueColumn⟩ :=
    existsUnique_spanCells hwidth hcolumns hleft hright
  obtain ⟨row, ⟨hrow, hy⟩, huniqueRow⟩ := existsUnique_spanCells hheight hrows htop hbottom
  refine ⟨(column, row), ⟨BufferLayout.mem_cells.mpr ⟨hcolumn, hrow⟩,
    mem_averagedBox.mpr ⟨hx, hy⟩⟩, ?_⟩
  -- another cell with the pixel in its box has the same column and row
  rintro ⟨otherColumn, otherRow⟩ ⟨hcell, hbox⟩
  obtain ⟨hcell, hcell'⟩ := BufferLayout.mem_cells.mp hcell
  obtain ⟨hx', hy'⟩ := mem_averagedBox.mp hbox
  rw [huniqueColumn otherColumn ⟨hcell, hx'⟩, huniqueRow otherRow ⟨hcell', hy'⟩]

/-- With no fewer buffer pixels than window pixels, each average is the nearest pixel's. -/
theorem averagedBox_of_ge (hwidth : 0 < layout.width) (hheight : 0 < layout.height)
    (hcolumns : window.width ≤ layout.width) (hrows : window.height ≤ layout.height)
    (cell : Nat × Nat) :
    averagedBox window layout cell.1 cell.2 = [nearestSource window layout cell] := by
  simp only [averagedBox, averagedCells_of_ge hwidth hcolumns, averagedCells_of_ge hheight hrows]
  simp [cells, nearestSource]

/-- Scaling is exact, does not go back and covers its range: whole cells are repeated if there are
    more indices than cells and skipped if there are fewer, and an average then takes in what is
    skipped. It can be computed in words for all words that stand for a range. So each pixel of a
    window goes into one average if the buffer has no more columns and rows, and if it has no
    fewer, an average is read from the nearest pixel. -/
theorem scaling_exact_and_covering :
    (∀ offset extent count, 0 < extent → 0 < count → Scaling offset extent count) ∧
    (∀ offset extent count : UInt64, 0 < extent.toNat → 0 < count.toNat →
      offset.toNat + extent.toNat < 2 ^ 64 → Word.Exact offset extent count) ∧
    ∀ (window : Window) (layout : BufferLayout), 0 < layout.width → 0 < layout.height →
      (∀ x y cell, (x, y) ∈ Resampling.average.sources window layout cell ↔
        x ∈ spanCells window.x cell.1 window.width layout.width ∧
          y ∈ spanCells window.y cell.2 window.height layout.height) ∧
      (layout.width ≤ window.width → layout.height ≤ window.height →
        ∀ x y, window.Contains x y →
          ∃! cell, cell ∈ layout.cells ∧ (x, y) ∈ Resampling.average.sources window layout cell) ∧
      (window.width ≤ layout.width → window.height ≤ layout.height →
        ∀ cell ∈ layout.cells, Resampling.average.sources window layout cell =
          Resampling.nearest.sources window layout cell) := by
  refine ⟨?ranges, ?words, ?windows⟩
  case ranges =>
    intro offset extent count hextent hcount
    exact scaling hextent hcount
  case words =>
    intro offset extent count hextent _ hrange
    exact ⟨fun _ => Word.toNat_widen_mul, Word.map_toNat_nearestCells hrange,
      fun _ hi => Word.toNat_span hi hextent hrange⟩
  case windows =>
    intro window layout hwidth hheight
    refine ⟨fun _ _ _ => mem_averagedBox, ?_, ?_⟩
    · intro hcolumns hrows x y hcontains
      exact existsUnique_averagedBox hwidth hheight hcolumns hrows hcontains
    · intro hcolumns hrows cell _
      exact averagedBox_of_ge hwidth hheight hcolumns hrows cell

/-- Seven cells for three indices: an average is taken over two, two and three of them. -/
theorem scaling_exact_and_covering_thirds :
    nearestCells 3 7 3 = [3, 5, 7] ∧
    (List.range 3).map (spanCells 3 · 7 3) = [[3, 4], [5, 6], [7, 8, 9]] ∧
    (List.range 3).flatMap (spanCells 3 · 7 3) = List.range' 3 7 ∧ Word.Exact 3 7 3 := by
  obtain ⟨hranges, hwords, -⟩ := scaling_exact_and_covering
  refine ⟨by decide, by decide, ?_, ?_⟩
  · exact (hranges 3 7 3 (by decide) (by decide)).spans (by decide)
  · exact hwords 3 7 3 (by decide) (by decide) (by decide)

end RasterStore
