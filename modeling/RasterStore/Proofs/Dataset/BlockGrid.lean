import Mathlib.Algebra.BigOperators.Group.List.Basic
import Mathlib.Data.List.Nodup
import Mathlib.Logic.ExistsUnique
import RasterStore.Proofs.Transfer.Words

/-!
# The grid of blocks

The blocks of a band cut the raster into parts. Three rules say how: a block index is accepted if
the block's first pixel lies in the raster, the grid has as many columns and rows as it takes to
cover the raster, rounded up, and a block at the edge is clipped. A pixel belongs to the block that
its column and row, divided by the sides of a block, name. The rules agree:

* `mem_insideCells`                  the part of a block in the raster is the pixels that name it
* `perm_insideCells`                 these parts, block by block, are the raster
* `Word.startsOutside_eq_false_iff`  an index is refused in words exactly if it is in numbers
* `grid_partitions_raster`           all of it, for the blocks that a dataset accepts
-/

namespace RasterStore

variable {index part whole place x y : Nat}

/-! ## Parts of a line -/

/-- The clipped part of a line holds the places whose quotient is its index. -/
theorem mem_part_iff (hpart : 0 < part) :
    (index * part ≤ place ∧ place < index * part + min part (whole - index * part)) ↔
      place < whole ∧ place / part = index := by
  rw [div_eq_iff_between hpart]
  omega

/-- A place on a line lies in one of the parts that cover it. -/
theorem div_lt_partsCovering (hpart : 0 < part) (hplace : place < whole) :
    place / part < partsCovering whole part :=
  (lt_partsCovering_iff hpart).mpr (Nat.lt_of_le_of_lt (Nat.div_mul_le_self place part) hplace)

/-- Rounding up, as the quotient and one more if something is left. -/
theorem partsCovering_eq (hpart : 0 < part) :
    partsCovering whole part = if whole % part = 0 then whole / part else whole / part + 1 := by
  have hsum := Nat.div_add_mod' whole part
  have hlt := Nat.mod_lt whole hpart
  -- the sum that is divided lies between this many parts and one more
  rw [partsCovering, div_eq_iff_between hpart]
  split
  · omega
  · rw [Nat.succ_mul]
    omega

/-! ## Blocks and their pixels -/

/-- A rectangle has as many cells as its area. -/
theorem length_cells (x y : Nat) (size : Size) : (cells x y size).length = size.area := by
  simp [cells, List.length_flatMap, Size.area, Nat.mul_comm]

namespace BandDescriptor

variable {descriptor : BandDescriptor} {raster : Size} {block other : Nat × Nat}

/-- Columns and rows of the blocks of the grid, row by row. -/
def gridCells (descriptor : BandDescriptor) (raster : Size) : List (Nat × Nat) :=
  cells 0 0 (descriptor.grid raster)

/-- The pixels of the raster that lie in a block, row by row. -/
def insideCells (descriptor : BandDescriptor) (raster : Size) (block : Nat × Nat) :
    List (Nat × Nat) :=
  cells (block.1 * descriptor.block.width) (block.2 * descriptor.block.height)
    (descriptor.validSize raster block.1 block.2)

/-- The blocks of the grid are those in its columns and rows. -/
theorem mem_gridCells : block ∈ descriptor.gridCells raster ↔
    block.1 < (descriptor.grid raster).width ∧ block.2 < (descriptor.grid raster).height := by
  simp [gridCells, mem_cells]

/-- The pixels of the raster in a block are those that divide to its column and row. -/
theorem mem_insideCells (hblocked : descriptor.Blocked) :
    (x, y) ∈ descriptor.insideCells raster block ↔ (x < raster.width ∧ y < raster.height) ∧
      (x / descriptor.block.width, y / descriptor.block.height) = block := by
  -- columns and rows apart, each by the lemma about a line
  simp only [insideCells, mem_cells, validSize, mem_part_iff hblocked.1, mem_part_iff hblocked.2,
    Prod.ext_iff]
  exact and_and_and_comm

/-- No pixel lies in two blocks. -/
theorem disjoint_insideCells (hblocked : descriptor.Blocked) (hne : block ≠ other) :
    (descriptor.insideCells raster block).Disjoint (descriptor.insideCells raster other) := by
  rintro ⟨x, y⟩ hblock hother
  rw [mem_insideCells hblocked] at hblock hother
  exact hne (hblock.2.symm.trans hother.2)

/-- The block of a pixel of the raster belongs to the grid. -/
theorem div_mem_gridCells (hblocked : descriptor.Blocked) (hx : x < raster.width)
    (hy : y < raster.height) :
    (x / descriptor.block.width, y / descriptor.block.height) ∈ descriptor.gridCells raster :=
  mem_gridCells.mpr ⟨div_lt_partsCovering hblocked.1 hx, div_lt_partsCovering hblocked.2 hy⟩

/-- No two blocks of the grid share a pixel. -/
theorem pairwise_insideCells (hblocked : descriptor.Blocked) : (descriptor.gridCells raster).Pairwise
    fun block other =>
      (descriptor.insideCells raster block).Disjoint (descriptor.insideCells raster other) :=
  (nodup_cells 0 0 (descriptor.grid raster)).imp (disjoint_insideCells hblocked)

/-- The pixels of the blocks of the grid are the pixels of the raster, each of them once. -/
theorem perm_insideCells (hblocked : descriptor.Blocked) :
    ((descriptor.gridCells raster).flatMap (descriptor.insideCells raster)).Perm
      (cells 0 0 raster) := by
  have hnodup : ((descriptor.gridCells raster).flatMap (descriptor.insideCells raster)).Nodup :=
    List.nodup_flatMap.mpr ⟨fun _ _ => nodup_cells _ _ _, pairwise_insideCells hblocked⟩
  -- neither side repeats a pixel, so it is enough that both have the same ones
  rw [List.perm_ext_iff_of_nodup hnodup (nodup_cells 0 0 raster)]
  rintro ⟨x, y⟩
  simp only [List.mem_flatMap, mem_insideCells hblocked, mem_cells, Nat.zero_le, Nat.zero_add,
    true_and]
  constructor
  · rintro ⟨_, -, hinside, -⟩
    exact hinside
  · intro hinside
    exact ⟨_, div_mem_gridCells hblocked hinside.1 hinside.2, hinside, rfl⟩

/-- The parts of the blocks in the raster have as many pixels together as the raster. -/
theorem sum_area_validSize (hblocked : descriptor.Blocked) :
    ((descriptor.gridCells raster).map fun block =>
      (descriptor.validSize raster block.1 block.2).area).sum = raster.area := by
  have hlength : ((descriptor.gridCells raster).flatMap (descriptor.insideCells raster)).length =
      (cells 0 0 raster).length := (perm_insideCells hblocked).length_eq
  simpa only [List.length_flatMap, insideCells, length_cells] using hlength

example : let band : BandDescriptor := { type := .int16, block := ⟨64, 64⟩ }
    (band.gridCells ⟨100, 100⟩).map (fun block => band.validSize ⟨100, 100⟩ block.1 block.2) =
      [⟨64, 64⟩, ⟨36, 64⟩, ⟨64, 36⟩, ⟨36, 36⟩] := by decide

/-- A block of the grid has at least one pixel inside the raster, and no more than its own. -/
theorem validSize_bounds (hblocked : descriptor.Blocked)
    (hblock : block ∈ descriptor.gridCells raster) :
    let valid := descriptor.validSize raster block.1 block.2
    (1 ≤ valid.width ∧ valid.width ≤ descriptor.block.width) ∧
      (1 ≤ valid.height ∧ valid.height ≤ descriptor.block.height) := by
  obtain ⟨hcolumn, hrow⟩ := mem_gridCells.mp hblock
  have hleft := (lt_partsCovering_iff hblocked.1).mp hcolumn
  have htop := (lt_partsCovering_iff hblocked.2).mp hrow
  have hwidth := hblocked.1
  have hheight := hblocked.2
  simp only [validSize]
  omega

end BandDescriptor

/-! ## Words -/

namespace Word

variable {a b index part whole : UInt64}

/-- The difference of two words, or zero if it would be below zero. -/
def monus (a b : UInt64) : UInt64 :=
  if b ≤ a then a - b else 0

/-- `RasterStore.partsCovering` in words. No sum comes before the quotient. -/
def partsCovering (whole part : UInt64) : UInt64 :=
  if whole % part = 0 then whole / part else whole / part + 1

/-- The part with this index starts at the end of the whole or behind it. So does one whose start is
    too large for a word. -/
def startsOutside (index part whole : UInt64) : Bool :=
  (product? index part).all (whole ≤ ·)

/-- The size of what lies inside the whole of a part. The start of the part may wrap. -/
def insidePart (index part whole : UInt64) : UInt64 :=
  min part (monus whole (index * part))

/-- The difference of two words that stops at zero is the one of their numbers. -/
theorem toNat_monus : (monus a b).toNat = a.toNat - b.toNat := by
  unfold monus
  split
  · next hle => exact UInt64.toNat_sub_of_le a b hle
  · next hlt =>
    rw [UInt64.le_iff_toNat_le] at hlt
    rw [UInt64.toNat_zero]
    omega

/-- The number of parts in words is the number of parts: no sum or product wraps. -/
theorem toNat_partsCovering (hpart : 0 < part.toNat) :
    (partsCovering whole part).toNat = RasterStore.partsCovering whole.toNat part.toNat := by
  have hmod : whole % part = 0 ↔ whole.toNat % part.toNat = 0 := by
    rw [← UInt64.toNat_inj, UInt64.toNat_mod, UInt64.toNat_zero]
  rw [partsCovering_eq hpart, partsCovering]
  split
  · next hzero => rw [if_pos (hmod.mp hzero), UInt64.toNat_div]
  · next hrest =>
    rw [if_neg (mt hmod.mpr hrest), UInt64.toNat_add, UInt64.toNat_div, UInt64.toNat_one]
    -- with something left, the quotient is not the largest word
    have hwhole := whole.toNat_lt
    have hsum := Nat.div_add_mod' whole.toNat part.toNat
    have hquotient := Nat.le_mul_of_pos_right (whole.toNat / part.toNat) hpart
    have hrest' := mt hmod.mpr hrest
    exact Nat.mod_eq_of_lt (by omega)

/-- A start that is too large for a word lies outside every whole that is a word. -/
theorem startsOutside_eq_false_iff :
    startsOutside index part whole = false ↔ index.toNat * part.toNat < whole.toNat := by
  rw [startsOutside]
  cases hproduct : product? index part with
  | none =>
    -- there is no product, and every product below the whole would be a word
    have hlarge : ¬index.toNat * part.toNat < 2 ^ 64 := by
      intro hlt
      rw [product?, if_pos hlt] at hproduct
      exact absurd hproduct (by simp)
    have hwhole := whole.toNat_lt
    simp only [Option.all_none, Bool.true_eq_false, false_iff]
    omega
  | some start =>
    rw [← product?_eq_some_iff.mp hproduct, Option.all_some, decide_eq_false_iff_not,
      UInt64.not_le, UInt64.lt_iff_toNat_lt]

/-- Where a part starts inside, its start does not wrap. -/
theorem toNat_start (h : startsOutside index part whole = false) :
    (index * part).toNat = index.toNat * part.toNat := by
  rw [startsOutside_eq_false_iff] at h
  have hwhole := whole.toNat_lt
  rw [UInt64.toNat_mul]
  exact Nat.mod_eq_of_lt (by omega)

/-- The part of a line that is inside is the same in words and in numbers. -/
theorem toNat_insidePart (h : startsOutside index part whole = false) :
    (insidePart index part whole).toNat =
      min part.toNat (whole.toNat - index.toNat * part.toNat) := by
  rw [insidePart, UInt64.toNat_min, toNat_monus, toNat_start h]

/-- A width and a height in words. -/
structure Sides where
  width : UInt64
  height : UInt64

/-- The size with these sides. -/
def Sides.size (sides : Sides) : Size :=
  ⟨sides.width.toNat, sides.height.toNat⟩

/-- The width of a size in words. -/
@[simp] theorem Sides.size_width (sides : Sides) : sides.size.width = sides.width.toNat := rfl

/-- The height of a size in words. -/
@[simp] theorem Sides.size_height (sides : Sides) : sides.size.height = sides.height.toNat := rfl

end Word

/-! ## Datasets -/

namespace Band

variable {κ : Type} {dataset : Dataset κ} {band x y : Nat} {method : String}

/-- A block is accepted exactly if the grid has its column and row. -/
theorem checkBlock_eq_ok_iff_grid (hblocked : (dataset.descriptor band).Blocked) :
    checkBlock dataset band method x y = .ok () ↔
      (x, y) ∈ (dataset.descriptor band).gridCells dataset.size := by
  rw [checkBlock_eq_ok_iff, BandDescriptor.mem_gridCells]
  exact and_congr (lt_partsCovering_iff hblocked.1).symm (lt_partsCovering_iff hblocked.2).symm

/-- The part of an accepted block inside the raster is given, whatever it was accepted for. -/
theorem validSize_of_checkBlock (h : checkBlock dataset band method x y = .ok ()) :
    validSize dataset band x y = .ok ((dataset.descriptor band).validSize dataset.size x y) := by
  have hcheck : checkBlock dataset band "actual_block_size" x y = .ok () :=
    checkBlock_eq_ok_iff.mpr (checkBlock_eq_ok_iff.mp h)
  rw [validSize, hcheck]
  rfl

end Band

/-- The blocks that are accepted cut the raster into parts. -/
structure GridPartitions {κ : Type} (dataset : Dataset κ) (band : Nat) : Prop where
  /-- A block is accepted exactly if its column and row are below those of the grid. -/
  accepted : ∀ method x y, Band.checkBlock dataset band method x y = .ok () ↔
    x < ((dataset.descriptor band).grid dataset.size).width ∧
      y < ((dataset.descriptor band).grid dataset.size).height
  /-- Inside the raster it has at least one pixel in both directions, and at most its own. -/
  valid : ∀ method x y, Band.checkBlock dataset band method x y = .ok () →
    let valid := (dataset.descriptor band).validSize dataset.size x y
    Band.validSize dataset band x y = .ok valid ∧
      (1 ≤ valid.width ∧ valid.width ≤ (dataset.descriptor band).block.width) ∧
      (1 ≤ valid.height ∧ valid.height ≤ (dataset.descriptor band).block.height)
  /-- A pixel lies in the block where transfers look for it, at the remainders of its column and
      row. -/
  pixel : ∀ method x y, x < dataset.size.width → y < dataset.size.height →
    let block := (dataset.descriptor band).blockOf band x y
    let valid := (dataset.descriptor band).validSize dataset.size block.x block.y
    Band.checkBlock dataset band method block.x block.y = .ok () ∧
      (x, y) ∈ (dataset.descriptor band).insideCells dataset.size (block.x, block.y) ∧
      x % (dataset.descriptor band).block.width < valid.width ∧
      y % (dataset.descriptor band).block.height < valid.height
  /-- It lies in one accepted block only. -/
  unique : ∀ method x y, x < dataset.size.width → y < dataset.size.height →
    ∃! block : Nat × Nat, Band.checkBlock dataset band method block.1 block.2 = .ok () ∧
      (x, y) ∈ (dataset.descriptor band).insideCells dataset.size block
  /-- The parts of different blocks have no pixel in common. -/
  disjoint : ∀ block other, block ≠ other →
    ((dataset.descriptor band).insideCells dataset.size block).Disjoint
      ((dataset.descriptor band).insideCells dataset.size other)
  /-- Block by block, the parts are the raster. -/
  parts : (((dataset.descriptor band).gridCells dataset.size).flatMap
    ((dataset.descriptor band).insideCells dataset.size)).Perm (cells 0 0 dataset.size)
  areas : (((dataset.descriptor band).gridCells dataset.size).map fun block =>
    ((dataset.descriptor band).validSize dataset.size block.1 block.2).area).sum =
      dataset.size.width * dataset.size.height

variable {κ : Type} {dataset : Dataset κ} {band : Nat} {raster block : Word.Sides}

/-- Blocks with pixels part the raster: each pixel lies in one block of the grid. -/
theorem gridPartitions (hblocked : (dataset.descriptor band).Blocked) :
    GridPartitions dataset band where
  accepted := by
    intro method x y
    rw [Band.checkBlock_eq_ok_iff_grid hblocked, BandDescriptor.mem_gridCells]
  valid := by
    intro method x y hcheck
    have hgrid := (Band.checkBlock_eq_ok_iff_grid hblocked).mp hcheck
    exact ⟨Band.validSize_of_checkBlock hcheck, BandDescriptor.validSize_bounds hblocked hgrid⟩
  pixel := by
    intro method x y hx hy
    have hgrid := BandDescriptor.div_mem_gridCells hblocked hx hy
    refine ⟨(Band.checkBlock_eq_ok_iff_grid hblocked).mpr hgrid, ?_,
      BandDescriptor.mod_lt_validSize hblocked hx hy⟩
    exact (BandDescriptor.mem_insideCells hblocked).mpr ⟨⟨hx, hy⟩, rfl⟩
  unique := by
    intro method x y hx hy
    have hgrid := BandDescriptor.div_mem_gridCells hblocked hx hy
    refine ⟨_, ⟨(Band.checkBlock_eq_ok_iff_grid hblocked).mpr hgrid,
      (BandDescriptor.mem_insideCells hblocked).mpr ⟨⟨hx, hy⟩, rfl⟩⟩, ?_⟩
    -- whatever block has the pixel, its column and row are the pixel's quotients
    rintro block ⟨-, hinside⟩
    exact ((BandDescriptor.mem_insideCells hblocked).mp hinside).2.symm
  disjoint := fun _ _ => BandDescriptor.disjoint_insideCells hblocked
  parts := BandDescriptor.perm_insideCells hblocked
  areas := BandDescriptor.sum_area_validSize hblocked

/-- The rules in words, for a raster and blocks with these sides. Only the start of a block that is
    refused may be too large for a word. -/
structure Word.GridExact (dataset : Dataset κ) (band : Nat) (raster block : Sides) : Prop where
  grid : (dataset.descriptor band).grid dataset.size =
    Sides.size ⟨partsCovering raster.width block.width, partsCovering raster.height block.height⟩
  accepted : ∀ method (x y : UInt64),
    Band.checkBlock dataset band method x.toNat y.toNat = .ok () ↔
      startsOutside x block.width raster.width = false ∧
        startsOutside y block.height raster.height = false
  /-- Also in words, these are the blocks of the grid. -/
  inGrid : ∀ x y : UInt64,
    (startsOutside x block.width raster.width = false ∧
      startsOutside y block.height raster.height = false) ↔
      x < partsCovering raster.width block.width ∧ y < partsCovering raster.height block.height
  start : ∀ method (x y : UInt64), Band.checkBlock dataset band method x.toNat y.toNat = .ok () →
    (x * block.width).toNat = x.toNat * block.width.toNat ∧
      (y * block.height).toNat = y.toNat * block.height.toNat
  valid : ∀ method (x y : UInt64), Band.checkBlock dataset band method x.toNat y.toNat = .ok () →
    Band.validSize dataset band x.toNat y.toNat = .ok
      (Sides.size ⟨insidePart x block.width raster.width, insidePart y block.height raster.height⟩)

namespace Word

/-- The check of a block decides in words what it does in numbers. -/
theorem checkBlock_eq_ok_iff (hsize : dataset.size = raster.size)
    (hblock : (dataset.descriptor band).block = block.size) {method : String} {x y : UInt64} :
    Band.checkBlock dataset band method x.toNat y.toNat = .ok () ↔
      startsOutside x block.width raster.width = false ∧
        startsOutside y block.height raster.height = false := by
  rw [Band.checkBlock_eq_ok_iff, Band.InGrid, hsize, hblock, startsOutside_eq_false_iff,
    startsOutside_eq_false_iff]
  simp only [Sides.size_width, Sides.size_height]

/-- The rules of the grid come out the same in words. -/
theorem gridExact (hblocked : (dataset.descriptor band).Blocked) (hsize : dataset.size = raster.size)
    (hblock : (dataset.descriptor band).block = block.size) :
    GridExact dataset band raster block := by
  -- no division by zero, in words or in numbers
  have hwidth : 0 < block.width.toNat := by
    simpa only [hblock, Sides.size_width] using hblocked.1
  have hheight : 0 < block.height.toNat := by
    simpa only [hblock, Sides.size_height] using hblocked.2
  refine ⟨?grid, fun _ _ _ => checkBlock_eq_ok_iff hsize hblock, ?inGrid, ?start, ?valid⟩
  case grid =>
    rw [BandDescriptor.grid, hsize, hblock]
    simp only [Sides.size, toNat_partsCovering hwidth, toNat_partsCovering hheight]
  case inGrid =>
    intro x y
    rw [startsOutside_eq_false_iff, startsOutside_eq_false_iff, UInt64.lt_iff_toNat_lt,
      UInt64.lt_iff_toNat_lt, toNat_partsCovering hwidth, toNat_partsCovering hheight,
      lt_partsCovering_iff hwidth, lt_partsCovering_iff hheight]
  case start =>
    intro method x y hcheck
    obtain ⟨hx, hy⟩ := (checkBlock_eq_ok_iff hsize hblock).mp hcheck
    exact ⟨toNat_start hx, toNat_start hy⟩
  case valid =>
    intro method x y hcheck
    have hinside := (checkBlock_eq_ok_iff hsize hblock).mp hcheck
    rw [Band.validSize_of_checkBlock hcheck, BandDescriptor.validSize, hsize, hblock]
    simp only [Sides.size, toNat_insidePart hinside.1, toNat_insidePart hinside.2]

end Word

/-- The blocks of a band cut the raster into parts: those that are accepted are those of the grid,
    each has pixels inside the raster, and each pixel of the raster is in one of them, the one that
    its column and row divide to. For sides that are words all of it can be computed in words, also
    where a block would start so far outside that its start is none. -/
theorem grid_partitions_raster (dataset : Dataset κ) (band : Nat)
    (hblocked : (dataset.descriptor band).Blocked) :
    GridPartitions dataset band ∧
    ∀ raster block : Word.Sides, dataset.size = raster.size →
      (dataset.descriptor band).block = block.size → Word.GridExact dataset band raster block := by
  refine ⟨gridPartitions hblocked, ?_⟩
  intro raster block hsize hblock
  exact Word.gridExact hblocked hsize hblock

/-- A raster as wide as a word counts, in blocks of half that width. -/
def widestRaster : Dataset Unit where
  driver := "MEM"
  access := .readOnly
  store := ⟨BlockCache.empty 1, (), #[⟨.byte, ⟨9223372036854775808, 2⟩, none⟩],
    ⟨18446744073709551615, 3⟩, {}⟩

/-- Two blocks beside each other cover it, and the second one lacks a column. A third one would
    start at a column that wraps to zero; it is refused. -/
theorem grid_partitions_raster_widest :
    (widestRaster.descriptor 1).Blocked ∧
    (widestRaster.descriptor 1).grid widestRaster.size = ⟨2, 2⟩ ∧
    Band.validSize widestRaster 1 1 1 = .ok ⟨9223372036854775807, 1⟩ ∧
    (2 * 9223372036854775808 : UInt64) = 0 ∧
    Band.checkBlock widestRaster 1 "read_block" 2 0 ≠ .ok () := by
  have hblocked : (widestRaster.descriptor 1).Blocked := by
    unfold BandDescriptor.Blocked
    decide
  obtain ⟨hpartitions, hwords⟩ := grid_partitions_raster widestRaster 1 hblocked
  have hexact := hwords ⟨18446744073709551615, 3⟩ ⟨9223372036854775808, 2⟩ rfl rfl
  refine ⟨hblocked, hexact.grid, ?_, by decide, ?_⟩
  · exact hexact.valid "actual_block_size" 1 1
      ((hexact.accepted _ 1 1).mpr ⟨by decide, by decide⟩)
  · rw [Ne, hpartitions.accepted]
    decide

end RasterStore
