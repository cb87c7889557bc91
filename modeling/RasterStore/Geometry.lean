/-!
# Sizes and block positions

A raster, a window, a buffer and a block are all rectangles of pixels, described by a `Size`.
The blocks of a band are addressed by a `BlockRef`: the band's number, counted from one, and the
column and row of the block in the band's grid, counted from zero.
-/

namespace RasterStore

/-- The text of a pair of coordinates. -/
def pairText (first second : String) : String :=
  s!"({first}, {second})"

/-- Width and height of a rectangle of pixels or of a grid of blocks. -/
structure Size where
  width : Nat
  height : Nat
deriving DecidableEq, Inhabited

namespace Size

/-- Number of cells in the rectangle. -/
def area (size : Size) : Nat :=
  size.width * size.height

/-- A rectangle with a zero side holds no cell. -/
def isEmpty (size : Size) : Bool :=
  size.width == 0 || size.height == 0

/-- The size as shown in messages. -/
def text (size : Size) : String :=
  pairText (toString size.width) (toString size.height)

@[simp] theorem isEmpty_iff (size : Size) :
    size.isEmpty = true ↔ size.width = 0 ∨ size.height = 0 := by
  simp [isEmpty]

end Size

/-- Position of a block: its band, counted from one, and its column and row in the block grid. -/
structure BlockRef where
  band : Nat
  x : Nat
  y : Nat
deriving DecidableEq, Inhabited

namespace BlockRef

/-- The block as shown in messages. -/
def text (block : BlockRef) : String :=
  s!"band {block.band} block ({block.x}, {block.y})"

/-- Blocks are ordered by band, then by row, then by column: the order in which they are
    written back. -/
def precedes (a b : BlockRef) : Bool :=
  a.band < b.band || (a.band == b.band && (a.y < b.y || (a.y == b.y && a.x ≤ b.x)))

end BlockRef

/-- The cells of the rectangle that has its first cell at (`x`, `y`), row by row. -/
def cells (x y : Nat) (size : Size) : List (Nat × Nat) :=
  (List.range size.height).flatMap fun row =>
    (List.range size.width).map fun column => (x + column, y + row)

theorem mem_cells {x y : Nat} {size : Size} {cell : Nat × Nat} :
    cell ∈ cells x y size ↔
      (x ≤ cell.1 ∧ cell.1 < x + size.width) ∧ (y ≤ cell.2 ∧ cell.2 < y + size.height) := by
  obtain ⟨cx, cy⟩ := cell
  simp only [cells, List.mem_flatMap, List.mem_range, List.mem_map, Prod.mk.injEq]
  constructor
  · rintro ⟨row, hrow, column, hcolumn, rfl, rfl⟩
    omega
  · rintro ⟨⟨hx, hx'⟩, hy, hy'⟩
    exact ⟨cy - y, by omega, cx - x, by omega, by omega, by omega⟩

end RasterStore
