import Mathlib.Algebra.Group.Int.Defs
import RasterStore.Proofs.Operations

/-!
# Checks in machine words

The checks of a transfer are exact: they accept what is in order in integers, for all arguments
that are 64-bit words and all buffers with fewer than `2 ^ 63` bytes. They can be carried out in
words (`Word.endsBy`, `Word.extent?`), where a sum or product that is too large ends them early.
Nothing that is accepted is too large for a word, and a transfer stays inside its buffer.

* `WindowInside`, `BufferHolds`  what the checks decide, in integers
* `Word.extent?_eq_some_iff`     the end of a layout, computed in words
* `transfer_checks_exact`        the checks, and what may rely on them
-/

namespace RasterStore

open RasterStore.Action

/-! ## Arithmetic in words -/

namespace Word

variable {a b c start count limit width height pixelSpace line bytes extent : UInt64}

/-- A number that is small enough is a word. -/
theorem toNat_word {n : Nat} (h : n < 2 ^ 64) : (UInt64.ofNat n).toNat = n :=
  UInt64.toNat_ofNat_of_lt' h

/-- The sum of two words, unless it is too large for one. -/
def sum? (a b : UInt64) : Option UInt64 :=
  if a.toNat + b.toNat < 2 ^ 64 then some (a + b) else none

/-- The product of two words, unless it is too large for one. -/
def product? (a b : UInt64) : Option UInt64 :=
  if a.toNat * b.toNat < 2 ^ 64 then some (a * b) else none

/-- A checked sum is there just if it is the sum of the integers. -/
theorem sum?_eq_some_iff : sum? a b = some c ↔ c.toNat = a.toNat + b.toNat := by
  unfold sum?
  split
  · next hlt =>
    rw [Option.some.injEq, ← UInt64.toNat_inj, UInt64.toNat_add, Nat.mod_eq_of_lt hlt, eq_comm]
  · next hle =>
    have hc := c.toNat_lt
    simp only [reduceCtorEq, false_iff]
    omega

/-- A checked product is there just if it is the product of the integers. -/
theorem product?_eq_some_iff : product? a b = some c ↔ c.toNat = a.toNat * b.toNat := by
  unfold product?
  split
  · next hlt =>
    rw [Option.some.injEq, ← UInt64.toNat_inj, UInt64.toNat_mul, Nat.mod_eq_of_lt hlt, eq_comm]
  · next hle =>
    have hc := c.toNat_lt
    simp only [reduceCtorEq, false_iff]
    omega

/-- A range of `count` cells from `start` on ends at `limit` or before it. -/
def endsBy (start count limit : UInt64) : Bool :=
  (sum? start count).any (· ≤ limit)

/-- A range ends by a limit just if it does so over the integers: a sum that wraps is refused. -/
theorem endsBy_iff : endsBy start count limit = true ↔
    start.toNat + count.toNat ≤ limit.toNat := by
  rw [endsBy, Option.any_eq_true]
  constructor
  · -- the sum is a word, and words are compared as numbers
    rintro ⟨last, hsum, hle⟩
    rw [← sum?_eq_some_iff.mp hsum]
    exact UInt64.le_iff_toNat_le.mp (of_decide_eq_true hle)
  · -- a sum within the limit does not wrap
    intro hle
    have hlast : (UInt64.ofNat (start.toNat + count.toNat)).toNat = start.toNat + count.toNat :=
      toNat_word (Nat.lt_of_le_of_lt hle limit.toNat_lt)
    refine ⟨_, sum?_eq_some_iff.mpr hlast, decide_eq_true (UInt64.le_iff_toNat_le.mpr ?_)⟩
    rwa [hlast]

/-- Bytes from a row of a buffer to the next one; zero stands for packed rows. -/
def line? (width pixelSpace lineSpace : UInt64) : Option UInt64 :=
  if lineSpace = 0 then product? pixelSpace width else some lineSpace

/-- Bytes from the start of a buffer to the end of its last pixel. -/
def extent? (width height pixelSpace line bytes : UInt64) : Option UInt64 := do
  let rows ← product? (height - 1) line
  let columns ← product? (width - 1) pixelSpace
  let corner ← sum? rows columns
  sum? corner bytes

/-- Offset of a pixel in a buffer. Sums and products that are too large wrap. -/
def offset (pixelSpace line column row : UInt64) : UInt64 :=
  row * line + column * pixelSpace

/-- Each number below the limit is that of a word. -/
private theorem exists_toNat_eq {n : Nat} (h : n < 2 ^ 64) : ∃ word : UInt64, word.toNat = n :=
  ⟨.ofNat n, toNat_word h⟩

/-- A word that is not zero has a predecessor. -/
private theorem toNat_sub_one (h : 0 < a.toNat) : (a - 1).toNat = a.toNat - 1 :=
  UInt64.toNat_sub_of_le a 1 (UInt64.le_iff_toNat_le.mpr h)

/-- The end of a layout that is not empty, in words: there is one if it is small enough. -/
theorem extent?_eq_some_iff (hwidth : 0 < width.toNat) (hheight : 0 < height.toNat) :
    extent? width height pixelSpace line bytes = some extent ↔
      extent.toNat = (height.toNat - 1) * line.toNat + (width.toNat - 1) * pixelSpace.toNat +
        bytes.toNat := by
  simp only [extent?, Option.bind_eq_bind, Option.bind_eq_some_iff, product?_eq_some_iff,
    sum?_eq_some_iff, toNat_sub_one hwidth, toNat_sub_one hheight]
  constructor
  · rintro ⟨rows, hrows, columns, hcolumns, corner, hcorner, hextent⟩
    omega
  · intro hextent
    have hlimit := extent.toNat_lt
    -- each part is at most as large as the whole
    obtain ⟨rows, hrows⟩ := exists_toNat_eq (n := (height.toNat - 1) * line.toNat) (by omega)
    obtain ⟨columns, hcolumns⟩ :=
      exists_toNat_eq (n := (width.toNat - 1) * pixelSpace.toNat) (by omega)
    obtain ⟨corner, hcorner⟩ := exists_toNat_eq (n := rows.toNat + columns.toNat) (by omega)
    exact ⟨rows, hrows, columns, hcolumns, corner, hcorner, by omega⟩

/-- An offset that is small enough is computed without wrapping. -/
theorem toNat_offset {column row : UInt64}
    (h : row.toNat * line.toNat + column.toNat * pixelSpace.toNat < 2 ^ 64) :
    (offset pixelSpace line column row).toNat =
      row.toNat * line.toNat + column.toNat * pixelSpace.toNat := by
  rw [offset, UInt64.toNat_add, UInt64.toNat_mul, UInt64.toNat_mul,
    Nat.mod_eq_of_lt (a := row.toNat * line.toNat) (by omega),
    Nat.mod_eq_of_lt (a := column.toNat * pixelSpace.toNat) (by omega), Nat.mod_eq_of_lt h]

end Word

/-! ## What is accepted, in integers -/

namespace TransferRequest

variable {request : TransferRequest} {raster : Size} {length : Nat}

/-- The arguments are words: offsets with a sign, sizes and strides without one. A buffer has fewer
    than half as many bytes as a word counts. -/
structure InWords (request : TransferRequest) (raster : Size) (length : Nat) : Prop where
  x : -2 ^ 63 ≤ request.x ∧ request.x < 2 ^ 63
  y : -2 ^ 63 ≤ request.y ∧ request.y < 2 ^ 63
  window : request.window.width < 2 ^ 64 ∧ request.window.height < 2 ^ 64
  buffer : request.buffer.width < 2 ^ 64 ∧ request.buffer.height < 2 ^ 64
  pixelSpace : request.pixelSpace < 2 ^ 64
  lineSpace : request.lineSpace < 2 ^ 64
  raster : raster.width < 2 ^ 64 ∧ raster.height < 2 ^ 64
  length : length < 2 ^ 63

/-- The window has pixels and lies inside the raster. -/
def WindowInside (request : TransferRequest) (raster : Size) : Prop :=
  (0 ≤ request.x ∧ 0 ≤ request.y) ∧ (0 < request.window.width ∧ 0 < request.window.height) ∧
    request.x + request.window.width ≤ raster.width ∧
    request.y + request.window.height ≤ raster.height

/-- Bytes from a pixel to the next one; zero stands for packed pixels. -/
def pixelStep (request : TransferRequest) : Int :=
  if request.pixelSpace = 0 then request.type.bytes else request.pixelSpace

/-- Bytes from a row to the next one; zero stands for packed rows. -/
def lineStep (request : TransferRequest) : Int :=
  if request.lineSpace = 0 then request.pixelStep * request.buffer.width else request.lineSpace

/-- The buffer has pixels, they do not begin inside each other, and all of them end inside its
    `length` bytes. -/
def BufferHolds (request : TransferRequest) (length : Nat) : Prop :=
  (0 < request.buffer.width ∧ 0 < request.buffer.height) ∧
    (request.type.bytes : Int) ≤ request.pixelStep ∧
    ((request.buffer.height : Int) - 1) * request.lineStep +
      ((request.buffer.width : Int) - 1) * request.pixelStep + request.type.bytes ≤ length

/-- The step between pixels is the one that the layout of the buffer has. -/
theorem pixelStep_eq (request : TransferRequest) :
    request.pixelStep = (BufferLayout.ofRequest request).pixelSpace := by
  simp only [pixelStep, BufferLayout.ofRequest]
  split <;> rfl

/-- The step between lines is the one that the layout of the buffer has. -/
theorem lineStep_eq (request : TransferRequest) :
    request.lineStep = (BufferLayout.ofRequest request).lineSpace := by
  rw [lineStep, pixelStep_eq]
  simp only [BufferLayout.ofRequest]
  split
  · exact (Int.natCast_mul _ _).symm
  · rfl

/-- A window is inside the raster just if its corner is no negative number and it ends inside. -/
theorem windowInside_iff : request.WindowInside raster ↔
    (0 ≤ request.x ∧ 0 ≤ request.y) ∧ (Window.ofRequest request).Inside raster := by
  constructor
  · rintro ⟨⟨hx, hy⟩, ⟨hwidth, hheight⟩, hright, hlower⟩
    refine ⟨⟨hx, hy⟩, hwidth, hheight, ?_, ?_⟩
    all_goals simp only [Window.ofRequest]
    all_goals omega
  · rintro ⟨⟨hx, hy⟩, hwidth, hheight, hright, hlower⟩
    simp only [Window.ofRequest] at hwidth hheight hright hlower
    exact ⟨⟨hx, hy⟩, ⟨hwidth, hheight⟩, by omega, by omega⟩

/-- The buffer holds the request just if its last pixel ends in it and the steps leave room for
    pixels. -/
theorem bufferHolds_iff : request.BufferHolds length ↔
    (BufferLayout.ofRequest request).Fits length ∧
      request.type.bytes ≤ (BufferLayout.ofRequest request).pixelSpace := by
  -- the end of the last pixel, as an integer; only with at least one row and one column
  have hextent (hheight : 0 < request.buffer.height) (hwidth : 0 < request.buffer.width) :
      ((BufferLayout.ofRequest request).extent : Int) =
        ((request.buffer.height : Int) - 1) * request.lineStep +
          ((request.buffer.width : Int) - 1) * request.pixelStep + request.type.bytes := by
    have hrows : (request.buffer.height : Int) - 1 = (request.buffer.height - 1 : Nat) := by omega
    have hcolumns : (request.buffer.width : Int) - 1 = (request.buffer.width - 1 : Nat) := by omega
    rw [pixelStep_eq, lineStep_eq, hrows, hcolumns, ← Int.natCast_mul, ← Int.natCast_mul,
      ← Int.natCast_add, ← Int.natCast_add]
    rfl
  constructor
  · rintro ⟨⟨hwidth, hheight⟩, hpixel, hlength⟩
    rw [← hextent hheight hwidth] at hlength
    rw [pixelStep_eq] at hpixel
    exact ⟨⟨hwidth, hheight, Int.ofNat_le.mp hlength⟩, Int.ofNat_le.mp hpixel⟩
  · rintro ⟨⟨hwidth, hheight, hlength⟩, hpixel⟩
    refine ⟨⟨hwidth, hheight⟩, ?_, ?_⟩
    · rw [pixelStep_eq]
      exact Int.ofNat_le.mpr hpixel
    · rw [← hextent hheight hwidth]
      exact Int.ofNat_le.mpr hlength

/-- The window is accepted exactly if it lies inside the raster. -/
theorem checkWindow_eq_ok_iff {window : Window} : Window.check request raster = .ok window ↔
    window = .ofRequest request ∧ request.WindowInside raster := by
  rw [Window.check_eq_ok_iff, windowInside_iff]
  constructor
  · rintro ⟨hoffset, rfl, hinside⟩
    exact ⟨rfl, hoffset, hinside⟩
  · rintro ⟨rfl, hoffset, hinside⟩
    exact ⟨hoffset, rfl, hinside⟩

/-- The layout is accepted exactly if the buffer holds it: a row that would be too long for a word
    ends outside every buffer. -/
theorem checkLayout_eq_ok_iff {layout : BufferLayout} (hwords : request.InWords raster length) :
    BufferLayout.check request length = .ok layout ↔
      layout = .ofRequest request ∧ request.BufferHolds length := by
  rw [bufferHolds_iff]
  constructor
  · intro hcheck
    obtain ⟨rfl, hfits, hpixel, -⟩ := BufferLayout.check_eq_ok_iff.mp hcheck
    exact ⟨rfl, hfits, hpixel⟩
  · rintro ⟨rfl, hfits, hpixel⟩
    exact BufferLayout.check_of_extent_le hfits.width_pos hfits.height_pos hpixel hfits.extent_le
      hwords.pixelSpace hwords.lineSpace hwords.length

/-! ## What is accepted, in words -/

/-- A word is zero if its number is. -/
private theorem word_eq_zero_iff {n : Nat} (h : n < 2 ^ 64) : UInt64.ofNat n = 0 ↔ n = 0 := by
  rw [← UInt64.toNat_inj, Word.toNat_word h]
  rfl

variable (request raster) in
/-- The check of a window in words. The sides of the raster bound the ends of the window. -/
def windowInsideWords : Prop :=
  (0 ≤ request.x ∧ 0 ≤ request.y) ∧ (0 < request.window.width ∧ 0 < request.window.height) ∧
    Word.endsBy (.ofNat request.x.toNat) (.ofNat request.window.width) (.ofNat raster.width) ∧
    Word.endsBy (.ofNat request.y.toNat) (.ofNat request.window.height) (.ofNat raster.height)

/-- The check of the window over words decides what it does over the integers. -/
theorem windowInsideWords_iff (hwords : request.InWords raster length) :
    request.windowInsideWords raster ↔ request.WindowInside raster := by
  have hx := hwords.x.2
  have hy := hwords.y.2
  simp only [windowInsideWords, WindowInside, Word.endsBy_iff, Word.toNat_word hwords.window.1,
    Word.toNat_word hwords.window.2, Word.toNat_word hwords.raster.1,
    Word.toNat_word hwords.raster.2, Word.toNat_word (n := request.x.toNat) (by omega),
    Word.toNat_word (n := request.y.toNat) (by omega)]
  omega

variable (request length) in
/-- The check of a layout in words. -/
def bufferHoldsWords : Prop :=
  let pixelSpace : UInt64 := .ofNat (BufferLayout.ofRequest request).pixelSpace
  let width : UInt64 := .ofNat request.buffer.width
  let height : UInt64 := .ofNat request.buffer.height
  let bytes : UInt64 := .ofNat request.type.bytes
  (0 < request.buffer.width ∧ 0 < request.buffer.height) ∧ bytes ≤ pixelSpace ∧
    ∃ line extent, Word.line? width pixelSpace (.ofNat request.lineSpace) = some line ∧
      Word.extent? width height pixelSpace line bytes = some extent ∧ extent ≤ .ofNat length

/-- The size of a pixel is a word. -/
private theorem bytes_lt (type : PixelType) : type.bytes < 2 ^ 64 := by
  cases type <;> decide

/-- The step between pixels is a word if the request is one in words. -/
theorem InWords.pixelSpace_lt (hwords : request.InWords raster length) :
    (BufferLayout.ofRequest request).pixelSpace < 2 ^ 64 := by
  simp only [BufferLayout.ofRequest]
  split
  · exact bytes_lt request.type
  · exact hwords.pixelSpace

/-- The bytes of a row in words are those of the layout, if these are few enough. -/
theorem line?_eq_some_iff (hwords : request.InWords raster length) {line : UInt64} :
    Word.line? (.ofNat request.buffer.width) (.ofNat (BufferLayout.ofRequest request).pixelSpace)
        (.ofNat request.lineSpace) = some line ↔
      line.toNat = (BufferLayout.ofRequest request).lineSpace := by
  rw [Word.line?]
  split
  · next hzero =>
    -- without a line space, a line is as long as its pixels
    rw [word_eq_zero_iff hwords.lineSpace] at hzero
    rw [Word.product?_eq_some_iff, Word.toNat_word hwords.pixelSpace_lt,
      Word.toNat_word hwords.buffer.1]
    simp only [BufferLayout.ofRequest, if_pos hzero]
  · next hne =>
    -- a line space that is given is taken as it is
    rw [word_eq_zero_iff hwords.lineSpace] at hne
    rw [Option.some.injEq, ← UInt64.toNat_inj, Word.toNat_word hwords.lineSpace, eq_comm]
    simp only [BufferLayout.ofRequest, if_neg hne]

/-- The check of the buffer over words decides what it does over the integers. -/
theorem bufferHoldsWords_iff (hwords : request.InWords raster length) :
    request.bufferHoldsWords length ↔ request.BufferHolds length := by
  have hlength : length < 2 ^ 64 := Nat.lt_trans hwords.length (by decide)
  have hspace : UInt64.ofNat request.type.bytes ≤
      UInt64.ofNat (BufferLayout.ofRequest request).pixelSpace ↔
        request.type.bytes ≤ (BufferLayout.ofRequest request).pixelSpace := by
    rw [UInt64.le_iff_toNat_le, Word.toNat_word (bytes_lt _), Word.toNat_word hwords.pixelSpace_lt]
  -- with the bytes of a row as a word, the end of the layout in words is its end
  have hextent {line extent : UInt64}
      (hline : line.toNat = (BufferLayout.ofRequest request).lineSpace)
      (hwidth : 0 < request.buffer.width) (hheight : 0 < request.buffer.height) :
      Word.extent? (.ofNat request.buffer.width) (.ofNat request.buffer.height)
          (.ofNat (BufferLayout.ofRequest request).pixelSpace) line (.ofNat request.type.bytes) =
          some extent ↔
        extent.toNat = (BufferLayout.ofRequest request).extent := by
    rw [Word.extent?_eq_some_iff (by rwa [Word.toNat_word hwords.buffer.1])
      (by rwa [Word.toNat_word hwords.buffer.2]), Word.toNat_word hwords.buffer.1,
      Word.toNat_word hwords.buffer.2, Word.toNat_word hwords.pixelSpace_lt,
      Word.toNat_word (bytes_lt _), hline]
    rfl
  rw [bufferHolds_iff, bufferHoldsWords]
  simp only [hspace, line?_eq_some_iff hwords]
  constructor
  · -- in words: the sums did not overflow, so that they are the sums of naturals
    rintro ⟨⟨hwidth, hheight⟩, hpixel, line, extent, hline, hend, hle⟩
    rw [hextent hline hwidth hheight] at hend
    rw [UInt64.le_iff_toNat_le, Word.toNat_word hlength, hend] at hle
    exact ⟨⟨hwidth, hheight, hle⟩, hpixel⟩
  · -- in naturals: what fits into the buffer fits into words
    rintro ⟨⟨hwidth, hheight, hle⟩, hpixel⟩
    have hline := Word.toNat_word (BufferLayout.lineSpace_lt hwidth hle hwords.pixelSpace
      hwords.lineSpace hwords.length)
    have hend := Word.toNat_word (Nat.lt_of_le_of_lt hle hlength)
    refine ⟨⟨hwidth, hheight⟩, hpixel, _, _, hline, (hextent hline hwidth hheight).mpr hend, ?_⟩
    rwa [UInt64.le_iff_toNat_le, Word.toNat_word hlength, hend]

/-- One of the checks refuses the request. -/
def RefusedWith (request : TransferRequest) (raster : Size) (length : Nat) (error : RasterError) :
    Prop :=
  Window.check request raster = .error error ∨
    ∃ window, Window.check request raster = .ok window ∧
      BufferLayout.check request length = .error error

end TransferRequest

/-! ## What a transfer touches -/

/-- Columns and rows of the pixels of the buffer that a transfer reads or writes. -/
inductive BufferLayout.Touches (descriptor : BandDescriptor) (raster : Size) (window : Window)
    (layout : BufferLayout) : Nat → Nat → Prop
  | nearest {run : List ColumnPair} {pair : ColumnPair} {row : Nat}
      (hrow : row ∈ List.range layout.height) (hrun : run ∈ columnRuns descriptor.block.width
        (nearestCells window.x window.width layout.width)) (hpair : pair ∈ run) :
      Touches descriptor raster window layout pair.target row
  | mean {column row : Nat} (hcell : (column, row) ∈ layout.cells) :
      Touches descriptor raster window layout column row
  | write {x y column row : Nat}
      (hcell : (column, row) ∈ sharedCells descriptor raster window x y) :
      Touches descriptor raster window layout
        (scaled 0 (column - window.x) layout.width window.width)
        (scaled 0 (row - window.y) layout.height window.height)

/-- Every transfer stays inside its buffer's columns and rows. -/
theorem BufferLayout.Touches.lt {descriptor : BandDescriptor} {raster : Size} {window : Window}
    {layout : BufferLayout} {column row length : Nat} (hfits : layout.Fits length)
    (h : layout.Touches descriptor raster window column row) :
    column < layout.width ∧ row < layout.height := by
  cases h with
  | nearest hrow hrun hpair =>
    exact ⟨(PixelModel.source_of_mem_columnRuns hrun hpair).1, List.mem_range.mp hrow⟩
  | mean hcell => exact mem_cells.mp hcell
  | @write x y column row hcell =>
    obtain ⟨hcolumn, hrow⟩ := RasterStore.mem_cells.mp hcell
    dsimp only at hcolumn hrow
    -- a pixel of the window is written from one of the buffer
    have hleft : scaled 0 (column - window.x) layout.width window.width < 0 + layout.width :=
      scaled_lt (by omega) hfits.width_pos
    have htop : scaled 0 (row - window.y) layout.height window.height < 0 + layout.height :=
      scaled_lt (by omega) hfits.height_pos
    rw [Nat.zero_add] at hleft htop
    exact ⟨hleft, htop⟩

/-- The offset of a pixel that a transfer touches is computed in words without wrapping, and the
    pixel ends inside the buffer. -/
theorem BufferLayout.Fits.offset_exact {layout : BufferLayout} {column row length : Nat}
    (hfits : layout.Fits length) (hlength : length < 2 ^ 64) (hspace : layout.pixelSpace < 2 ^ 64)
    (hline : layout.lineSpace < 2 ^ 64) (hbuffer : layout.width < 2 ^ 64 ∧ layout.height < 2 ^ 64)
    (hcolumn : column < layout.width) (hrow : row < layout.height) :
    (Word.offset (.ofNat layout.pixelSpace) (.ofNat layout.lineSpace) (.ofNat column)
        (.ofNat row)).toNat = layout.offset column row ∧
      layout.offset column row + layout.type.bytes ≤ length := by
  -- the pixel ends inside the buffer, so that nothing on the way to it wraps
  have hend := Nat.le_trans (offset_add_le hcolumn hrow) hfits.extent_le
  have hcolumnWord : (UInt64.ofNat column).toNat = column := Word.toNat_word (by omega)
  have hrowWord : (UInt64.ofNat row).toNat = row := Word.toNat_word (by omega)
  have hspaceWord := Word.toNat_word hspace
  have hlineWord := Word.toNat_word hline
  refine ⟨?_, hend⟩
  rw [offset] at hend
  rw [Word.toNat_offset, hcolumnWord, hrowWord, hspaceWord, hlineWord, offset]
  rw [hcolumnWord, hrowWord, hspaceWord, hlineWord]
  omega

/-! ## The checks -/

/-- A request that is refused reads nothing. -/
theorem TransferRequest.RefusedWith.run_readRaw {κ : Type} [Codec κ] {request : TransferRequest}
    {dataset : Dataset κ} {buffer : ByteArray} {error : RasterError}
    (h : request.RefusedWith dataset.size buffer.size error) (band : Nat) (resampling : Resampling) :
    (Band.readRaw band request resampling).run (dataset, buffer) =
      (.error error, (dataset, buffer)) := by
  rcases h with hwindow | ⟨window, hwindow, hlayout⟩
  · simp only [Band.readRaw, run_bind, run_get, run_lift, hwindow]
  · simp only [Band.readRaw, run_bind, run_get, run_lift, hwindow, hlayout]

/-- A request that is refused writes nothing. -/
theorem TransferRequest.RefusedWith.run_writeRaw {κ : Type} [Codec κ] {request : TransferRequest}
    {dataset : Dataset κ} {buffer : ByteArray} {error : RasterError}
    (h : request.RefusedWith dataset.size buffer.size error) (haccess : dataset.access = .update)
    (band : Nat) :
    (Band.writeRaw band request buffer).run dataset = (.error error, dataset) := by
  rcases h with hwindow | ⟨window, hwindow, hlayout⟩
  · simp only [Band.writeRaw, run_bind, run_get, run_lift, Band.checkWritable_of_update haccess,
      hwindow]
  · simp only [Band.writeRaw, run_bind, run_get, run_lift, Band.checkWritable_of_update haccess,
      hwindow, hlayout]

/-- The checks of a transfer are exact.
    * In integers: the window has to lie inside the raster, the buffer has to hold all pixels.
    * In words: the checks come to the same, and a sum or product that is too large for a word only
      occurs where the arguments are refused for being too large as integers.
    * What is accepted is safe: offsets of pixels do not wrap, and all pixels that a transfer
      touches end inside the buffer.
    * What is refused changes neither the dataset nor the buffer. -/
theorem transfer_checks_exact {request : TransferRequest} {raster : Size} {length : Nat}
    (hwords : request.InWords raster length) :
    (∀ window, Window.check request raster = .ok window ↔
      window = .ofRequest request ∧ request.WindowInside raster) ∧
    (∀ layout, BufferLayout.check request length = .ok layout ↔
      layout = .ofRequest request ∧ request.BufferHolds length) ∧
    (request.windowInsideWords raster ↔ request.WindowInside raster) ∧
    (request.bufferHoldsWords length ↔ request.BufferHolds length) ∧
    (∀ window layout, Window.check request raster = .ok window →
      BufferLayout.check request length = .ok layout →
      ∀ descriptor column row, layout.Touches descriptor raster window column row →
        row * layout.lineSpace < 2 ^ 64 ∧ column * layout.pixelSpace < 2 ^ 64 ∧
        (Word.offset (.ofNat layout.pixelSpace) (.ofNat layout.lineSpace) (.ofNat column)
          (.ofNat row)).toNat = layout.offset column row ∧
        layout.offset column row + layout.type.bytes ≤ length) ∧
    (∀ {κ : Type} [Codec κ] (dataset : Dataset κ) (buffer : ByteArray) (error : RasterError)
      (band : Nat), dataset.size = raster → buffer.size = length →
      request.RefusedWith raster length error →
      (∀ resampling, (Band.readRaw band request resampling).run (dataset, buffer) =
        (.error error, (dataset, buffer))) ∧
      (dataset.access = .update →
        (Band.writeRaw band request buffer).run dataset = (.error error, dataset) ∧
        (Band.writeResampled band request .nearest buffer).run dataset =
          (.error error, dataset))) := by
  refine ⟨fun _ => TransferRequest.checkWindow_eq_ok_iff,
    fun _ => TransferRequest.checkLayout_eq_ok_iff hwords,
    TransferRequest.windowInsideWords_iff hwords, TransferRequest.bufferHoldsWords_iff hwords,
    ?safe, ?refused⟩
  case safe =>
    -- a layout that passes the check lies in the buffer, whose length is a word
    intro window layout _ hlayout descriptor column row htouched
    obtain ⟨rfl, hfits, -, hline, hextent⟩ := BufferLayout.check_eq_ok_iff.mp hlayout
    have hlength : length < 2 ^ 64 := Nat.lt_trans hwords.length (by decide)
    obtain ⟨hcolumn, hrow⟩ := htouched.lt hfits
    obtain ⟨hword, hend⟩ := hfits.offset_exact hlength hwords.pixelSpace_lt hline hwords.buffer
      hcolumn hrow
    -- both products are parts of an offset that lies inside the buffer
    have hparts := hend
    rw [BufferLayout.offset] at hparts
    exact ⟨by omega, by omega, hword, hend⟩
  case refused =>
    -- the transfer makes the same checks before it touches block or buffer
    rintro κ _ dataset buffer error band rfl rfl hrefused
    refine ⟨hrefused.run_readRaw band, fun haccess => ⟨hrefused.run_writeRaw haccess band, ?_⟩⟩
    rw [Band.writeResampled, run_bind, run_get]
    simp only [Band.checkWritable_of_update haccess, run_bind, run_lift]
    exact hrefused.run_writeRaw haccess band

/-- One pixel for one row of as many pixels as a word counts. -/
def TransferRequest.widestRow : TransferRequest :=
  { x := 0, y := 0, window := ⟨1, 1⟩, buffer := ⟨2 ^ 64 - 1, 1⟩, type := .float64 }

open TransferRequest in
/-- The bytes of the row are too many for a word, although no other row starts behind it. The
    request is refused, as it should be: no buffer holds the row. -/
theorem transfer_checks_exact_widest :
    widestRow.InWords ⟨1, 1⟩ 16 ∧
      Word.line? (.ofNat widestRow.buffer.width) 8 (.ofNat widestRow.lineSpace) = none ∧
      Window.check widestRow ⟨1, 1⟩ = .ok ⟨0, 0, 1, 1⟩ ∧
      ¬∃ layout, BufferLayout.check widestRow 16 = .ok layout := by
  have hwords : widestRow.InWords ⟨1, 1⟩ 16 := by
    constructor <;> decide
  obtain ⟨hwindow, hlayout, -⟩ := transfer_checks_exact hwords
  have hinside : widestRow.WindowInside ⟨1, 1⟩ := by
    unfold WindowInside
    decide
  -- the line would be too long for a word
  have htooLong : ¬widestRow.BufferHolds 16 := by
    unfold BufferHolds
    decide
  refine ⟨hwords, by decide, (hwindow _).mpr ⟨rfl, hinside⟩, ?_⟩
  rintro ⟨layout, haccepted⟩
  exact htooLong ((hlayout layout).mp haccepted).2

end RasterStore
