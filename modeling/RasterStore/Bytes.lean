/-!
# Byte strings and the numbers in them

Pixels, blocks and files are `ByteArray`s. All changes to them go through `ByteArray.overwrite`,
which replaces a piece inside a byte string, and `ByteArray.overwriteEach`, which does so for a
list of places. The view is the piece of `length` bytes at an offset, `ByteArray.slice`:

* `slice_overwrite_self`      the piece just written is read back
* `slice_overwrite_of_le`     a piece that ends before the written one keeps its bytes
* `slice_overwrite_of_ge`     so does a piece that begins behind it

Numbers are stored with the least significant byte first: `littleEndian` and `ofLittleEndian` are
inverse to each other on numbers that fit, which are those below `byteLimit`
(`ofLittleEndian_littleEndian`).
-/

namespace ByteArray

/-- A byte string of `n` zeros. -/
def zeros (n : Nat) : ByteArray :=
  ⟨Array.replicate n 0⟩

/-- Replaces the bytes from `offset` on by `piece`. -/
def overwrite (bytes : ByteArray) (offset : Nat) (piece : ByteArray) : ByteArray :=
  piece.copySlice 0 bytes offset piece.size false

/-- The `length` bytes from `offset` on. -/
def slice (bytes : ByteArray) (offset length : Nat) : ByteArray :=
  bytes.extract offset (offset + length)

/-- The byte at an offset, zero behind the end. -/
def byteAt (bytes : ByteArray) (offset : Nat) : UInt8 :=
  if h : offset < bytes.size then bytes[offset] else 0

/-- The first bytes are those given. -/
def startsWith (bytes start : ByteArray) : Bool :=
  bytes.slice 0 start.size == start

/-- Writes one piece for each item, in the order of the list. -/
def overwriteEach {ι : Type} (bytes : ByteArray) (items : List ι) (place : ι → Nat)
    (piece : ι → ByteArray) : ByteArray :=
  items.foldl (fun written item => written.overwrite (place item) (piece item)) bytes

/-! ## Sizes -/

@[simp] theorem size_zeros (n : Nat) : (zeros n).size = n := by
  simp [zeros, ByteArray.size]

/-- What is overwritten are the bytes from the offset on, as many as the piece has. -/
theorem data_overwrite (bytes piece : ByteArray) (offset : Nat) :
    (bytes.overwrite offset piece).data =
      bytes.data.extract 0 offset ++ piece.data ++
        bytes.data.extract (offset + piece.size) bytes.size := by
  rw [overwrite, copySlice_eq_append]
  simp

/-- Overwriting inside leaves the number of bytes alone. -/
theorem size_overwrite {bytes piece : ByteArray} {offset : Nat}
    (h : offset + piece.size ≤ bytes.size) :
    (bytes.overwrite offset piece).size = bytes.size := by
  have := congrArg Array.size (data_overwrite bytes piece offset)
  simp only [Array.size_append, Array.size_extract] at this
  simp only [ByteArray.size] at *
  omega

@[simp] theorem size_slice (bytes : ByteArray) (offset length : Nat) :
    (bytes.slice offset length).size = min length (bytes.size - offset) := by
  simp only [slice, size_extract]
  omega

/-- A slice that ends inside has its full length. -/
theorem size_slice_of_le {bytes : ByteArray} {offset length : Nat}
    (h : offset + length ≤ bytes.size) : (bytes.slice offset length).size = length := by
  simp only [size_slice]
  omega

/-! ## Reading what was written -/

/-- A slice is a copy of the bytes from an offset on. -/
private theorem data_slice (bytes : ByteArray) (offset length : Nat) :
    (bytes.slice offset length).data = bytes.data.extract offset (offset + length) := by
  simp [slice]

/-- The piece just written is read back. -/
theorem slice_overwrite_self {bytes piece : ByteArray} {offset : Nat} (h : offset ≤ bytes.size) :
    (bytes.overwrite offset piece).slice offset piece.size = piece := by
  apply ByteArray.ext
  rw [data_slice, data_overwrite]
  simp only [ByteArray.size] at *
  apply Array.ext
  · simp only [Array.size_extract, Array.size_append]
    omega
  · -- every byte of the slice lies in the middle one of the three parts
    intro i h₁ h₂
    rw [Array.getElem_extract, Array.getElem_append, dif_pos, Array.getElem_append, dif_neg]
    · congr 1
      simp only [Array.size_extract]
      omega
    · simp only [Array.size_extract]
      omega
    · simp only [Array.size_extract, Array.size_append]
      omega

/-- A piece that ends before the written one keeps its bytes. -/
theorem slice_overwrite_of_le {bytes piece : ByteArray} {offset start length : Nat}
    (h : start + length ≤ offset) (hoffset : offset ≤ bytes.size) :
    (bytes.overwrite offset piece).slice start length = bytes.slice start length := by
  apply ByteArray.ext
  rw [data_slice, data_slice, data_overwrite]
  simp only [ByteArray.size] at *
  apply Array.ext
  · simp only [Array.size_extract, Array.size_append]
    omega
  · -- every byte of the slice lies in the first part
    intro i h₁ h₂
    simp only [Array.size_extract, Array.size_append] at h₁ h₂
    rw [Array.getElem_extract, Array.getElem_extract, Array.getElem_append, dif_pos,
      Array.getElem_append, dif_pos, Array.getElem_extract]
    · congr 1
      omega
    · simp only [Array.size_extract]
      omega
    · simp only [Array.size_extract, Array.size_append]
      omega

/-- A piece that begins behind the written one keeps its bytes. -/
theorem slice_overwrite_of_ge {bytes piece : ByteArray} {offset start length : Nat}
    (h : offset + piece.size ≤ start) (hoffset : offset ≤ bytes.size) :
    (bytes.overwrite offset piece).slice start length = bytes.slice start length := by
  apply ByteArray.ext
  rw [data_slice, data_slice, data_overwrite]
  simp only [ByteArray.size] at *
  apply Array.ext
  · simp only [Array.size_extract, Array.size_append]
    omega
  · -- every byte of the slice lies in the last part, which starts where the piece ends
    intro i h₁ h₂
    simp only [Array.size_extract, Array.size_append] at h₁ h₂
    rw [Array.getElem_extract, Array.getElem_extract, Array.getElem_append, dif_neg,
      Array.getElem_extract]
    · congr 1
      simp only [Array.size_extract, Array.size_append]
      omega
    · simp only [Array.size_extract, Array.size_append]
      omega

end ByteArray

namespace RasterStore

/-! ## Numbers -/

/-- The `width` bytes of a number, least significant byte first; higher bytes are dropped. -/
def littleEndian : (width : Nat) → (n : Nat) → List UInt8
  | 0, _ => []
  | width + 1, n => UInt8.ofNat n :: littleEndian width (n / 256)

/-- The first number that takes more than `width` bytes. -/
def byteLimit : (width : Nat) → Nat
  | 0 => 1
  | width + 1 => 256 * byteLimit width

/-- Byte strings that are held in memory are shorter than this. -/
def memoryLimit : Nat :=
  byteLimit 8 / 2

/-- The number with the given bytes, least significant byte first. -/
def ofLittleEndian : List UInt8 → Nat
  | [] => 0
  | byte :: rest => byte.toNat + 256 * ofLittleEndian rest

@[simp] theorem length_littleEndian (width n : Nat) : (littleEndian width n).length = width := by
  induction width generalizing n with
  | zero => rfl
  | succ width ih => simp [littleEndian, ih]

/-- There is a number of every width. -/
theorem byteLimit_pos (width : Nat) : 0 < byteLimit width := by
  induction width with
  | zero => exact Nat.one_pos
  | succ width ih => exact Nat.mul_pos (by decide) ih

/-- Writing a number and reading it back drops its higher bytes. -/
theorem ofLittleEndian_littleEndian (width n : Nat) :
    ofLittleEndian (littleEndian width n) = n % byteLimit width := by
  induction width generalizing n with
  | zero => simp [littleEndian, ofLittleEndian, byteLimit, Nat.mod_one]
  | succ width ih =>
    simp only [littleEndian, ofLittleEndian, ih, byteLimit]
    -- the lowest byte, and the others moved down by one place
    rw [Nat.mod_mul, UInt8.toNat_ofNat']

/-- Bytes make a number below the limit of their width. -/
theorem ofLittleEndian_lt (bytes : List UInt8) :
    ofLittleEndian bytes < byteLimit bytes.length := by
  induction bytes with
  | nil => exact Nat.one_pos
  | cons byte rest ih =>
    have := byte.toNat_lt
    simp only [ofLittleEndian, List.length_cons, byteLimit]
    omega

/-- The number in the `width` bytes from `offset` on, least significant byte first. -/
def numberAt (bytes : ByteArray) (offset width : Nat) : Nat :=
  ofLittleEndian ((List.range width).map fun i => bytes.byteAt (offset + i))

/-- The `width` bytes of a number as a byte string. -/
def numberBytes (width n : Nat) : ByteArray :=
  (littleEndian width n).toByteArray

@[simp] theorem size_numberBytes (width n : Nat) : (numberBytes width n).size = width := by
  simp [numberBytes]

/-- The text as bytes; every character of it is ASCII. -/
def asciiBytes (text : String) : ByteArray :=
  text.toUTF8

end RasterStore
