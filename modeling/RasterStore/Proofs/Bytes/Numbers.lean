import RasterStore.Proofs.Bytes.Pieces

/-!
# Numbers inside byte strings

A number depends on its own bytes only (`numberAt_congr`), so it is found again in a record that
is put together from parts: `numberAt_append_of_lt` and `numberAt_append_of_ge` go to the part that
holds it, and `numberAt_numberBytes` reads it.
-/

namespace RasterStore

open ByteArray

/-- A number depends on its own bytes only. -/
theorem numberAt_congr {a b : ByteArray} {i j width : Nat}
    (h : ∀ k, k < width → a.byteAt (i + k) = b.byteAt (j + k)) :
    numberAt a i width = numberAt b j width := by
  unfold numberAt
  congr 1
  apply List.map_congr_left
  intro k hk
  exact h k (List.mem_range.mp hk)

/-- A number in a slice is one of the whole. -/
theorem numberAt_slice {bytes : ByteArray} {offset length start width : Nat}
    (h : start + width ≤ length) :
    numberAt (bytes.slice offset length) start width = numberAt bytes (offset + start) width := by
  apply numberAt_congr
  intro k hk
  rw [byteAt_slice, if_pos (by omega), Nat.add_assoc]

theorem numberAt_append_of_lt {a b : ByteArray} {offset width : Nat}
    (h : offset + width ≤ a.size) : numberAt (a ++ b) offset width = numberAt a offset width := by
  apply numberAt_congr
  intro k hk
  rw [byteAt_append, if_pos (by omega)]

theorem numberAt_append_of_ge {a b : ByteArray} {offset width : Nat} (h : a.size ≤ offset) :
    numberAt (a ++ b) offset width = numberAt b (offset - a.size) width := by
  apply numberAt_congr
  intro k hk
  rw [byteAt_append, if_neg (by omega)]
  congr 1
  omega

/-- A byte string is read as the number that its bytes form. -/
theorem numberAt_toByteArray (bytes : List UInt8) :
    numberAt bytes.toByteArray 0 bytes.length = ofLittleEndian bytes := by
  rw [numberAt]
  congr 1
  apply List.ext_getElem
  · simp
  · intro i hi hi'
    rw [List.getElem_map, List.getElem_range, Nat.zero_add,
      byteAt_of_lt (by simpa using hi)]
    exact List.getElem_toByteArray

/-- The bytes of a number are read as the number, as far as it fits. -/
theorem numberAt_numberBytes (width n : Nat) :
    numberAt (numberBytes width n) 0 width = n % byteLimit width := by
  have hread := numberAt_toByteArray (littleEndian width n)
  rwa [length_littleEndian, ofLittleEndian_littleEndian] at hread

/-- The bytes of a number that is read are those that it is read from. -/
theorem littleEndian_ofLittleEndian (bytes : List UInt8) :
    littleEndian bytes.length (ofLittleEndian bytes) = bytes := by
  induction bytes with
  | nil => rfl
  | cons byte rest ih =>
    have hbyte := byte.toNat_lt
    have hlow : UInt8.ofNat (byte.toNat + 256 * ofLittleEndian rest) = byte := by
      apply UInt8.toNat_inj.mp
      rw [UInt8.toNat_ofNat']
      omega
    have hhigh : (byte.toNat + 256 * ofLittleEndian rest) / 256 = ofLittleEndian rest := by omega
    rw [ofLittleEndian, List.length_cons, littleEndian, hlow, hhigh, ih]

/-- Numbers of one width are told apart by their bytes. -/
theorem ofLittleEndian_inj {a b : List UInt8} (h : a.length = b.length) :
    ofLittleEndian a = ofLittleEndian b ↔ a = b := by
  refine ⟨fun hnumber => ?_, fun hbytes => by rw [hbytes]⟩
  rw [← littleEndian_ofLittleEndian a, hnumber, h, littleEndian_ofLittleEndian]

/-- A number that is read is below the limit of its width. -/
theorem numberAt_lt (bytes : ByteArray) (offset width : Nat) :
    numberAt bytes offset width < byteLimit width := by
  have hlt := ofLittleEndian_lt ((List.range width).map fun i => bytes.byteAt (offset + i))
  rwa [List.length_map, List.length_range] at hlt

/-- A number that is read is written as the bytes that it was read from. -/
theorem littleEndian_numberAt (bytes : ByteArray) (offset width : Nat) :
    littleEndian width (numberAt bytes offset width) =
      (List.range width).map fun i => bytes.byteAt (offset + i) := by
  have hback := littleEndian_ofLittleEndian
    ((List.range width).map fun i => bytes.byteAt (offset + i))
  rwa [List.length_map, List.length_range] at hback

/-- A single byte is a number of one byte. -/
theorem toNat_byteAt (bytes : ByteArray) (offset : Nat) :
    (bytes.byteAt offset).toNat = numberAt bytes offset 1 := by
  simp [numberAt, List.range_succ, ofLittleEndian]

end RasterStore
