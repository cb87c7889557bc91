import RasterStore.Pixel.Convert
import RasterStore.Proofs.Bytes.Numbers
import RasterStore.Proofs.Pixel.ExactIntegers

/-!
# Pixels that are stored and loaded

What comes back of a value that was stored in a component. An integer component keeps the low bits
of an integer (`Component.wrap`), one of 64 bits keeps a float as it is. The other way round nothing
is lost: the bytes of integers are found again from their values (`Pixel.encode_decode`).
-/

namespace RasterStore

open ByteArray

/-! ## Components -/

/-- The integer that an integer component keeps of a value: its low bits, with the highest of them
    as the sign if the component has one. -/
def Component.wrap : Component → Int → Int
  | .unsigned width, value => value % byteLimit width
  | .signed width, value => Int.bmod value (byteLimit width)
  | _, value => value

@[simp] theorem Component.wrap_wrap (component : Component) (value : Int) :
    component.wrap (component.wrap value) = component.wrap value := by
  cases component with
  | unsigned width => exact Int.emod_emod_of_dvd value (Int.dvd_refl _)
  | signed width => exact Int.bmod_bmod
  | single => rfl
  | double => rfl

namespace Sample

/-- What comes back of a sample that is stored in a component. -/
def stored (component : Component) (sample : Sample) : Sample :=
  decode component (ofLittleEndian (sample.encode component))

/-- An unsigned component stores an integer that wraps. -/
theorem stored_unsigned (width : Nat) (sample : Sample) :
    sample.stored (.unsigned width) = .int (Component.wrap (.unsigned width) sample.toInt) := by
  have hlimit := byteLimit_pos width
  have hlow := Int.emod_nonneg sample.toInt (b := byteLimit width) (by omega)
  have hhigh := Int.emod_lt_of_pos sample.toInt (b := byteLimit width) (by omega)
  rw [stored, encode, ofLittleEndian_littleEndian, Nat.mod_eq_of_lt (by omega), decode,
    Int.toNat_of_nonneg hlow]
  rfl

/-- A signed component stores an integer that wraps. -/
theorem stored_signed (width : Nat) (sample : Sample) :
    sample.stored (.signed width) = .int (Component.wrap (.signed width) sample.toInt) := by
  have hlimit := byteLimit_pos width
  have hlow := Int.emod_nonneg sample.toInt (b := byteLimit width) (by omega)
  have hhigh := Int.emod_lt_of_pos sample.toInt (b := byteLimit width) (by omega)
  rw [stored, encode, ofLittleEndian_littleEndian, Nat.mod_eq_of_lt (by omega), decode,
    Int.toNat_of_nonneg hlow, Int.emod_bmod]
  rfl

/-- The bytes of an integer are those that it was read from. -/
theorem encode_decode_unsigned {width stored : Nat} (h : stored < byteLimit width) :
    (decode (.unsigned width) stored).encode (.unsigned width) = littleEndian width stored := by
  rw [decode, encode, toInt, Int.emod_eq_of_lt (by omega) (by omega), Int.toNat_natCast]

theorem encode_decode_signed {width stored : Nat} (h : stored < byteLimit width) :
    (decode (.signed width) stored).encode (.signed width) = littleEndian width stored := by
  rw [decode, encode, toInt, Int.bmod_emod, Int.emod_eq_of_lt (by omega) (by omega),
    Int.toNat_natCast]

/-- An integer and the float that has it are stored alike. -/
theorem encode_ofInt {value : Int} (h : IsExact value) (component : Component) :
    (Sample.real (.ofInt value)).encode component = (Sample.int value).encode component := by
  have htruncated : truncated (Binary64.ofInt value).toFloat = value := by
    rw [Binary64.toFloat_ofInt, truncated_ofInt h]
  cases component with
  | unsigned width | signed width => rw [encode, encode, toInt, toInt, htruncated]
  | single => rfl
  | double => rfl

end Sample

/-! ## Integer types -/

namespace PixelType

variable {type : PixelType}

/-- Integers take at most four bytes. -/
theorem component_of_isInteger (h : type.isInteger = true) :
    ∃ width, byteLimit width ≤ 2 ^ 32 ∧
      (type.component = .unsigned width ∨ type.component = .signed width) := by
  cases type
  case byte => exact ⟨1, by decide, .inl rfl⟩
  case uint16 => exact ⟨2, by decide, .inl rfl⟩
  case uint32 => exact ⟨4, by decide, .inl rfl⟩
  case int16 | complexInt16 => exact ⟨2, by decide, .inr rfl⟩
  case int32 | complexInt32 => exact ⟨4, by decide, .inr rfl⟩
  all_goals exact absurd h (by decide)

/-- The integers that integer types hold are exact as floats. -/
theorem isExact_wrap (h : type.isInteger = true) (value : Int) :
    IsExact (type.component.wrap value) := by
  obtain ⟨width, hwidth, hcomponent | hcomponent⟩ := component_of_isInteger h
  · have hlimit := byteLimit_pos width
    have hlow := Int.emod_nonneg value (b := byteLimit width) (by omega)
    have hhigh := Int.emod_lt_of_pos value (b := byteLimit width) (by omega)
    rw [hcomponent, Component.wrap, IsExact]
    omega
  · have hlow := Int.le_bmod (x := value) (byteLimit_pos width)
    have hhigh := Int.bmod_lt (x := value) (byteLimit_pos width)
    rw [hcomponent, Component.wrap, IsExact]
    omega

/-- An integer type stores a sample as an integer, and keeps of it what fits. -/
theorem stored_of_isInteger (h : type.isInteger = true) (sample : Sample) :
    sample.stored type.component = .int (type.component.wrap sample.toInt) := by
  obtain ⟨width, -, hcomponent | hcomponent⟩ := component_of_isInteger h
  · rw [hcomponent, Sample.stored_unsigned]
  · rw [hcomponent, Sample.stored_signed]

/-- A component of an integer type is written back as the bytes that it was read from. -/
theorem encode_decode_of_isInteger (h : type.isInteger = true) {stored : Nat}
    (hstored : stored < byteLimit type.componentBytes) :
    (Sample.decode type.component stored).encode type.component =
      littleEndian type.componentBytes stored := by
  rw [componentBytes] at hstored ⊢
  obtain ⟨width, -, hcomponent | hcomponent⟩ := component_of_isInteger h
  · rw [hcomponent] at hstored ⊢
    exact Sample.encode_decode_unsigned hstored
  · rw [hcomponent] at hstored ⊢
    exact Sample.encode_decode_signed hstored

end PixelType

/-! ## Pixels -/

namespace Pixel

/-- A pixel that is written and read back is what its type can store of it. -/
theorem decode_encode (type : PixelType) (pixel : Pixel) :
    decode type (pixel.encode type) 0 =
      ⟨pixel.re.stored type.component,
        if type.isComplex then pixel.im.stored type.component else .int 0⟩ := by
  have hlength (sample : Sample) : (sample.encode type.component).length = type.componentBytes :=
    Sample.length_encode _ _
  -- one component comes back as it is stored
  have hread (sample : Sample) : Sample.decode type.component
      (numberAt (sample.encode type.component).toByteArray 0 type.componentBytes) =
        sample.stored type.component := by
    rw [← hlength sample, numberAt_toByteArray]
    rfl
  have hsize (sample : Sample) :
      (sample.encode type.component).toByteArray.size = type.componentBytes := by
    rw [List.size_toByteArray, hlength]
  unfold decode encode
  dsimp only
  -- the second component starts behind the bytes of the first
  split
  · rw [List.toByteArray_append, numberAt_append_of_lt (by rw [hsize]; omega),
      numberAt_append_of_ge (by rw [hsize]; omega), hsize, Nat.zero_add, Nat.sub_self, hread, hread]
  · rw [hread]

/-- Integers and the floats that have them are stored alike. -/
theorem encode_ofInt {re im : Int} (hre : IsExact re) (him : IsExact im)
    (type : PixelType) :
    (Pixel.mk (.real (.ofInt re)) (.real (.ofInt im))).encode type =
      (Pixel.mk (.int re) (.int im)).encode type := by
  simp only [encode, Sample.encode_ofInt hre, Sample.encode_ofInt him]

/-- The bytes of integers are found again from their values. -/
theorem encode_decode {type : PixelType} (h : type.isInteger = true) {bytes : ByteArray}
    (hsize : bytes.size = type.bytes) : (decode type bytes 0).encode type = bytes := by
  -- all bytes are those of one component, or of two behind each other
  have hall : ((List.range type.bytes).map bytes.byteAt).toByteArray = bytes := by
    apply ext_byteAt
    · rw [List.size_toByteArray, List.length_map, List.length_range, hsize]
    · intro i hi
      rw [byteAt_of_lt hi]
      simp [List.getElem_toByteArray]
  have hpart (offset : Nat) : (Sample.decode type.component
      (numberAt bytes offset type.componentBytes)).encode type.component =
        (List.range type.componentBytes).map fun i => bytes.byteAt (offset + i) := by
    rw [PixelType.encode_decode_of_isInteger h (numberAt_lt _ _ _), littleEndian_numberAt]
  rw [PixelType.bytes] at hall
  unfold encode decode
  by_cases hcomplex : type.isComplex = true
  · simp only [hcomplex, if_true, Nat.two_mul, List.range_add, List.map_append, List.map_map]
      at hall ⊢
    rw [hpart, hpart]
    simp only [Nat.zero_add]
    exact hall
  · simp only [if_neg hcomplex] at hall ⊢
    rw [hpart]
    simpa only [Nat.zero_add] using hall

end Pixel

end RasterStore
