import RasterStore.Pixel.Value
import RasterStore.Proofs.Pixel.WholeFloats

/-!
# Integers as 64-bit floats

A 64-bit float has every integer of less than 54 bits as it is, and arithmetic that stays among
these integers rounds nothing.

* `add_ofInt`, `divide_ofInt`  sums and quotients of integers are those of the integers
* `truncated_of_unpack`        cutting off an integer changes nothing
* `truncated_of_sameNumber`    a float equals at most one integer, which is found by cutting it off
-/

namespace RasterStore

open Float.Model Float.Model.UnpackedFloat

/-! ## Machine floats -/

/-- The machine float that has an integer. -/
def wholeMachine (value : Int) : Float :=
  .ofModel (.pack (wholeInt value))

/-- The float of an exact integer has that integer as its value. -/
theorem unpack_wholeMachine {value : Int} (h : IsExact value) :
    (wholeMachine value).toModel.unpack = wholeInt value :=
  unpack_pack_wholeInt h

/-- The float of an exact integer is a number. -/
theorem wholeMachine_ne_nan {value : Int} (h : IsExact value) : wholeMachine value ≠ .nan := by
  intro hnan
  have hnumber : wholeInt value = .notANumber := by
    rw [← unpack_wholeMachine h, hnan]
    rfl
  rw [wholeInt, wholeFloat] at hnumber
  split at hnumber <;> contradiction

/-- Converting a number multiplies it by one, which rounds nothing. -/
theorem ofNat_eq_wholeMachine {number : Nat} (h : number < 2 ^ 53) :
    Float.ofNat number = wholeMachine number := by
  have hexact : IsExact number := by rwa [IsExact, Int.natAbs_natCast]
  -- the conversion from a word loses nothing
  have hconverted : UnpackedFloat.ofUInt64 Format.binary64 number.toUInt64 = wholeInt number := by
    have hnormal := normalize_wholeInt hexact 0
    rw [Nat.pow_zero, Int.natCast_one, Int.mul_one] at hnormal
    have hlt : number < 2 ^ 64 := Nat.lt_trans h (by decide)
    rw [UnpackedFloat.ofUInt64, UnpackedFloat.ofNat, UnpackedFloat.ofInt,
      Nat.toUInt64, UInt64.toNat_ofNat_of_lt' hlt]
    exact hnormal
  have hone : (Float.ofBits 0x3FF0000000000000).toModel.unpack =
      .finite .positive (2 ^ 52) (-52) (by decide) := rfl
  -- a float from a natural below `2 ^ 53` is the word times one
  have hscientific : Float.ofNat number =
      number.toUInt64.toFloat * Float.ofBits 0x3FF0000000000000 := by
    unfold Float.ofNat
    show Float.ofScientific number false 0 = _
    unfold Float.ofScientific
    rw [dif_pos ⟨h, by decide⟩]
    rfl
  rw [hscientific]
  show Float.ofModel (.pack (UnpackedFloat.mul Format.binary64
    (UnpackedFloat.unpack Format.binary64 (UnpackedFloat.pack Format.binary64
      (UnpackedFloat.ofUInt64 Format.binary64 number.toUInt64))) _)) = _
  rw [hconverted, unpack_pack_wholeInt hexact, hone, mul_one_wholeInt hexact]
  rfl

/-- An exact integer is converted to its float without rounding. -/
theorem ofInt_eq_wholeMachine {value : Int} (h : IsExact value) :
    Float.ofInt value = wholeMachine value := by
  cases value with
  | ofNat number => exact ofNat_eq_wholeMachine h
  | negSucc number =>
    have hexact : IsExact (number + 1 : Nat) := h
    have hne : ((number + 1 : Nat) : Int) ≠ 0 := by omega
    have hnumber : Float.ofNat (number + 1) = wholeMachine (number + 1 : Nat) :=
      ofNat_eq_wholeMachine h
    -- a negative integer is the negated float of its absolute value
    show -(Float.ofNat (number + 1)) = _
    rw [hnumber]
    show Float.ofModel (.pack
      (UnpackedFloat.neg (wholeMachine (number + 1 : Nat)).toModel.unpack)) = _
    rw [unpack_wholeMachine hexact, neg_wholeInt hne]
    rfl

namespace Binary64

@[simp] theorem toFloat_ofInt (value : Int) : (ofInt value).toFloat = Float.ofInt value :=
  Float.ofBits_toBits _

/-- Whether a float is a number is written in its bits. -/
private theorem isNaN_iff_bits {value : Binary64} :
    value.isNaN = true ↔ @isNaNBits Format.binary64 value.bits.toBitVec = true := by
  -- not a number: all bits of the exponent are ones, and the mantissa is not zero
  have hexponent : @unpackExponent Format.binary64 value.bits.toBitVec = -1#_ ↔
      value.bits.toNat / 2 ^ 52 % 2 ^ 11 = 2047 := by
    rw [← BitVec.toNat_inj]
    simp [unpackExponent, BitVec.extractLsb_toNat, Nat.shiftRight_eq_div_pow, Format.binary64]
  have hmantissa : @unpackMantissa Format.binary64 value.bits.toBitVec = 0#_ ↔
      value.bits.toNat % 2 ^ 52 = 0 := by
    rw [← BitVec.toNat_inj]
    simp [unpackMantissa, BitVec.extractLsb_toNat, Format.binary64]
  -- which is what the shifted bits say, as the sign is shifted out
  have hbits : value.isNaN = true ↔ 2047 * 2 ^ 53 < value.bits.toNat * 2 % 2 ^ 64 := by
    rw [isNaN, decide_eq_true_iff, gt_iff_lt, UInt64.lt_iff_toNat_lt, UInt64.toNat_shiftLeft,
      Nat.shiftLeft_eq]
    rfl
  have hlt := value.bits.toNat_lt
  rw [isNaNBits, decide_eq_true_iff, hexponent, Ne, hmantissa, hbits]
  omega

/-- There are many ways not to be a number, but only one machine float that is none. -/
theorem isNaN_iff {value : Binary64} : value.isNaN = true ↔ value.toFloat = .nan := by
  have hmachine : value.toFloat = .nan ↔
      UnpackedFloat.pack Format.binary64
        (UnpackedFloat.unpack Format.binary64 value.bits.toBitVec) =
        packedNaN Format.binary64 := by
    rw [← Float.toBits_inj, ← UInt64.toBitVec_inj]
    rfl
  -- packing keeps all bits, but makes one value of all that are not numbers
  rw [hmachine, pack_unpack, isNaN_iff_bits]
  split
  · next hbits => exact iff_of_true hbits rfl
  · next hbits =>
    refine iff_of_false hbits fun hnone => hbits ?_
    rw [hnone]
    exact isNaNBits_packedNaN

/-- An exact integer is a number. -/
theorem isNaN_ofInt {value : Int} (h : IsExact value) : (ofInt value).isNaN = false := by
  rw [Bool.eq_false_iff, Ne, isNaN_iff, toFloat_ofInt, ofInt_eq_wholeMachine h]
  exact wholeMachine_ne_nan h

/-- Exact integers are added without rounding if their sum is exact. -/
theorem add_ofInt {first second : Int} (hfirst : IsExact first) (hsecond : IsExact second)
    (hsum : IsExact (first + second)) :
    (ofInt first).add (ofInt second) = ofInt (first + second) := by
  -- on the machine the sum is the one of the integers
  have hmachine : wholeMachine first + wholeMachine second = wholeMachine (first + second) := by
    show Float.ofModel (.pack (UnpackedFloat.add Format.binary64
      (wholeMachine first).toModel.unpack (wholeMachine second).toModel.unpack)) = _
    rw [unpack_wholeMachine hfirst, unpack_wholeMachine hsecond,
      add_wholeInt hfirst hsecond hsum]
    rfl
  -- the sum is a number, so it is kept as it is
  have hnumber : (wholeMachine (first + second)).isNaN = false := by
    rw [Float.isNaN_eq_decide_eq_nan]
    exact decide_eq_false (wholeMachine_ne_nan hsum)
  rw [add, isNaN_ofInt hfirst, isNaN_ofInt hsecond, toFloat_ofInt, toFloat_ofInt,
    ofInt_eq_wholeMachine hfirst, ofInt_eq_wholeMachine hsecond, hmachine]
  simp only [hnumber, Bool.false_eq_true, if_false]
  rw [ofInt, ofInt_eq_wholeMachine hsum]

/-- A multiple of an exact integer is divided without rounding if the multiple is exact. -/
theorem divide_ofInt {value : Int} {count : Nat} (hcount : 0 < count) (hlt : count < 2 ^ 53)
    (hproduct : IsExact (count * value)) (hvalue : IsExact value) :
    (ofInt (count * value)).divide count = ofInt value := by
  have hexact : IsExact count := by rwa [IsExact, Int.natAbs_natCast]
  -- on the machine the quotient is the one of the integers
  have hmachine : wholeMachine (count * value) / wholeMachine count = wholeMachine value := by
    show Float.ofModel (.pack (UnpackedFloat.div Format.binary64
      (wholeMachine (count * value)).toModel.unpack (wholeMachine count).toModel.unpack)) = _
    rw [unpack_wholeMachine hproduct, unpack_wholeMachine hexact, div_wholeInt hcount hproduct]
    rfl
  rw [divide, isNaN_ofInt hproduct, toFloat_ofInt, ofInt_eq_wholeMachine hproduct,
    ofNat_eq_wholeMachine hlt, hmachine]
  simp only [Bool.false_eq_true, if_false]
  rw [ofInt, ofInt_eq_wholeMachine hvalue]

end Binary64

/-! ## Cutting off -/

/-- A small natural number is converted to a word as it is. -/
private theorem toNat_toUInt64 {machine : Float} {number : Nat} (h : number < 2 ^ 53)
    (hmachine : machine.toModel.unpack = wholeInt number) :
    machine.toUInt64.toNat = number := by
  have hexact : IsExact number := by rwa [IsExact, Int.natAbs_natCast]
  show (UnpackedFloat.toUInt64 machine.toModel.unpack).toNat = number
  rw [hmachine, UnpackedFloat.toUInt64, toInt_wholeInt _ _ _ hexact, Int.toNat_natCast,
    UInt64.ofNatClamp, dif_pos (Nat.lt_trans h (by decide)), UInt64.toNat_ofNatLT]

/-- The comparison with zero reads the unpacked form. -/
private theorem lt_zero_iff {machine : Float} :
    machine < 0 ↔ machine.toModel.unpack.lt (.zero .positive) = true := by
  have hzero : (0 : Float).toModel.unpack = .zero .positive := by
    show (Float.ofNat 0).toModel.unpack = _
    rw [ofNat_eq_wholeMachine (by decide)]
    rfl
  have hdecide : (machine < 0) = (decide (machine.toModel < (0 : Float).toModel) = true) := rfl
  rw [hdecide, decide_eq_true_iff, ← hzero]
  rfl

/-- Cutting off an integer changes nothing. -/
theorem truncated_of_unpack {machine : Float} {value : Int} (h : IsExact value)
    (hmachine : machine.toModel.unpack = wholeInt value) : truncated machine = value := by
  -- the comparison with zero reads the unpacked form only
  have hless : machine < 0 ↔ value < 0 := by
    rw [lt_zero_iff, hmachine]
    rcases eq_or_ne value 0 with rfl | hne
    · decide
    · rw [wholeInt_of_ne_zero hne, signOf]
      split
      · next hneg => exact iff_of_true rfl hneg
      · next hnonneg => exact iff_of_false Bool.false_ne_true hnonneg
  have hlimit : 2 ^ 53 < byteLimit 8 / 2 - 1 := by decide
  rw [IsExact] at h
  rw [truncated]
  split
  · -- a negative value is negated, truncated as a word and negated back
    next hneg =>
    rw [hless] at hneg
    have hnegated : (-machine).toModel.unpack = wholeInt (value.natAbs : Nat) := by
      show UnpackedFloat.unpack Format.binary64
        (UnpackedFloat.pack Format.binary64 machine.toModel.unpack.neg) = _
      have habs : -value = value.natAbs := by omega
      rw [hmachine, neg_wholeInt (by omega), habs]
      exact unpack_pack_wholeInt (by rwa [IsExact, Int.natAbs_natCast])
    rw [toNat_toUInt64 h hnegated]
    omega
  · next hnonneg =>
    rw [hless] at hnonneg
    have habs : value = value.natAbs := by omega
    rw [habs] at hmachine
    rw [toNat_toUInt64 h hmachine]
    omega

/-- An exact integer is converted to a float and back as it is. -/
theorem truncated_ofInt {value : Int} (h : IsExact value) : truncated (Float.ofInt value) = value := by
  rw [ofInt_eq_wholeMachine h]
  exact truncated_of_unpack h (unpack_wholeMachine h)

namespace Binary64

/-- The integer that a float equals as a number is found by cutting it off. -/
theorem truncated_of_sameNumber {value : Int} {other : Binary64} (h : IsExact value)
    (hsame : (ofInt value).sameNumber other = true) : truncated other.toFloat = value := by
  -- equal floats are the same, or the two zeros
  have hzero : truncated 0 = 0 := by decide +kernel
  have hnegative : truncated (-0) = 0 := by decide +kernel
  have hvalue := truncated_ofInt h
  rw [sameNumber, toFloat_ofInt, Float.beq_iff_ne_nan_and_eq] at hsame
  obtain ⟨-, -, heq | ⟨hfirst, hsecond⟩ | ⟨hfirst, hsecond⟩⟩ := hsame
  · rw [← heq, hvalue]
  · rw [hsecond, hnegative, ← hvalue, hfirst, hzero]
  · rw [hsecond, hzero, ← hvalue, hfirst, hnegative]

end Binary64

end RasterStore
