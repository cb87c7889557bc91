import Mathlib

/-!
# Whole numbers in the float format

The logical model of machine floats unpacks a float to a sign, a mantissa and an exponent, works on
these, rounds the result and packs it again. A whole number of less than 54 bits fits the mantissa
with zeros behind it (`wholeInt`), and work that stays among these numbers loses no bit.

* `roundWithAccuracy_whole`  rounding a whole number changes nothing
* `add_wholeInt`, `div_wholeInt`, `toInt_wholeInt`  sums, quotients and integers are exact
* `unpack_pack_wholeInt`     a whole number is found again in its bits
-/

namespace RasterStore

open Float.Model Float.Model.UnpackedFloat

/-! ## Rounding whole numbers -/

/-- A natural number with a sign, as the float format has it: a mantissa of 53 bits. -/
def wholeFloat (sign : Sign) (number : Nat) : UnpackedFloat :=
  if h : number = 0 then .zero sign
  else .finite sign (number * 2 ^ (52 - number.log2)) (number.log2 - 52)
    (Nat.mul_pos (Nat.pos_of_ne_zero h) (Nat.two_pow_pos _))

section Rounding

variable {sign : Sign} {number : Nat}

private theorem wholeFloat_of_pos (hpos : 0 < number) :
    wholeFloat sign number =
      .finite sign (number * 2 ^ (52 - number.log2)) (number.log2 - 52)
        (Nat.mul_pos hpos (Nat.two_pow_pos _)) :=
  dif_neg (Nat.ne_of_gt hpos)

private theorem log2_mul_two_pow (hpos : 0 < number) (k : Nat) :
    (number * 2 ^ k).log2 = number.log2 + k := by
  have hne : number ≠ 0 := Nat.ne_of_gt hpos
  have hproduct : number * 2 ^ k ≠ 0 := Nat.ne_of_gt (Nat.mul_pos hpos (Nat.two_pow_pos k))
  rw [Nat.log2_eq_iff hproduct, Nat.add_right_comm, Nat.pow_add, Nat.pow_add]
  exact ⟨Nat.mul_le_mul_right _ (Nat.log2_self_le hne),
    Nat.mul_lt_mul_of_pos_right Nat.lt_log2_self (Nat.two_pow_pos k)⟩

private theorem log2_le_52 (hlt : number < 2 ^ 53) : number.log2 ≤ 52 := by
  rcases Nat.eq_zero_or_pos number with rfl | hpos
  · decide
  · exact Nat.le_of_lt_succ ((Nat.log2_lt (Nat.ne_of_gt hpos)).mpr hlt)

/-- Zeros that are shifted out leave nothing behind. -/
private theorem shiftRight_mul_two_pow (mantissa shift : Nat) :
    (⟨mantissa * 2 ^ shift, false, false⟩ : ExtendedMantissa) >>> shift =
      ⟨mantissa, false, false⟩ := by
  show shift.repeat ExtendedMantissa.shiftRightOne _ = _
  induction shift generalizing mantissa with
  | zero => rw [Nat.pow_zero, Nat.mul_one]; rfl
  | succ shift ih =>
    have hdouble : mantissa * 2 ^ (shift + 1) = mantissa * 2 * 2 ^ shift := by
      rw [Nat.pow_succ, Nat.mul_assoc, Nat.mul_comm (2 ^ shift)]
    rw [Nat.repeat, hdouble, ih]
    simp [ExtendedMantissa.shiftRightOne]

private theorem targetExponent_of_log2 (mantissa : Nat) (exponent : Int) (top : Nat)
    (hlog : (mantissa.log2 : Int) + exponent = top) :
    Format.binary64.targetExponent (totalExponent mantissa exponent) = (top : Int) - 52 := by
  simp only [Format.targetExponent, totalExponent, Format.mantissaBits, Format.minExponent]
  omega

/-- Shifting a whole number to its place loses nothing. -/
private theorem shiftToTargetExponent_whole (hpos : 0 < number) {k : Nat}
    (hk : 52 ≤ number.log2 + k) (hlog : number.log2 ≤ 52) :
    shiftToTargetExponent Format.binary64 (number * 2 ^ k) (-k) .exact =
      (⟨number * 2 ^ (52 - number.log2), false, false⟩, (number.log2 : Int) - 52) := by
  have htarget := targetExponent_of_log2 (number * 2 ^ k) (-k) number.log2
    (by rw [log2_mul_two_pow hpos]; omega)
  have hshift : ((number.log2 : Int) - 52 - -k).toNat = number.log2 + k - 52 := by omega
  -- the bits that are shifted out are zeros
  have hsplit : number * 2 ^ k =
      number * 2 ^ (52 - number.log2) * 2 ^ (number.log2 + k - 52) := by
    rw [Nat.mul_assoc, ← Nat.pow_add]
    congr 2
    omega
  rw [shiftToTargetExponent, htarget, shiftToExponent, hshift, hsplit]
  refine Prod.ext (shiftRight_mul_two_pow _ _) ?_
  show -(k : Int) + ((number.log2 + k - 52 : Nat) : Int) = _
  omega

/-- Writing more zeros behind a whole number changes its exponent only. -/
private theorem decreaseExponent_whole {k : Nat} (hlog : number.log2 ≤ 52)
    (hk : 52 - number.log2 ≤ k) :
    (decreaseExponent (number * 2 ^ (52 - number.log2)) (number.log2 - 52) (-k)).1 =
      number * 2 ^ k := by
  have hshift : ((number.log2 : Int) - 52 - -k).toNat = k - (52 - number.log2) := by omega
  rw [decreaseExponent, hshift, Nat.shiftLeft_eq, Nat.mul_assoc, ← Nat.pow_add,
    Nat.add_sub_cancel' hk]

/-- Rounding a number that is whole gives this number. -/
theorem roundWithAccuracy_whole (hpos : 0 < number) (hlt : number < 2 ^ 53) {k : Nat}
    (hk : 52 ≤ number.log2 + k) :
    roundWithAccuracy Format.binary64 sign (number * 2 ^ k) (-k) .exact =
      wholeFloat sign number := by
  have hlog := log2_le_52 hlt
  have hfirst := shiftToTargetExponent_whole hpos hk hlog
  -- the mantissa is in its place already
  have hsecond := @shiftToTargetExponent_whole number hpos (52 - number.log2) (by omega) hlog
  have hexponent : -((52 - number.log2 : Nat) : Int) = number.log2 - 52 := by omega
  rw [hexponent] at hsecond
  have hmantissa : number * 2 ^ (52 - number.log2) ≠ 0 :=
    Nat.ne_of_gt (Nat.mul_pos hpos (Nat.two_pow_pos _))
  rw [roundWithAccuracy, hfirst, wholeFloat_of_pos hpos]
  dsimp only [ExtendedMantissa.roundedMantissa, ExtendedMantissa.accuracy,
    Accuracy.roundToNearestEven]
  simp only [hsecond, hmantissa, dite_false]

/-- The same for a number whose mantissa may be too short. -/
private theorem round_whole (hpos : 0 < number) (hlt : number < 2 ^ 53) (k : Nat) :
    UnpackedFloat.round Format.binary64 sign (number * 2 ^ k) (-k) = wholeFloat sign number := by
  have hlog := log2_le_52 hlt
  have htarget := targetExponent_of_log2 (number * 2 ^ k) (-k) number.log2
    (by rw [log2_mul_two_pow hpos]; omega)
  have hshift : (-(k : Int) - (number.log2 - 52)).toNat = 52 - number.log2 - k := by omega
  rw [UnpackedFloat.round, htarget, decreaseExponent, hshift]
  -- mantissa and exponent are scaled together
  have hmantissa : (number * 2 ^ k) <<< (52 - number.log2 - k) =
      number * 2 ^ (k + (52 - number.log2 - k)) := by
    rw [Nat.shiftLeft_eq, Nat.mul_assoc, Nat.pow_add]
  have hexponent : -(k : Int) - ((52 - number.log2 - k : Nat) : Int) =
      -((k + (52 - number.log2 - k) : Nat) : Int) := by omega
  simp only [hmantissa, hexponent]
  exact roundWithAccuracy_whole hpos hlt (by omega)

/-- Dividing a product by one of its factors leaves no rest. -/
private theorem divCore_whole {count : Nat} (hcount : 0 < count) (hpos : 0 < number)
    (hlt : count * number < 2 ^ 53) :
    divCore Format.binary64 (count * number * 2 ^ (52 - (count * number).log2))
        ((count * number).log2 - 52) (count * 2 ^ (52 - count.log2)) (count.log2 - 52) =
      (number * 2 ^ (53 - (count * number).log2 + count.log2),
        -((53 - (count * number).log2 + count.log2 : Nat) : Int), .exact) := by
  have hproduct : 0 < count * number := Nat.mul_pos hcount hpos
  have hlog := log2_le_52 hlt
  have hlogCount := log2_le_52 (Nat.lt_of_le_of_lt (Nat.le_mul_of_pos_right count hpos) hlt)
  -- the zeros behind a number do not change its total exponent
  have htotal (n : Nat) (hn : 0 < n) (hle : n.log2 ≤ 52) :
      totalExponent (n * 2 ^ (52 - n.log2)) (n.log2 - 52) = n.log2 + 1 := by
    rw [totalExponent, log2_mul_two_pow hn]
    omega
  have htarget : min ((((count * number).log2 : Int) - 52) - (count.log2 - 52))
      (Format.binary64.targetExponent (((count * number).log2 : Int) + 1 - (count.log2 + 1))) =
      -((53 - (count * number).log2 + count.log2 : Nat) : Int) := by
    simp only [Format.targetExponent, Format.mantissaBits, Format.minExponent]
    omega
  have hshift : ((((count * number).log2 : Int) - 52) - (count.log2 - 52) -
      -((53 - (count * number).log2 + count.log2 : Nat) : Int)).toNat = 53 := by omega
  -- the zeros behind the divisor are among those behind the dividend
  have hdividend : count * number * 2 ^ (52 - (count * number).log2) * 2 ^ 53 =
      count * 2 ^ (52 - count.log2) *
        (number * 2 ^ (53 - (count * number).log2 + count.log2)) := by
    have hzeros : 52 - (count * number).log2 + 53 =
        52 - count.log2 + (53 - (count * number).log2 + count.log2) := by omega
    rw [Nat.mul_assoc, ← Nat.pow_add, hzeros, Nat.pow_add, Nat.mul_mul_mul_comm]
  have hdivisor : 0 < count * 2 ^ (52 - count.log2) := Nat.mul_pos hcount (Nat.two_pow_pos _)
  rw [divCore, htotal _ hproduct hlog, htotal _ hcount hlogCount, htarget,
    hshift, Nat.shiftLeft_eq, hdividend, Nat.mul_div_cancel_left _ hdivisor,
    Nat.mul_mod_right]
  rfl

/-- The quotient has enough zeros behind it. -/
private theorem log2_mul_le {count : Nat} (hcount : 0 < count) (hpos : 0 < number) :
    (count * number).log2 ≤ count.log2 + number.log2 + 1 := by
  have hproduct : count * number ≠ 0 := Nat.ne_of_gt (Nat.mul_pos hcount hpos)
  apply Nat.le_of_lt_succ
  rw [Nat.log2_lt hproduct]
  calc count * number < 2 ^ (count.log2 + 1) * 2 ^ (number.log2 + 1) :=
        Nat.mul_lt_mul'' Nat.lt_log2_self Nat.lt_log2_self
    _ = 2 ^ (count.log2 + number.log2 + 1).succ := by
        rw [← Nat.pow_add]
        congr 1
        omega

end Rounding

/-! ## Signed whole numbers -/

/-- The sign of an integer; zero has the one of positive numbers. -/
def signOf (value : Int) : Sign :=
  if value < 0 then .negative else .positive

/-- An integer, as the float format has it. -/
def wholeInt (value : Int) : UnpackedFloat :=
  wholeFloat (signOf value) value.natAbs

/-- The integers of less than 54 bits. -/
def IsExact (value : Int) : Prop :=
  value.natAbs < 2 ^ 53

instance (value : Int) : Decidable (IsExact value) :=
  inferInstanceAs (Decidable (_ < _))

theorem isExact_mul_iff {count : Nat} {value : Int} :
    IsExact (count * value) ↔ count * value.natAbs < 2 ^ 53 := by
  rw [IsExact, Int.natAbs_mul, Int.natAbs_natCast]

section WholeInt

variable {value : Int}

@[simp] theorem wholeInt_zero : wholeInt 0 = .zero .positive := rfl

theorem wholeInt_of_ne_zero (hne : value ≠ 0) :
    wholeInt value = .finite (signOf value) (value.natAbs * 2 ^ (52 - value.natAbs.log2))
      (value.natAbs.log2 - 52) (Nat.mul_pos (Int.natAbs_pos.mpr hne) (Nat.two_pow_pos _)) :=
  wholeFloat_of_pos (Int.natAbs_pos.mpr hne)

private theorem apply_signOf (value : Int) (factor : Nat) :
    (signOf value).apply (value.natAbs * factor : Nat) = value * factor := by
  rw [Int.natCast_mul, signOf]
  split
  · next hneg =>
    rw [Sign.apply, Int.ofNat_natAbs_of_nonpos (Int.le_of_lt hneg), Int.neg_mul, Int.neg_neg]
  · next hnonneg => rw [Sign.apply, Int.natAbs_of_nonneg (Int.not_lt.mp hnonneg)]

/-- An integer may have zeros behind it; rounding puts it into its place. -/
theorem normalize_wholeInt (h : IsExact value) (k : Nat) :
    UnpackedFloat.normalize Format.binary64 (value * (2 ^ k : Nat)) (-k) .positive =
      wholeInt value := by
  have hproduct : value * (2 ^ k : Nat) = (signOf value).apply (value.natAbs * 2 ^ k : Nat) :=
    (apply_signOf value _).symm
  have hpow := Nat.two_pow_pos k
  -- by the sign, as `normalize` works on magnitudes
  rcases Int.lt_trichotomy value 0 with hneg | rfl | hpos
  · have hnumber : 0 < value.natAbs := by omega
    have hmantissa : 0 < value.natAbs * 2 ^ k := Nat.mul_pos hnumber hpow
    rw [wholeInt, hproduct, signOf, if_pos hneg, Sign.apply, UnpackedFloat.normalize,
      Int.compare_eq_lt.mpr (by omega)]
    dsimp only
    rw [Int.neg_neg, Int.toNat_natCast]
    exact round_whole hnumber h k
  · rw [Int.zero_mul]
    rfl
  · have hnumber : 0 < value.natAbs := by omega
    have hmantissa : 0 < value.natAbs * 2 ^ k := Nat.mul_pos hnumber hpow
    rw [wholeInt, hproduct, signOf, if_neg (by omega), Sign.apply, UnpackedFloat.normalize,
      Int.compare_eq_gt.mpr (by omega)]
    dsimp only
    rw [Int.toNat_natCast]
    exact round_whole hnumber h k

/-- Sums of integers are exact as long as they are not too large. -/
theorem add_wholeInt {first second : Int} (hfirst : IsExact first) (hsecond : IsExact second)
    (hsum : IsExact (first + second)) :
    UnpackedFloat.add Format.binary64 (wholeInt first) (wholeInt second) =
      wholeInt (first + second) := by
  -- zero is a case of its own on either side
  rcases eq_or_ne first 0 with rfl | hfirstNe
  · rw [Int.zero_add]
    rcases eq_or_ne second 0 with rfl | hsecondNe
    · rfl
    · rw [wholeInt_zero, wholeInt_of_ne_zero hsecondNe]
      rfl
  · rcases eq_or_ne second 0 with rfl | hsecondNe
    · rw [Int.add_zero, wholeInt_zero, wholeInt_of_ne_zero hfirstNe]
      rfl
    · have hlogFirst := log2_le_52 hfirst
      have hlogSecond := log2_le_52 hsecond
      rw [wholeInt_of_ne_zero hfirstNe, wholeInt_of_ne_zero hsecondNe, UnpackedFloat.add]
      -- both mantissas get as many zeros as the smaller number has behind it
      have hmin : min ((first.natAbs.log2 : Int) - 52) (second.natAbs.log2 - 52) =
          -((52 - min first.natAbs.log2 second.natAbs.log2 : Nat) : Int) := by omega
      dsimp only
      rw [hmin, decreaseExponent_whole hlogFirst (by omega),
        decreaseExponent_whole hlogSecond (by omega), apply_signOf, apply_signOf, ← Int.add_mul]
      exact normalize_wholeInt hsum _

/-- An integer that is divided by one of its divisors. -/
theorem div_wholeInt {count : Nat} (hcount : 0 < count)
    (hproduct : IsExact (count * value)) :
    UnpackedFloat.div Format.binary64 (wholeInt (count * value)) (wholeInt count) =
      wholeInt value := by
  have hcountNe : (count : Int) ≠ 0 := by omega
  rcases eq_or_ne value 0 with rfl | hne
  · rw [Int.mul_zero, wholeInt_zero, wholeInt_of_ne_zero hcountNe]
    rfl
  · have hnumber := Int.natAbs_pos.mpr hne
    have hnatAbs : (count * value).natAbs = count * value.natAbs := by
      rw [Int.natAbs_mul, Int.natAbs_natCast]
    -- the divisor is positive, so that the sign is that of the value
    have hsign : signOf (count * value) / signOf count = signOf value := by
      have hpositive : (0 : Int) < count := by omega
      rcases Int.lt_or_gt_of_ne hne with hneg | hpos
      · rw [signOf, signOf, signOf, if_pos (Int.mul_neg_of_pos_of_neg hpositive hneg),
          if_neg (by omega), if_pos hneg]
        rfl
      · rw [signOf, signOf, signOf, if_neg (Int.not_lt.mpr (Int.le_of_lt
          (Int.mul_pos hpositive hpos))), if_neg (by omega), if_neg (by omega)]
        rfl
    rw [IsExact, hnatAbs] at hproduct
    have hlog := log2_le_52 hproduct
    have hexact : value.natAbs < 2 ^ 53 :=
      Nat.lt_of_le_of_lt (Nat.le_mul_of_pos_left _ hcount) hproduct
    have hzeros := log2_mul_le hcount hnumber
    rw [wholeInt_of_ne_zero (Int.mul_ne_zero hcountNe hne), wholeInt_of_ne_zero hcountNe,
      UnpackedFloat.div, hsign]
    simp only [hnatAbs, Int.natAbs_natCast]
    rw [divCore_whole hcount hnumber hproduct]
    exact roundWithAccuracy_whole hnumber hexact (by omega)

/-- An integer that is multiplied by one. -/
theorem mul_one_wholeInt (h : IsExact value) :
    UnpackedFloat.mul Format.binary64 (wholeInt value)
      (.finite .positive (2 ^ 52) (-52) (by decide)) = wholeInt value := by
  rcases eq_or_ne value 0 with rfl | hne
  · rfl
  · have hnumber := Int.natAbs_pos.mpr hne
    have hlog := log2_le_52 h
    have hsign : signOf value * .positive = signOf value := by
      cases signOf value <;> rfl
    -- the mantissas are multiplied, and one of them is a power of two
    have hmantissa : value.natAbs * 2 ^ (52 - value.natAbs.log2) * 2 ^ 52 =
        value.natAbs * 2 ^ (52 - value.natAbs.log2 + 52) := by
      rw [Nat.mul_assoc, ← Nat.pow_add]
    have hexponent : (value.natAbs.log2 : Int) - 52 + -52 =
        -((52 - value.natAbs.log2 + 52 : Nat) : Int) := by omega
    rw [wholeInt_of_ne_zero hne, UnpackedFloat.mul, hsign, hmantissa, hexponent,
      roundWithAccuracy_whole hnumber h (by omega), wholeFloat_of_pos hnumber]

/-- An integer comes back from the float that has it. -/
theorem toInt_wholeInt (value bottom top : Int) (h : IsExact value) :
    (wholeInt value).toInt bottom top = value := by
  rcases eq_or_ne value 0 with rfl | hne
  · rfl
  · have hlog := log2_le_52 h
    -- the mantissa is shifted back by what it was scaled
    have hshift : (0 - ((value.natAbs.log2 : Int) - 52)).toNat = 52 - value.natAbs.log2 := by omega
    have hplace : ((value.natAbs.log2 : Int) - 52 - 0).toNat = 0 := by omega
    rw [wholeInt_of_ne_zero hne, UnpackedFloat.toInt, roundToInt, decreaseExponent, hplace]
    dsimp only
    rw [Nat.shiftLeft_zero, Int.natCast_zero, Int.sub_zero, shiftToExponent, hshift]
    dsimp only [ExtendedMantissa.ofMantissaAndAccuracy]
    rw [shiftRight_mul_two_pow]
    dsimp only
    have happly := apply_signOf value 1
    rwa [Nat.mul_one, Int.natCast_one, Int.mul_one] at happly

theorem neg_wholeInt (hne : value ≠ 0) : (wholeInt value).neg = wholeInt (-value) := by
  have hsign : -signOf value = signOf (-value) := by
    simp only [signOf]
    split
    · rw [if_neg (by omega)]
      rfl
    · rw [if_pos (by omega)]
      rfl
  rw [wholeInt_of_ne_zero hne, wholeInt_of_ne_zero (Int.neg_ne_zero.mpr hne), UnpackedFloat.neg,
    hsign]
  simp only [Int.natAbs_neg]

end WholeInt

/-! ## Whole numbers in bits -/

/-- A number whose mantissa fills the format is found again in its bits. -/
private theorem unpack_pack_normal {sign : Sign} {mantissa : Nat} {exponent : Int}
    {hpos : 0 < mantissa} (hlog : mantissa.log2 = 52) (hlow : -1074 ≤ exponent)
    (hhigh : exponent ≤ 971) :
    UnpackedFloat.unpack Format.binary64
        (UnpackedFloat.pack Format.binary64 (.finite sign mantissa exponent hpos)) =
      .finite sign mantissa exponent hpos := by
  -- the exponent is stored with the bias added, in eleven bits
  have hbias : (Format.binary64.exponentBias : Int) = 1023 := rfl
  have hbits : ((52 : Nat) : Int) = 52 := rfl
  obtain ⟨biased, hbiased⟩ : ∃ biased : Nat, exponent + 1023 + 52 = biased :=
    ⟨(exponent + 1023 + 52).toNat, by omega⟩
  have hmantissa := (Nat.log2_eq_iff (Nat.ne_of_gt hpos)).mp hlog
  have hexponent : (BitVec.ofNat 11 biased).toNat = biased := by
    rw [BitVec.toNat_ofNat]
    exact Nat.mod_eq_of_lt (by omega)
  rw [UnpackedFloat.pack]
  simp only [hbias, hbits, hbiased, Int.toNat_natCast, hlog]
  rw [if_neg (by omega), if_pos (by rfl)]
  rw [UnpackedFloat.unpack]
  simp only [unpackSign_packComponents, unpackExponent_packComponents,
    unpackMantissa_packComponents, Sign.ofBitVec_toBitVec, hexponent]
  -- neither all zeros nor all ones: the exponent is that of a normal number
  rw [if_neg, if_neg]
  · -- the first bit of the mantissa is not stored
    have hrest : (BitVec.ofNat 52 mantissa).toNat = mantissa - 2 ^ 52 := by
      rw [BitVec.toNat_ofNat]
      omega
    have hwhole : (1#1 ++ BitVec.ofNat 52 mantissa).toNat = mantissa := by
      rw [BitVec.toNat_append, hrest, ← Nat.shiftLeft_add_eq_or_of_lt (by omega)]
      simp only [BitVec.toNat_ofNat, Nat.shiftLeft_eq]
      omega
    have hback : (biased : Int) - (1023 + 52) = exponent := by omega
    simp only [hwhole, hbias, hbits, hback]
  · intro hzero
    have hnone : (BitVec.ofNat 11 biased).toNat = 0 := congrArg BitVec.toNat hzero
    omega
  · intro hones
    have hall : (BitVec.ofNat 11 biased).toNat = 2047 := congrArg BitVec.toNat hones
    omega

/-- What the format has is found again in its bits. -/
theorem unpack_pack_wholeInt {value : Int} (h : IsExact value) :
    UnpackedFloat.unpack Format.binary64 (UnpackedFloat.pack Format.binary64 (wholeInt value)) =
      wholeInt value := by
  rcases eq_or_ne value 0 with rfl | hne
  · rfl
  · have hlog := log2_le_52 h
    rw [wholeInt_of_ne_zero hne]
    -- an exact integer is a normal number
    apply unpack_pack_normal
    · rw [log2_mul_two_pow (Int.natAbs_pos.mpr hne)]
      omega
    · omega
    · omega

end RasterStore
