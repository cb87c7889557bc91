import RasterStore.Proofs.Pixel.Stored
import RasterStore.Proofs.Transfer.Read

/-!
# Means without the missing pixels

A mean is taken over the pixels whose value is not the no-data value of the band. Where nothing is
stored yet, a band has the bytes of that value. The mean leaves them out only if the pixel type
preserves the value: a no-data value that is changed on its way into the pixel type is a value like
any other when it comes back.

* `preserves_iff_of_isInteger`  which no-data values the integer types preserve
* `present_filter`              what is stored for a no-data value that is preserved, is missing
* `encode_meanOf_of_forall`     the mean of equal integers is their value
-/

namespace RasterStore

/-! ## No-data values that are stored -/

/-- The pixel type preserves a no-data value: what it stores for the value stands for it. -/
def PixelType.Preserves (type : PixelType) (noData : Binary64) : Prop :=
  PixelSum.isNoData (Pixel.decode type (pixelBytes type noData) 0).re.toReal noData = true

instance (type : PixelType) (noData : Binary64) : Decidable (type.Preserves noData) :=
  inferInstanceAs (Decidable (_ = true))

namespace PixelSum

/-- Integers are not the no-data value unless they equal it. -/
theorem isNoData_ofInt {value : Int} (h : IsExact value) (noData : Binary64) :
    isNoData (.ofInt value) noData = (Binary64.ofInt value).sameNumber noData := by
  rw [isNoData, Binary64.isNaN_ofInt h, Bool.false_and, Bool.or_false]

end PixelSum

namespace PixelType

variable {type : PixelType} {noData : Binary64}

theorem decode_pixelBytes (type : PixelType) (noData : Binary64) :
    (Pixel.decode type (pixelBytes type noData) 0).re =
      (Sample.real noData).stored type.component := by
  rw [pixelBytes, Pixel.decode_encode]
  rfl

/-- Integer types preserve the integers that they hold, and nothing else. -/
theorem preserves_iff_of_isInteger (h : type.isInteger = true) :
    type.Preserves noData ↔ ∃ value : Int, type.component.wrap value = value ∧
      (Binary64.ofInt value).sameNumber noData = true := by
  have hexact (value : Int) (hwrap : type.component.wrap value = value) : IsExact value := by
    rw [← hwrap]
    exact isExact_wrap h value
  -- for integers, equal as reals is equal as stored
  have hstored : type.Preserves noData ↔
      (Binary64.ofInt (type.component.wrap (truncated noData.toFloat))).sameNumber noData =
        true := by
    rw [← PixelSum.isNoData_ofInt (isExact_wrap h _), Preserves, decode_pixelBytes,
      stored_of_isInteger h]
    rfl
  rw [hstored]
  constructor
  · intro hsame
    -- the value itself has these bytes
    exact ⟨_, Component.wrap_wrap _ _, hsame⟩
  · -- a value that is equal to such an integer is stored as it
    rintro ⟨value, hwrap, hsame⟩
    rwa [Binary64.truncated_of_sameNumber (hexact value hwrap) hsame, hwrap]

end PixelType

/-! ## Integers among the pixels -/

/-- A type whose pixels have integer values is an integer type. -/
theorem Pixel.isInteger_of_decode {type : PixelType} {bytes : ByteArray} {value : Int} {im : Sample}
    (h : Pixel.decode type bytes 0 = ⟨.int value, im⟩) : type.isInteger = true := by
  -- the real part alone decides
  have hre : Sample.decode type.component (numberAt bytes 0 type.componentBytes) = .int value := by
    have hdecoded := congrArg Pixel.re h
    unfold decode at hdecoded
    dsimp only at hdecoded
    split at hdecoded
    · exact hdecoded
    · exact hdecoded
  rw [PixelType.isInteger, PixelType.isFloating]
  cases hcomponent : type.component with
  | unsigned width | signed width => rfl
  | single | double =>
    rw [hcomponent] at hre
    contradiction

/-- The bytes that an integer type stores for a no-data value are those of an integer. -/
theorem pixelBytes_of_isInteger {type : PixelType} (h : type.isInteger = true)
    (noData : Binary64) :
    pixelBytes type noData =
      (Pixel.mk (.int (truncated noData.toFloat)) (.int 0)).encode type := by
  have hzero : Binary64.zero = Binary64.ofInt 0 := by decide +kernel
  have hre : (Sample.real noData).encode type.component =
      (Sample.int (truncated noData.toFloat)).encode type.component := by
    -- signed or not, the component stores the value cut off
    obtain ⟨width, -, hcomponent | hcomponent⟩ := PixelType.component_of_isInteger h
    · rw [hcomponent]
      rfl
    · rw [hcomponent]
      rfl
  have him : (Sample.real .zero).encode type.component =
      (Sample.int 0).encode type.component := by
    rw [hzero, Sample.encode_ofInt (by decide)]
  rw [pixelBytes, Pixel.ofReal, Pixel.encode, Pixel.encode, hre, him]

/-! ## Sums -/

/-- Sums of copies of an integer are exact as floats, and their number is. -/
def SumsExactly (count : Nat) (value : Int) : Prop :=
  count < 2 ^ 53 ∧ count * value.natAbs < 2 ^ 53

namespace PixelSum

variable {value : Int} {count : Nat} {noData : Option Binary64}

/-- Copies of an integer add up to a multiple of it. -/
theorem total_replicate (h : SumsExactly count value) :
    total (List.replicate count ⟨.int value, .int 0⟩) =
      ⟨.ofInt (count * value), .ofInt 0, count⟩ := by
  have hzero : Binary64.ofInt 0 = .zero := by decide +kernel
  -- induction on the number of copies
  induction count with
  | zero =>
    rw [Int.natCast_zero, Int.zero_mul, hzero]
    rfl
  | succ count ih =>
    have hproduct : (count + 1) * value.natAbs = count * value.natAbs + value.natAbs :=
      Nat.succ_mul _ _
    have hnext : (count : Int) * value + value = (count + 1 : Nat) * value := by
      rw [Int.natCast_add, Int.natCast_one, Int.add_mul, Int.one_mul]
    obtain ⟨hcount, hsmall⟩ := h
    -- one copy more stays among the integers that are exact
    have hbefore : SumsExactly count value := ⟨by omega, by omega⟩
    have hvalue : IsExact value := by
      rw [IsExact]
      omega
    have hsum : IsExact (count * value + value) := by
      rw [hnext]
      exact isExact_mul_iff.mpr hsmall
    have hre : (Binary64.ofInt (count * value)).add (.ofInt value) =
        .ofInt ((count + 1 : Nat) * value) := by
      rw [Binary64.add_ofInt (isExact_mul_iff.mpr hbefore.2) hvalue hsum, hnext]
    have him : (Binary64.ofInt 0).add (.ofInt 0) = .ofInt 0 :=
      Binary64.add_ofInt (by decide) (by decide) (by decide)
    rw [List.replicate_succ', total_concat, ih hbefore, add]
    dsimp only [Option.any_none, Sample.toReal]
    rw [if_neg Bool.false_ne_true, hre, him]

/-- The mean of copies of an integer is the integer. -/
theorem mean_total_replicate (hcount : 0 < count) (h : SumsExactly count value) :
    (total (List.replicate count ⟨.int value, .int 0⟩)).mean noData =
      ⟨.real (.ofInt value), .real (.ofInt 0)⟩ := by
  have hvalue : IsExact value :=
    Nat.lt_of_le_of_lt (Nat.le_mul_of_pos_left _ hcount) h.2
  -- the imaginary parts are zeros, and so is their mean
  have hzero : (Binary64.ofInt (count * 0)).divide count = .ofInt 0 :=
    Binary64.divide_ofInt hcount h.1 (by rw [Int.mul_zero]; decide) (by decide)
  rw [Int.mul_zero] at hzero
  rw [total_replicate h, mean]
  dsimp only
  rw [if_neg (Nat.ne_of_gt hcount), Binary64.divide_ofInt hcount h.1
    (isExact_mul_iff.mpr h.2) hvalue, hzero]

end PixelSum

/-! ## The pixels that are present -/

namespace BandDescriptor

variable {descriptor : BandDescriptor} {noData : Binary64} {pixels : List ByteArray}

/-- What is stored for a no-data value that the type preserves might as well not be there. -/
theorem present_filter (hnoData : descriptor.noData = some noData)
    (hpreserves : pixelBytes descriptor.type noData ∈ pixels →
      descriptor.type.Preserves noData) :
    descriptor.present (pixels.filter (· ≠ pixelBytes descriptor.type noData)) =
      descriptor.present pixels := by
  simp only [present, List.filter_map, List.filter_filter]
  congr 1
  apply List.filter_congr
  intro pixel hmem
  by_cases hpixel : pixel = pixelBytes descriptor.type noData
  · -- a pixel that is the no-data value is left out of the mean anyway
    have hmissing : PixelSum.isNoData (Pixel.decode descriptor.type pixel 0).re.toReal noData =
        true := by
      rw [hpixel] at hmem ⊢
      exact hpreserves hmem
    simp [hnoData, hmissing]
  · simp [hpixel]

/-- If all pixels but those that are stored for the no-data value are one integer, their mean is
    it. -/
theorem encode_meanOf_of_forall (hnoData : descriptor.noData = some noData)
    (hpreserves : pixelBytes descriptor.type noData ∈ pixels → descriptor.type.Preserves noData)
    (hsizes : ∀ pixel ∈ pixels, pixel.size = descriptor.type.bytes) {value : Int}
    (hothers : ∀ pixel ∈ pixels, pixel ≠ pixelBytes descriptor.type noData →
      Pixel.decode descriptor.type pixel 0 = ⟨.int value, .int 0⟩)
    (hsome : ∃ pixel ∈ pixels, pixel ≠ pixelBytes descriptor.type noData)
    (hexact : SumsExactly
      (pixels.countP (· ≠ pixelBytes descriptor.type noData)) value) (target : PixelType) :
    (descriptor.meanOf pixels).encode target = (Pixel.mk (.int value) (.int 0)).encode target := by
  obtain ⟨pixel, hmem, hpixel⟩ := hsome
  have hcount : 0 < pixels.countP (· ≠ pixelBytes descriptor.type noData) :=
    List.countP_pos_iff.mpr ⟨pixel, hmem, by simpa using hpixel⟩
  -- one copy alone is exact if all of them together are
  have hvalue : IsExact value := Nat.lt_of_le_of_lt (Nat.le_mul_of_pos_left _ hcount) hexact.2
  have hdecode := hothers pixel hmem hpixel
  have hinteger := Pixel.isInteger_of_decode hdecode
  -- an integer that equals the no-data value has its bytes
  have hpresent : PixelSum.isNoData (.ofInt value) noData = false := by
    rw [PixelSum.isNoData_ofInt hvalue, ← Bool.not_eq_true]
    intro hsame
    apply hpixel
    rw [pixelBytes_of_isInteger hinteger, Binary64.truncated_of_sameNumber hvalue hsame, ← hdecode,
      Pixel.encode_decode hinteger (hsizes pixel hmem)]
  -- without the missing pixels there are only copies of the one value
  have hall : descriptor.present pixels =
      List.replicate (pixels.countP (· ≠ pixelBytes descriptor.type noData))
        ⟨.int value, .int 0⟩ := by
    have hdecoded : (pixels.filter (· ≠ pixelBytes descriptor.type noData)).map
        (Pixel.decode descriptor.type · 0) = List.replicate
          (pixels.filter (· ≠ pixelBytes descriptor.type noData)).length ⟨.int value, .int 0⟩ := by
      apply List.map_eq_replicate_iff.mpr
      intro other hother
      obtain ⟨hother, hne⟩ := List.mem_filter.mp hother
      exact hothers other hother (of_decide_eq_true hne)
    rw [← present_filter hnoData hpreserves, present, hdecoded,
      List.countP_eq_length_filter]
    apply List.filter_replicate_of_pos
    rw [hnoData, Option.any_some, Sample.toReal, hpresent]
    rfl
  rw [meanOf, hall, PixelSum.mean_total_replicate hcount hexact,
    Pixel.encode_ofInt hvalue (by decide)]

end BandDescriptor

end RasterStore
