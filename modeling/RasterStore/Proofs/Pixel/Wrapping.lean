import RasterStore.Proofs.Pixel.Packed
import RasterStore.Proofs.Pixel.Stored

/-!
# Integers wrap around

Between integer types a row of pixels is converted in two's complement: each component of the
target gets the integer of its range that differs from the source's one by a multiple of the number
of integers it has (`Component.Reduces`). On the way there every integer is exact as a 64-bit
float, so it makes no difference whether the values pass through floats. Nothing is lost where the
target has all integers of the source.

* `Component.reduces_wrap`     what a component keeps of an integer
* `integersAt_convertPixel`    the integers of a converted pixel
* `convertPixels_eq`           a row is converted pixel by pixel, also if nothing has to be converted
* `integers_wrap`              whole rows, and the way back
-/

namespace RasterStore

open ByteArray

/-! ## The integers of a component -/

theorem byteLimit_eq (width : Nat) : byteLimit width = 2 ^ (8 * width) := by
  induction width with
  | zero => rfl
  | succ width ih => rw [byteLimit, ih, Nat.mul_succ, Nat.pow_add, Nat.mul_comm]

namespace Component

/-- The integers that a component can hold. -/
def Holds : Component → Int → Prop
  | .unsigned width, value => 0 ≤ value ∧ value < 2 ^ (8 * width)
  | .signed width, value => -2 ^ (8 * width - 1) ≤ value ∧ value < 2 ^ (8 * width - 1)
  | _, _ => False

/-- The integer that a component holds whose bytes form the number `stored`. If it has a sign, the
    upper half of the numbers stands for negative integers. -/
def integerOf : Component → Nat → Int
  | .signed width, stored =>
    if (stored : Int) < 2 ^ (8 * width - 1) then stored else stored - 2 ^ (8 * width)
  | _, stored => stored

/-- The integer that a component keeps of a value: among those it can hold, the one that differs
    from the value by a multiple of their number. -/
structure Reduces (component : Component) (value reduced : Int) : Prop where
  holds : component.Holds reduced
  dvd : 2 ^ (8 * component.bytes) ∣ value - reduced

variable {component : Component} {value reduced : Int} {width stored : Nat}

/-- The number of integers of a component, as twice the number of negative ones. -/
private theorem two_pow_eq (hwidth : 0 < width) :
    (2 : Int) ^ (8 * width) = 2 * 2 ^ (8 * width - 1) := by
  rw [← Int.pow_succ', Nat.sub_add_cancel (by omega)]

/-- There are not two integers that a component may keep of a value. -/
theorem Reduces.unique {other : Int} (hbytes : 0 < component.bytes)
    (h : component.Reduces value reduced) (hother : component.Reduces value other) :
    reduced = other := by
  -- both reductions differ from the value, and so from each other, by a multiple of the modulus
  have hdvd : (2 : Int) ^ (8 * component.bytes) ∣ reduced - other := by
    have hdifference : reduced - other = (value - other) - (value - reduced) := by omega
    rw [hdifference]
    exact Int.dvd_sub hother.dvd h.dvd
  have hrange := h.holds
  have hrange' := hother.holds
  -- two values in range differ by less than it
  have hsmall : |reduced - other| < 2 ^ (8 * component.bytes) := by
    rw [abs_lt]
    cases component with
    | unsigned width =>
      simp only [Holds, bytes] at hrange hrange' ⊢
      omega
    | signed width =>
      have htwice := two_pow_eq hbytes
      simp only [Holds, bytes] at hrange hrange' htwice ⊢
      omega
    | single | double => exact hrange.elim
  have hzero := Int.eq_zero_of_abs_lt_dvd hdvd hsmall
  omega

/-- An integer that the component can hold is kept as it is. -/
theorem reduces_self (h : component.Holds value) : component.Reduces value value :=
  ⟨h, by rw [Int.sub_self]; exact Int.dvd_zero _⟩

/-- The low bits of a value, without a sign and with one. -/
theorem reduces_wrap (h : component = .unsigned width ∨ component = .signed width)
    (hwidth : 0 < width) (value : Int) : component.Reduces value (component.wrap value) := by
  have hlimit : ((byteLimit width : Nat) : Int) = 2 ^ (8 * width) := by
    rw [byteLimit_eq]
    push_cast
    rfl
  have hpos : (0 : Int) < 2 ^ (8 * width) := by positivity
  -- `emod` for unsigned components, the balanced `bmod` for signed ones
  rcases h with rfl | rfl
  · rw [wrap, hlimit]
    exact ⟨⟨Int.emod_nonneg _ (by omega), Int.emod_lt_of_pos _ hpos⟩, Int.dvd_self_sub_emod⟩
  · have htwice := two_pow_eq hwidth
    have hlow := Int.le_bmod (x := value) (byteLimit_pos width)
    have hhigh := Int.bmod_lt (x := value) (byteLimit_pos width)
    rw [hlimit] at hlow hhigh
    refine ⟨⟨?_, ?_⟩, ?_⟩
    · rw [wrap]
      omega
    · rw [wrap]
      omega
    · rw [wrap, bytes, ← hlimit]
      exact Int.dvd_self_sub_bmod

/-- What is read of a component, as a number in two's complement. -/
theorem decode_eq_integerOf (h : component = .unsigned width ∨ component = .signed width)
    (hwidth : 0 < width) (hstored : stored < byteLimit width) :
    Sample.decode component stored = .int (component.integerOf stored) := by
  rcases h with rfl | rfl
  · rfl
  · -- the integer of a signed component is the representative around zero
    have htwice : 2 ^ (8 * width) = 2 * 2 ^ (8 * width - 1) := by
      rw [← Nat.pow_succ', Nat.succ_eq_add_one, Nat.sub_add_cancel (by omega)]
    have hhalf : ((byteLimit width : Nat) + 1 : Int) / 2 = (2 ^ (8 * width - 1) : Nat) := by
      rw [byteLimit_eq]
      omega
    have hmod : (stored : Int) % (byteLimit width : Nat) = stored :=
      Int.emod_eq_of_lt (by omega) (by omega)
    rw [Sample.decode, Int.bmod, hmod, hhalf, integerOf, byteLimit_eq]
    simp only [Int.natCast_pow, Nat.cast_ofNat]

/-- The integer that a component stands for differs from the stored number by a multiple of the
    limit. -/
theorem reduces_integerOf (h : component = .unsigned width ∨ component = .signed width)
    (hwidth : 0 < width) (hstored : stored < byteLimit width) :
    component.Reduces stored (component.integerOf stored) := by
  have hdecode := decode_eq_integerOf h hwidth hstored
  have hwrap : component.integerOf stored = component.wrap stored := by
    rcases h with rfl | rfl
    · have hstored : (stored : Int) < byteLimit width := by omega
      exact (Int.emod_eq_of_lt (Int.natCast_nonneg stored) hstored).symm
    · exact (Sample.int.inj hdecode).symm
  rw [hwrap]
  exact reduces_wrap h hwidth _

end Component

/-! ## Pixels -/

namespace PixelType

variable {type source target : PixelType} {bytes : ByteArray} {offset : Nat}

/-- The integer in the component at an offset. -/
def integerAt (type : PixelType) (bytes : ByteArray) (offset : Nat) : Int :=
  type.component.integerOf (numberAt bytes offset type.componentBytes)

/-- The integers in the pixel at an offset: the real part and the imaginary one, which is zero in
    a real pixel. -/
def integersAt (type : PixelType) (bytes : ByteArray) (offset : Nat) : Int × Int :=
  (type.integerAt bytes offset,
    if type.isComplex then type.integerAt bytes (offset + type.componentBytes) else 0)

/-- The component of an integer type, with the width that its pixels have. -/
theorem component_cases (h : type.isInteger = true) :
    type.component = .unsigned type.componentBytes ∨
      type.component = .signed type.componentBytes := by
  obtain ⟨width, -, hcomponent | hcomponent⟩ := component_of_isInteger h
  · exact .inl (by rw [componentBytes, hcomponent, Component.bytes])
  · exact .inr (by rw [componentBytes, hcomponent, Component.bytes])

/-- A wrapped integer differs from the value by a multiple of the limit. -/
theorem reduces_wrap (h : type.isInteger = true) (value : Int) :
    type.component.Reduces value (type.component.wrap value) :=
  Component.reduces_wrap (component_cases h) type.componentBytes_pos value

/-- Only integers that the component can hold are read from it. -/
theorem holds_integerAt (h : type.isInteger = true) (bytes : ByteArray) (offset : Nat) :
    type.component.Holds (type.integerAt bytes offset) :=
  (Component.reduces_integerOf (component_cases h) type.componentBytes_pos
    (numberAt_lt _ _ _)).holds

/-- An integer that the component can hold is stored as it is. -/
theorem wrap_of_holds (h : type.isInteger = true) {value : Int}
    (hvalue : type.component.Holds value) : type.component.wrap value = value :=
  (reduces_wrap h value).unique type.componentBytes_pos (Component.reduces_self hvalue)

/-- A pixel of an integer type is decoded to the integers in its bytes. -/
theorem decode_eq_integersAt (h : type.isInteger = true) (bytes : ByteArray) (offset : Nat) :
    Pixel.decode type bytes offset =
      ⟨.int (type.integersAt bytes offset).1, .int (type.integersAt bytes offset).2⟩ := by
  have hpart (offset : Nat) : Sample.decode type.component
      (numberAt bytes offset type.componentBytes) = .int (type.integerAt bytes offset) :=
    Component.decode_eq_integerOf (component_cases h) type.componentBytes_pos (numberAt_lt _ _ _)
  unfold Pixel.decode integersAt
  dsimp only
  split
  · rw [hpart, hpart]
  · rw [hpart]

/-- The values of a pixel are its integers, so pixels with the same values have the same ones. -/
theorem integersAt_of_decode (h : type.isInteger = true) {re im : Int}
    (hdecode : Pixel.decode type bytes offset = ⟨.int re, .int im⟩) :
    type.integersAt bytes offset = (re, im) := by
  rw [decode_eq_integersAt h] at hdecode
  injection hdecode with hre him
  exact Prod.ext (Sample.int.inj hre) (Sample.int.inj him)

theorem integersAt_slice (h : type.isInteger = true) (bytes : ByteArray) (offset : Nat) :
    type.integersAt (bytes.slice offset type.bytes) 0 = type.integersAt bytes offset := by
  apply integersAt_of_decode h
  rw [decode_slice]
  exact decode_eq_integersAt h bytes offset

end PixelType

section Conversion

variable {source target : PixelType} {bytes into : ByteArray} {offset count i : Nat}

/-- A pixel is converted by its values, also if its type stays. -/
theorem convertPixel_of_isInteger (h : source.isInteger = true)
    (hinside : offset + source.bytes ≤ bytes.size) :
    convertPixel source target bytes offset =
      (Pixel.decode source bytes offset).encode target := by
  unfold convertPixel
  split
  · next heq =>
    rw [← decode_slice, ← heq, Pixel.encode_decode h (size_slice_of_le hinside)]
  · rfl

/-- The integers of a converted pixel: what the target keeps of those of the source. -/
theorem integersAt_convertPixel (hsource : source.isInteger = true)
    (htarget : target.isInteger = true) (hinside : offset + source.bytes ≤ bytes.size) :
    target.integersAt (convertPixel source target bytes offset) 0 =
      (target.component.wrap (source.integersAt bytes offset).1,
        if target.isComplex then target.component.wrap (source.integersAt bytes offset).2
        else 0) := by
  -- the new pixel is known by what it decodes to
  apply PixelType.integersAt_of_decode htarget
  rw [convertPixel_of_isInteger hsource hinside, Pixel.decode_encode,
    PixelType.decode_eq_integersAt hsource, PixelType.stored_of_isInteger htarget,
    PixelType.stored_of_isInteger htarget]
  simp only [Sample.toInt]
  split
  · rfl
  · rfl

/-- The pixel with its values as 64-bit floats. -/
def Pixel.inFloats (pixel : Pixel) : Pixel :=
  ⟨.real pixel.re.toReal, .real pixel.im.toReal⟩

/-- On their way from one integer type to another, values may pass through 64-bit floats. -/
theorem convertPixel_eq_inFloats (hsource : source.isInteger = true)
    (hinside : offset + source.bytes ≤ bytes.size) :
    convertPixel source target bytes offset =
      (Pixel.decode source bytes offset).inFloats.encode target := by
  -- whatever a component holds is an integer that a float has exactly
  have hexact (value : Int) (hholds : source.component.Holds value) : IsExact value := by
    rw [← PixelType.wrap_of_holds hsource hholds]
    exact PixelType.isExact_wrap hsource value
  have hre := hexact _ (PixelType.holds_integerAt hsource bytes offset)
  have him : IsExact (source.integersAt bytes offset).2 := by
    unfold PixelType.integersAt
    dsimp only
    split
    · exact hexact _ (PixelType.holds_integerAt hsource bytes _)
    · decide
  rw [convertPixel_of_isInteger hsource hinside, PixelType.decode_eq_integersAt hsource]
  exact (Pixel.encode_ofInt hre him target).symm

/-! ## Rows of pixels -/

/-- A row is converted pixel by pixel. If nothing has to be converted, it is copied as a whole. -/
theorem convertPixels_eq (target : PixelType) (hbytes : count * source.bytes ≤ bytes.size)
    (hinto : count * target.bytes ≤ into.size) :
    convertPixels source target bytes into count =
      into.overwriteEach (List.range count) (· * target.bytes)
        fun i => convertPixel source target bytes (i * source.bytes) := by
  unfold convertPixels
  split
  · -- without a conversion, all bytes are copied at once
    next heq =>
    subst heq
    simp only [convertPixel, if_true]
    exact (overwriteEach_slices hbytes hinto).symm
  · rfl

section Row

variable (hbytes : count * source.bytes ≤ bytes.size) (hinto : count * target.bytes ≤ into.size)

include hbytes in
private theorem row_size (hi : i < count) :
    (convertPixel source target bytes (i * source.bytes)).size = target.bytes :=
  size_convertPixel (Nat.le_trans (packed_inside _ hi) hbytes)

include hbytes hinto in
private theorem row_inside :
    ∀ i ∈ List.range count, i * target.bytes +
      (convertPixel source target bytes (i * source.bytes)).size ≤ into.size := by
  intro i hi
  rw [row_size hbytes (List.mem_range.mp hi)]
  exact Nat.le_trans (packed_inside _ (List.mem_range.mp hi)) hinto

include hbytes hinto

theorem size_convertPixels : (convertPixels source target bytes into count).size = into.size := by
  rw [convertPixels_eq target hbytes hinto]
  exact size_overwriteEach (row_inside hbytes hinto)

/-- Each pixel of a converted row is the converted pixel. -/
theorem slice_convertPixels (hi : i < count) :
    (convertPixels source target bytes into count).slice (i * target.bytes) target.bytes =
      convertPixel source target bytes (i * source.bytes) := by
  have hapart : (List.range count).Pairwise (Apart (· * target.bytes)
      fun i => convertPixel source target bytes (i * source.bytes)) := by
    -- the pixels are packed, so that none overlaps another
    refine List.nodup_range.imp_of_mem ?_
    intro first second hfirst hsecond hne
    simp only [Apart, row_size hbytes (List.mem_range.mp hfirst),
      row_size hbytes (List.mem_range.mp hsecond)]
    exact packed_apart _ hne
  have hsize : (convertPixel source target bytes (i * source.bytes)).size = target.bytes :=
    row_size hbytes hi
  rw [convertPixels_eq target hbytes hinto, slice_overwriteEach_of_mem
    (row_inside hbytes hinto) hapart (List.mem_range.mpr hi) (Nat.le_refl _)
    (by rw [hsize]), Nat.sub_self, ← hsize, slice_zero_size]

/-- What lies behind the converted pixels stays as it is. -/
theorem byteAt_convertPixels (hoffset : count * target.bytes ≤ offset) :
    (convertPixels source target bytes into count).byteAt offset = into.byteAt offset := by
  rw [convertPixels_eq target hbytes hinto]
  apply byteAt_overwriteEach_of_apart (row_inside hbytes hinto)
  intro i hi
  rw [row_size hbytes (List.mem_range.mp hi)]
  exact .inr (Nat.le_trans (packed_inside _ (List.mem_range.mp hi)) hoffset)

/-- The integers of each pixel of a converted row. -/
theorem integersAt_convertPixels (hsource : source.isInteger = true)
    (htarget : target.isInteger = true) (hi : i < count) :
    target.integersAt (convertPixels source target bytes into count) (i * target.bytes) =
      (target.component.wrap (source.integersAt bytes (i * source.bytes)).1,
        if target.isComplex then
          target.component.wrap (source.integersAt bytes (i * source.bytes)).2
        else 0) := by
  rw [← PixelType.integersAt_slice htarget, slice_convertPixels hbytes hinto hi]
  exact integersAt_convertPixel hsource htarget (Nat.le_trans (packed_inside _ hi) hbytes)

end Row

/-! ## The way back -/

/-- The target has all integers of the source, and an imaginary part if the source has one. -/
structure PixelType.Embeds (source target : PixelType) : Prop where
  holds : ∀ value, source.component.Holds value → target.component.Holds value
  complex : source.isComplex = true → target.isComplex = true

/-- A pixel comes back from a type that has all its integers. -/
theorem convertPixel_convertPixels (hsource : source.isInteger = true)
    (htarget : target.isInteger = true) (hembeds : source.Embeds target)
    (hbytes : count * source.bytes ≤ bytes.size) (hinto : count * target.bytes ≤ into.size)
    (hi : i < count) :
    convertPixel target source (convertPixels source target bytes into count)
        (i * target.bytes) = bytes.slice (i * source.bytes) source.bytes := by
  have hinside : i * target.bytes + target.bytes ≤
      (convertPixels source target bytes into count).size := by
    rw [size_convertPixels hbytes hinto]
    exact Nat.le_trans (packed_inside _ hi) hinto
  -- the target holds all values of the source, so that nothing is wrapped there
  have hstored (offset : Nat) :
      target.component.wrap (source.integerAt bytes offset) = source.integerAt bytes offset :=
    PixelType.wrap_of_holds htarget
      (hembeds.holds _ (PixelType.holds_integerAt hsource bytes offset))
  have hback : bytes.slice (i * source.bytes) source.bytes =
      (Pixel.decode source bytes (i * source.bytes)).encode source := by
    have hsize : (bytes.slice (i * source.bytes) source.bytes).size = source.bytes :=
      size_slice_of_le (Nat.le_trans (packed_inside _ hi) hbytes)
    rw [← decode_slice, Pixel.encode_decode hsource hsize]
  rw [convertPixel_of_isInteger htarget hinside, PixelType.decode_eq_integersAt htarget,
    integersAt_convertPixels hbytes hinto hsource htarget hi, hback,
    PixelType.decode_eq_integersAt hsource]
  unfold PixelType.integersAt Pixel.encode
  by_cases hcomplex : source.isComplex = true
  · simp only [hcomplex, hembeds.complex hcomplex, if_true, hstored]
  · simp only [if_neg hcomplex, hstored]

/-- Whole rows come back as well. -/
theorem convertPixels_convertPixels (hsource : source.isInteger = true)
    (htarget : target.isInteger = true) (hembeds : source.Embeds target)
    (hbytes : count * source.bytes ≤ bytes.size) (hinto : count * target.bytes ≤ into.size)
    {back : ByteArray} (hback : count * source.bytes ≤ back.size) :
    convertPixels target source (convertPixels source target bytes into count) back count =
      back.overwrite 0 (bytes.slice 0 (count * source.bytes)) := by
  have hconverted : count * target.bytes ≤ (convertPixels source target bytes into count).size := by
    rwa [size_convertPixels hbytes hinto]
  -- pixel by pixel, each comes back as it was
  rw [convertPixels_eq source hconverted hback, ← overwriteEach_slices hbytes hback]
  apply overwriteEach_congr
  intro i hi
  exact ⟨rfl, convertPixel_convertPixels hsource htarget hembeds hbytes hinto
    (List.mem_range.mp hi)⟩

end Conversion

/-! ## Main statement -/

/-- A row of `count` pixels of an integer type, converted to another one inside a buffer. Each
    component of each pixel gets the source's integer reduced to its range, the imaginary part of a
    real pixel being zero. The bytes behind the pixels stay. The row is converted pixel by pixel,
    and the values may pass through 64-bit floats. If the target has all integers of the source,
    converting back gives the original bytes. -/
theorem integers_wrap {source target : PixelType} (hsource : source.isInteger = true)
    (htarget : target.isInteger = true) {count : Nat} {bytes into : ByteArray}
    (hbytes : count * source.bytes ≤ bytes.size) (hinto : count * target.bytes ≤ into.size) :
    let converted := convertPixels source target bytes into count
    converted.size = into.size ∧
    (∀ i, i < count →
      target.component.Reduces (source.integersAt bytes (i * source.bytes)).1
        (target.integersAt converted (i * target.bytes)).1 ∧
      (target.isComplex = true →
        target.component.Reduces (source.integersAt bytes (i * source.bytes)).2
          (target.integersAt converted (i * target.bytes)).2)) ∧
    (∀ offset, count * target.bytes ≤ offset → converted.byteAt offset = into.byteAt offset) ∧
    converted = into.overwriteEach (List.range count) (· * target.bytes)
      (fun i => convertPixel source target bytes (i * source.bytes)) ∧
    (∀ i, i < count → converted.slice (i * target.bytes) target.bytes =
      (Pixel.decode source bytes (i * source.bytes)).inFloats.encode target) ∧
    (source.Embeds target → ∀ back : ByteArray, count * source.bytes ≤ back.size →
      (convertPixels target source converted back count).slice 0 (count * source.bytes) =
        bytes.slice 0 (count * source.bytes)) := by
  intro converted
  refine ⟨size_convertPixels hbytes hinto, ?_, fun offset => byteAt_convertPixels hbytes hinto,
    convertPixels_eq target hbytes hinto, ?_, ?_⟩
  · -- each value is reduced into the range of the target
    intro i hi
    rw [integersAt_convertPixels hbytes hinto hsource htarget hi]
    refine ⟨PixelType.reduces_wrap htarget _, fun hcomplex => ?_⟩
    rw [if_pos hcomplex]
    exact PixelType.reduces_wrap htarget _
  · intro i hi
    rw [slice_convertPixels hbytes hinto hi,
      convertPixel_eq_inFloats hsource (Nat.le_trans (packed_inside _ hi) hbytes)]
  · -- what the target embeds comes back as it was
    intro hembeds back hback
    rw [convertPixels_convertPixels hsource htarget hembeds hbytes hinto hback,
      slice_overwrite_of_size (Nat.zero_le _) (size_slice_of_le (by omega))]

/-- A negative pixel and a positive one become complex and wider, and come back. -/
theorem integers_wrap_widened :
    let bytes : ByteArray := ⟨#[0xFE, 0xFF, 5, 0]⟩
    let converted := convertPixels .int16 .complexInt32 bytes (zeros 17) 2
    PixelType.integersAt .complexInt32 converted 0 = (-2, 0) ∧
    PixelType.integersAt .complexInt32 converted 8 = (5, 0) ∧
    converted.byteAt 16 = 0 ∧
    (convertPixels .complexInt32 .int16 converted (zeros 4) 2).slice 0 4 = bytes.slice 0 4 := by
  intro bytes converted
  -- the signed numbers of 32 bits include those of 16
  have hembeds : PixelType.Embeds .int16 .complexInt32 := by
    refine ⟨?_, fun _ => rfl⟩
    rintro value ⟨hlow, hhigh⟩
    refine ⟨Int.le_trans (by decide) hlow, Int.lt_of_lt_of_le hhigh (by decide)⟩
  have hbytes : 2 * PixelType.int16.bytes ≤ bytes.size := by decide
  have hinto : 2 * PixelType.complexInt32.bytes ≤ (zeros 17).size := by decide
  obtain ⟨-, -, hbehind, -, -, hback⟩ := integers_wrap rfl rfl hbytes hinto
  refine ⟨by decide +kernel, by decide +kernel, ?_, hback hembeds (zeros 4) (by decide)⟩
  rw [hbehind 16 (by decide), byteAt_zeros]

/-- Narrowing drops the higher bits: 70000 is 4464 more than a multiple of 65536. -/
example : PixelType.integersAt .int16
    (convertPixels .int32 .int16 (numberBytes 4 70000) (zeros 2) 1) 0 = (4464, 0) := by
  decide +kernel

end RasterStore
