import RasterStore.Proofs.Transfer.Read
import Mathlib.Algebra.Group.Nat.Defs

/-!
# Which requests are accepted

A request for a transfer is accepted exactly if its window has pixels and lies inside the raster
(`Window.check_eq_ok_iff`), and the buffer holds all of its pixels at their places
(`BufferLayout.check_eq_ok_iff`). `TransferRequest.Valid` says so in plain numbers, for requests
whose sizes and strides are 64-bit numbers.
-/

namespace RasterStore

variable {request : TransferRequest} {raster : Size} {window : Window} {layout : BufferLayout}
variable {length : Nat}

/-- The window that a request asks for. -/
def Window.ofRequest (request : TransferRequest) : Window :=
  ⟨request.x.toNat, request.y.toNat, request.window.width, request.window.height⟩

/-- The windows that are accepted lie inside the raster. -/
theorem Window.check_eq_ok_iff :
    Window.check request raster = .ok window ↔
      (0 ≤ request.x ∧ 0 ≤ request.y) ∧ window = .ofRequest request ∧ window.Inside raster := by
  unfold Window.check refused
  constructor
  · -- a check that passes has refused at none of its three steps
    intro h
    simp only at h
    split at h
    · contradiction
    · next hoffset =>
      split at h
      · contradiction
      · next hempty =>
        split at h
        · contradiction
        · next houtside =>
          cases h
          rw [Size.isEmpty_iff] at hempty
          refine ⟨by omega, rfl, ⟨?_, ?_, ?_, ?_⟩⟩
          all_goals simp only
          all_goals omega
  · -- a window that lies inside passes them all
    intro h
    obtain ⟨hoffset, rfl, hinside⟩ := h
    have hwidth := hinside.width_pos
    have hheight := hinside.height_pos
    have hright := hinside.right_le
    have hlower := hinside.lower_le
    simp only [Window.ofRequest] at hwidth hheight hright hlower
    simp only
    rw [if_neg (by omega), if_neg (by rw [Size.isEmpty_iff]; omega), if_neg (by omega)]
    rfl

/-- The layouts that are accepted have pixels, and the buffer holds them. -/
theorem BufferLayout.check_eq_ok_iff :
    BufferLayout.check request length = .ok layout ↔
      layout = .ofRequest request ∧ layout.Fits length ∧ layout.type.bytes ≤ layout.pixelSpace ∧
        layout.lineSpace < byteLimit 8 ∧ layout.extent < byteLimit 8 := by
  unfold BufferLayout.check refused
  constructor
  · -- a check that passes has refused at none of its four steps
    intro h
    simp only at h
    split at h
    · contradiction
    · next hempty =>
      split at h
      · contradiction
      · next hpixel =>
        split at h
        · contradiction
        · next hlimit =>
          split at h
          · contradiction
          · next hlength =>
            cases h
            rw [Size.isEmpty_iff] at hempty
            have hwidth : 0 < (ofRequest request).width := by
              simp only [ofRequest]
              omega
            have hheight : 0 < (ofRequest request).height := by
              simp only [ofRequest]
              omega
            exact ⟨rfl, ⟨hwidth, hheight, by omega⟩, Nat.le_of_not_lt hpixel, by omega, by omega⟩
  · -- a buffer that holds the layout passes them all
    intro h
    obtain ⟨rfl, hfits, hpixel, hline, hextent⟩ := h
    have hwidth := hfits.width_pos
    have hheight := hfits.height_pos
    have hlength := hfits.extent_le
    simp only [ofRequest] at hwidth hheight
    simp only
    rw [if_neg (by rw [Size.isEmpty_iff]; omega),
      if_neg (show ¬(ofRequest request).pixelSpace < request.type.bytes from Nat.not_lt.mpr hpixel),
      if_neg (by omega), if_neg (by omega)]

/-- Strides that are 64-bit numbers give rows that are at most twice as long as they end: a layout
    that ends inside a buffer has no row that overflows. -/
theorem BufferLayout.lineSpace_lt (hwidth : 0 < request.buffer.width)
    (hextent : (ofRequest request).extent ≤ length) (hpixelLimit : request.pixelSpace < 2 ^ 64)
    (hlineLimit : request.lineSpace < 2 ^ 64) (hlength : length < 2 ^ 63) :
    (ofRequest request).lineSpace < 2 ^ 64 := by
  have hcolumns : (request.buffer.width - 1) * (ofRequest request).pixelSpace +
      request.type.bytes ≤ (ofRequest request).extent := by
    simp only [extent, offset, ofRequest]
    omega
  have hspace : (ofRequest request).pixelSpace = request.type.bytes ∨
      (ofRequest request).pixelSpace = request.pixelSpace := by
    simp only [ofRequest]
    split
    · exact .inl rfl
    · exact .inr rfl
  by_cases hzero : request.lineSpace = 0
  · -- packed rows of one pixel have its stride; longer ones are at most twice as long as they end
    have hpacked : (ofRequest request).lineSpace =
        (ofRequest request).pixelSpace * request.buffer.width := by
      simp only [ofRequest, if_pos hzero]
    rw [hpacked, Nat.mul_comm]
    obtain ⟨count, hcount⟩ := Nat.exists_eq_add_of_lt hwidth
    rw [Nat.zero_add] at hcount
    rw [hcount, Nat.add_sub_cancel] at hcolumns
    rw [hcount, Nat.add_mul, Nat.one_mul]
    rcases Nat.eq_zero_or_pos count with rfl | hpos
    · omega
    · have := Nat.le_mul_of_pos_left (ofRequest request).pixelSpace hpos
      omega
  · simp only [ofRequest, if_neg hzero]
    exact hlineLimit

/-- A layout that ends inside a buffer is accepted. -/
theorem BufferLayout.check_of_extent_le (hwidth : 0 < request.buffer.width)
    (hheight : 0 < request.buffer.height)
    (hpixel : request.type.bytes ≤ (ofRequest request).pixelSpace)
    (hextent : (ofRequest request).extent ≤ length) (hpixelLimit : request.pixelSpace < 2 ^ 64)
    (hlineLimit : request.lineSpace < 2 ^ 64) (hlength : length < 2 ^ 63) :
    check request length = .ok (ofRequest request) := by
  have hlimit : byteLimit 8 = 2 ^ 64 := rfl
  refine check_eq_ok_iff.mpr ⟨rfl, ⟨hwidth, hheight, hextent⟩, hpixel, ?_, by omega⟩
  rw [hlimit]
  exact lineSpace_lt hwidth hextent hpixelLimit hlineLimit hlength

/-- The arguments of a transfer are in order: the window is not empty and lies inside the raster,
    the buffer is not empty, its pixels do not begin inside each other and end inside its `length`
    bytes. Strides are 64-bit numbers, and no buffer has more than half as many bytes as they
    count. -/
structure TransferRequest.Valid (request : TransferRequest) (raster : Size) (length : Nat) :
    Prop where
  x_nonneg : 0 ≤ request.x
  y_nonneg : 0 ≤ request.y
  window_pos : 0 < request.window.width ∧ 0 < request.window.height
  right_le : request.x + request.window.width ≤ raster.width
  lower_le : request.y + request.window.height ≤ raster.height
  buffer_pos : 0 < request.buffer.width ∧ 0 < request.buffer.height
  pixelSpace : request.pixelSpace = 0 ∨ request.type.bytes ≤ request.pixelSpace
  extent_le : (BufferLayout.ofRequest request).extent ≤ length
  pixelSpace_lt : request.pixelSpace < 2 ^ 64
  lineSpace_lt : request.lineSpace < 2 ^ 64
  length_lt : length < 2 ^ 63

namespace TransferRequest.Valid

/-- The window of a valid request is accepted. -/
theorem check_window (h : request.Valid raster length) :
    Window.check request raster = .ok (.ofRequest request) := by
  have hx := h.x_nonneg
  have hy := h.y_nonneg
  have hright := h.right_le
  have hlower := h.lower_le
  refine Window.check_eq_ok_iff.mpr ⟨⟨hx, hy⟩, rfl, h.window_pos.1, h.window_pos.2, ?_, ?_⟩
  · simp only [Window.ofRequest]
    omega
  · simp only [Window.ofRequest]
    omega

/-- The buffer of a valid request is accepted. -/
theorem check_layout (h : request.Valid raster length) :
    BufferLayout.check request length = .ok (.ofRequest request) := by
  have hpixel : request.type.bytes ≤ (BufferLayout.ofRequest request).pixelSpace := by
    simp only [BufferLayout.ofRequest]
    split
    · exact Nat.le_refl _
    · next hne => exact h.pixelSpace.resolve_left hne
  exact BufferLayout.check_of_extent_le h.buffer_pos.1 h.buffer_pos.2 hpixel h.extent_le
    h.pixelSpace_lt h.lineSpace_lt h.length_lt

end TransferRequest.Valid

end RasterStore
