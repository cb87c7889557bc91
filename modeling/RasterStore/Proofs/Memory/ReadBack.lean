import RasterStore.Proofs.Memory.PlainRaster

/-!
# Reading back a window that was written

Writing spreads the pixels of a buffer over a window, reading gathers the nearest ones from it. Both
round down, so a buffer that is smaller than the window need not come back as it was: between the
first pixels that two neighbours are spread over, reading may meet the left one again.

* `scaled_scaled`       which cell of the buffer a cell is gathered from, after spreading
* `gatheredFrom_eq_iff`   every cell comes back if the window is a multiple of the buffer
* `written_window_read_back`   which pixels of the buffer are read after any calls
-/

namespace RasterStore

open ByteArray MemoryCodec RasterStore.Action

/-! ## Spreading and gathering cells -/

/-- The cell of `count` whose value is gathered for cell `i`, after the values of all cells were
    spread over `extent` cells: itself, or the one before it if its share does not start at a whole
    cell. -/
def gatheredFrom (i extent count : Nat) : Nat :=
  if count ∣ i * extent then i else i - 1

/-- Gathering from spread cells is `gatheredFrom`. -/
theorem scaled_scaled {i extent count : Nat} (hcount : 0 < count) (hle : count ≤ extent) :
    scaled 0 (scaled 0 i extent count) count extent = gatheredFrom i extent count := by
  have hsum := Nat.div_add_mod' (i * extent) count
  have hmod := Nat.mod_lt (i * extent) hcount
  simp only [scaled, Nat.zero_add, gatheredFrom]
  -- if it divides, the way back is exact; if not, it ends one cell short
  split
  · next hdvd =>
    rw [Nat.div_mul_cancel hdvd, Nat.mul_div_cancel _ (by omega)]
  · next hnot =>
    have hrest : 0 < i * extent % count := Nat.emod_pos_of_not_dvd hnot
    cases i with
    | zero => simp at hnot
    | succ i =>
      rw [Nat.succ_mul] at hsum hmod hrest ⊢
      -- the product is less than a whole cell short of `(i + 1) * extent`
      apply Nat.div_eq_of_lt_le
      · rw [Nat.add_sub_cancel]
        omega
      · rw [Nat.add_sub_cancel, Nat.succ_mul]
        omega

/-- All cells come back exactly if they are spread over equal numbers of cells. -/
theorem gatheredFrom_eq_iff {extent count : Nat} (hcount : 0 < count) :
    (∀ i < count, gatheredFrom i extent count = i) ↔ count ∣ extent := by
  constructor
  · intro hall
    -- the second cell is enough to decide, if there is one
    rcases Nat.lt_or_ge 1 count with hlt | hle
    · have hone := hall 1 hlt
      unfold gatheredFrom at hone
      rw [Nat.one_mul] at hone
      by_contra hnot
      rw [if_neg hnot] at hone
      omega
    · have heq : count = 1 := by omega
      rw [heq]
      exact Nat.one_dvd extent
  · intro hdvd i _
    exact if_pos (Nat.dvd_mul_left_of_dvd hdvd i)

/-! ## Packed buffers -/

/-- The request is for packed pixels, and the buffers of this length hold nothing else. -/
structure TransferRequest.Packed (request : TransferRequest) (length : Nat) : Prop where
  pixelSpace : request.pixelSpace = 0
  lineSpace : request.lineSpace = 0
  length : length = request.buffer.area * request.type.bytes

namespace TransferRequest.Packed

variable {request : TransferRequest} {length : Nat}

/-- Packed pixels are numbered row by row. -/
theorem offset_eq (h : request.Packed length) (column row : Nat) :
    (BufferLayout.ofRequest request).offset column row =
      (row * request.buffer.width + column) * request.type.bytes := by
  simp only [BufferLayout.offset, BufferLayout.ofRequest, h.pixelSpace, h.lineSpace, if_true]
  rw [Nat.add_mul, Nat.mul_assoc, Nat.mul_comm request.type.bytes]

/-- Packed pixels do not overlap. -/
theorem separate (h : request.Packed length) : (BufferLayout.ofRequest request).Separate := by
  apply List.Pairwise.imp_of_mem _ (nodup_cells 0 0 _)
  intro cell other hcell hother hne
  rw [h.offset_eq, h.offset_eq]
  apply packed_apart
  intro heq
  obtain ⟨hcolumn, -⟩ := BufferLayout.mem_cells.mp hcell
  obtain ⟨hcolumn', -⟩ := BufferLayout.mem_cells.mp hother
  obtain ⟨hx, hy⟩ := rowMajor_inj hcolumn hcolumn' heq
  exact hne (Prod.ext hx hy)

/-- Packed buffers with equal pixels are equal. -/
theorem ext_slice {a b : ByteArray} (h : request.Packed length) (ha : a.size = length)
    (hb : b.size = length)
    (hpixels : ∀ column row, column < request.buffer.width → row < request.buffer.height →
      a.slice ((BufferLayout.ofRequest request).offset column row) request.type.bytes =
        b.slice ((BufferLayout.ofRequest request).offset column row) request.type.bytes) :
    a = b := by
  apply ext_packed (ha.trans h.length) (hb.trans h.length)
  intro column row hcolumn hrow
  rw [← h.offset_eq]
  exact hpixels column row hcolumn hrow

end TransferRequest.Packed

/-! ## Windows that are read again -/

/-- The buffer `filled`, laid out as `again` asks for, has the pixels that are gathered from a
    window after `pixels` were spread over it, laid out as `request` asks for. -/
def TransferRequest.Gathered (request again : TransferRequest) (pixels filled : ByteArray) : Prop :=
  ∀ column row, column < request.buffer.width → row < request.buffer.height →
    filled.slice ((BufferLayout.ofRequest again).offset column row) request.type.bytes =
      pixels.slice ((BufferLayout.ofRequest request).offset
        (gatheredFrom column request.window.width request.buffer.width)
        (gatheredFrom row request.window.height request.buffer.height)) request.type.bytes

namespace Refines

variable {raster : Size} {bands : List BandDescriptor} {plain : PlainRaster}
variable {dataset : Dataset MemoryCodec} {band : Nat} {request : TransferRequest}
variable {pixels buffer : ByteArray}

/-- The nearest pixels of a window that was written with pixels of the band's own type. -/
private theorem write_nearest {column row : Nat} (hvalid : request.Valid raster pixels.size)
    (htype : request.type = (bandOf bands band).type)
    (hwidth : request.buffer.width ≤ request.window.width)
    (hheight : request.buffer.height ≤ request.window.height)
    (hcolumn : column < request.buffer.width) (hrow : row < request.buffer.height) :
    plain.write bands band request pixels band
        (request.x.toNat + column * request.window.width / request.buffer.width)
        (request.y.toNat + row * request.window.height / request.buffer.height) =
      pixels.slice ((BufferLayout.ofRequest request).offset
        (gatheredFrom column request.window.width request.buffer.width)
        (gatheredFrom row request.window.height request.buffer.height)) request.type.bytes := by
  have hx := hvalid.x_nonneg
  have hy := hvalid.y_nonneg
  -- the pixel lies in the window
  have hleft : scaled 0 column request.window.width request.buffer.width < 0 + request.window.width :=
    scaled_lt hcolumn hvalid.window_pos.1
  have htop : scaled 0 row request.window.height request.buffer.height < 0 + request.window.height :=
    scaled_lt hrow hvalid.window_pos.2
  have hcolumnBack : scaled 0 (scaled 0 column request.window.width request.buffer.width)
      request.buffer.width request.window.width = _ := scaled_scaled (by omega) hwidth
  have hrowBack : scaled 0 (scaled 0 row request.window.height request.buffer.height)
      request.buffer.height request.window.height = _ := scaled_scaled (by omega) hheight
  simp only [scaled, Nat.zero_add] at hleft htop hcolumnBack hrowBack
  generalize column * request.window.width / request.buffer.width = x at *
  -- with names for the two coordinates of the pixel, the rest is linear
  generalize row * request.window.height / request.buffer.height = y at *
  rw [PlainRaster.write, if_pos ⟨rfl, by omega, by omega⟩]
  simp only [Nat.add_sub_cancel_left, hcolumnBack, hrowBack]
  rw [convertPixel, if_pos htype]

/-- Writing a window and reading it again succeeds, and gathers the pixels that were written. -/
theorem ends_writeRead {pixelSpace lineSpace : Nat} (h : Refines raster bands plain dataset)
    (hblocks : ∀ band ∈ bands, band.Holdable) (hband : IsBand bands band)
    (hvalid : request.Valid raster pixels.size)
    (hagain : { request with pixelSpace, lineSpace }.Valid raster buffer.size)
    (htype : request.type = (bandOf bands band).type)
    (hwidth : request.buffer.width ≤ request.window.width)
    (hheight : request.buffer.height ≤ request.window.height) :
    (do
      Dataset.onBand band (Band.writeRaw band request pixels)
      Dataset.readWindow band { request with pixelSpace, lineSpace } .nearest buffer).Ends dataset
      (fun filled _ => filled.size = buffer.size ∧
        ((BufferLayout.ofRequest { request with pixelSpace, lineSpace }).Separate →
          request.Gathered { request with pixelSpace, lineSpace } pixels filled))
      (fun _ _ => False) := by
  apply Ends.bind
  apply (h.ends_onBand hband (h.ends_writeRaw hblocks hband hvalid)).mono _ fun _ _ hnever => hnever
  intro _ written hwritten
  apply (hwritten.ends_readNearest hblocks hband hagain).mono _ fun _ _ hnever => hnever
  rintro _ after ⟨-, rfl⟩
  constructor
  · exact hwritten.size_copied hband hagain
  · intro hseparate column row hcolumn hrow
    have hcopied := hwritten.slice_copied hband hagain hseparate hcolumn hrow
    rw [write_nearest hvalid htype hwidth hheight hcolumn hrow] at hcopied
    -- both types are the band's own, so the pixel is copied as it is
    apply hcopied.trans
    show convertPixel (bandOf bands band).type request.type (pixels.slice _ request.type.bytes) 0 = _
    rw [← htype, convertPixel_slice, convertPixel, if_pos rfl]

end Refines

/-- Two packed pixels for a window of three. -/
private theorem twoOverThree_valid :
    (Band.packedRequest 0 0 ⟨3, 1⟩ ⟨2, 1⟩ .byte).Valid ⟨3, 1⟩ 2 :=
  ⟨by decide, by decide, by decide, by decide, by decide, by decide, .inl rfl, by decide,
    by decide, by decide, by decide⟩

/-- Bytes in blocks of two by two. -/
private theorem byteBlocks_holdable :
    ∀ band ∈ [(⟨.byte, ⟨2, 2⟩, none⟩ : BandDescriptor)], band.Holdable := by
  intro band hmem
  rw [List.mem_singleton.mp hmem]
  exact ⟨by decide, by decide⟩

variable {raster : Size} {bands : List BandDescriptor}

/-- A window that was written with a buffer of the band's own type is read into another buffer of
    this size and type, after any valid calls to a dataset over new planes. Both succeed. Each pixel
    that is read is a written one: the same, or its neighbour before it where the window gives the
    pixels of the buffer unequal shares (`gatheredFrom`). So the whole buffer comes back if the
    window is a multiple of it. The planes and blocks are not too large to be held in memory. -/
theorem written_window_read_back (hraster : raster.isEmpty = false) (hbands : bands ≠ [])
    (hblocks : ∀ band ∈ bands, band.Holdable)
    (hplanes : ∀ band ∈ bands, raster.area * band.type.bytes < memoryLimit)
    (options : OpenOptions) (hupdate : options.flags.update = true) (environment : Option String) :
    ∃ codec dataset, MemoryCodec.create raster bands.toArray = .ok codec ∧
      Dataset.ofCodec codec raster bands options environment = .ok dataset ∧
      ∀ calls : List RasterCall, (∀ call ∈ calls, call.Valid raster bands) →
        ∃ before, (calls.forM RasterCall.perform).run dataset = (.ok ⟨⟩, before) ∧
          ∀ (band : Nat) (request : TransferRequest) (pixelSpace lineSpace : Nat)
            (pixels buffer : ByteArray), IsBand bands band →
            request.Valid raster pixels.size →
            { request with pixelSpace, lineSpace }.Valid raster buffer.size →
            request.type = (bandOf bands band).type →
            request.buffer.width ≤ request.window.width →
            request.buffer.height ≤ request.window.height →
            ∃ filled after,
              (do
                Dataset.onBand band (Band.writeRaw band request pixels)
                Dataset.readWindow band { request with pixelSpace, lineSpace } .nearest
                  buffer).run before = (.ok filled, after) ∧
              ((BufferLayout.ofRequest { request with pixelSpace, lineSpace }).Separate →
                request.Gathered { request with pixelSpace, lineSpace } pixels filled) ∧
              (request.Packed pixels.size →
                { request with pixelSpace, lineSpace }.Packed buffer.size →
                request.buffer.width ∣ request.window.width →
                request.buffer.height ∣ request.window.height → filled = pixels) := by
  obtain ⟨dataset, hdataset, hisNew⟩ := Dataset.ofCodec_of_nonempty
    (MemoryCodec.blank raster bands.toArray) hraster hbands
    (fun band hmem => (hblocks band hmem).nonempty) options environment
  rw [OpenFlags.access, if_pos hupdate] at hisNew
  refine ⟨_, dataset, MemoryCodec.create_of_held hbands hplanes, hdataset, fun calls hcalls => ?_⟩
  obtain ⟨_, before, hrun, hbefore⟩ :=
    ((refines_new hblocks hisNew).ends_calls hblocks hcalls).exists_ok
  refine ⟨before, hrun, ?_⟩
  intro band request pixelSpace lineSpace pixels buffer hband hvalid hagain htype hwidth hheight
  obtain ⟨filled, after, hread, hsize, hgathered⟩ :=
    (hbefore.ends_writeRead hblocks hband hvalid hagain htype hwidth hheight).exists_ok
  refine ⟨filled, after, hread, hgathered, ?_⟩
  -- with packed pixels the cells are the whole buffer
  intro hpacked hpackedAgain hcolumns hrows
  apply hpacked.ext_slice (hsize.trans (hpackedAgain.length.trans hpacked.length.symm)) rfl
  intro column row hcolumn hrow
  have hpixel := hgathered hpackedAgain.separate column row hcolumn hrow
  -- where the sizes divide, every cell is gathered from itself
  rw [(gatheredFrom_eq_iff hvalid.buffer_pos.1).mpr hcolumns column hcolumn,
    (gatheredFrom_eq_iff hvalid.buffer_pos.2).mpr hrows row hrow, hpackedAgain.offset_eq] at hpixel
  rw [hpacked.offset_eq] at hpixel ⊢
  exact hpixel

/-- Two pixels over three, in blocks of two by two: the second pixel is not read back. -/
theorem written_window_read_back_unevenly :
    ∃ codec dataset filled after,
      MemoryCodec.create ⟨3, 1⟩ #[⟨.byte, ⟨2, 2⟩, none⟩] = .ok codec ∧
      Dataset.ofCodec codec ⟨3, 1⟩ [⟨.byte, ⟨2, 2⟩, none⟩]
        { flags := { update := true }, cacheBlocks := some 1 } none = .ok dataset ∧
      (do
        Dataset.onBand 1 (Band.writeRaw 1 (Band.packedRequest 0 0 ⟨3, 1⟩ ⟨2, 1⟩ .byte) ⟨#[5, 9]⟩)
        Dataset.readWindow 1 (Band.packedRequest 0 0 ⟨3, 1⟩ ⟨2, 1⟩ .byte) .nearest
          (ByteArray.zeros 2)).run dataset = (.ok filled, after) ∧
      filled.slice 0 1 = ⟨#[5]⟩ ∧ filled.slice 1 1 = ⟨#[5]⟩ := by
  obtain ⟨codec, dataset, hcodec, hdataset, hcalls⟩ := @written_window_read_back ⟨3, 1⟩
    [⟨.byte, ⟨2, 2⟩, none⟩] (by decide) (by decide) byteBlocks_holdable (by decide)
    { flags := { update := true }, cacheBlocks := some 1 } rfl none
  obtain ⟨before, hrun, hwindows⟩ := hcalls [] (by simp)
  obtain ⟨-, rfl⟩ := Prod.mk.inj hrun
  obtain ⟨filled, after, hread, hgathered, -⟩ := hwindows 1
    (Band.packedRequest 0 0 ⟨3, 1⟩ ⟨2, 1⟩ .byte) 0 0 ⟨#[5, 9]⟩ (ByteArray.zeros 2) (by decide)
    twoOverThree_valid twoOverThree_valid rfl (by decide) (by decide)
  -- the second cell is gathered from the first, since two does not divide three
  have hpixels := hgathered (by decide)
  exact ⟨codec, dataset, filled, after, hcodec, hdataset, hread,
    hpixels 0 0 (by decide) (by decide), hpixels 1 0 (by decide) (by decide)⟩

/-- Not every buffer of the band's own type comes back from a window that is at least as large. -/
theorem written_window_not_read_back :
    ¬∀ (raster : Size) (bands : List BandDescriptor) (codec : MemoryCodec)
      (dataset : Dataset MemoryCodec) (band : Nat) (request : TransferRequest)
      (pixels buffer : ByteArray), MemoryCodec.create raster bands.toArray = .ok codec →
      dataset.IsNew codec raster bands .update →
      (∀ band ∈ bands, band.Holdable) → IsBand bands band →
      request.Valid raster pixels.size → request.Packed pixels.size →
      request.type = (bandOf bands band).type →
      request.buffer.width ≤ request.window.width →
      request.buffer.height ≤ request.window.height → buffer.size = pixels.size →
      (do
        Dataset.onBand band (Band.writeRaw band request pixels)
        Dataset.readWindow band request .nearest buffer).Ends dataset
        (fun filled _ => filled = pixels) (fun _ _ => False) := by
  intro hsame
  have hblocks := byteBlocks_holdable
  have hband : IsBand [(⟨.byte, ⟨2, 2⟩, none⟩ : BandDescriptor)] 1 := by decide
  obtain ⟨dataset, -, hisNew⟩ := @Dataset.ofCodec_of_nonempty _ _ ⟨3, 1⟩ [⟨.byte, ⟨2, 2⟩, none⟩]
    (MemoryCodec.blank ⟨3, 1⟩ #[⟨.byte, ⟨2, 2⟩, none⟩]) (by decide) (by decide) (by decide)
    { flags := { update := true } } none
  have hassumed := hsame ⟨3, 1⟩ [⟨.byte, ⟨2, 2⟩, none⟩] _ dataset 1
    (Band.packedRequest 0 0 ⟨3, 1⟩ ⟨2, 1⟩ .byte) ⟨#[5, 9]⟩ (ByteArray.zeros 2)
    (MemoryCodec.create_of_held (by decide) (by decide)) hisNew hblocks hband twoOverThree_valid
    ⟨rfl, rfl, rfl⟩ rfl (by decide) (by decide) rfl
  have hgathered := @Refines.ends_writeRead _ _ _ dataset 1
    (Band.packedRequest 0 0 ⟨3, 1⟩ ⟨2, 1⟩ .byte) ⟨#[5, 9]⟩ (ByteArray.zeros 2) 0 0
    (refines_new hblocks hisNew) hblocks hband twoOverThree_valid twoOverThree_valid rfl
    (by decide) (by decide)
  obtain ⟨_, _, -, rfl, -, hpixels⟩ :=
    ((hassumed.and hgathered).mono (fun _ _ h => h) fun _ _ h => h.1).exists_ok
  -- the second pixel that is read is the first one that was written
  have hsecond := congrArg (ByteArray.byteAt · 0)
    (hpixels (by decide) 1 0 (by decide) (by decide))
  exact absurd hsecond (by decide)

end RasterStore
