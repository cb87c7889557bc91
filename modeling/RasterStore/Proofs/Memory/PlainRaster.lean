import RasterStore.Proofs.Memory.Planes
import RasterStore.Proofs.Calls

/-!
# A raster in memory is a plain array

Seen through its calls, a dataset over a `MemoryCodec` is a `PlainRaster`: a function from band,
column and row to pixels, which every write changes at once. Blocks, their cache and the planes
behind it do not show. The relation between the two is `Refines`:

* `RasterCall.refines`   every valid call succeeds and does what `RasterCall.effect` says
* `refines_new`          new datasets are rasters of zeros
* `memory_is_plain_raster`   after any valid calls, reading gives the pixels of the plain raster
-/

namespace RasterStore

open BlockStore MemoryCodec RasterStore.Action

/-! ## Plain rasters -/

/-- The pixel in a column and row of a band. -/
abbrev PlainRaster : Type :=
  (band x y : Nat) → ByteArray

/-- The number is one of a band. -/
def IsBand (bands : List BandDescriptor) (band : Nat) : Prop :=
  0 < band ∧ band ≤ bands.length

instance (bands : List BandDescriptor) (band : Nat) : Decidable (IsBand bands band) :=
  inferInstanceAs (Decidable (_ ∧ _))

namespace PlainRaster

variable (bands : List BandDescriptor)

/-- The raster of zeros. -/
def zeros : PlainRaster := fun band _ _ =>
  ByteArray.zeros (bandOf bands band).type.bytes

/-- The raster after a buffer was written into a window: each pixel of the window is the buffer
    pixel that belongs to it, converted to the type of the band. -/
def write (band : Nat) (request : TransferRequest) (buffer : ByteArray) (plain : PlainRaster) :
    PlainRaster := fun b x y =>
  if b = band ∧ (request.x ≤ x ∧ x < request.x + request.window.width) ∧
      (request.y ≤ y ∧ y < request.y + request.window.height) then
    let column := (x - request.x.toNat) * request.buffer.width / request.window.width
    let row := (y - request.y.toNat) * request.buffer.height / request.window.height
    convertPixel request.type (bandOf bands band).type buffer
      ((BufferLayout.ofRequest request).offset column row)
  else plain b x y

/-- The raster after a block was replaced. -/
def writeBlock (band column row : Nat) (data : ByteArray) (plain : PlainRaster) :
    PlainRaster := fun b x y =>
  let descriptor := bandOf bands band
  if b = band ∧ x / descriptor.block.width = column ∧ y / descriptor.block.height = row then
    let index := y % descriptor.block.height * descriptor.block.width + x % descriptor.block.width
    data.slice (index * descriptor.type.bytes) descriptor.type.bytes
  else plain b x y

/-- The raster after a band was filled with a value. -/
def fill (band : Nat) (value : Binary64) (plain : PlainRaster) : PlainRaster := fun b x y =>
  if b = band then pixelBytes (bandOf bands band).type value else plain b x y

/-! Each of them draws new pixels in a band. -/

/-- The raster after the pixels of a band for which `new` has a value were given this value. -/
def draw (band : Nat) (new : Nat → Nat → Option ByteArray) (plain : PlainRaster) :
    PlainRaster := fun b x y =>
  if b = band then (new x y).getD (plain b x y) else plain b x y

variable {bands} {band : Nat} {plain : PlainRaster}

/-- Writing a window is drawing its pixels. -/
theorem write_eq_draw {request : TransferRequest} {buffer : ByteArray} (hx : 0 ≤ request.x)
    (hy : 0 ≤ request.y) :
    plain.write bands band request buffer = plain.draw band
      (windowPixels (bandOf bands band) (.ofRequest request) (.ofRequest request) buffer) := by
  funext b x y
  -- the window of the request, as the plain raster has it
  have hcontains : (Window.ofRequest request).Contains x y ↔
      (request.x ≤ x ∧ x < request.x + request.window.width) ∧
        (request.y ≤ y ∧ y < request.y + request.window.height) := by
    simp only [Window.Contains, Window.ofRequest]
    omega
  rw [write, draw, windowPixels]
  by_cases hb : b = band
  · simp only [hb, hcontains, true_and, if_true]
    split
    · simp only [Option.getD_some, bufferPixel, scaled, Nat.zero_add]
      rfl
    · rfl
  · -- the other bands stay as they are
    rw [if_neg (fun hboth => hb hboth.1), if_neg hb]

/-- Writing a block is drawing its pixels that lie in the raster. -/
theorem writeBlock_eq_draw {column row : Nat} {data : ByteArray} :
    plain.writeBlock bands band column row data =
      plain.draw band (PixelModel.blockPixels (bandOf bands band) (column, row) data) := by
  funext b x y
  rw [writeBlock, draw, PixelModel.blockPixels]
  by_cases hb : b = band
  · simp only [hb, true_and, if_true, Prod.mk.injEq]
    split
    · rfl
    · rfl
  · rw [if_neg hb, if_neg (fun hboth => hb hboth.1)]

/-- Filling a band is drawing one value everywhere. -/
theorem fill_eq_draw {value : Binary64} :
    plain.fill bands band value =
      plain.draw band fun _ _ => some (pixelBytes (bandOf bands band).type value) := rfl

end PlainRaster

/-! ## Calls -/

namespace RasterCall

/-- The arguments of the call are in order. -/
def Valid (raster : Size) (bands : List BandDescriptor) : RasterCall → Prop
  | read band request _ buffer | write band request buffer
  | writeResampled band request .nearest buffer =>
    IsBand bands band ∧ request.Valid raster buffer.size
  -- averages can only be read
  | writeResampled _ _ .average _ => False
  | readBlock band column row length =>
    IsBand bands band ∧ (column * (bandOf bands band).block.width < raster.width ∧
      row * (bandOf bands band).block.height < raster.height) ∧
      length = (bandOf bands band).blockBytes
  | writeBlock band column row data =>
    IsBand bands band ∧ (column * (bandOf bands band).block.width < raster.width ∧
      row * (bandOf bands band).block.height < raster.height) ∧
      data.size = (bandOf bands band).blockBytes
  | fill band _ | setNoData band _ | flushBand band => IsBand bands band
  | flush | setCapacity _ => True

/-- What the call does to a plain raster. -/
def effect (bands : List BandDescriptor) : RasterCall → PlainRaster → PlainRaster
  | write band request buffer, plain | writeResampled band request _ buffer, plain =>
    plain.write bands band request buffer
  | writeBlock band column row data, plain => plain.writeBlock bands band column row data
  | fill band value, plain => plain.fill bands band value
  | read .., plain | readBlock .., plain | setNoData .., plain | flushBand _, plain
  | flush, plain | setCapacity _, plain => plain

end RasterCall

/-! ## The no-data value of planes -/

namespace MemoryCodec

/-- The block as a band with another no-data value has it. -/
def withNoData (context : BlockContext) (value : Option Binary64) : BlockContext :=
  { context with descriptor := { context.descriptor with noData := value } }

variable {raster : Size} {bands : List BandDescriptor} {before after : BlockStore MemoryCodec}

/-- Planes do not know of no-data values. -/
theorem logical_withNoData {key : BlockRef} {value : Option Binary64}
    (hcontext : after.context key = withNoData (before.context key) value)
    (hcache : after.cache = before.cache) (hcodec : after.codec = before.codec) :
    (planeModel raster bands).logical after key = (planeModel raster bands).logical before key := by
  rw [CodecModel.logical, CodecModel.logical, hcache, hcodec, hcontext]
  rfl

/-- A band with another no-data value has blocks of the same shape. -/
theorem exists_context_recordNoData (store : BlockStore MemoryCodec) (band : Nat)
    (value : Option Binary64) (key : BlockRef) :
    ∃ noData, (store.recordNoData store.codec band value).context key =
      withNoData (store.context key) noData := by
  simp only [recordNoData, context, descriptor, Array.getD_eq_getD_getElem?, Array.getElem?_modify]
  split
  · cases store.bands[key.band - 1]? with
    | none => exact ⟨_, rfl⟩
    | some descriptor => exact ⟨value, rfl⟩
  · exact ⟨_, rfl⟩

/-- The cache agrees with the planes whatever no-data values the bands have. -/
theorem sound_withNoData (hsound : (planeModel raster bands).Sound before)
    (hcontext : ∀ key, ∃ value, after.context key = withNoData (before.context key) value)
    (hcache : after.cache = before.cache) (hcodec : after.codec = before.codec) :
    (planeModel raster bands).Sound after := by
  refine ⟨⟨?_, ?_, fun {key block} hfind => ?_, fun {key block} hfind => ?_⟩,
    fun {key block} hfind hclean => ?_⟩
  · rw [hcodec]
    exact hsound.holds
  · rw [hcache]
    exact hsound.distinct
  · -- whether a block is served does not depend on the no-data value
    rw [hcache] at hfind
    obtain ⟨value, hkey⟩ := hcontext key
    have hserved : Shaped raster bands (before.context key) := hsound.served hfind
    rw [hkey]
    exact ⟨⟨hserved.sameRaster, hserved.left_lt, hserved.top_lt⟩, hserved.band_pos, hserved.shape⟩
  · rw [hcache] at hfind
    obtain ⟨value, hkey⟩ := hcontext key
    rw [hkey]
    exact hsound.fits hfind
  · -- nor does what the planes hold
    rw [hcache] at hfind
    obtain ⟨value, hkey⟩ := hcontext key
    rw [hkey, hcodec]
    exact hsound.clean hfind hclean

end MemoryCodec

/-! ## The relation -/

/-- The dataset is open for update and has these bands, with no-data values of its own. -/
structure HasBands (raster : Size) (bands : List BandDescriptor) (dataset : Dataset MemoryCodec) :
    Prop where
  access : dataset.access = .update
  sameRaster : dataset.store.raster = raster
  count : dataset.store.bands.size = bands.length
  shape : ∀ band, ∃ value,
    dataset.store.descriptor band = { bandOf bands band with noData := value }

/-- The bands of the dataset have the pixels of the plain raster. -/
structure Refines (raster : Size) (bands : List BandDescriptor) (plain : PlainRaster)
    (dataset : Dataset MemoryCodec) : Prop extends HasBands raster bands dataset where
  sound : (planeModel raster bands).Sound dataset.store
  pixel : ∀ band x y, IsBand bands band → x < raster.width → y < raster.height →
    (planeModel raster bands).pixelAt dataset.store band x y = plain band x y
  size : ∀ band x y, IsBand bands band → x < raster.width → y < raster.height →
    (plain band x y).size = (bandOf bands band).type.bytes

/-- A band that exists is one of the list. -/
theorem getElem?_of_isBand {bands : List BandDescriptor} {band : Nat}
    (hband : IsBand bands band) : bands[band - 1]? = some (bandOf bands band) := by
  have hlt : band - 1 < bands.length := by
    have := hband.1
    have := hband.2
    omega
  rw [bandOf, List.getD_eq_getElem?_getD, List.getElem?_eq_getElem hlt, Option.getD_some]

/-- Blocks of the band have pixels, and one of them can be held in memory. -/
structure BandDescriptor.Holdable (descriptor : BandDescriptor) : Prop where
  nonempty : descriptor.block.isEmpty = false
  held : descriptor.blockBytes < memoryLimit

namespace HasBands

variable {raster : Size} {bands : List BandDescriptor} {dataset : Dataset MemoryCodec}
variable {store : BlockStore MemoryCodec} {band : Nat}

/-- The dataset has the size of the raster. -/
theorem size_eq (h : HasBands raster bands dataset) : dataset.size = raster :=
  h.sameRaster

/-- The pixels of a band have the type of the list of bands. -/
theorem type_eq (h : HasBands raster bands dataset) (band : Nat) :
    (dataset.descriptor band).type = (bandOf bands band).type := by
  obtain ⟨value, hband⟩ := h.shape band
  rw [Dataset.descriptor, hband]

/-- The blocks of a band have the size of the list of bands. -/
theorem block_eq (h : HasBands raster bands dataset) (band : Nat) :
    (dataset.descriptor band).block = (bandOf bands band).block := by
  obtain ⟨value, hband⟩ := h.shape band
  rw [Dataset.descriptor, hband]

/-- The planes can be asked for all blocks of all bands. -/
theorem serving (h : HasBands raster bands dataset)
    (hblocks : ∀ band ∈ bands, band.Holdable) (hband : IsBand bands band) :
    (planeModel raster bands).Serving dataset.store band := by
  have hget := getElem?_of_isBand hband
  have hmem := (hblocks _ (List.mem_of_getElem? hget)).nonempty
  have hblock : (dataset.store.descriptor band).block = _ := h.block_eq band
  constructor
  · -- the blocks have pixels, as all that can be held do
    rw [BandDescriptor.Blocked, hblock]
    rw [← Bool.not_eq_true, Size.isEmpty_iff] at hmem
    omega
  · -- a block whose corner lies in the raster is placed in the planes
    intro x y hx hy
    rw [h.sameRaster] at hx hy
    exact ⟨⟨h.sameRaster, hx, hy⟩, hband.1, _, hget, h.type_eq band, hblock⟩

/-- The blocks of the bands can be held in memory; no-data values do not change their size. -/
theorem held (h : HasBands raster bands dataset) (hblocks : ∀ band ∈ bands, band.Holdable)
    (hband : IsBand bands band) : Band.Held dataset band := by
  have hmem := hblocks _ (List.mem_of_getElem? (getElem?_of_isBand hband))
  obtain ⟨value, hdescriptor⟩ := h.shape band
  rw [Band.Held, Dataset.descriptor, hdescriptor]
  exact hmem.held

/-- A request that is in order is accepted. -/
theorem accepts (h : HasBands raster bands dataset) (hblocks : ∀ band ∈ bands, band.Holdable)
    (hband : IsBand bands band) {request : TransferRequest} {length : Nat}
    (hvalid : request.Valid raster length) : Band.Accepts dataset band request length := by
  refine ⟨?_, h.held hblocks hband⟩
  rw [h.size_eq]
  exact hvalid.accepted

/-- A block of the grid is accepted with a buffer of its size. -/
theorem acceptsBlock (h : HasBands raster bands dataset)
    (hblocks : ∀ band ∈ bands, band.Holdable) (hband : IsBand bands band) {column row length : Nat}
    (hgrid : column * (bandOf bands band).block.width < raster.width ∧
      row * (bandOf bands band).block.height < raster.height)
    (hlength : length = (bandOf bands band).blockBytes) :
    Band.AcceptsBlock dataset band column row length := by
  obtain ⟨value, hdescriptor⟩ := h.shape band
  refine ⟨?_, ?_, h.held hblocks hband⟩
  · -- the no-data value, which may have changed, plays no part in the grid
    rw [Band.InGrid, h.size_eq, Dataset.descriptor, hdescriptor]
    exact hgrid
  · rw [Dataset.descriptor, hdescriptor]
    exact hlength

/-- An operation on a band is carried out. -/
theorem ends_onBand {α : Type} {act : Action (Dataset MemoryCodec) α}
    {good : α → Dataset MemoryCodec → Prop} {bad : RasterError → Dataset MemoryCodec → Prop}
    (h : HasBands raster bands dataset) (hband : IsBand bands band)
    (hact : act.Ends dataset good bad) : (Dataset.onBand band act).Ends dataset good bad := by
  refine Dataset.ends_onBand (fun _ => hact) fun hnot => absurd ⟨hband.1, ?_⟩ hnot
  rw [Dataset.bandCount, h.count]
  exact hband.2

/-- A step that keeps the bands keeps them. -/
theorem of_sameBands (h : HasBands raster bands dataset) (hbands : dataset.store.SameBands store) :
    HasBands raster bands { dataset with store } := by
  refine ⟨h.access, hbands.raster.trans h.sameRaster, ?_, fun band => ?_⟩
  · show store.bands.size = _
    rw [hbands.bands, h.count]
  · show ∃ value, store.descriptor band = _
    rw [hbands.descriptor]
    exact h.shape band

end HasBands

namespace Refines

variable {raster : Size} {bands : List BandDescriptor} {plain : PlainRaster}
variable {dataset : Dataset MemoryCodec} {store : BlockStore MemoryCodec} {band x y : Nat}

/-- Nothing changes if the step changed no content. -/
theorem of_keeps (h : Refines raster bands plain dataset)
    (hblocks : ∀ band ∈ bands, band.Holdable)
    (hkeeps : (planeModel raster bands).Keeps dataset.store store) :
    Refines raster bands plain { dataset with store } := by
  refine ⟨h.of_sameBands hkeeps.bands, hkeeps.sound, fun band x y hband hx hy => ?_, h.size⟩
  rw [← h.pixel band x y hband hx hy]
  exact PixelModel.pixelAt_of_keeps hkeeps (h.serving hblocks hband) (by rwa [h.sameRaster])
    (by rwa [h.sameRaster])

/-- What is drawn in the blocks is drawn in the plain raster. -/
theorem of_drawn (h : Refines raster bands plain dataset)
    (hblocks : ∀ band ∈ bands, band.Holdable)
    {new : Nat → Nat → Option ByteArray}
    (hdrawn : (planeModel raster bands).Drawn dataset.store band new store)
    (hsize : ∀ x y value, x < raster.width → y < raster.height → new x y = some value →
      value.size = (bandOf bands band).type.bytes) :
    Refines raster bands (plain.draw band new) { dataset with store } := by
  refine ⟨h.of_sameBands hdrawn.bands, hdrawn.sound, fun b x y hband hx hy => ?_,
    fun b x y hband hx hy => ?_⟩
  · -- the pixels are those that were drawn
    have hpixel := hdrawn.pixel b x y (h.serving hblocks hband) (by rwa [h.sameRaster])
      (by rwa [h.sameRaster])
    rw [h.pixel b x y hband hx hy] at hpixel
    exact hpixel
  · rw [PlainRaster.draw]
    split
    · -- in the band that was drawn on, a pixel is new or as before
      next heq =>
      subst heq
      cases hnew : new x y with
      | none => exact h.size b x y hband hx hy
      | some value => exact hsize x y value hx hy hnew
    · exact h.size b x y hband hx hy

/-! ## Calls -/

variable {request : TransferRequest} {buffer : ByteArray}

/-- Calls whose arguments are in order do not fail. -/
private theorem never {accepted same : Prop} (haccepted : accepted)
    (h : ¬accepted ∧ same ∨ accepted ∧ (planeModel raster bands).MayFail) : False :=
  h.elim (fun hrefused => hrefused.1 haccepted) And.right

/-- Reading succeeds and copies the nearest pixels. -/
theorem ends_readNearest (h : Refines raster bands plain dataset)
    (hblocks : ∀ band ∈ bands, band.Holdable) (hband : IsBand bands band)
    (hvalid : request.Valid raster buffer.size) :
    (Dataset.readWindow band request .nearest buffer).Ends dataset
      (fun filled after => Refines raster bands plain after ∧
        filled = (planeModel raster bands).copied dataset.store band (.ofRequest request)
          (.ofRequest request) buffer (BufferLayout.ofRequest request).cells)
      (fun _ _ => False) := by
  refine h.ends_onBand hband (Dataset.ends_intoBuffer
    ((Band.ends_readRaw_filled h.sound (h.serving hblocks hband)).mono ?_ ?_))
  · intro _ after hread
    obtain ⟨-, store, filled, rfl, hcopied⟩ := hread
    exact ⟨h.of_keeps hblocks hcopied.keeps, hcopied.buffer⟩
  · -- a valid request is not refused, and the planes do not fail
    intro _ after hfailed
    exact never (h.accepts hblocks hband hvalid) hfailed

/-- The nearest pixel of a cell, in the plain raster. -/
private theorem nearestPixel_eq {column row : Nat} (h : Refines raster bands plain dataset)
    (hband : IsBand bands band) (hvalid : request.Valid raster buffer.size)
    (hcolumn : column < request.buffer.width) (hrow : row < request.buffer.height) :
    (planeModel raster bands).nearestPixel dataset.store band (.ofRequest request)
        (.ofRequest request) (column, row) =
      convertPixel (bandOf bands band).type request.type
        (plain band (request.x.toNat + column * request.window.width / request.buffer.width)
          (request.y.toNat + row * request.window.height / request.buffer.height)) 0 := by
  have hinside := hvalid.accepted.inside.scaled_lt hcolumn hrow
  have htype : (dataset.store.descriptor band).type = _ := h.type_eq band
  simp only [scaled, Window.ofRequest] at hinside
  simp only [PixelModel.nearestPixel, scaled, Window.ofRequest, BufferLayout.ofRequest, htype]
  rw [h.pixel band _ _ hband hinside.1 hinside.2]

/-- A pixel that is read has the type that was asked for. -/
private theorem size_nearestPixel (h : Refines raster bands plain dataset)
    (hband : IsBand bands band) (hvalid : request.Valid raster buffer.size) :
    ∀ cell ∈ (BufferLayout.ofRequest request).cells,
      ((planeModel raster bands).nearestPixel dataset.store band (.ofRequest request)
        (.ofRequest request) cell).size = request.type.bytes := by
  intro cell hmem
  obtain ⟨column, row⟩ := cell
  obtain ⟨hcolumn, hrow⟩ := BufferLayout.mem_cells.mp hmem
  -- the pixel that is read lies in the raster
  have hinside := hvalid.accepted.inside.scaled_lt hcolumn hrow
  rw [h.nearestPixel_eq hband hvalid hcolumn hrow]
  apply size_convertPixel
  rw [Nat.zero_add]
  exact Nat.le_of_eq (h.size band _ _ hband hinside.1 hinside.2).symm

/-- A buffer that was read has the size that it had before. -/
theorem size_copied (h : Refines raster bands plain dataset) (hband : IsBand bands band)
    (hvalid : request.Valid raster buffer.size) :
    ((planeModel raster bands).copied dataset.store band (.ofRequest request) (.ofRequest request)
      buffer (BufferLayout.ofRequest request).cells).size = buffer.size := by
  have hsizes := h.size_nearestPixel hband hvalid
  apply ByteArray.size_overwriteEach
  intro cell hmem
  rw [hsizes cell hmem]
  obtain ⟨hcolumn, hrow⟩ := BufferLayout.mem_cells.mp hmem
  exact Nat.le_trans (BufferLayout.offset_add_le hcolumn hrow) hvalid.accepted.fits.extent_le

/-- The cells of a buffer that was read have the nearest pixels of the plain raster. -/
theorem slice_copied {column row : Nat} (h : Refines raster bands plain dataset)
    (hband : IsBand bands band) (hvalid : request.Valid raster buffer.size)
    (hseparate : (BufferLayout.ofRequest request).Separate) (hcolumn : column < request.buffer.width)
    (hrow : row < request.buffer.height) :
    ((planeModel raster bands).copied dataset.store band (.ofRequest request) (.ofRequest request)
        buffer (BufferLayout.ofRequest request).cells).slice
        ((BufferLayout.ofRequest request).offset column row) request.type.bytes =
      convertPixel (bandOf bands band).type request.type
        (plain band (request.x.toNat + column * request.window.width / request.buffer.width)
          (request.y.toNat + row * request.window.height / request.buffer.height)) 0 := by
  have hmem : (column, row) ∈ (BufferLayout.ofRequest request).cells :=
    BufferLayout.mem_cells.mpr ⟨hcolumn, hrow⟩
  -- cells that do not overlap keep what was copied to them
  refine Eq.trans ?_ (h.nearestPixel_eq hband hvalid hcolumn hrow)
  rw [PixelModel.copied]
  have hslice := BufferLayout.slice_overwriteCells hseparate hvalid.accepted.fits
    (List.Sublist.refl _) (h.size_nearestPixel hband hvalid) hmem
  exact hslice

/-- Reading a window, with either resampling, leaves the raster as it is. -/
theorem ends_readWindow {resampling : Resampling} (h : Refines raster bands plain dataset)
    (hblocks : ∀ band ∈ bands, band.Holdable) (hband : IsBand bands band)
    (hvalid : request.Valid raster buffer.size) :
    (Dataset.readWindow band request resampling buffer).Ends dataset
      (fun _ after => Refines raster bands plain after) (fun _ _ => False) := by
  refine h.ends_onBand hband (Dataset.ends_intoBuffer
    ((Band.ends_readRaw_filled h.sound (h.serving hblocks hband)).mono ?_ ?_))
  · intro _ after hread
    obtain ⟨-, store, bytes, rfl, hfilled⟩ := hread
    exact h.of_keeps hblocks hfilled.keeps
  · -- neither the checks nor the planes fail
    intro _ after hfailed
    exact never (h.accepts hblocks hband hvalid) hfailed

/-- Reading a block of the grid leaves the raster as it is. -/
theorem ends_readBlock {column row length : Nat} (h : Refines raster bands plain dataset)
    (hblocks : ∀ band ∈ bands, band.Holdable) (hband : IsBand bands band)
    (hgrid : column * (bandOf bands band).block.width < raster.width ∧
      row * (bandOf bands band).block.height < raster.height)
    (hlength : length = (bandOf bands band).blockBytes) :
    (Dataset.readBlock band column row length).Ends dataset
      (fun _ after => Refines raster bands plain after) (fun _ _ => False) := by
  refine h.ends_onBand hband
    ((Band.ends_readBlock h.sound (h.serving hblocks hband)).mono ?_ ?_)
  · intro _ after hread
    obtain ⟨-, store, rfl, hfetched⟩ := hread
    exact h.of_keeps hblocks (hfetched.keeps rfl)
  · exact fun _ _ hfailed => never (h.acceptsBlock hblocks hband hgrid hlength) hfailed

/-- Writing a window draws it in the plain raster. -/
theorem ends_writeRaw (h : Refines raster bands plain dataset)
    (hblocks : ∀ band ∈ bands, band.Holdable) (hband : IsBand bands band)
    (hvalid : request.Valid raster buffer.size) :
    (Band.writeRaw band request buffer).Ends dataset
      (fun _ after => Refines raster bands (plain.write bands band request buffer) after)
      (fun _ _ => False) := by
  obtain ⟨value, hdescriptor⟩ := h.shape band
  refine (Band.ends_writeRaw h.access h.sound (h.serving hblocks hband)).mono ?_ ?_
  · intro _ after hwritten
    obtain ⟨-, store, rfl, hdrawn⟩ := hwritten
    rw [Dataset.descriptor, hdescriptor] at hdrawn
    rw [PlainRaster.write_eq_draw hvalid.x_nonneg hvalid.y_nonneg]
    -- every pixel that is drawn has the bytes of its type
    refine h.of_drawn hblocks hdrawn fun x y pixel _ _ hnew => ?_
    rw [windowPixels] at hnew
    split at hnew
    · next hcontains =>
      cases hnew
      exact size_bufferPixel hvalid.accepted.fits hcontains
    · contradiction
  · intro _ after hfailed
    exact never (h.accepts hblocks hband hvalid) hfailed

/-- Replacing a block draws its pixels in the plain raster. -/
theorem ends_writeBlock {column row : Nat} {data : ByteArray}
    (h : Refines raster bands plain dataset)
    (hblocks : ∀ band ∈ bands, band.Holdable) (hband : IsBand bands band)
    (hgrid : column * (bandOf bands band).block.width < raster.width ∧
      row * (bandOf bands band).block.height < raster.height)
    (hdata : data.size = (bandOf bands band).blockBytes) :
    (Band.writeBlock band column row data).Ends dataset
      (fun _ after => Refines raster bands (plain.writeBlock bands band column row data) after)
      (fun _ _ => False) := by
  have hserving := h.serving hblocks hband
  obtain ⟨value, hdescriptor⟩ := h.shape band
  refine (Band.ends_writeBlock h.access h.sound hserving).mono ?_ ?_
  · intro _ after hwritten
    obtain ⟨-, store, rfl, hdrawn⟩ := hwritten
    rw [Dataset.descriptor, hdescriptor] at hdrawn
    rw [PlainRaster.writeBlock_eq_draw]
    -- and so has every pixel of a block
    refine h.of_drawn hblocks hdrawn fun x y pixel _ _ hnew => ?_
    have hblocked := hserving.blocked
    rw [hdescriptor] at hblocked
    rw [PixelModel.blockPixels] at hnew
    split at hnew
    · cases hnew
      apply ByteArray.size_slice_of_le
      rw [hdata]
      exact BandDescriptor.pixel_inside (Nat.mod_lt x hblocked.1) (Nat.mod_lt y hblocked.2)
    · contradiction
  · exact fun _ _ hfailed => never (h.acceptsBlock hblocks hband hgrid hdata) hfailed

/-- Filling a band fills it in the plain raster. -/
theorem ends_fill {value : Binary64} (h : Refines raster bands plain dataset)
    (hblocks : ∀ band ∈ bands, band.Holdable) (hband : IsBand bands band) :
    (Band.fill band value).Ends dataset
      (fun _ after => Refines raster bands (plain.fill bands band value) after)
      (fun _ _ => False) := by
  refine (Band.ends_fill h.access h.sound (h.serving hblocks hband)).mono ?_
    fun _ _ hfailed => never (h.held hblocks hband) hfailed
  intro _ after hfilled
  obtain ⟨-, store, rfl, hdrawn⟩ := hfilled
  rw [h.type_eq] at hdrawn
  rw [PlainRaster.fill_eq_draw]
  refine h.of_drawn hblocks hdrawn fun x y pixel _ _ hnew => ?_
  -- all new pixels are the one value
  cases hnew
  exact size_pixelBytes _ value

/-- Changing the no-data value of a band changes no pixel. -/
theorem ends_setNoData {value : Option Binary64} (h : Refines raster bands plain dataset)
    (hblocks : ∀ band ∈ bands, band.Holdable) :
    (Band.setNoData band value).Ends dataset
      (fun _ after => Refines raster bands plain after) (fun _ _ => False) := by
  have hcontext := exists_context_recordNoData dataset.store band value
  have hsound : (planeModel raster bands).Sound
      (dataset.store.recordNoData dataset.store.codec band value) :=
    sound_withNoData h.sound hcontext rfl rfl
  have hrecords : (Codec.setNoData band value).Ends dataset.store.codec
      (fun _ codec => codec = dataset.store.codec) (fun _ _ => False) := ends_pure.mpr rfl
  apply (Band.ends_setNoData (planeModel raster bands).toCodecModel h.access hrecords ?_ ?_).mono _
    fun _ _ hnever => hnever
  · rintro _ rfl
    exact hsound.toTidy
  · rintro _ rfl key block hfind hclean -
    exact hsound.clean hfind hclean
  rintro _ _ ⟨_, store, rfl, rfl, hdropped⟩
  -- dropping the blocks changes nothing, as they are written back
  have hlogical (key : BlockRef) (hserves : Shaped raster bands (dataset.store.context key)) :
      (planeModel raster bands).logical store key =
        (planeModel raster bands).logical dataset.store key := by
    obtain ⟨noData, hkey⟩ := hcontext key
    have hafter := hdropped.logical key (by
      rw [hkey]
      exact ⟨⟨hserves.sameRaster, hserves.left_lt, hserves.top_lt⟩, hserves.band_pos, hserves.shape⟩)
    rw [CodecModel.settled_eq_logical hsound, ite_self] at hafter
    rw [hafter, logical_withNoData hkey rfl rfl]
  -- no-data values apart, the bands are those of before
  have hshape (band : Nat) : ∃ noData, store.descriptor band =
      { dataset.store.descriptor band with noData } := by
    obtain ⟨noData, hkey⟩ := hcontext ⟨band, 0, 0⟩
    refine ⟨noData, ?_⟩
    rw [hdropped.bands.descriptor]
    exact congrArg BlockContext.descriptor hkey
  refine ⟨⟨h.access, hdropped.bands.raster.trans h.sameRaster, ?_, fun b => ?_⟩, hdropped.sound,
    fun b x y hb hx hy => ?_, h.size⟩
  · show store.bands.size = _
    rw [hdropped.bands.bands, ← h.count]
    exact Array.size_modify
  · -- the shape of the bands
    obtain ⟨noData, hstore⟩ := hshape b
    obtain ⟨old, hold⟩ := h.shape b
    refine ⟨noData, ?_⟩
    show store.descriptor b = _
    rw [hstore, hold]
  · -- the pixels: each lies in one block, and of that block nothing changed
    obtain ⟨noData, hstore⟩ := hshape b
    have hserves := (h.serving hblocks hb).serves_blockOf (x := x) (y := y)
      (by rwa [h.sameRaster]) (by rwa [h.sameRaster])
    have hblock := hlogical _ hserves
    rw [← h.pixel b x y hb hx hy]
    simp only [PixelModel.pixelAt, hstore]
    exact congrFun (congrFun hblock _) _

/-! ## Runs of calls -/

/-- A valid call succeeds and does what its effect on the plain raster says. -/
theorem ends_perform {call : RasterCall} (h : Refines raster bands plain dataset)
    (hblocks : ∀ band ∈ bands, band.Holdable) (hvalid : call.Valid raster bands) :
    call.perform.Ends dataset
      (fun _ after => Refines raster bands (call.effect bands plain) after)
      (fun _ _ => False) := by
  cases call with
  | read band request resampling buffer =>
    exact Ends.bind ((h.ends_readWindow hblocks hvalid.1 hvalid.2).imp fun _ _ hafter =>
      ends_pure.mpr hafter)
  | readBlock band column row length =>
    obtain ⟨hband, hgrid, hlength⟩ := hvalid
    exact Ends.bind ((h.ends_readBlock hblocks hband hgrid hlength).imp fun _ _ hafter =>
      ends_pure.mpr hafter)
  | write band request buffer =>
    exact h.ends_onBand hvalid.1 (h.ends_writeRaw hblocks hvalid.1 hvalid.2)
  | writeResampled band request resampling buffer =>
    -- only the nearest resampling writes
    cases resampling with
    | nearest =>
      refine h.ends_onBand hvalid.1 (Ends.get_bind (Ends.lift_bind
        (Band.checkWritable_of_update h.access) ?_))
      exact h.ends_writeRaw hblocks hvalid.1 hvalid.2
    | average => exact hvalid.elim
  | writeBlock band column row data =>
    obtain ⟨hband, hgrid, hdata⟩ := hvalid
    exact h.ends_onBand hband (h.ends_writeBlock hblocks hband hgrid hdata)
  | fill band value => exact h.ends_onBand hvalid (h.ends_fill hblocks hvalid)
  | setNoData band value => exact h.ends_onBand hvalid (h.ends_setNoData hblocks)
  | flushBand band =>
    refine h.ends_onBand hvalid ((Band.ends_flush h.sound).mono ?_ fun _ _ hnever => hnever)
    intro _ after hflushed
    obtain ⟨store, rfl, hkeeps⟩ := hflushed
    exact h.of_keeps hblocks hkeeps
  | flush =>
    refine (Dataset.ends_flush h.sound fun _ => rfl).mono ?_ fun _ _ hnever => hnever
    intro _ after hflushed
    obtain ⟨store, rfl, hkeeps, -⟩ := hflushed
    exact h.of_keeps hblocks hkeeps
  | setCapacity capacity =>
    refine (Dataset.ends_setCacheBlocks h.sound capacity).mono ?_ fun _ _ hnever => hnever
    intro _ after hchanged
    obtain ⟨store, rfl, hkeeps⟩ := hchanged
    exact h.of_keeps hblocks hkeeps

/-- Valid calls succeed and do to the raster what their effects do to the plain one, in order. -/
theorem ends_calls {calls : List RasterCall} (h : Refines raster bands plain dataset)
    (hblocks : ∀ band ∈ bands, band.Holdable)
    (hvalid : ∀ call ∈ calls, call.Valid raster bands) :
    (calls.forM RasterCall.perform).Ends dataset
      (fun _ after => Refines raster bands
        (calls.foldl (fun plain call => call.effect bands plain) plain) after)
      (fun _ _ => False) := by
  refine Ends.mono (Ends.forM
    (fun done => Refines raster bands
      (done.foldl (fun plain call => call.effect bands plain) plain))
    (fun _ _ _ => False) h ?_) ?_ ?_
  · -- one more call, on a state that shows the calls before it
    intro done call rest state hcalls hstate
    have hcall := hvalid call (by rw [hcalls]; simp)
    rw [List.foldl_append]
    exact hstate.ends_perform hblocks hcall
  · exact fun _ _ hafter => hafter
  · -- no call fails, so that none is the one to blame
    intro _ _ hfailed
    obtain ⟨_, _, _, -, hnever⟩ := hfailed
    exact hnever

end Refines

/-! ## New rasters -/

variable {raster : Size} {bands : List BandDescriptor}

/-- A new raster in memory is one of zeros. -/
theorem refines_new {dataset : Dataset MemoryCodec}
    (hblocks : ∀ band ∈ bands, band.Holdable)
    (hnew : dataset.IsNew (MemoryCodec.blank raster bands.toArray) raster bands .update) :
    Refines raster bands (PlainRaster.zeros bands) dataset := by
  have hdescriptor := descriptor_of_bands hnew.bands
  have hsound : (planeModel raster bands).Sound dataset.store := by
    refine CodecModel.sound_of_empty ?_ hnew.empty
    rw [hnew.codec]
    exact hasPlanes_blank raster bands
  have hshape (band : Nat) : ∃ value,
      dataset.store.descriptor band = { bandOf bands band with noData := value } :=
    ⟨_, hdescriptor band⟩
  have hhas : HasBands raster bands dataset :=
    ⟨hnew.access, hnew.raster, by rw [hnew.bands, List.size_toArray], hshape⟩
  refine ⟨hhas, hsound, fun band x y hband hx hy => ?_, fun band x y _ _ _ =>
    ByteArray.size_zeros _⟩
  have hserving := hhas.serving hblocks hband
  have hx' : x < dataset.store.raster.width := by rwa [hnew.raster]
  have hy' : y < dataset.store.raster.height := by rwa [hnew.raster]
  have hvalid := BandDescriptor.mod_lt_validSize hserving.blocked hx' hy'
  -- nothing is in the cache yet, so that the pixel is read from the plane
  have hnone : dataset.store.cache.find?
      ((dataset.store.descriptor band).blockOf band x y) = none := by
    rw [BlockCache.find?, hnew.empty]
    rfl
  rw [PixelModel.pixelAt, CodecModel.logical_of_none hnone]
  show stored dataset.store.codec _ _ _ = _
  rw [hnew.codec, stored_blank (hserving.serves_blockOf hx' hy') hvalid.1 hvalid.2,
    PlainRaster.zeros, ← hdescriptor]
  rfl

/-- A dataset over new planes is a plain array of pixels, at first of zeros, if its planes and its
    blocks are not too large to be held in memory. Whatever valid calls are made to it, all of them
    succeed, and afterwards any window can be read: each pixel of the buffer is then the nearest one
    of the array, converted to the type of the buffer. -/
theorem memory_is_plain_raster (hraster : raster.isEmpty = false) (hbands : bands ≠ [])
    (hblocks : ∀ band ∈ bands, band.Holdable)
    (hplanes : ∀ band ∈ bands, raster.area * band.type.bytes < memoryLimit)
    (options : OpenOptions) (hupdate : options.flags.update = true) (environment : Option String) :
    ∃ codec dataset, MemoryCodec.create raster bands.toArray = .ok codec ∧
      Dataset.ofCodec codec raster bands options environment = .ok dataset ∧
      ∀ calls : List RasterCall, (∀ call ∈ calls, call.Valid raster bands) →
        ∃ after, (calls.forM RasterCall.perform).run dataset = (.ok ⟨⟩, after) ∧
          ∀ (band : Nat) (request : TransferRequest) (buffer : ByteArray),
            IsBand bands band → request.Valid raster buffer.size →
            ∃ filled reached,
              (Dataset.readWindow band request .nearest buffer).run after = (.ok filled, reached) ∧
              ((BufferLayout.ofRequest request).Separate →
                ∀ column row, column < request.buffer.width → row < request.buffer.height →
                  filled.slice ((BufferLayout.ofRequest request).offset column row)
                      request.type.bytes =
                    convertPixel (bandOf bands band).type request.type
                      (calls.foldl (fun plain call => call.effect bands plain)
                        (PlainRaster.zeros bands) band
                        (request.x.toNat + column * request.window.width / request.buffer.width)
                        (request.y.toNat + row * request.window.height / request.buffer.height))
                      0) := by
  obtain ⟨dataset, hdataset, hisNew⟩ := Dataset.ofCodec_of_nonempty
    (MemoryCodec.blank raster bands.toArray) hraster hbands
    (fun band hmem => (hblocks band hmem).nonempty) options environment
  rw [OpenFlags.access, if_pos hupdate] at hisNew
  refine ⟨_, dataset, create_of_held hbands hplanes, hdataset, fun calls hcalls => ?_⟩
  -- all calls succeed, and what they leave shows their effects
  obtain ⟨_, after, hrun, hafter⟩ :=
    ((refines_new hblocks hisNew).ends_calls hblocks hcalls).exists_ok
  refine ⟨after, hrun, fun band request buffer hband hvalid => ?_⟩
  -- so does the last read
  obtain ⟨filled, reached, hread, -, rfl⟩ :=
    (hafter.ends_readNearest hblocks hband hvalid).exists_ok
  exact ⟨_, reached, hread, fun hseparate column row hcolumn hrow =>
    hafter.slice_copied hband hvalid hseparate hcolumn hrow⟩

/-- Three columns and two rows in blocks of two by two: after the right block was replaced, the
    whole raster is read, and its last column has the left pixels of the block. -/
theorem memory_is_plain_raster_replaced :
    ∃ codec dataset after filled reached,
      MemoryCodec.create ⟨3, 2⟩ #[⟨.byte, ⟨2, 2⟩, none⟩] = .ok codec ∧
      Dataset.ofCodec codec ⟨3, 2⟩ [⟨.byte, ⟨2, 2⟩, none⟩]
        { flags := { update := true }, cacheBlocks := some 1 } none = .ok dataset ∧
      ([.writeBlock 1 1 0 ⟨#[5, 6, 7, 8]⟩].forM RasterCall.perform).run dataset =
        (.ok ⟨⟩, after) ∧
      (Dataset.readWindow 1 (Band.packedRequest 0 0 ⟨3, 2⟩ ⟨3, 2⟩ .byte) .nearest
        (ByteArray.zeros 6)).run after = (.ok filled, reached) ∧
      filled.slice 2 1 = ⟨#[5]⟩ ∧ filled.slice 4 1 = ⟨#[0]⟩ := by
  have hblocks : ∀ band ∈ [(⟨.byte, ⟨2, 2⟩, none⟩ : BandDescriptor)], band.Holdable := by
    intro band hmem
    rw [List.mem_singleton.mp hmem]
    exact ⟨by decide, by decide⟩
  obtain ⟨codec, dataset, hcodec, hdataset, hcalls⟩ := @memory_is_plain_raster ⟨3, 2⟩
    [⟨.byte, ⟨2, 2⟩, none⟩] (by decide) (by decide) hblocks (by decide)
    { flags := { update := true }, cacheBlocks := some 1 } rfl none
  have hband : IsBand [⟨.byte, ⟨2, 2⟩, none⟩] 1 := by decide
  have hvalid : RasterCall.Valid ⟨3, 2⟩ [⟨.byte, ⟨2, 2⟩, none⟩]
      (.writeBlock 1 1 0 ⟨#[5, 6, 7, 8]⟩) := ⟨hband, ⟨by decide, by decide⟩, by decide⟩
  -- the one call, and then the read
  obtain ⟨after, hrun, hread⟩ := hcalls [.writeBlock 1 1 0 ⟨#[5, 6, 7, 8]⟩] (by
    intro call hmem
    rw [List.mem_singleton.mp hmem]
    exact hvalid)
  have hrequest : (Band.packedRequest 0 0 ⟨3, 2⟩ ⟨3, 2⟩ .byte).Valid ⟨3, 2⟩
      (ByteArray.zeros 6).size :=
    ⟨by decide, by decide, by decide, by decide, by decide, by decide, .inl rfl, by decide,
      by decide, by decide, by decide⟩
  obtain ⟨filled, reached, hfilled, hpixels⟩ := hread 1 _ _ hband hrequest
  have hseparate : (BufferLayout.ofRequest
      (Band.packedRequest 0 0 ⟨3, 2⟩ ⟨3, 2⟩ .byte)).Separate := by decide
  exact ⟨codec, dataset, after, filled, reached, hcodec, hdataset, hrun, hfilled,
    (hpixels hseparate 2 0 (by decide) (by decide)).trans (by decide +kernel),
    (hpixels hseparate 1 1 (by decide) (by decide)).trans (by decide +kernel)⟩

/-! ## What is too large -/

/-- Reading a window through blocks that cannot be held in memory ends the program. -/
theorem readWindow_of_not_held {κ : Type} [Codec κ] {dataset : Dataset κ} {band : Nat}
    {request : TransferRequest} {resampling : Resampling} {buffer : ByteArray}
    (hband : dataset.HasBand band) (haccepted : request.Accepted dataset.size buffer.size)
    (htooLarge : ¬Band.Held dataset band) :
    (Dataset.readWindow band request resampling buffer).run dataset =
      (.error .capacityOverflow, dataset) := by
  -- the checks of the request pass, and the block size is checked next
  have hends : (Dataset.readWindow band request resampling buffer).Ends dataset
      (fun _ _ => False) (fun error after => error = .capacityOverflow ∧ after = dataset) := by
    apply Dataset.ends_onBand _ (fun hnot => absurd hband hnot)
    intro _
    apply Dataset.ends_intoBuffer
    apply Ends.get_bind
    apply Ends.lift_bind haccepted.window
    apply Ends.lift_bind haccepted.layout
    apply Ends.of_lift_bind
    · exact fun _ hchecked => absurd (Band.checkHeld_eq_ok_iff.mp hchecked) htooLarge
    · intro error herror
      rw [Band.checkHeld_of_not_held htooLarge] at herror
      cases herror
      exact ⟨rfl, rfl⟩
  obtain ⟨houtcome, hafter⟩ := Ends.outcome
    (fun outcome after => outcome = .error .capacityOverflow ∧ after = dataset)
    (hends.mono (fun _ _ hnever => hnever.elim) fun _ _ h => ⟨congrArg Except.error h.1, h.2⟩)
  exact Prod.ext houtcome hafter

/-- Not every raster is an array of its pixels: a plane of two to the sixty-third bytes cannot be
    made, and a raster of two pixels in blocks of more than that many cannot be read. -/
theorem memory_is_plain_raster_not_beyond :
    MemoryCodec.create ⟨2 ^ 63, 1⟩ #[⟨.byte, ⟨1, 1⟩, none⟩] = .error .capacityOverflow ∧
    ∃ codec dataset,
      MemoryCodec.create ⟨1, 2⟩ #[⟨.byte, ⟨2 ^ 63 + 1, 2⟩, none⟩] = .ok codec ∧
      Dataset.ofCodec codec ⟨1, 2⟩ [⟨.byte, ⟨2 ^ 63 + 1, 2⟩, none⟩] { flags := { update := true } }
        none = .ok dataset ∧
      IsBand [⟨.byte, ⟨2 ^ 63 + 1, 2⟩, none⟩] 1 ∧
      (Band.packedRequest 0 0 ⟨1, 2⟩ ⟨1, 2⟩ .byte).Valid ⟨1, 2⟩ (ByteArray.zeros 2).size ∧
      (Dataset.readWindow 1 (Band.packedRequest 0 0 ⟨1, 2⟩ ⟨1, 2⟩ .byte) .nearest
        (ByteArray.zeros 2)).run dataset = (.error .capacityOverflow, dataset) := by
  have hvalid : (Band.packedRequest 0 0 ⟨1, 2⟩ ⟨1, 2⟩ .byte).Valid ⟨1, 2⟩
      (ByteArray.zeros 2).size :=
    ⟨by decide, by decide, by decide, by decide, by decide, by decide, .inl rfl, by decide,
      by decide, by decide, by decide⟩
  obtain ⟨dataset, hdataset, hnew⟩ := @Dataset.ofCodec_of_nonempty _ _ ⟨1, 2⟩
    [⟨.byte, ⟨2 ^ 63 + 1, 2⟩, none⟩]
    (MemoryCodec.blank ⟨1, 2⟩ #[⟨.byte, ⟨2 ^ 63 + 1, 2⟩, none⟩]) (by decide) (by decide)
    (by decide) { flags := { update := true } } none
  have hdescriptor : dataset.descriptor 1 = _ := descriptor_of_bands hnew.bands 1
  refine ⟨create_of_not_held List.mem_cons_self (by decide), _, dataset,
    create_of_held (by decide) (by decide), hdataset, by decide, hvalid, ?_⟩
  -- the request is valid and the raster small, but the block is too large
  apply readWindow_of_not_held
  · rw [Dataset.HasBand, Dataset.bandCount, hnew.bands]
    decide
  · rw [Dataset.size, hnew.raster]
    exact hvalid.accepted
  · rw [Band.Held, hdescriptor]
    decide

end RasterStore
