import RasterStore.Proofs.Dataset.Runs
import RasterStore.Proofs.Dataset.StoredRaster

/-!
# What datasets show

A `Picture` is what decides which pixels are read from a raster: its bands, its pixels, and which
blocks were ever written, because the others are padded anew when a no-data value changes. It knows
nothing of blocks in a cache. A dataset in memory or in a tiled file shows a picture (`Shows`), and
every call does to it what `Picture.step` says:

* `Shows.ends_perform`     a call is carried out, or its arguments are refused, or a file is full
* `Shows.ends_readBlock`   the pixels of a block that is read are those of the picture
-/

namespace RasterStore

open BlockStore Tiled RasterStore.Action

variable {raster : Size} {bands : List BandDescriptor} {band : Nat}

/-! ## Pictures -/

/-- What decides which pixels are read. -/
structure Picture where
  bands : List BandDescriptor
  pixels : PlainRaster
  /-- The block was written, so that it no longer is padding as a whole. -/
  written : BlockRef → Prop

namespace RasterCall

/-- The call passes all checks. -/
def Accepted (raster : Size) (bands : List BandDescriptor) : RasterCall → Prop
  | read band request _ buffer | write band request buffer
  | writeResampled band request .nearest buffer =>
    IsBand bands band ∧ request.Accepted raster buffer.size ∧
      (bandOf bands band).blockBytes < memoryLimit
  | readBlock band column row length =>
    (readBlock band column row length).Valid raster bands ∧
      (bandOf bands band).blockBytes < memoryLimit
  | writeBlock band column row data =>
    (writeBlock band column row data).Valid raster bands ∧
      (bandOf bands band).blockBytes < memoryLimit
  | fill band _ => IsBand bands band ∧ (bandOf bands band).blockBytes < memoryLimit
  | call => call.Valid raster bands

end RasterCall

namespace Picture

open Classical in
/-- The pixels after the padding of a band changed. It shows in the blocks that were never
    written. -/
noncomputable def repad (picture : Picture) (band : Nat) (descriptor : BandDescriptor) :
    PlainRaster := fun b x y =>
  if b = band ∧ ¬picture.written (descriptor.blockOf band x y) then
    descriptor.pixel descriptor.padding (x % descriptor.block.width) (y % descriptor.block.height)
  else picture.pixels b x y

/-- The picture after a call that is carried out. -/
noncomputable def step (picture : Picture) (call : RasterCall) : Picture where
  bands := call.bandsAfter picture.bands
  pixels := match call with
    | .setNoData band _ => picture.repad band (bandOf (call.bandsAfter picture.bands) band)
    | call => call.effect picture.bands picture.pixels
  written key := picture.written key ∨ call.Writes picture.bands key

/-- Calls that read leave the picture as it is. -/
theorem step_of_isReading {call : RasterCall} (picture : Picture) (h : call.IsReading) :
    picture.step call = picture := by
  cases call with
  | read | readBlock | flushBand | flush | setCapacity =>
    simp only [step, RasterCall.bandsAfter, RasterCall.effect, RasterCall.Writes, or_false]
  | write | writeResampled | writeBlock | fill | setNoData => exact h.elim

/-- The bytes are those of a block, as far as it lies inside the raster. -/
structure IsBlock (picture : Picture) (raster : Size) (key : BlockRef) (data : ByteArray) :
    Prop where
  size : data.size = (bandOf picture.bands key.band).blockBytes
  pixel : ∀ column row,
    column < ((bandOf picture.bands key.band).validSize raster key.x key.y).width →
    row < ((bandOf picture.bands key.band).validSize raster key.x key.y).height →
    (bandOf picture.bands key.band).pixel data column row =
      picture.pixels key.band (key.x * (bandOf picture.bands key.band).block.width + column)
        (key.y * (bandOf picture.bands key.band).block.height + row)

end Picture

/-- How a call fails: its arguments are refused, and nothing happens, or a file of `total` bytes,
    with all of its tiles, would be too long. -/
def RefusedOrFull (total : Nat) (accepted : Prop) (before after : Dataset FormatCodec) : Prop :=
  ¬accepted ∧ after = before ∨ accepted ∧ offsetLimit ≤ total

/-- What was checked before does not matter. -/
theorem RefusedOrFull.and_left {total : Nat} {checked accepted : Prop}
    {before after : Dataset FormatCodec} (hchecked : checked)
    (h : RefusedOrFull total accepted before after) :
    RefusedOrFull total (checked ∧ accepted) before after := by
  rwa [RefusedOrFull, and_iff_right hchecked]

/-- With room for all tiles, a call that is accepted does not fail. -/
theorem RefusedOrFull.not_of_room {total : Nat} {accepted : Prop}
    {before after : Dataset FormatCodec} (h : RefusedOrFull total accepted before after)
    (haccepted : accepted) (hroom : total < offsetLimit) : False := by
  rcases h with ⟨hrefused, -⟩ | ⟨-, hfull⟩
  · exact hrefused haccepted
  · omega

/-! ## The relation -/

/-- The dataset is open for update and shows the picture. -/
structure Shows (total : Nat) (raster : Size) (picture : Picture) (dataset : Dataset FormatCodec) :
    Prop where
  access : dataset.access = .update
  sameRaster : dataset.store.raster = raster
  sameBands : dataset.store.bands = picture.bands.toArray
  blocked : ∀ band ∈ picture.bands, band.Blocked
  sound : (rasterModel total raster picture.bands).Sound dataset.store
  pixel : ∀ band x y, IsBand picture.bands band → x < raster.width → y < raster.height →
    (rasterModel total raster picture.bands).pixelAt dataset.store band x y =
      picture.pixels band x y
  written : ∀ key, InGrid raster picture.bands key →
    ((rasterModel total raster picture.bands).Written dataset.store key ↔ picture.written key)

namespace Shows

variable {total : Nat} {picture : Picture} {dataset : Dataset FormatCodec}
variable {store : BlockStore FormatCodec} {call : RasterCall} {key : BlockRef} {x y : Nat}

/-- The descriptor of a band is the one that the picture has for it. -/
theorem descriptor_eq (h : Shows total raster picture dataset) (band : Nat) :
    dataset.descriptor band = bandOf picture.bands band :=
  descriptor_of_bands h.sameBands band

/-- What the codec is told of a block is what the picture says of it. -/
theorem context_eq (h : Shows total raster picture dataset) (key : BlockRef) :
    dataset.store.context key = contextOf raster picture.bands key := by
  rw [context, descriptor_of_bands h.sameBands, h.sameRaster]
  rfl

/-- The dataset has the size of the raster. -/
theorem size_eq (h : Shows total raster picture dataset) : dataset.size = raster :=
  h.sameRaster

/-- The bands of the dataset are those of the picture. -/
theorem hasBand_iff (h : Shows total raster picture dataset) :
    dataset.HasBand band ↔ IsBand picture.bands band := by
  rw [Dataset.HasBand, Dataset.bandCount, h.sameBands, List.size_toArray]
  exact Iff.rfl

/-- The blocks of every band have pixels. -/
theorem hasGrid (h : Shows total raster picture dataset) (hband : IsBand picture.bands band) :
    HasGrid picture.bands band :=
  ⟨hband.1, hband.2, h.blocked _ (List.mem_of_getElem? (getElem?_of_isBand hband))⟩

/-- The codec serves every block of the picture. -/
theorem serves (h : Shows total raster picture dataset) (hgrid : InGrid raster picture.bands key) :
    ServedBy raster picture.bands (dataset.store.context key) := by
  rw [h.context_eq]
  exact ⟨hgrid, rfl⟩

/-- The codec serves every block of a band. -/
theorem serving (h : Shows total raster picture dataset) (hband : IsBand picture.bands band) :
    (rasterModel total raster picture.bands).Serving dataset.store band := by
  have hdescriptor : dataset.store.descriptor band = _ := h.descriptor_eq band
  constructor
  · rw [hdescriptor]
    exact (h.hasGrid hband).blocked
  · intro x y hx hy
    rw [hdescriptor, h.sameRaster] at hx hy
    exact h.serves ((h.hasGrid hband).inGrid hx hy)

/-- An operation on a band is carried out if there is the band. -/
theorem ends_onBand {α : Type} {act : Action (Dataset FormatCodec) α} {accepted : Prop}
    {good : α → Dataset FormatCodec → Prop} (h : Shows total raster picture dataset)
    (haccepted : accepted → IsBand picture.bands band)
    (hact : IsBand picture.bands band → act.Ends dataset good
      (fun _ after => RefusedOrFull total accepted dataset after)) :
    (Dataset.onBand band act).Ends dataset good
      (fun _ after => RefusedOrFull total accepted dataset after) := by
  apply Dataset.ends_onBand
  · exact fun hband => hact (h.hasBand_iff.mp hband)
  · exact fun hnot _ => .inl ⟨fun hcall => hnot (h.hasBand_iff.mpr (haccepted hcall)), rfl⟩

/-! ## Steps that keep or draw pixels -/

/-- A step that changes no content shows the same picture. -/
theorem of_keeps (h : Shows total raster picture dataset)
    (hkeeps : (rasterModel total raster picture.bands).Keeps dataset.store store) :
    Shows total raster picture { dataset with store } := by
  refine ⟨h.access, hkeeps.bands.raster.trans h.sameRaster, hkeeps.bands.bands.trans h.sameBands,
    h.blocked, hkeeps.sound, fun band x y hband hx hy => ?_, fun key hgrid => ?_⟩
  · rw [← h.pixel band x y hband hx hy]
    exact PixelModel.pixelAt_of_keeps hkeeps (h.serving hband) (by rwa [h.sameRaster])
      (by rwa [h.sameRaster])
  · rw [← h.written key hgrid]
    exact hkeeps.written key (h.serves hgrid)

/-- So do the calls that make such a step. -/
theorem step_of_keeps (h : Shows total raster picture dataset) (hreading : call.IsReading)
    (hkeeps : (rasterModel total raster picture.bands).Keeps dataset.store store) :
    Shows total raster (picture.step call) { dataset with store } := by
  rw [picture.step_of_isReading hreading]
  exact h.of_keeps hkeeps

/-- A step that draws pixels shows the picture with these pixels. -/
theorem of_drawn {new : Nat → Nat → Option ByteArray} (h : Shows total raster picture dataset)
    (hbands : (picture.step call).bands = picture.bands)
    (hpixels : (picture.step call).pixels = picture.pixels.draw band new)
    (hdrawn : (rasterModel total raster picture.bands).Drawn dataset.store band new store)
    (hwrites : ∀ key, InGrid raster picture.bands key → (call.Writes picture.bands key ↔
      key.band = band ∧ ∃ x y, (x < raster.width ∧ y < raster.height) ∧
        (bandOf picture.bands band).blockOf band x y = key ∧ (new x y).isSome = true)) :
    Shows total raster (picture.step call) { dataset with store } := by
  constructor
  · exact h.access
  · exact hdrawn.bands.raster.trans h.sameRaster
  · rw [hbands]
    exact hdrawn.bands.bands.trans h.sameBands
  · rw [hbands]
    exact h.blocked
  · rw [hbands]
    exact hdrawn.sound
  · -- the pixels
    intro b x y hband hx hy
    rw [hbands] at hband ⊢
    have hpixel := hdrawn.pixel b x y (h.serving hband) (by rwa [h.sameRaster])
      (by rwa [h.sameRaster])
    rw [h.pixel b x y hband hx hy] at hpixel
    rw [hpixels]
    exact hpixel
  · -- which blocks count as written
    intro key hgrid
    rw [hbands] at hgrid ⊢
    have hkey := hdrawn.written key (h.serves hgrid)
    have hdescriptor : dataset.store.descriptor band = _ := h.descriptor_eq band
    rw [h.written key hgrid, hdescriptor, h.sameRaster, ← hwrites key hgrid] at hkey
    exact hkey

/-! ## Another no-data value -/

/-- The blocks of a band that were never written show the new padding, all other ones the pixels
    that they had. -/
private theorem pixel_of_dropped {b : Nat} {value : Option Binary64}
    {middle : BlockStore FormatCodec} (h : Shows total raster picture dataset)
    (hchanged : NoDataChanged raster picture.bands band value dataset.store middle)
    (hdropped : (rasterModel total raster (withNoData picture.bands (band - 1) value)).Dropped
      middle band store)
    (hband : IsBand picture.bands b) (hx : x < raster.width) (hy : y < raster.height) :
    (rasterModel total raster (withNoData picture.bands (band - 1) value)).pixelAt store b x y =
      (picture.step (.setNoData band value)).pixels b x y := by
  have hshapes : SameShapes picture.bands (withNoData picture.bands (band - 1) value) :=
    .bandsAfter (.setNoData band value) picture.bands
  have hmiddle : middle.descriptor b = bandOf (withNoData picture.bands (band - 1) value) b :=
    congrArg BlockContext.descriptor (hchanged.newContext ⟨b, 0, 0⟩)
  have hafter : store.descriptor b = bandOf (withNoData picture.bands (band - 1) value) b := by
    rw [hdropped.bands.descriptor, hmiddle]
  have hbefore : (dataset.store.descriptor b).block = _ :=
    (congrArg BandDescriptor.block (h.descriptor_eq b)).trans (hshapes.block b).symm
  have hgrid := (h.hasGrid hband).inGrid_blockOf (hshapes.block b) hx hy
  have hwritten := h.written _ hgrid
  have hpixel := h.pixel b x y hband hx hy
  rw [rasterModel_pixelAt hbefore] at hpixel
  rw [rasterModel_pixelAt (congrArg BandDescriptor.block hafter)]
  show _ = picture.repad band (bandOf (withNoData picture.bands (band - 1) value) band) b x y
  rw [Picture.repad]
  split
  · next hboth =>
    obtain ⟨rfl, hnever⟩ := hboth
    have hblocked : (bandOf (withNoData picture.bands (b - 1) value) b).Blocked := by
      rw [BandDescriptor.Blocked, hshapes.block]
      exact (h.hasGrid hband).blocked
    have hpadding := hchanged.logical_of_not_written hdropped hgrid rfl (mt hwritten.mp hnever)
    rw [hchanged.newContext] at hpadding
    -- the pixel lies in the part of its block that is kept
    exact (congrFun (congrFun hpadding _) _).trans
      (if_pos (BandDescriptor.mod_lt_validSize hblocked hx hy))
  · -- of another band, or written: its pixels are those of before
    next hboth =>
    have hkept := hchanged.logical_of_written h.sound hdropped hgrid (by
      intro heq
      have heq : b = band := heq
      subst heq
      exact hwritten.mpr (not_not.mp fun hnever => hboth ⟨rfl, hnever⟩))
    exact (congrFun (congrFun hkept _) _).trans hpixel

/-- Once the codec has the new value and the cache has dropped the blocks of the band, the blocks
    that were never written are padded with it. -/
theorem of_dropped {value : Option Binary64} {middle : BlockStore FormatCodec}
    (h : Shows total raster picture dataset)
    (hchanged : NoDataChanged raster picture.bands band value dataset.store middle)
    (hraster : middle.raster = raster)
    (hbands : middle.bands = (withNoData picture.bands (band - 1) value).toArray)
    (hdropped : (rasterModel total raster (withNoData picture.bands (band - 1) value)).Dropped
      middle band store) :
    Shows total raster (picture.step (.setNoData band value)) { dataset with store } := by
  -- the value changes no shapes
  have hshapes : SameShapes picture.bands (withNoData picture.bands (band - 1) value) :=
    .bandsAfter (.setNoData band value) picture.bands
  constructor
  · exact h.access
  · exact hdropped.bands.raster.trans hraster
  · exact hdropped.bands.bands.trans hbands
  · intro descriptor hmem
    obtain ⟨old, hold, hblock, -⟩ := mem_withNoData hmem
    rw [BandDescriptor.Blocked, hblock]
    exact h.blocked old hold
  · exact hdropped.sound
  · intro b x y hband hx hy
    have hold : IsBand picture.bands b := ⟨hband.1, hshapes.length ▸ hband.2⟩
    exact h.pixel_of_dropped hchanged hdropped hold hx hy
  · -- which blocks count as written
    intro key hgrid
    have hgrid : InGrid raster picture.bands key := hgrid.of_sameShapes hshapes.symm
    have hnever : (picture.step (.setNoData band value)).written key ↔ picture.written key :=
      or_iff_left id
    rw [hnever, ← h.written key hgrid]
    exact hchanged.written_dropped_iff hdropped hgrid

/-- Setting the no-data value of a band changes the padding of the picture. -/
theorem ends_setNoData (h : Shows total raster picture dataset) (hband : IsBand picture.bands band)
    (value : Option Binary64) :
    (Band.setNoData band value).Ends dataset
      (fun _ after => Shows total raster (picture.step (.setNoData band value)) after)
      (fun _ _ => offsetLimit ≤ total) := by
  have hrecords := FormatCodec.ends_setNoData h.sound.holds.1 hband value
  have hchanged {codec : FormatCodec} (hrecorded : FormatCodec.Recorded raster picture.bands
      (withNoData picture.bands (band - 1) value) dataset.store.codec codec) :
      NoDataChanged raster picture.bands band value dataset.store
        (dataset.store.recordNoData codec band value) :=
    ⟨hband, rfl, h.context_eq, context_recordNoData h.sameRaster h.sameBands codec band value,
      hrecorded⟩
  -- the codec records the value, and then the blocks of the band are dropped
  apply (Band.ends_setNoData
    (rasterModel total raster (withNoData picture.bands (band - 1) value)).toCodecModel h.access
    hrecords ?_ ?_).mono _ fun _ _ hfull => hfull
  · exact fun _ hrecorded => (hchanged hrecorded).tidy h.sound
  · intro _ hrecorded key block hfind hclean hother
    exact (hchanged hrecorded).clean_of_ne h.sound hfind hclean hother
  · rintro _ _ ⟨codec, store, hrecorded, rfl, hdropped⟩
    exact h.of_dropped (hchanged hrecorded) h.sameRaster
      (bands_recordNoData h.sameBands codec band value) hdropped

/-! ## Calls -/

variable {request : TransferRequest} {buffer data : ByteArray} {column row : Nat}

/-- A block is accepted just if its first pixel lies in the raster. -/
theorem inGrid_iff (h : Shows total raster picture dataset) :
    Band.InGrid dataset band column row ↔
      column * (bandOf picture.bands band).block.width < raster.width ∧
        row * (bandOf picture.bands band).block.height < raster.height := by
  rw [Band.InGrid, h.descriptor_eq, h.size_eq]

/-- The blocks of a band can be held just if they take fewer bytes than the limit. -/
theorem held_iff (h : Shows total raster picture dataset) :
    Band.Held dataset band ↔ (bandOf picture.bands band).blockBytes < memoryLimit := by
  rw [Band.Held, h.descriptor_eq]

/-- What a band accepts for a transfer, in terms of the picture. -/
theorem accepts_iff (h : Shows total raster picture dataset) {length : Nat} :
    Band.Accepts dataset band request length ↔ request.Accepted raster length ∧
      (bandOf picture.bands band).blockBytes < memoryLimit := by
  rw [← h.held_iff, ← h.size_eq]
  exact ⟨fun haccepts => ⟨haccepts.request, haccepts.held⟩, fun hboth => ⟨hboth.1, hboth.2⟩⟩

/-- A band accepts the blocks that a call may ask for. -/
theorem acceptsBlock_iff (h : Shows total raster picture dataset)
    (hband : IsBand picture.bands band) {length : Nat} :
    Band.AcceptsBlock dataset band column row length ↔
      (RasterCall.readBlock band column row length).Accepted raster picture.bands := by
  have hchecks : Band.AcceptsBlock dataset band column row length ↔
      Band.InGrid dataset band column row ∧
        length = (bandOf picture.bands band).blockBytes ∧ Band.Held dataset band := by
    rw [← h.descriptor_eq]
    exact ⟨fun hall => ⟨hall.grid, hall.length_eq, hall.held⟩,
      fun hall => ⟨hall.1, hall.2.1, hall.2.2⟩⟩
  rw [hchecks, h.inGrid_iff, h.held_iff, RasterCall.Accepted, RasterCall.Valid, and_iff_right hband]
  exact and_assoc.symm

/-- Every block of the grid has a pixel in the raster: its first one. -/
theorem exists_blockOf (h : Shows total raster picture dataset)
    (hgrid : InGrid raster picture.bands key) :
    ∃ x y, (x < raster.width ∧ y < raster.height) ∧
      (bandOf picture.bands key.band).blockOf key.band x y = key := by
  have hblocked := (h.hasGrid ⟨hgrid.band_pos, hgrid.band_le⟩).blocked
  exact ⟨_, _, ⟨hgrid.left_lt, hgrid.top_lt⟩, BandDescriptor.blockOf_add key hblocked.1 hblocked.2⟩

/-- Reading a window changes nothing. -/
private theorem ends_readWindow (h : Shows total raster picture dataset) (band : Nat)
    (request : TransferRequest) (resampling : Resampling) (buffer : ByteArray) :
    (Dataset.readWindow band request resampling buffer).Ends dataset
      (fun _ after =>
        (RasterCall.read band request resampling buffer).Accepted raster picture.bands ∧
          Shows total raster picture after)
      (fun _ after => RefusedOrFull total
        ((RasterCall.read band request resampling buffer).Accepted raster picture.bands) dataset
        after) := by
  apply h.ends_onBand And.left
  intro hband
  apply Dataset.ends_intoBuffer
  -- a read that fails was refused, or met a full file
  apply (Band.ends_readRaw_filled h.sound (h.serving hband)).mono
  · rintro _ _ ⟨haccepted, store, bytes, rfl, hfilled⟩
    exact ⟨⟨hband, h.accepts_iff.mp haccepted⟩, h.of_keeps hfilled.keeps⟩
  · intro _ after hfailed
    rw [h.accepts_iff] at hfailed
    apply RefusedOrFull.and_left hband
    exact hfailed.imp_left fun hnot => ⟨hnot.1, congrArg Prod.fst hnot.2⟩

/-- A block that is fetched is the one of the picture. -/
theorem isBlock_of_fetched (h : Shows total raster picture dataset)
    (hband : IsBand picture.bands key.band)
    (hfetched : (rasterModel total raster picture.bands).Fetched dataset.store key .read data store) :
    picture.IsBlock raster key data := by
  have hdescriptor : dataset.store.descriptor key.band = _ := h.descriptor_eq key.band
  have hsize : data.size = (dataset.store.descriptor key.band).blockBytes := hfetched.fits
  rw [hdescriptor] at hsize
  refine ⟨hsize, fun column row hcolumn hrow => ?_⟩
  simp only [BandDescriptor.validSize, Nat.lt_min] at hcolumn hrow
  have hx : key.x * (bandOf picture.bands key.band).block.width + column < raster.width := by omega
  have hy : key.y * (bandOf picture.bands key.band).block.height + row < raster.height := by omega
  -- the place in the raster belongs to the place in the block
  have hkey := BandDescriptor.blockOf_add key hcolumn.1 hrow.1
  have hpixel := PixelModel.pixel_of_fetched (h.serving hband)
    (by rw [hdescriptor, hkey]; exact hfetched) (by rwa [h.sameRaster]) (by rwa [h.sameRaster])
  rw [hdescriptor, BandDescriptor.add_mod key.x hcolumn.1,
    BandDescriptor.add_mod key.y hrow.1] at hpixel
  rw [hpixel]
  exact h.pixel key.band _ _ hband hx hy

/-- Reading a block gives that of the picture, and changes nothing. -/
theorem ends_readBlock (h : Shows total raster picture dataset) (band column row length : Nat) :
    (Dataset.readBlock band column row length).Ends dataset
      (fun data after =>
        (RasterCall.readBlock band column row length).Accepted raster picture.bands ∧
          picture.IsBlock raster ⟨band, column, row⟩ data ∧ Shows total raster picture after)
      (fun _ after => RefusedOrFull total
        ((RasterCall.readBlock band column row length).Accepted raster picture.bands) dataset
        after) := by
  -- an accepted call is one to a band that is there
  apply h.ends_onBand fun haccepted => haccepted.1.1
  intro hband
  apply (Band.ends_readBlock h.sound (h.serving hband)).mono
  · rintro data _ ⟨haccepted, store, rfl, hfetched⟩
    exact ⟨(h.acceptsBlock_iff hband).mp haccepted, h.isBlock_of_fetched hband hfetched,
      h.of_keeps (hfetched.keeps rfl)⟩
  · intro _ after hfailed
    rwa [h.acceptsBlock_iff hband] at hfailed

/-- Writing a window draws it. -/
private theorem ends_writeRaw (h : Shows total raster picture dataset)
    (hband : IsBand picture.bands band) (hbands : (picture.step call).bands = picture.bands)
    (hpixels : (picture.step call).pixels = picture.pixels.write picture.bands band request buffer)
    (hwrites : ∀ key, call.Writes picture.bands key ↔ ∃ x y,
      (Window.ofRequest request).Contains x y ∧ (bandOf picture.bands band).blockOf band x y = key) :
    (Band.writeRaw band request buffer).Ends dataset
      (fun _ after => (RasterCall.write band request buffer).Accepted raster picture.bands ∧
        Shows total raster (picture.step call) after)
      (fun _ after => RefusedOrFull total
        ((RasterCall.write band request buffer).Accepted raster picture.bands) dataset after) := by
  apply (Band.ends_writeRaw h.access h.sound (h.serving hband)).mono
  · -- the window is accepted, and its pixels are drawn
    rintro _ _ ⟨haccepts, store, rfl, hdrawn⟩
    obtain ⟨haccepted, hheld⟩ := h.accepts_iff.mp haccepts
    rw [h.descriptor_eq] at hdrawn
    obtain ⟨hx, hy⟩ := (Window.check_eq_ok_iff.mp haccepted.window).1
    rw [PlainRaster.write_eq_draw hx hy] at hpixels
    refine ⟨⟨hband, haccepted, hheld⟩, h.of_drawn hbands hpixels hdrawn fun key _ => ?_⟩
    rw [hwrites]
    -- a block is written if a pixel of the window lies in it
    constructor
    · rintro ⟨x, y, hcontains, rfl⟩
      exact ⟨rfl, x, y, haccepted.inside.contains_lt hcontains, rfl, by simp [windowPixels, hcontains]⟩
    · rintro ⟨-, x, y, -, hkey, hnew⟩
      exact ⟨x, y, by simpa [windowPixels] using hnew, hkey⟩
  · intro _ after hfailed
    rw [h.accepts_iff] at hfailed
    exact RefusedOrFull.and_left hband hfailed

/-- Replacing a block draws it. -/
private theorem ends_writeBlock (h : Shows total raster picture dataset) (band column row : Nat)
    (data : ByteArray) :
    (Dataset.onBand band (Band.writeBlock band column row data)).Ends dataset
      (fun _ after =>
        (RasterCall.writeBlock band column row data).Accepted raster picture.bands ∧
          Shows total raster (picture.step (.writeBlock band column row data)) after)
      (fun _ after => RefusedOrFull total
        ((RasterCall.writeBlock band column row data).Accepted raster picture.bands) dataset
        after) := by
  apply h.ends_onBand fun haccepted => haccepted.1.1
  intro hband
  -- a block is written as it is read: the same checks are made of both
  apply (Band.ends_writeBlock h.access h.sound (h.serving hband)).mono
  · rintro _ _ ⟨haccepted, store, rfl, hdrawn⟩
    rw [h.descriptor_eq] at hdrawn
    refine ⟨(h.acceptsBlock_iff hband).mp haccepted,
      h.of_drawn rfl PlainRaster.writeBlock_eq_draw hdrawn fun key hkey => ?_⟩
    -- the block has a pixel in the raster, and all its pixels are drawn
    constructor
    · rintro rfl
      obtain ⟨x, y, hinside, hplace⟩ := h.exists_blockOf hkey
      exact ⟨rfl, x, y, hinside, hplace, (PixelModel.isSome_blockPixels band).mpr hplace⟩
    · rintro ⟨-, x, y, -, hplace, hnew⟩
      exact hplace.symm.trans ((PixelModel.isSome_blockPixels band).mp hnew)
  · intro _ after hfailed
    rwa [h.acceptsBlock_iff hband] at hfailed

/-- Filling a band draws all of its pixels. -/
private theorem ends_fill (h : Shows total raster picture dataset) (band : Nat) (value : Binary64) :
    (Dataset.onBand band (Band.fill band value)).Ends dataset
      (fun _ after => (RasterCall.fill band value).Accepted raster picture.bands ∧
        Shows total raster (picture.step (.fill band value)) after)
      (fun _ after => RefusedOrFull total
        ((RasterCall.fill band value).Accepted raster picture.bands) dataset after) := by
  apply h.ends_onBand And.left
  intro hband
  apply (Band.ends_fill h.access h.sound (h.serving hband)).mono
  · rintro _ _ ⟨hheld, store, rfl, hdrawn⟩
    rw [h.descriptor_eq] at hdrawn
    refine ⟨⟨hband, h.held_iff.mp hheld⟩,
      h.of_drawn rfl PlainRaster.fill_eq_draw hdrawn fun key hgrid => ?_⟩
    constructor
    · -- every block of the band has pixels in the raster
      rintro rfl
      obtain ⟨x, y, hinside, hplace⟩ := h.exists_blockOf hgrid
      exact ⟨rfl, x, y, hinside, hplace, rfl⟩
    · exact And.left
  · intro _ after hfailed
    rw [h.held_iff] at hfailed
    exact RefusedOrFull.and_left hband hfailed

/-- A call is carried out if it is accepted, and else does nothing. It fails only if a file could
    not hold all tiles. -/
theorem ends_perform (h : Shows total raster picture dataset) (call : RasterCall) :
    call.perform.Ends dataset
      (fun _ after => call.Accepted raster picture.bands ∧
        Shows total raster (picture.step call) after)
      (fun _ after => RefusedOrFull total (call.Accepted raster picture.bands) dataset after) := by
  cases call with
  | read band request resampling buffer =>
    apply Ends.bind
    apply (h.ends_readWindow band request resampling buffer).imp
    rintro _ after ⟨haccepted, hafter⟩
    -- reading changes no picture
    have hsame : picture.step (.read band request resampling buffer) = picture :=
      picture.step_of_isReading trivial
    rw [hsame]
    exact ends_pure.mpr ⟨haccepted, hafter⟩
  | readBlock band column row length =>
    apply Ends.bind
    apply (h.ends_readBlock band column row length).imp
    rintro _ after ⟨haccepted, -, hafter⟩
    have hsame : picture.step (.readBlock band column row length) = picture :=
      picture.step_of_isReading trivial
    rw [hsame]
    exact ends_pure.mpr ⟨haccepted, hafter⟩
  | write band request buffer =>
    exact h.ends_onBand And.left fun hband => h.ends_writeRaw hband rfl rfl fun _ => Iff.rfl
  | writeResampled band request resampling buffer =>
    cases resampling with
    | nearest =>
      apply h.ends_onBand And.left
      intro hband
      apply Ends.get_bind
      apply Ends.lift_bind (Band.checkWritable_of_update h.access)
      exact h.ends_writeRaw hband rfl rfl fun _ => Iff.rfl
    | average =>
      -- averages cannot be written
      apply h.ends_onBand False.elim
      intro _
      apply Ends.get_bind
      apply Ends.lift_bind (Band.checkWritable_of_update h.access)
      exact ends_throw.mpr (.inl ⟨id, rfl⟩)
  | writeBlock band column row data => exact h.ends_writeBlock band column row data
  | fill band value => exact h.ends_fill band value
  | setNoData band value =>
    apply h.ends_onBand id
    intro hband
    apply (h.ends_setNoData hband value).mono
    · exact fun _ _ hafter => ⟨hband, hafter⟩
    · exact fun _ _ hfull => .inr ⟨hband, hfull⟩
  | flushBand band =>
    apply h.ends_onBand id
    intro hband
    apply (Band.ends_flush h.sound).mono
    · rintro _ _ ⟨store, rfl, hkeeps⟩
      exact ⟨hband, h.step_of_keeps trivial hkeeps⟩
    · exact fun _ _ hfull => .inr ⟨hband, hfull⟩
  | flush =>
    apply (Dataset.ends_flush h.sound flush_formatCodec).mono
    · rintro _ _ ⟨store, rfl, hkeeps, -⟩
      exact ⟨trivial, h.step_of_keeps trivial hkeeps⟩
    · exact fun _ _ hfull => .inr ⟨trivial, hfull⟩
  | setCapacity capacity =>
    apply (Dataset.ends_setCacheBlocks h.sound capacity).mono
    · rintro _ _ ⟨store, rfl, hkeeps⟩
      exact ⟨trivial, h.step_of_keeps trivial hkeeps⟩
    · exact fun _ _ hfull => .inr ⟨trivial, hfull⟩

end Shows

end RasterStore
