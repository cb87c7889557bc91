import RasterStore.Proofs.Dataset.Pictures

/-!
# What is read does not depend on the cache

Two datasets are made around the same codec, with caches of any capacity, and the same calls write
to them; calls that read, write blocks back or change the capacity may come in between, in each
dataset others. Then blocks that are read have the same pixels inside the raster
(`block_independent_of_cache`), because both datasets show the same picture.

The bytes of pixels beyond the edge may differ (`edge_depends_on_cache`): planes do not store them,
so that they are what was written for as long as the block is in the cache, and padding afterwards.
Tiles do store them, but a window that covers a block up to the edge keeps them only if the block is
in the cache.
-/

namespace RasterStore

open BlockStore Tiled RasterStore.Action

variable {raster : Size} {bands : List BandDescriptor} {total : Nat} {picture : Picture}
variable {codec : FormatCodec} {dataset : Dataset FormatCodec} {calls : List RasterCall}

/-! ## Runs -/

namespace RasterCall

/-- The dataset after some calls, whether they succeeded or failed. -/
def performAll (calls : List RasterCall) (dataset : Dataset FormatCodec) : Dataset FormatCodec :=
  calls.foldl (fun reached call => (call.perform.run reached).2) dataset

/-- Every call of the run that is accepted succeeds at its turn. -/
def CarriedOut (raster : Size) (bands : List BandDescriptor) :
    List RasterCall → Dataset FormatCodec → Prop
  | [], _ => True
  | call :: rest, dataset =>
    (call.Accepted raster bands → (call.perform.run dataset).1 = .ok ⟨⟩) ∧
      CarriedOut raster bands rest (call.perform.run dataset).2

instance : DecidablePred IsReading
  | read .. | readBlock .. | flushBand _ | flush | setCapacity _ => .isTrue trivial
  | write .. | writeResampled .. | writeBlock .. | fill .. | setNoData .. => .isFalse id

/-- The calls of a run that do more than to read. -/
def writing (calls : List RasterCall) : List RasterCall :=
  calls.filter fun call => ¬call.IsReading

/-- Whether a call is accepted does not depend on the no-data values. -/
theorem accepted_iff_of_sameShapes {bands' : List BandDescriptor} (h : SameShapes bands bands')
    (call : RasterCall) : call.Accepted raster bands' ↔ call.Accepted raster bands := by
  have hband (band : Nat) : IsBand bands' band ↔ IsBand bands band := by
    rw [IsBand, IsBand, h.length]
  -- whether a call is accepted depends on the shapes of the bands alone
  cases call with
  | read | write | fill => simp only [Accepted, hband, h.blockBytes]
  | writeResampled band request resampling buffer =>
    cases resampling with
    | nearest => simp only [Accepted, hband, h.blockBytes]
    | average => exact Iff.rfl
  | readBlock | writeBlock => simp only [Accepted, Valid, hband, h.block, h.blockBytes]
  | setNoData | flushBand => exact hband _
  | flush | setCapacity => exact Iff.rfl

end RasterCall

namespace Picture

open Classical in
/-- The picture after a call: it changes if the call is accepted. -/
noncomputable def attempt (raster : Size) (picture : Picture) (call : RasterCall) : Picture :=
  if call.Accepted raster picture.bands then picture.step call else picture

/-- The picture after all calls of a run. -/
noncomputable def attemptAll (raster : Size) (picture : Picture) (calls : List RasterCall) :
    Picture :=
  calls.foldl (attempt raster) picture

theorem attempt_of_isReading {call : RasterCall} (picture : Picture) (h : call.IsReading) :
    picture.attempt raster call = picture := by
  rw [attempt, picture.step_of_isReading h, ite_self]

/-- Calls that read make no difference. -/
theorem attemptAll_writing (calls : List RasterCall) (picture : Picture) :
    picture.attemptAll raster (RasterCall.writing calls) = picture.attemptAll raster calls := by
  induction calls generalizing picture with
  | nil => rfl
  | cons call rest ih =>
    by_cases hreading : call.IsReading
    · -- the call is not in the list, and the picture stays the same
      have hwriting : RasterCall.writing (call :: rest) = RasterCall.writing rest := by
        simp [RasterCall.writing, hreading]
      have hsame : picture.attemptAll raster (call :: rest) = _ :=
        congrArg (attemptAll raster · rest) (picture.attempt_of_isReading hreading)
      rw [hwriting, hsame]
      exact ih picture
    · have hwriting : RasterCall.writing (call :: rest) = call :: RasterCall.writing rest := by
        simp [RasterCall.writing, hreading]
      rw [hwriting]
      exact ih (picture.attempt raster call)

theorem sameShapes_attempt (raster : Size) (picture : Picture) (call : RasterCall) :
    SameShapes picture.bands (picture.attempt raster call).bands := by
  rw [attempt]
  split
  · exact .bandsAfter call picture.bands
  · exact .refl picture.bands

/-- Bands keep their shapes in a run. -/
theorem sameShapes_attemptAll (raster : Size) (calls : List RasterCall) (picture : Picture) :
    SameShapes picture.bands (picture.attemptAll raster calls).bands := by
  induction calls generalizing picture with
  | nil => exact .refl picture.bands
  | cons call rest ih => exact (picture.sameShapes_attempt raster call).trans (ih _)

end Picture

namespace Shows

/-- A call that is refused does nothing, and one that is carried out is a step of the picture. -/
theorem perform (h : Shows total raster picture dataset) (call : RasterCall)
    (hcarried : call.Accepted raster picture.bands → (call.perform.run dataset).1 = .ok ⟨⟩) :
    Shows total raster (picture.attempt raster call) (call.perform.run dataset).2 := by
  have hends := h.ends_perform call
  rw [Picture.attempt]
  split
  · next haccepted => exact (hends.of_ok (Prod.ext (hcarried haccepted) rfl)).2
  · next hrefused =>
    -- a refused call leaves the dataset as it is
    have hsame : call.perform.Ends dataset (fun _ after => after = dataset)
        (fun _ after => after = dataset) := by
      apply hends.mono
      · exact fun _ _ hafter => absurd hafter.1 hrefused
      · rintro _ _ (⟨-, hafter⟩ | ⟨haccepted, -⟩)
        · exact hafter
        · exact absurd haccepted hrefused
    rw [hsame.reached]
    exact h

/-- The run is a run of the picture. -/
theorem performAll (h : Shows total raster picture dataset)
    (hshapes : SameShapes bands picture.bands)
    (hcarried : RasterCall.CarriedOut raster bands calls dataset) :
    Shows total raster (picture.attemptAll raster calls) (RasterCall.performAll calls dataset) := by
  induction calls generalizing picture dataset with
  | nil => exact h
  | cons call rest ih =>
    -- the rest of the run starts from what the first call made of the picture
    obtain ⟨hfirst, hrest⟩ := hcarried
    rw [← RasterCall.accepted_iff_of_sameShapes hshapes] at hfirst
    exact ih (h.perform call hfirst) (hshapes.trans (picture.sameShapes_attempt raster call)) hrest

/-- All accepted calls are carried out if the file has room for all tiles. -/
theorem carriedOut (h : Shows total raster picture dataset)
    (hshapes : SameShapes bands picture.bands) (hroom : total < offsetLimit)
    (calls : List RasterCall) : RasterCall.CarriedOut raster bands calls dataset := by
  induction calls generalizing picture dataset with
  | nil => trivial
  | cons call rest ih =>
    -- with room for all tiles, an accepted call is carried out
    have hfirst : call.Accepted raster picture.bands →
        (call.perform.run dataset).1 = .ok ⟨⟩ := by
      intro haccepted
      have hends : call.perform.Ends dataset (fun _ _ => True) (fun _ _ => False) := by
        apply (h.ends_perform call).mono
        · exact fun _ _ _ => trivial
        · exact fun _ _ hfailed => hfailed.not_of_room haccepted hroom
      obtain ⟨_, _, hrun, -⟩ := hends.exists_ok
      rw [hrun]
    refine ⟨?_, ih (h.perform call hfirst) (hshapes.trans (picture.sameShapes_attempt raster call))⟩
    rwa [← RasterCall.accepted_iff_of_sameShapes hshapes]

/-- Then all blocks can be read that can be held in memory. -/
theorem exists_readBlock {band x y : Nat} (h : Shows total raster picture dataset)
    (hshapes : SameShapes bands picture.bands) (hroom : total < offsetLimit)
    (hgrid : InGrid raster bands ⟨band, x, y⟩)
    (hheld : (bandOf bands band).blockBytes < memoryLimit) :
    ∃ data after, (Dataset.readBlock band x y (bandOf bands band).blockBytes).run dataset =
      (.ok data, after) := by
  have haccepted : (RasterCall.readBlock band x y (bandOf bands band).blockBytes).Accepted raster
      picture.bands := by
    rw [RasterCall.accepted_iff_of_sameShapes hshapes]
    exact ⟨⟨⟨hgrid.band_pos, hgrid.band_le⟩, ⟨hgrid.left_lt, hgrid.top_lt⟩, rfl⟩, hheld⟩
  -- nor does an accepted read fail for want of room
  have hends : (Dataset.readBlock band x y (bandOf bands band).blockBytes).Ends dataset
      (fun _ _ => True) (fun _ _ => False) := by
    apply (h.ends_readBlock band x y (bandOf bands band).blockBytes).mono
    · exact fun _ _ _ => trivial
    · exact fun _ _ hfailed => hfailed.not_of_room haccepted hroom
  obtain ⟨data, after, hrun, -⟩ := hends.exists_ok
  exact ⟨data, after, hrun⟩

end Shows

/-! ## New datasets -/

/-- The picture that a codec has stored. -/
def Picture.ofCodec (raster : Size) (bands : List BandDescriptor) (codec : FormatCodec) :
    Picture where
  bands
  pixels band x y :=
    codec.pixels (contextOf raster bands ((bandOf bands band).blockOf band x y))
      (x % (bandOf bands band).block.width) (y % (bandOf bands band).block.height)
  written := codec.HasBlock

/-- A new dataset shows what its codec has stored. -/
theorem shows_of_isNew (hcodec : codec.Stores raster bands)
    (hnew : dataset.IsNew codec raster bands .update) (hblocked : ∀ band ∈ bands, band.Blocked) :
    Shows (codec.fullLength raster bands) raster (.ofCodec raster bands codec) dataset := by
  have hnone (key : BlockRef) : dataset.store.cache.find? key = none := by
    rw [BlockCache.find?, hnew.empty]
    rfl
  have hdescriptor (band : Nat) : dataset.store.descriptor band = bandOf bands band :=
    descriptor_of_bands hnew.bands band
  have hcontext (key : BlockRef) : dataset.store.context key = contextOf raster bands key := by
    rw [context, hdescriptor, hnew.raster]
    rfl
  have hholds : (rasterModel (codec.fullLength raster bands) raster bands).Holds
      dataset.store.codec := by
    rw [hnew.codec]
    exact ⟨hcodec, rfl⟩
  refine ⟨hnew.access, hnew.raster, hnew.bands, hblocked,
    CodecModel.sound_of_empty hholds hnew.empty, fun band x y _ _ _ => ?_, fun key _ => ?_⟩
  · -- the pixels are those of the codec, as the cache is empty
    have hlogical := @CodecModel.logical_of_none _ _
      (rasterModel (codec.fullLength raster bands) raster bands).toCodecModel _ _
      (hnone ((bandOf bands band).blockOf band x y))
    rw [hcontext, hnew.codec] at hlogical
    rw [rasterModel_pixelAt (congrArg BandDescriptor.block (hdescriptor band))]
    exact congrFun (congrFun hlogical _) _
  · rw [CodecModel.Written, hnone, hnew.codec]
    -- no block is dirty
    apply or_iff_right
    rintro ⟨_, hfind, -⟩
    contradiction

/-! ## Answers -/

/-- Two answers for a block have the same pixels inside the raster. -/
structure SameInside (descriptor : BandDescriptor) (raster : Size) (x y : Nat)
    (data data' : ByteArray) : Prop where
  size : data.size = descriptor.blockBytes
  size' : data'.size = descriptor.blockBytes
  pixel : ∀ column row, column < (descriptor.validSize raster x y).width →
    row < (descriptor.validSize raster x y).height →
    descriptor.pixel data column row = descriptor.pixel data' column row

/-- They are equal if the block lies inside the raster. -/
theorem SameInside.eq {descriptor : BandDescriptor} {x y : Nat} {data data' : ByteArray}
    (h : SameInside descriptor raster x y data data')
    (hinside : descriptor.validSize raster x y = descriptor.block) : data = data' := by
  apply BandDescriptor.ext_pixel h.size h.size'
  intro column row hcolumn hrow
  apply h.pixel
  · rwa [hinside]
  · rwa [hinside]

/-- The blocks of a picture are the same inside the raster. -/
theorem Picture.IsBlock.sameInside {band x y : Nat} {data data' : ByteArray}
    (h : picture.IsBlock raster ⟨band, x, y⟩ data) (h' : picture.IsBlock raster ⟨band, x, y⟩ data')
    (hshapes : SameShapes bands picture.bands) :
    SameInside (bandOf bands band) raster x y data data' := by
  have hsize := h.size
  have hsize' := h'.size
  rw [hshapes.blockBytes] at hsize hsize'
  refine ⟨hsize, hsize', fun column row hcolumn hrow => ?_⟩
  -- with the same shapes, pixels are at the same places of a block
  have hvalid : (bandOf picture.bands band).validSize raster x y =
      (bandOf bands band).validSize raster x y := by
    rw [BandDescriptor.validSize, BandDescriptor.validSize, hshapes.block]
  have hpixel (data : ByteArray) : (bandOf picture.bands band).pixel data column row =
      (bandOf bands band).pixel data column row := by
    rw [BandDescriptor.pixel, BandDescriptor.pixel, BandDescriptor.pixelIndex,
      BandDescriptor.pixelIndex, hshapes.block, hshapes.type]
  rw [← hvalid] at hcolumn hrow
  rw [← hpixel, ← hpixel]
  exact (h.pixel column row hcolumn hrow).trans (h'.pixel column row hcolumn hrow).symm

/-- Two datasets are made around one codec and used by two runs of calls, of which the same ones do
    more than to read. They may have caches of any capacity, and calls that read, write blocks back
    or change the capacity may come anywhere.

    All accepted calls succeed, and after them all blocks can be read that are not too large to be
    held in memory, unless the file with all of its tiles would be too long. Whenever the calls
    succeed, two answers for a block after these runs have the same pixels inside the raster, so
    that they are equal if the block does not reach beyond it. Any calls may follow, so this also is
    so for blocks that are read within a run. -/
theorem block_independent_of_cache (hcodec : codec.Stores raster bands)
    {options options' : OpenOptions} {environment environment' : Option String}
    {dataset dataset' : Dataset FormatCodec}
    (hdataset : Dataset.ofCodec codec raster bands options environment = .ok dataset)
    (hdataset' : Dataset.ofCodec codec raster bands options' environment' = .ok dataset')
    (hupdate : options.flags.update = true) (hupdate' : options'.flags.update = true)
    {calls calls' : List RasterCall}
    (hcalls : RasterCall.writing calls = RasterCall.writing calls') :
    (codec.fullLength raster bands < offsetLimit →
      RasterCall.CarriedOut raster bands calls dataset ∧
      ∀ band x y, InGrid raster bands ⟨band, x, y⟩ →
        (bandOf bands band).blockBytes < memoryLimit →
        ∃ data after, (Dataset.readBlock band x y (bandOf bands band).blockBytes).run
          (RasterCall.performAll calls dataset) = (.ok data, after)) ∧
    (RasterCall.CarriedOut raster bands calls dataset →
      RasterCall.CarriedOut raster bands calls' dataset' →
      ∀ band x y length data data' after after',
        (Dataset.readBlock band x y length).run (RasterCall.performAll calls dataset) =
          (.ok data, after) →
        (Dataset.readBlock band x y length).run (RasterCall.performAll calls' dataset') =
          (.ok data', after') →
        SameInside (bandOf bands band) raster x y data data' ∧
          ((bandOf bands band).validSize raster x y = (bandOf bands band).block →
            data = data')) := by
  obtain ⟨hnew, hblocked⟩ := Dataset.isNew_of_ofCodec hdataset
  obtain ⟨hnew', -⟩ := Dataset.isNew_of_ofCodec hdataset'
  rw [OpenFlags.access, if_pos hupdate] at hnew
  rw [OpenFlags.access, if_pos hupdate'] at hnew'
  -- both datasets show the same picture, at first and after the runs
  have hstart := shows_of_isNew hcodec hnew hblocked
  have hstart' := shows_of_isNew hcodec hnew' hblocked
  have hshapes : SameShapes bands (Picture.ofCodec raster bands codec).bands := .refl bands
  have hend := Picture.sameShapes_attemptAll raster calls (.ofCodec raster bands codec)
  constructor
  · -- with room in the file every call is carried out, and the block can be read
    intro hroom
    have hcarried := hstart.carriedOut hshapes hroom calls
    refine ⟨hcarried, fun band x y hgrid hheld => ?_⟩
    exact (hstart.performAll hshapes hcarried).exists_readBlock hend hroom hgrid hheld
  · -- the two runs write the same, so that both end with the same picture
    intro hcarried hcarried' band x y length data data' after after' hread hread'
    have hafter := hstart.performAll hshapes hcarried
    have hafter' := hstart'.performAll hshapes hcarried'
    rw [← Picture.attemptAll_writing] at hafter hafter' hend
    rw [← hcalls] at hafter'
    have hblock := ((hafter.ends_readBlock band x y length).of_ok hread).2.1
    have hblock' := ((hafter'.ends_readBlock band x y length).of_ok hread').2.1
    have hsame := hblock.sameInside hblock' hend
    exact ⟨hsame, hsame.eq⟩

/-! Three columns and two rows in blocks of two by two, so that the right block reaches beyond the
edge. -/

private def smallCodec : FormatCodec :=
  .inl (MemoryCodec.blank ⟨3, 2⟩ #[⟨.byte, ⟨2, 2⟩, none⟩])

private theorem stores_smallCodec : smallCodec.Stores ⟨3, 2⟩ [⟨.byte, ⟨2, 2⟩, none⟩] :=
  .memory (MemoryCodec.hasPlanes_blank _ _)

private theorem exists_small (capacity : Option Nat) :
    ∃ dataset, Dataset.ofCodec smallCodec ⟨3, 2⟩ [⟨.byte, ⟨2, 2⟩, none⟩]
      { flags := { update := true }, cacheBlocks := capacity } none = .ok dataset := by
  obtain ⟨dataset, hdataset, -⟩ := @Dataset.ofCodec_of_nonempty _ _ ⟨3, 2⟩
    [⟨.byte, ⟨2, 2⟩, none⟩] smallCodec (by decide) (by decide) (by decide)
    { flags := { update := true }, cacheBlocks := capacity } none
  exact ⟨dataset, hdataset⟩

/-- The right block is written, and read once from a cache of eight blocks and once from one that
    has given it up for the left block. -/
theorem block_independent_of_cache_small : ∃ dataset dataset' data data' after after',
    Dataset.ofCodec smallCodec ⟨3, 2⟩ [⟨.byte, ⟨2, 2⟩, none⟩]
      { flags := { update := true }, cacheBlocks := some 8 } none = .ok dataset ∧
    Dataset.ofCodec smallCodec ⟨3, 2⟩ [⟨.byte, ⟨2, 2⟩, none⟩]
      { flags := { update := true }, cacheBlocks := some 1 } none = .ok dataset' ∧
    (Dataset.readBlock 1 1 0 4).run (RasterCall.performAll
      [.writeBlock 1 1 0 ⟨#[5, 6, 7, 8]⟩] dataset) = (.ok data, after) ∧
    (Dataset.readBlock 1 1 0 4).run (RasterCall.performAll
      [.writeBlock 1 1 0 ⟨#[5, 6, 7, 8]⟩, .readBlock 1 0 0 4] dataset') = (.ok data', after') ∧
    SameInside ⟨.byte, ⟨2, 2⟩, none⟩ ⟨3, 2⟩ 1 0 data data' := by
  obtain ⟨dataset, hdataset⟩ := exists_small (some 8)
  obtain ⟨dataset', hdataset'⟩ := exists_small (some 1)
  -- the second run has one read more, and a cache of one block
  have hcalls : RasterCall.writing [.writeBlock 1 1 0 ⟨#[5, 6, 7, 8]⟩] =
    RasterCall.writing [.writeBlock 1 1 0 ⟨#[5, 6, 7, 8]⟩, .readBlock 1 0 0 4] := rfl
  have hroom : smallCodec.fullLength ⟨3, 2⟩ [⟨.byte, ⟨2, 2⟩, none⟩] < offsetLimit := by decide
  have hgrid : InGrid ⟨3, 2⟩ [⟨.byte, ⟨2, 2⟩, none⟩] ⟨1, 1, 0⟩ :=
    ⟨by decide, by decide, by decide, by decide⟩
  obtain ⟨hsucceeds, hsame⟩ := block_independent_of_cache stores_smallCodec hdataset hdataset' rfl
    rfl hcalls
  obtain ⟨hsucceeds', -⟩ := block_independent_of_cache stores_smallCodec hdataset' hdataset rfl rfl
    hcalls.symm
  obtain ⟨hcarried, hread⟩ := hsucceeds hroom
  obtain ⟨hcarried', hread'⟩ := hsucceeds' hroom
  obtain ⟨data, after, hdata⟩ := hread 1 1 0 hgrid (by decide)
  obtain ⟨data', after', hdata'⟩ := hread' 1 1 0 hgrid (by decide)
  exact ⟨dataset, dataset', data, data', after, after', hdataset, hdataset', hdata, hdata',
    (hsame hcarried hcarried' 1 1 0 4 data data' after after' hdata hdata').1⟩

private def smallAnswer (calls : List RasterCall) : Option ByteArray :=
  (Dataset.ofCodec smallCodec ⟨3, 2⟩ [⟨.byte, ⟨2, 2⟩, none⟩]
    { flags := { update := true }, cacheBlocks := some 8 } none).toOption.bind fun dataset =>
      ((Dataset.readBlock 1 1 0 4).run (RasterCall.performAll calls dataset)).1.toOption

/-- Whether the capacity changes in between decides which bytes the right block has beyond the
    edge. -/
theorem edge_depends_on_cache : ∃ dataset after after',
    Dataset.ofCodec smallCodec ⟨3, 2⟩ [⟨.byte, ⟨2, 2⟩, none⟩]
      { flags := { update := true }, cacheBlocks := some 8 } none = .ok dataset ∧
    (Dataset.readBlock 1 1 0 4).run (RasterCall.performAll
      [.writeBlock 1 1 0 ⟨#[5, 6, 7, 8]⟩, .readBlock 1 0 0 4] dataset) =
        (.ok ⟨#[5, 6, 7, 8]⟩, after) ∧
    (Dataset.readBlock 1 1 0 4).run (RasterCall.performAll
      [.writeBlock 1 1 0 ⟨#[5, 6, 7, 8]⟩, .setCapacity 1, .readBlock 1 0 0 4] dataset) =
        (.ok ⟨#[5, 0, 7, 0]⟩, after') := by
  obtain ⟨dataset, hdataset⟩ := exists_small (some 8)
  have hanswer {calls : List RasterCall} {data : ByteArray}
      (h : smallAnswer calls = some data) :
      ∃ after, (Dataset.readBlock 1 1 0 4).run (RasterCall.performAll calls dataset) =
        (.ok data, after) := by
    rw [smallAnswer, hdataset] at h
    cases hrun : (Dataset.readBlock 1 1 0 4).run (RasterCall.performAll calls dataset) with
    | mk outcome after =>
      have houtcome : outcome.toOption = some data := by
        rw [← h]
        exact congrArg (fun run => run.1.toOption) hrun.symm
      cases outcome with
      | ok answer =>
        cases houtcome
        exact ⟨after, rfl⟩
      | error error => contradiction
  -- what the two runs answer is evaluated; only the block in the cache still has its padding
  have hcached : smallAnswer [.writeBlock 1 1 0 ⟨#[5, 6, 7, 8]⟩, .readBlock 1 0 0 4] =
      some ⟨#[5, 6, 7, 8]⟩ := by decide +kernel
  have hdecoded : smallAnswer [.writeBlock 1 1 0 ⟨#[5, 6, 7, 8]⟩, .setCapacity 1,
      .readBlock 1 0 0 4] = some ⟨#[5, 0, 7, 0]⟩ := by decide +kernel
  obtain ⟨after, hcached⟩ := hanswer hcached
  obtain ⟨after', hdecoded⟩ := hanswer hdecoded
  exact ⟨dataset, after, after', hdataset, hcached, hdecoded⟩

end RasterStore
