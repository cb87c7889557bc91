import RasterStore.Proofs.Dataset.NoDataValue
import RasterStore.Proofs.Dataset.TiledKeeper
import RasterStore.Proofs.Tiled.Files

/-!
# No-data values of tiled files

A new no-data value of a band of a tiled file is written into the header of the band, and then the
blocks of the band are written back and dropped from the cache. So the new value shows in the
padding of the blocks of the band that were never written, and nowhere else: all other blocks are
read as before, and no other field of a header or a descriptor changes
(`noData_change_spares_written`). This is so after any calls, failed ones included, and over a file
that was closed and opened again (`OverTiled`).
-/

namespace RasterStore

open BlockStore Tiled RasterStore.Action

variable {raster : Size} {bands : List BandDescriptor} {key : BlockRef} {band : Nat}
variable {value : Option Binary64}
variable {dataset before after : Dataset FormatCodec}

/-- The block is read with these bytes. Reading can only fail for lack of room in the file for the
    dirty blocks. -/
def Dataset.Reads (bands : List BandDescriptor) (dataset : Dataset FormatCodec) (key : BlockRef)
    (bytes : ByteArray) : Prop :=
  (Dataset.readBlock key.band key.x key.y (bandOf bands key.band).blockBytes).Ends dataset
    (fun data _ => data = bytes) (fun _ _ => ¬HasRoom bands dataset.store)

/-- What the header of a band in the file says. -/
def FormatCodec.recordedBand : FormatCodec → Nat → Except RasterError BandDescriptor
  | .inr (.inl tiled), band => tiled.recordedBand band
  | .inl _, _ | .inr (.inr _), _ => .error (.notSupported "recorded_band")

/-- A band got another no-data value, which shows in its blocks that were not written and nowhere
    else. -/
structure Repadded (raster : Size) (bands : List BandDescriptor) (band : Nat)
    (value : Option Binary64) (before after : Dataset FormatCodec) : Prop where
  size : after.size = before.size
  descriptors : after.store.bands =
    before.store.bands.modify (band - 1) ({ · with noData := value })
  headers : ∀ other, 0 < other → other ≤ bands.length → ∃ descriptor,
    before.store.codec.recordedBand other = .ok descriptor ∧
    after.store.codec.recordedBand other =
      .ok (if other = band then { descriptor with noData := value } else descriptor)
  /-- No block with the old padding is left. -/
  dropped : ∀ key, key.band = band → after.store.cache.find? key = none
  /-- Blocks that were written are read as before, also after other reads. -/
  written : ∀ reads : List RasterCall, (∀ call ∈ reads, call.IsReading) →
    ∀ key, InGrid raster bands key → IsWritten before key → ∃ bytes,
      before.Reads bands key bytes ∧
      (DatasetCall.performAll (reads.map .raster) after).Reads bands key bytes
  /-- The other blocks of the band are read as padding, also after other reads. -/
  unwritten : ∀ reads : List RasterCall, (∀ call ∈ reads, call.IsReading) →
    ∀ key, InGrid raster bands key → key.band = band → ¬IsWritten before key →
      (DatasetCall.performAll (reads.map .raster) after).Reads bands key
        { before.descriptor band with noData := value }.padding
  /-- The blocks of other bands are read as before. -/
  others : ∀ key, InGrid raster bands key → key.band ≠ band → ∃ bytes,
    before.Reads bands key bytes ∧ after.Reads bands key bytes

namespace FormatCodec

/-- A written block is one that counts as written over a tiled file. -/
theorem isWritten_iff (h : (tiledKeeper raster bands).UpToDate dataset.store)
    (hkey : InGrid raster bands key) :
    IsWritten dataset key ↔ (tiledKeeper raster bands).written dataset.store key = true := by
  have htile : dataset.store.codec.HasTile (dataset.store.context key) ↔
      (dataset.store.codec.tile? raster bands key).isSome = true := by
    obtain ⟨tiled, bands', hcodec, -⟩ := h.holds
    rw [hcodec]
    exact (TiledCodec.tile?_isSome_iff hkey).symm
  rw [IsWritten, htile, BlockKeeper.written, Bool.or_eq_true, Option.any_eq_true]
  exact Iff.rfl

/-- A block is read with its content, also after other reads. -/
theorem reads_performAll (h : (tiledKeeper raster bands).UpToDate dataset.store)
    (hblocked : ∀ descriptor ∈ bands, descriptor.Blocked) {reads : List RasterCall}
    (hreading : ∀ call ∈ reads, call.IsReading) (hkey : InGrid raster bands key)
    (hstable : (tiledKeeper raster bands).written dataset.store key = true ∨
      dataset.store.cache.find? key = none) :
    (DatasetCall.performAll (reads.map .raster) dataset).Reads bands key
      ((tiledKeeper raster bands).content dataset.store key) := by
  -- reading calls leave what is known of the blocks up to date
  have hreached : (DatasetCall.performAll (reads.map .raster) dataset).Meets dataset.access _ :=
    DatasetCall.meets_performAll_of_isReading
      BlockKeeper.UpToDate.keptByReading.toKeptByFetching hblocked hreading ⟨rfl, h⟩
  rw [← h.content_performAll hblocked hreading hkey hstable]
  exact ends_readBlock_of_hasRoom hreached.blocks hblocked hkey

/-- The headers of the bands follow the no-data values that the codec has recorded. -/
theorem recordedBand_of_noData {codec reached : FormatCodec}
    (hcodec : codec.HoldsTiles raster bands) (hreached : reached.HoldsTiles raster bands)
    (hnoData : ∀ other, reached.recordedNoData bands other =
      if other = band then value else codec.recordedNoData bands other)
    {other : Nat} (hpos : 0 < other) (hle : other ≤ bands.length) :
    ∃ descriptor, codec.recordedBand other = .ok descriptor ∧
      reached.recordedBand other =
        .ok (if other = band then { descriptor with noData := value } else descriptor) := by
  obtain ⟨tiled, bands', rfl, hshapes, hintact⟩ := hcodec
  obtain ⟨tiled', bands'', rfl, hshapes', hintact'⟩ := hreached
  have hisBand : 0 < other ∧ other ≤ bands.length := ⟨hpos, hle⟩
  -- the recorded value, of `codec` and of `reached`, is the one in the header of the band
  have hband := hnoData other
  rw [recordedNoData_of_intact hshapes hintact, recordedNoData_of_intact hshapes' hintact',
    if_pos hisBand, if_pos hisBand] at hband
  have htype : (bandAt bands'' (other - 1)).type = (bandAt bands' (other - 1)).type :=
    (hshapes'.type other).trans (hshapes.type other).symm
  have hblock : (bandAt bands'' (other - 1)).block = (bandAt bands' (other - 1)).block :=
    (hshapes'.block other).trans (hshapes.block other).symm
  refine ⟨_, hintact.recordedBand hpos (hshapes.length ▸ hle), ?_⟩
  refine (hintact'.recordedBand hpos (hshapes'.length ▸ hle)).trans (congrArg _ ?_)
  -- the two headers agree in the type and the block size, so only the no-data values are left
  generalize bandAt bands'' (other - 1) = descriptor' at htype hblock hband ⊢
  obtain ⟨type, block, noData⟩ := descriptor'
  obtain rfl : type = _ := htype
  obtain rfl : block = _ := hblock
  obtain rfl : noData = _ := hband
  split
  · rfl
  · rfl

/-- A new dataset over an intact file is up to date, also if the file has other no-data values than
    the bands that it was made with. -/
theorem upToDate_of_isNew {bands' : List BandDescriptor} {codec : FormatCodec} {access : Access}
    (hholds : codec.HoldsTiles raster bands) (hshapes : SameShapes bands bands')
    (hnew : dataset.IsNew codec raster bands' access) :
    (tiledKeeper raster bands).UpToDate dataset.store := by
  -- the dataset is in order over the bands of the file, which have the same blocks
  have horderly : Orderly raster bands' (HoldsTiles raster bands) dataset.store :=
    .of_isNew hholds hnew
  refine .of_empty ?_ hnew.empty
  constructor
  · exact horderly.holds
  · exact horderly.distinct
  · intro key block hfind
    obtain ⟨hkey, hsize⟩ := horderly.cached key block hfind
    exact ⟨hkey.of_sameShapes hshapes.symm, hsize.trans (hshapes.blockBytes key.band)⟩
  · exact horderly.sameRaster
  · exact hshapes.trans horderly.shapes

end FormatCodec

/-! ## Datasets over files that were created -/

/-- A dataset after any calls, over storage in which a tiled file was created. The dataset may also
    be one of several that had the file open, one after the other. -/
inductive OverTiled (raster : Size) (bands : List BandDescriptor) : Dataset FormatCodec → Prop
  | created {storage left : Storage} {tiled : TiledCodec} {options : OpenOptions}
      {environment : Option String} {dataset : Dataset FormatCodec} :
      storage.Usable → (TiledCodec.create raster bands).run storage = (.ok tiled, left) →
      Dataset.ofCodec (.inr (.inl tiled)) raster bands options environment = .ok dataset →
      OverTiled raster bands dataset
  | performed {dataset : Dataset FormatCodec} (call : DatasetCall) :
      OverTiled raster bands dataset →
      OverTiled raster bands (DatasetCall.performAll [call] dataset)
  | reopened {tiled loaded : TiledCodec} {size : Size} {bands' : List BandDescriptor}
      {options : OpenOptions} {environment : Option String}
      {dataset reopened : Dataset FormatCodec} :
      OverTiled raster bands dataset → dataset.store.codec = .inr (.inl tiled) →
      tiled.storage.medium ≠ .memory →
      TiledCodec.load tiled.storage = .ok (loaded, size, bands') →
      Dataset.ofCodec (.inr (.inl loaded)) size bands' options environment = .ok reopened →
      OverTiled raster bands reopened

/-- A file that was created is intact, unless its blocks are too large. -/
theorem TiledCodec.intact_of_create {storage left : Storage} {tiled : TiledCodec}
    {options : OpenOptions} {environment : Option String} (husable : storage.Usable)
    (hbytes : ∀ descriptor ∈ bands, descriptor.blockBytes < byteLimit 4)
    (hcreate : (TiledCodec.create raster bands).run storage = (.ok tiled, left))
    (hnew : Dataset.ofCodec (.inr (.inl tiled) : FormatCodec) raster bands options environment =
      .ok dataset) :
    tiled.Intact raster bands := by
  obtain ⟨hcounted, -, -, husable, htables, hblank⟩ :=
    (TiledCodec.ends_create_blank husable).of_ok hcreate
  obtain ⟨hraster, hpos, hblocks⟩ := hcounted.storable hnew
  -- the counts fit by the creation, and the blocks by assumption
  have hgeometry : Geometry raster bands := ⟨hraster, hpos, hcounted.bands_lt, hblocks, hbytes⟩
  refine ⟨husable, ?_⟩
  rw [htables, hblank]
  exact TiledCodec.image_blankFile hgeometry

namespace OverTiled

/-- The blocks of such a dataset are up to date. -/
theorem upToDate (h : OverTiled raster bands dataset)
    (hbytes : ∀ descriptor ∈ bands, descriptor.blockBytes < byteLimit 4) :
    (∀ descriptor ∈ bands, descriptor.Blocked) ∧
      (FormatCodec.tiledKeeper raster bands).UpToDate dataset.store := by
  -- induction on how the dataset came about: created, after one more call, opened again
  induction h with
  | created husable hcreate hnew =>
    have hintact := TiledCodec.intact_of_create husable hbytes hcreate hnew
    obtain ⟨hisNew, hblocked⟩ := Dataset.isNew_of_ofCodec hnew
    refine ⟨hblocked, FormatCodec.upToDate_of_isNew ?_ (.refl bands) hisNew⟩
    exact ⟨_, bands, rfl, .refl bands, hintact⟩
  | @performed dataset call _ ih =>
    obtain ⟨hblocked, hdataset⟩ := ih
    refine ⟨hblocked, ?_⟩
    exact (DatasetCall.meets_performAll (BlockKeeper.UpToDate.keptByCalls dataset.access hblocked)
      [call] ⟨rfl, hdataset⟩).blocks
  | @reopened tiled loaded size found options environment _ _ _ hcodec hmedium hload hnew ih =>
    obtain ⟨hblocked, hdataset⟩ := ih
    obtain ⟨tiled', bands', hcodec', hshapes, hintact⟩ := hdataset.holds
    obtain rfl : tiled = tiled' := Sum.inl.inj (Sum.inr.inj (hcodec.symm.trans hcodec'))
    -- the file has the headers and the indexes that were in memory
    have hlimit := hintact.usable.readable.length_lt hmedium
    rw [TiledCodec.load_of_image hintact.image hintact.usable.readable
      (Nat.lt_trans hlimit (by decide))] at hload
    cases hload
    have hisNew := (Dataset.isNew_of_ofCodec hnew).1
    exact ⟨hblocked, FormatCodec.upToDate_of_isNew ⟨_, _, rfl, hshapes, hintact⟩ hshapes hisNew⟩

end OverTiled

/-- Setting a no-data value of a tiled file changes how the blocks of the band are padded that were
    not written, and no other block, no other band and no other field of the header. -/
theorem noData_change_spares_written (hover : OverTiled raster bands before)
    (hbytes : ∀ descriptor ∈ bands, descriptor.blockBytes < byteLimit 4)
    (hset : ((RasterCall.setNoData band value).perform).run before = (.ok (), after)) :
    Repadded raster bands band value before after := by
  obtain ⟨hblocked, hbefore⟩ := hover.upToDate hbytes
  obtain ⟨⟨hpos, hle⟩, hsteps⟩ := (RasterCall.ends_setNoData before).of_ok hset
  have hcount : before.bandCount = bands.length := hbefore.shapes.length
  have hband : 0 < band ∧ band ≤ bands.length := ⟨hpos, hcount ▸ hle⟩
  have hrenewed := hbefore.renewed_of_set hband hsteps
  have hafter := hrenewed.upToDate
  have hdropped (key : BlockRef) (hin : key.band = band) : after.store.cache.find? key = none := by
    obtain ⟨codec, flushed, -, -, rfl⟩ := hsteps
    exact (BlockCache.find?_removeBand band).trans (if_pos hin)
  constructor
  · exact hafter.sameRaster.trans hbefore.sameRaster.symm
  · exact hrenewed.descriptors
  · intro other hother hother'
    exact FormatCodec.recordedBand_of_noData hbefore.holds hafter.holds hrenewed.noData hother
      hother'
  · exact hdropped
  · -- written blocks are not fresh, and reading leaves them written
    intro reads hreading key hkey hwritten
    have hwritten := (FormatCodec.isWritten_iff hbefore hkey).mp hwritten
    refine ⟨_, FormatCodec.ends_readBlock_of_hasRoom hbefore hblocked hkey, ?_⟩
    rw [← hrenewed.content key hkey fun hfresh => by simp [hwritten] at hfresh]
    refine FormatCodec.reads_performAll hafter hblocked hreading hkey (.inl ?_)
    rw [hrenewed.written key hkey, hwritten]
  · -- the others are fresh and not in the cache, so they are decoded with the new padding
    intro reads hreading key hkey hin hunwritten
    have hfresh : (FormatCodec.tiledKeeper raster bands).written before.store key = false :=
      Bool.eq_false_iff.mpr fun hwritten =>
        hunwritten ((FormatCodec.isWritten_iff hbefore hkey).mpr hwritten)
    have hpadding : (FormatCodec.tiledKeeper raster bands).content after.store key =
        { before.descriptor band with noData := value }.padding :=
      hrenewed.padding key hkey ⟨hin, hfresh⟩
    rw [← hpadding]
    exact FormatCodec.reads_performAll hafter hblocked hreading hkey (.inr (hdropped key hin))
  · -- blocks of other bands are not fresh, whether they were written or not
    intro key hkey hother
    refine ⟨_, FormatCodec.ends_readBlock_of_hasRoom hbefore hblocked hkey, ?_⟩
    rw [← hrenewed.content key hkey fun hfresh => hother hfresh.1]
    exact FormatCodec.ends_readBlock_of_hasRoom hafter hblocked hkey

/-- The float one. -/
def pairValue : Option Binary64 :=
  some ⟨0x3FF0000000000000⟩

/-- A band whose blocks have one pixel each. -/
def pairBand : BandDescriptor :=
  ⟨.float64, ⟨1, 1⟩, none⟩

/-- A tiled file of two blocks in memory, of which the first was replaced, before and after the
    no-data value is set. -/
def pairSteps : Option (Dataset FormatCodec × Dataset FormatCodec) :=
  match (TiledCodec.create ⟨2, 1⟩ [pairBand]).run ⟨.memory, ByteArray.empty, true⟩ with
  | (.ok tiled, _) =>
    match Dataset.ofCodec (.inr (.inl tiled) : FormatCodec) ⟨2, 1⟩ [pairBand]
      { flags := OpenFlags.ofAccess .update } none with
    | .ok dataset =>
      let before := DatasetCall.performAll
        [.raster (.writeBlock 1 0 0 ⟨#[1, 2, 3, 4, 5, 6, 7, 8]⟩)] dataset
      match ((RasterCall.setNoData 1 pairValue).perform).run before with
      | (.ok _, after) => some (before, after)
      | _ => none
    | _ => none
  | _ => none

private theorem overTiled_of_pairSteps (h : pairSteps = some (before, after)) :
    OverTiled ⟨2, 1⟩ [pairBand] before ∧
      ((RasterCall.setNoData 1 pairValue).perform).run before = (.ok (), after) := by
  -- each step was made by running it
  unfold pairSteps at h
  split at h
  · next tiled left hcreate =>
    split at h
    · next dataset hdataset =>
      simp only at h
      split at h
      · next after' hset =>
        cases h
        have husable : Storage.Usable ⟨.memory, ByteArray.empty, true⟩ := ⟨trivial, rfl⟩
        exact ⟨.performed _ (.created husable hcreate hdataset), hset⟩
      · contradiction
    · contradiction
  · contradiction

/-- The first block keeps its bytes, and the other one is padded with one. -/
theorem noData_change_spares_written_pair : ∃ before after, pairSteps = some (before, after) ∧
    ((Dataset.readBlock 1 0 0 8).run after).1.toOption = some ⟨#[1, 2, 3, 4, 5, 6, 7, 8]⟩ ∧
    (∃ bytes, before.Reads [pairBand] ⟨1, 0, 0⟩ bytes ∧ after.Reads [pairBand] ⟨1, 0, 0⟩ bytes) ∧
    after.Reads [pairBand] ⟨1, 1, 0⟩ { pairBand with noData := pairValue }.padding := by
  -- the steps are run once; what is needed of them is evaluated, the rest follows from the theorem
  have hsome : pairSteps.isSome = true := by decide +kernel
  have hread : (pairSteps.bind fun steps =>
      ((Dataset.readBlock 1 0 0 8).run steps.2).1.toOption) =
        some ⟨#[1, 2, 3, 4, 5, 6, 7, 8]⟩ := by decide +kernel
  have hkept : pairSteps.map (fun steps =>
      ((FormatCodec.tiledKeeper ⟨2, 1⟩ [pairBand]).written steps.1.store ⟨1, 0, 0⟩,
        (FormatCodec.tiledKeeper ⟨2, 1⟩ [pairBand]).written steps.1.store ⟨1, 1, 0⟩,
        steps.1.descriptor 1)) = some (true, false, pairBand) := by decide +kernel
  obtain ⟨⟨before, after⟩, hsteps⟩ := Option.isSome_iff_exists.mp hsome
  rw [hsteps] at hread hkept
  simp only [Option.map_some, Option.some.injEq, Prod.mk.injEq] at hkept
  obtain ⟨hfirst, hsecond, hdescriptor⟩ := hkept
  obtain ⟨hover, hset⟩ := overTiled_of_pairSteps hsteps
  have hbytes : ∀ descriptor ∈ [pairBand], descriptor.blockBytes < byteLimit 4 := by decide
  have hbefore := (hover.upToDate hbytes).2
  have hrepadded := noData_change_spares_written hover hbytes hset
  have hleft : InGrid ⟨2, 1⟩ [pairBand] ⟨1, 0, 0⟩ := by decide
  have hright : InGrid ⟨2, 1⟩ [pairBand] ⟨1, 1, 0⟩ := by decide
  have hwritten := (FormatCodec.isWritten_iff hbefore hleft).mpr hfirst
  have hunwritten : ¬IsWritten before ⟨1, 1, 0⟩ := by
    rw [FormatCodec.isWritten_iff hbefore hright, hsecond]
    exact Bool.false_ne_true
  refine ⟨before, after, hsteps, hread, hrepadded.written [] (by simp) _ hleft hwritten, ?_⟩
  have hpadded := hrepadded.unwritten [] (by simp) _ hright rfl hunwritten
  rw [hdescriptor] at hpadded
  exact hpadded

end RasterStore
