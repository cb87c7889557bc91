import RasterStore.Proofs.Dataset.NoDataValue
import RasterStore.Proofs.Tiled.Opened

/-!
# No-data values that cannot be set

Setting a no-data value fails in one of two ways. If the codec refuses the value, then that is all
that happened. If it records the value but dirty blocks of the band cannot be written back, then
there is no way back: the bands and the codec have the new value, and the failure lists the blocks
(`NoDataStays`). All blocks that are in the cache then keep their bytes. So over codecs that keep
whole blocks the next read of a block answers as before, except for blocks of the band that were
never written and are not in the cache: these are padded with the new value
(`failed_noData_change`). A value that one of the formats refuses leaves the dataset as it was
(`eq_of_noDataRefused`).
-/

namespace RasterStore

open BlockStore RasterStore.Action
open Tiled (InGrid)

variable {κ : Type} [Codec κ] {raster : Size} {bands : List BandDescriptor}
variable {before after : Dataset κ} {band : Nat} {value : Option Binary64} {error : RasterError}

/-! ## Reads of one block -/

/-- The block is read with these bytes, if it can be read. -/
def Dataset.ReadsAs (dataset : Dataset κ) (key : BlockRef) (bytes : ByteArray) : Prop :=
  ∀ length data reached, (readBlock key.band key.x key.y length).run dataset = (.ok data, reached) →
    data = bytes

/-- Blocks that are not `fresh` are read from both datasets with the same bytes, if they can be
    read. -/
structure BlockKeeper.ReadsAlike (K : BlockKeeper κ raster bands) (before after : Dataset κ)
    (fresh : BlockRef → Prop) : Prop where
  /-- The next read of any block. -/
  next : ∀ key, ¬fresh key → ∀ length data reached,
    (Dataset.readBlock key.band key.x key.y length).run before = (.ok data, reached) →
      after.ReadsAs key data
  /-- Also later, if the block was written or has yet to be decoded. -/
  later : ∀ calls : List RasterCall, (∀ call ∈ calls, call.IsReading) → ∀ key, ¬fresh key →
    K.written before.store key = true ∨ before.store.cache.find? key = none →
      ∀ length data reached, (Dataset.readBlock key.band key.x key.y length).run
        (DatasetCall.performAll (calls.map .raster) before) = (.ok data, reached) →
          (DatasetCall.performAll (calls.map .raster) after).ReadsAs key data

namespace BlockKeeper

variable {K : BlockKeeper κ raster bands} {fresh : BlockRef → Prop}

/-- A block is read with its content. -/
theorem UpToDate.readsAs (h : K.UpToDate after.store)
    (hblocked : ∀ descriptor ∈ bands, descriptor.Blocked) (key : BlockRef) :
    after.ReadsAs key (K.content after.store key) :=
  fun length _ _ hrun => ((h.ends_readBlock hblocked key length).of_ok hrun).2

/-- Datasets with the same content, written blocks and uncached blocks are read alike. -/
theorem UpToDate.readsAlike (h : K.UpToDate before.store) (hafter : K.UpToDate after.store)
    (hblocked : ∀ descriptor ∈ bands, descriptor.Blocked)
    (hcontent : ∀ key, InGrid raster bands key → ¬fresh key →
      K.content after.store key = K.content before.store key)
    (hwritten : ∀ key, InGrid raster bands key →
      K.written after.store key = K.written before.store key)
    (huncached : ∀ key, before.store.cache.find? key = none →
      after.store.cache.find? key = none) : K.ReadsAlike before after fresh where
  -- the next call reads the same bytes
  next key hfresh length data reached hrun := by
    obtain ⟨hkey, rfl⟩ := (h.ends_readBlock hblocked key length).of_ok hrun
    rw [← hcontent key hkey hfresh]
    exact hafter.readsAs hblocked key
  -- so does any later one, as long as the block is stable under reads
  later calls hreading key hfresh hstable length data reached hrun := by
    have hreached {dataset : Dataset κ} (hdataset : K.UpToDate dataset.store) :
        K.UpToDate (DatasetCall.performAll (calls.map .raster) dataset).store :=
      (DatasetCall.meets_performAll_of_isReading UpToDate.keptByReading.toKeptByFetching hblocked
        hreading ⟨rfl, hdataset⟩).blocks
    obtain ⟨hkey, rfl⟩ := ((hreached h).ends_readBlock hblocked key length).of_ok hrun
    have hstable' : K.written after.store key = true ∨ after.store.cache.find? key = none := by
      rw [hwritten key hkey]
      exact hstable.imp_right (huncached key)
    -- neither run of reads changes the content of the block
    rw [h.content_performAll hblocked hreading hkey hstable, ← hcontent key hkey hfresh,
      ← hafter.content_performAll hblocked hreading hkey hstable']
    exact (hreached hafter).readsAs hblocked key

end BlockKeeper

/-! ## What a failure leaves behind -/

/-- The codec has the new no-data value, and so have the bands, but some blocks could not be written
    back. All blocks in the cache have their bytes. -/
structure NoDataStays (band : Nat) (value : Option Binary64) (before : Dataset κ)
    (error : RasterError) (after : Dataset κ) : Prop where
  failures : ∃ failures, error = .flushFailed failures ∧ failures ≠ []
  recorded : ∃ codec, (Codec.setNoData band value).run before.store.codec = (.ok (), codec)
  bands : after.store.bands = before.store.bands.modify (band - 1) ({ · with noData := value })
  access : after.access = before.access
  cached : ∀ key, (after.store.cache.find? key).map Block.data =
    (before.store.cache.find? key).map Block.data

omit [Codec κ] in
theorem Orderly.recordNoData {Holds : κ → Prop} {store : BlockStore κ} {codec : κ}
    (h : Orderly raster bands Holds store) (hholds : Holds codec) :
    Orderly raster bands Holds (store.recordNoData codec band value) :=
  { h.withNoData (band - 1) value with holds := hholds }

theorem noDataStays_of_unfinished
    (h : Orderly raster bands (fun _ : κ => True) before.store)
    (hunfinished : Band.NoDataUnfinished band value before error after) :
    NoDataStays band value before error after := by
  obtain ⟨codec, flushed, hrecorded, hflushed, rfl⟩ := hunfinished
  have hrecord : Orderly raster bands (fun _ => True)
      (before.store.recordNoData codec band value) := h.recordNoData trivial
  -- any codec keeps the trivial contract, which is enough to know which blocks are in the cache
  have htidy := (hrecord.sound keptByContract_true).toTidy
  obtain ⟨⟨keys, hwrites⟩, -⟩ := (CodecModel.ends_flushSelected htidy _).of_error hflushed
  refine ⟨(CodecModel.ends_flushSelected_failures htidy _).of_error hflushed, ⟨codec, hrecorded⟩,
    hwrites.bands.bands, rfl, fun key => ?_⟩
  -- blocks that were written back are clean now, and none left the cache
  rw [hwrites.find?, Option.map_map]
  show Option.map _ (before.store.cache.find? key) = _
  congr 1
  funext block
  simp only [Function.comp_apply]
  split
  · rfl
  · rfl

/-- Setting a no-data value fails in one of three ways, in whatever state the calls before left the
    dataset and whichever calls of the codec fail:
    * there is no such band or it may not be written, and nothing happens;
    * the codec refuses the value, and nothing but the codec itself can change. If it keeps whole
      blocks, its no-data values are as before, and the next successful read of any block gives what
      it gave before; so does every later one of a block that was written or not in the cache;
    * blocks of the band cannot be written back. The new value stays in the bands and in the codec,
      and the blocks in the cache have their bytes. If the codec keeps whole blocks, then they are
      read as in the second case, except for those of the band that were not written and are not in
      the cache: they are padded with the new value. -/
theorem failed_noData_change {codec : κ} {options : OpenOptions} {environment : Option String}
    {dataset : Dataset κ}
    (hnew : Dataset.ofCodec codec raster bands options environment = .ok dataset)
    (calls : List DatasetCall)
    (hfailed : ((RasterCall.setNoData band value).perform (κ := κ)).run
      (DatasetCall.performAll calls dataset) = (.error error, after)) :
    let before := DatasetCall.performAll calls dataset
    (¬(before.HasBand band ∧ before.access = .update) ∧ after = before) ∨
    (Band.NoDataRefused band value before error after ∧
      ∀ K : BlockKeeper κ raster bands, K.Holds codec →
        K.noData after.store.codec = K.noData before.store.codec ∧
        K.ReadsAlike before after fun _ => False) ∨
    (NoDataStays band value before error after ∧
      ∀ K : BlockKeeper κ raster bands, K.Holds codec →
        (∀ other, K.noData after.store.codec other =
          if other = band then value else K.noData before.store.codec other) ∧
        let fresh := fun key : BlockRef => key.band = band ∧ K.written before.store key = false ∧
          before.store.cache.find? key = none
        K.ReadsAlike before after fresh ∧
        ∀ key, fresh key → after.ReadsAs key
          { before.descriptor band with noData := value }.padding) := by
  intro before
  have hblocked := (Dataset.isNew_of_ofCodec hnew).2
  have horderly : Orderly raster bands (fun _ : κ => True) before.store :=
    .performAll keptByContract_true trivial hnew calls
  have hcount : before.bandCount = bands.length := horderly.shapes.length
  rcases (RasterCall.ends_setNoData before).of_error hfailed with
    hsame | ⟨hband, hrefused⟩ | ⟨hband, hunfinished⟩
  · -- the call was not for this dataset to carry out
    exact .inl hsame
  · -- the codec refused the value: nothing is recorded, and nothing was written
    refine .inr (.inl ⟨hrefused, fun K hholds => ?_⟩)
    have hbefore : K.UpToDate before.store :=
      (BlockKeeper.UpToDate.performAll hholds hnew calls).blocks
    obtain ⟨hafter, hnoData, hwritten, hcontent⟩ :=
      hbefore.of_refused ⟨hband.1, hcount ▸ hband.2⟩ hrefused
    refine ⟨hnoData, hbefore.readsAlike hafter hblocked (fun key _ _ => hcontent key)
      (fun key _ => hwritten key) fun key hnone => ?_⟩
    obtain ⟨_, -, rfl⟩ := hrefused
    exact hnone
  · -- the value is recorded, but the flush failed half-way
    have hstays := noDataStays_of_unfinished horderly hunfinished
    refine .inr (.inr ⟨hstays, fun K hholds => ?_⟩)
    have hbefore : K.UpToDate before.store :=
      (BlockKeeper.UpToDate.performAll hholds hnew calls).blocks
    have hrenewed := hbefore.renewed_of_unfinished ⟨hband.1, hcount ▸ hband.2⟩ hunfinished
    refine ⟨hrenewed.noData, ?_, fun key hfresh length data reached hrun => ?_⟩
    · refine hbefore.readsAlike hrenewed.upToDate hblocked hrenewed.content hrenewed.written ?_
      intro key hnone
      have hcached := hstays.cached key
      rw [hnone, Option.map_none, Option.map_eq_none_iff] at hcached
      exact hcached
    · -- a fresh block is decoded with the new padding
      obtain ⟨hkey, rfl⟩ := (hrenewed.upToDate.ends_readBlock hblocked key length).of_ok hrun
      exact hrenewed.padding key hkey hfresh

/-! ## Formats -/

/-- A no-data value that a format refuses leaves its codec as it was. -/
theorem FormatCodec.ends_setNoData_unchanged (codec : FormatCodec) (band : Nat)
    (value : Option Binary64) :
    (Codec.setNoData band value).Ends codec (fun _ _ => True)
      (fun _ reached => reached = codec) := by
  rcases codec with planes | tiled | dted
  · exact Choice.ends_inl trivial
  · -- the checks of the header and the write are all that can fail
    apply Choice.ends_inr
    apply Choice.ends_inl
    apply Ends.get_bind
    refine Ends.of_lift_bind (fun _ _ => ?_) fun _ _ => rfl
    refine Ends.of_lift_bind (fun _ _ => ?_) fun _ _ => rfl
    refine Ends.of_lift_bind (fun header _ => ?_) fun _ _ => rfl
    apply TiledCodec.ends_onStorage
    apply (Storage.ends_write_unchanged _ _ header).mono
    · exact fun _ _ _ => trivial
    · rintro error _ rfl
      rfl
  · exact Choice.ends_inr (Choice.ends_inr rfl)

/-- A dataset of one of the formats is as before after a no-data value was refused. -/
theorem eq_of_noDataRefused {before after : Dataset FormatCodec}
    (h : Band.NoDataRefused band value before error after) : after = before := by
  obtain ⟨codec, hrun, rfl⟩ := h
  have hcodec : codec = before.store.codec :=
    (FormatCodec.ends_setNoData_unchanged before.store.codec band value).of_error hrun
  rw [hcodec]

/-! ## A codec without room -/

/-- Keeps whole blocks and the no-data values of bands, as long as it has room for another block. -/
structure Shelf where
  blocks : BlockRef → Option ByteArray
  noData : Nat → Option Binary64
  room : Nat

namespace Shelf

instance : Codec Shelf where
  name _ := "SHELF"
  decode context := do
    pure { bytes := ((← get).blocks context.block).getD context.descriptor.padding }
  encode context data := do
    if (← get).room = 0 then throw (.io none "no room left")
    else modify fun shelf =>
      { shelf with
        blocks := fun key => if key = context.block then some data else shelf.blocks key
        room := shelf.room - 1 }
  setNoData band value := modify fun shelf =>
    { shelf with noData := fun other => if other = band then value else shelf.noData other }

/-- A shelf gives back the blocks that it was given. -/
def keeper (raster : Size) (bands : List BandDescriptor) : BlockKeeper Shelf raster bands where
  Holds _ := True
  stored := blocks
  noData := noData
  MayFail := True
  ends_decode := by
    intro shelf context _ _
    apply Ends.get_bind
    refine ends_pure.mpr ⟨⟨trivial, rfl, rfl⟩, ?_⟩
    split
    · rfl
    · trivial
  ends_encode := by
    intro shelf context data _ _ _
    apply Ends.get_bind
    apply Ends.ite
    · exact fun _ => ends_throw.mpr ⟨⟨trivial, rfl, rfl⟩, trivial⟩
    · exact fun _ => ends_modify.mpr ⟨trivial, rfl, fun _ => rfl⟩
  ends_setNoData := by
    intro shelf band value _ _
    exact ends_modify.mpr ⟨trivial, rfl, fun _ => rfl⟩
  ends_flush := by
    intro shelf _
    exact ends_pure.mpr ⟨trivial, rfl, rfl⟩

/-- The float one. -/
def one : Binary64 := ⟨0x3FF0000000000000⟩

/-- Two blocks of one pixel each, on a shelf without room. -/
def full : Dataset Shelf :=
  { driver := "SHELF"
    access := .update
    store :=
      { cache := .empty 4
        codec := ⟨fun _ => none, fun _ => none, 0⟩
        bands := #[⟨.float64, ⟨1, 1⟩, none⟩]
        raster := ⟨2, 1⟩
        reports := {} } }

/-- Replaces the first block. -/
def dirty : List DatasetCall :=
  [.raster (.writeBlock 1 0 0 (ByteArray.zeros 8))]

/-- What failing to set the no-data value leaves behind. -/
def halfway : Dataset Shelf :=
  (((RasterCall.setNoData 1 (some one)).perform (κ := Shelf)).run
    (DatasetCall.performAll dirty full)).2

/-- The first block cannot be written back. -/
theorem run_setNoData_dirty :
    ∃ error, ((RasterCall.setNoData 1 (some one)).perform (κ := Shelf)).run
      (DatasetCall.performAll dirty full) = (.error error, halfway) := by
  have hfails : (((RasterCall.setNoData 1 (some one)).perform (κ := Shelf)).run
      (DatasetCall.performAll dirty full)).1.isOk = false := by decide +kernel
  cases houtcome : (((RasterCall.setNoData 1 (some one)).perform (κ := Shelf)).run
      (DatasetCall.performAll dirty full)).1 with
  | ok _ =>
    rw [houtcome] at hfails
    contradiction
  | error error => exact ⟨error, Prod.ext houtcome rfl⟩

end Shelf

open RasterStore.Shelf in
/-- The first block cannot be written back, so setting the no-data value fails. But the band and the
    codec have the new value, and the second block, which was padded with zero, is padded with one
    from now on. -/
theorem failed_noData_stays :
    (∃ error, ((RasterCall.setNoData 1 (some one)).perform (κ := Shelf)).run
      (DatasetCall.performAll dirty full) = (.error error, halfway)) ∧
    (((DatasetCall.performAll dirty full).descriptor 1).noData = none ∧
      (halfway.descriptor 1).noData = some one) ∧
    ((DatasetCall.performAll dirty full).store.codec.noData 1 = none ∧
      halfway.store.codec.noData 1 = some one) ∧
    ((Dataset.readBlock 1 1 0 8).run (DatasetCall.performAll dirty full)).1.toOption =
      some ⟨#[0, 0, 0, 0, 0, 0, 0, 0]⟩ ∧
    ((Dataset.readBlock 1 1 0 8).run halfway).1.toOption =
      some ⟨#[0, 0, 0, 0, 0, 0, 0xF0, 0x3F]⟩ := by
  refine ⟨run_setNoData_dirty, ⟨by rfl, ?_⟩, ⟨by rfl, ?_⟩, ?_, ?_⟩
  · decide +kernel
  · decide +kernel
  · decide +kernel
  · decide +kernel

open RasterStore.Shelf in
/-- The block that could not be written back is still read with its bytes, and the block that was
    not written is read with the new padding. -/
theorem failed_noData_change_full :
    ∃ error, NoDataStays 1 (some one) (DatasetCall.performAll dirty full) error halfway ∧
      halfway.store.codec.noData 1 = some one ∧
      halfway.ReadsAs ⟨1, 0, 0⟩ (ByteArray.zeros 8) ∧
      halfway.ReadsAs ⟨1, 1, 0⟩ (BandDescriptor.padding ⟨.float64, ⟨1, 1⟩, some one⟩) := by
  have hnew : Dataset.ofCodec (⟨fun _ => none, fun _ => none, 0⟩ : Shelf) ⟨2, 1⟩
      [⟨.float64, ⟨1, 1⟩, none⟩] { flags := { update := true }, cacheBlocks := some 4 } none =
        .ok full := rfl
  obtain ⟨error, hfailed⟩ := run_setNoData_dirty
  rcases failed_noData_change hnew dirty hfailed with
    ⟨hmissing, -⟩ | ⟨hrefused, -⟩ | ⟨hstays, hkeeper⟩
  · exact absurd ⟨⟨Nat.one_pos, by decide +kernel⟩, rfl⟩ hmissing
  · -- a shelf refuses no value
    obtain ⟨codec, hrun, -⟩ := hrefused
    cases hrun
  · -- the value was recorded, as in the third case
    obtain ⟨hnoData, halike, hpadded⟩ := hkeeper (keeper ⟨2, 1⟩ _) trivial
    refine ⟨error, hstays, hnoData 1, ?_, ?_⟩
    · -- the first block was written, so that it is not fresh
      have hread : ((Dataset.readBlock 1 0 0 8).run (DatasetCall.performAll dirty full)).1 =
          .ok (ByteArray.zeros 8) := by rfl
      have hwritten : (keeper ⟨2, 1⟩ [⟨.float64, ⟨1, 1⟩, none⟩]).written
          (DatasetCall.performAll dirty full).store ⟨1, 0, 0⟩ = true := by rfl
      refine halike.next ⟨1, 0, 0⟩ (fun hfresh => ?_) 8 _ _ (Prod.ext hread rfl)
      rw [hwritten] at hfresh
      exact Bool.noConfusion hfresh.2.1
    · -- the second one was never written
      exact hpadded ⟨1, 1, 0⟩ ⟨rfl, by rfl, by rfl⟩

end RasterStore
