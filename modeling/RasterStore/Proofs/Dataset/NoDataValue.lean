import RasterStore.Proofs.Dataset.BlockKeeper

/-!
# Changing a no-data value

A new no-data value is recorded by the codec and in the descriptor of its band. Then the dirty
blocks of the band are written back, and the band is dropped from the cache. Only the blocks that
were not written notice: they are padded with the new value from then on.

What is proved here of a `BlockKeeper` follows the steps of `Band.setNoData`. Recording the value
changes what the codec answers with for the blocks of the band that it was not given
(`decoded_recordNoData`). Writing blocks back changes no content, whether it gets to its end
(`UpToDate.renewed_of_set`) or not (`UpToDate.renewed_of_unfinished`); the difference is that the
clean blocks with the old padding stay in the cache if it does not. A value that the codec refuses
changes no block at all (`UpToDate.of_refused`).
-/

namespace RasterStore

open BlockStore RasterStore.Action
open Tiled (InGrid)

namespace BlockKeeper

variable {κ : Type} [Codec κ] {raster : Size} {bands : List BandDescriptor}
variable {K : BlockKeeper κ raster bands} {store : BlockStore κ} {key : BlockRef}
variable {codec : κ} {band : Nat} {value : Option Binary64}

/-! ## The value is recorded -/

/-- A block that was not written is clean, and the codec was not given it. -/
theorem not_written_iff : K.written store key = false ↔
    (∀ block, store.cache.find? key = some block → block.dirty = false) ∧
      K.stored store.codec key = none := by
  rw [written, Bool.or_eq_false_iff, Option.isSome_eq_false_iff, Option.isNone_iff_eq_none,
    Option.any_eq_false]

omit [Codec κ] in
theorem descriptor_recordNoData (store : BlockStore κ) (codec : κ) {other : Nat}
    (value : Option Binary64) (hband : 0 < band ∧ band ≤ store.bands.size) (hother : 0 < other) :
    (store.recordNoData codec band value).descriptor other =
      if other = band then { store.descriptor band with noData := value }
      else store.descriptor other := by
  have hlt : band - 1 < store.bands.size := by omega
  simp only [BlockStore.descriptor, recordNoData, Array.getD_eq_getD_getElem?,
    Array.getElem?_modify]
  by_cases heq : other = band
  · simp [heq, hlt]
  · have hne : band - 1 ≠ other - 1 := by omega
    simp [heq, hne]

/-- The codec answers with new padding for blocks of the band that it was not given. -/
theorem decoded_recordNoData (hstored : K.stored codec = K.stored store.codec)
    (hband : 0 < band ∧ band ≤ store.bands.size) (hkey : 0 < key.band) :
    K.decoded (store.recordNoData codec band value) key =
      if key.band = band ∧ K.stored store.codec key = none then
        { store.descriptor band with noData := value }.padding
      else K.decoded store key := by
  rw [decoded, descriptor_recordNoData store codec value hband hkey]
  show (K.stored codec key).getD _ = _
  rw [hstored]
  -- only a block that the codec does not have is padded
  cases hdata : K.stored store.codec key with
  | none =>
    rw [Option.getD_none, decoded, hdata, Option.getD_none]
    by_cases heq : key.band = band
    · rw [if_pos heq, if_pos ⟨heq, rfl⟩]
    · rw [if_neg heq, if_neg fun hnew => heq hnew.1]
  | some data =>
    rw [Option.getD_some, decoded_of_stored hdata, if_neg fun hnew => by simp at hnew]

/-- Blocks of the band that were not written and are not held have new padding as their content. -/
theorem content_recordNoData (hstored : K.stored codec = K.stored store.codec)
    (hband : 0 < band ∧ band ≤ store.bands.size) (hkey : 0 < key.band) :
    K.content (store.recordNoData codec band value) key =
      if key.band = band ∧ K.written store key = false ∧ store.cache.find? key = none then
        { store.descriptor band with noData := value }.padding
      else K.content store key := by
  cases hfind : store.cache.find? key with
  | none =>
    -- a block that is not in the cache is written just if the codec has it
    have hwritten : K.written store key = false ↔ K.stored store.codec key = none := by
      rw [not_written_iff, hfind]
      simp
    have hrecorded : (store.recordNoData codec band value).cache.find? key = none := hfind
    rw [content_of_none hrecorded, content_of_none hfind, decoded_recordNoData hstored hband hkey]
    simp only [hwritten, and_true]
  | some block =>
    have hrecorded : (store.recordNoData codec band value).cache.find? key = some block := hfind
    rw [content_of_some hrecorded, content_of_some hfind, if_neg fun hnew => by simp at hnew]

theorem written_recordNoData (hstored : K.stored codec = K.stored store.codec) :
    K.written (store.recordNoData codec band value) key = K.written store key := by
  show (_ || (K.stored codec key).isSome) = _
  rw [hstored]
  rfl

theorem UpToDate.recordNoData (h : K.UpToDate store) (hholds : K.Holds codec)
    (hstored : K.stored codec = K.stored store.codec) :
    K.UpToDate (store.recordNoData codec band value) :=
  (h.of_codec hholds hstored).withNoData _ _

/-! ## Dropping the band -/

theorem content_removeBand (store : BlockStore κ) (band : Nat) (key : BlockRef) :
    K.content { store with cache := store.cache.removeBand band } key =
      if key.band = band then K.decoded store key else K.content store key := by
  have hfind : (store.cache.removeBand band).find? key =
      if key.band = band then none else store.cache.find? key := BlockCache.find?_removeBand band
  by_cases heq : key.band = band
  · rw [if_pos heq] at hfind ⊢
    exact content_of_none hfind
  · rw [if_neg heq] at hfind ⊢
    rw [content, content, hfind]
    rfl

/-! ## What becomes of the blocks -/

/-- The bands and the codec have a new no-data value for a band. The blocks that are `fresh` are
    padded with it; all others have their content. -/
structure Renewed (K : BlockKeeper κ raster bands) (before : BlockStore κ) (band : Nat)
    (value : Option Binary64) (fresh : BlockRef → Prop) (after : BlockStore κ) : Prop where
  upToDate : K.UpToDate after
  descriptors : after.bands = before.bands.modify (band - 1) ({ · with noData := value })
  noData : ∀ other, K.noData after.codec other =
    if other = band then value else K.noData before.codec other
  written : ∀ key, InGrid raster bands key → K.written after key = K.written before key
  content : ∀ key, InGrid raster bands key → ¬fresh key → K.content after key = K.content before key
  padding : ∀ key, InGrid raster bands key → fresh key →
    K.content after key = { before.descriptor band with noData := value }.padding

variable {before after : Dataset κ}

/-- If blocks of the band could not be written back, those that are in the cache keep their bytes,
    and the new no-data value stays. -/
theorem UpToDate.renewed_of_unfinished {error : RasterError} (h : K.UpToDate before.store)
    (hband : 0 < band ∧ band ≤ bands.length)
    (hunfinished : Band.NoDataUnfinished band value before error after) :
    Renewed K before.store band value
      (fun key => key.band = band ∧ K.written before.store key = false ∧
        before.store.cache.find? key = none) after.store := by
  obtain ⟨codec, flushed, hrecorded, hflushed, rfl⟩ := hunfinished
  obtain ⟨hholds, hstored, hnoData⟩ := (K.ends_setNoData h.holds hband).of_ok hrecorded
  have hrecord : K.UpToDate (before.store.recordNoData codec band value) :=
    h.recordNoData hholds hstored
  -- a model on all blocks, as the clean ones that are not up to date do not matter to a flush
  obtain ⟨⟨keys, hwrites⟩, -⟩ :=
    (CodecModel.ends_flushSelected (hrecord.tidy fun _ => true) _).of_error hflushed
  have hsize : before.store.bands.size = bands.length := h.shapes.length
  have hcontent {key : BlockRef} (hkey : InGrid raster bands key) :=
    (content_of_writesBack hwrites (hrecord.served hkey)).trans
      (content_recordNoData hstored (hsize ▸ hband) hkey.band_pos)
  constructor
  · -- the contract, the descriptors, the recorded values
    exact (keptByReading.flushSelected _ _ hrecord).of_error hflushed
  · exact hwrites.bands.bands
  · have hsame : K.noData flushed.codec = K.noData codec := hwrites.holds.2
    exact fun other => (congrFun hsame other).trans (hnoData other)
  · -- the flush writes no block that had not been written
    intro key hkey
    rw [written_of_writesBack hwrites (hrecord.served hkey), written_recordNoData hstored]
  · -- content is that of before, fresh blocks apart
    intro key hkey hfresh
    rw [hcontent hkey, if_neg hfresh]
  · intro key hkey hfresh
    rw [hcontent hkey, if_pos hfresh]

/-- After the dirty blocks of the band were written back, each of its blocks is decoded with its
    content, or with new padding if it was not written. -/
private theorem decoded_of_writtenBack {flushed : BlockStore κ} {keys : List BlockRef}
    (h : K.UpToDate store) (hstored : K.stored codec = K.stored store.codec)
    (hband : 0 < band ∧ band ≤ store.bands.size)
    (hwrites : (K.modelOn (fun _ => true) (K.noData codec)).WritesBack
      (store.recordNoData codec band value) keys flushed)
    (hkeys : key ∈ keys ↔ ∃ block, store.cache.find? key = some block ∧ block.dirty = true)
    (hserved : ((store.recordNoData codec band value).context key).Served raster bands)
    (hin : key.band = band) :
    K.decoded flushed key =
      if K.written store key = false then { store.descriptor band with noData := value }.padding
      else K.content store key := by
  have hrecorded : K.decoded (store.recordNoData codec band value) key = _ :=
    decoded_recordNoData hstored hband hserved.inGrid.band_pos
  simp only [hin, true_and] at hrecorded
  rw [decoded_of_writesBack hwrites hserved, show
    (store.recordNoData codec band value).cache.find? key = store.cache.find? key from rfl]
  -- by where the block is: with the codec, dirty in the cache, clean in the cache
  cases hfind : store.cache.find? key with
  | none =>
    rw [hfind] at hkeys
    simp only [hrecorded, not_written_iff, hfind, content_of_none hfind]
    simp
  | some block =>
    rw [content_of_some hfind]
    cases hdirty : block.dirty with
    | true =>
      -- a dirty block was written back
      have hwritten : K.written store key ≠ false := by
        intro hnot
        rw [(not_written_iff.mp hnot).1 block hfind] at hdirty
        contradiction
      exact (if_pos (hkeys.mpr ⟨block, hfind, hdirty⟩)).trans (if_neg hwritten).symm
    | false =>
      -- a clean block is dropped, so it matters whether it was what the codec was given
      have hnot : key ∉ keys := by
        rw [hkeys, hfind]
        simp [hdirty]
      refine (if_neg hnot).trans ?_
      rw [hrecorded]
      cases hdata : K.stored store.codec key with
      | none =>
        have hnever : K.written store key = false := by
          rw [not_written_iff, hfind]
          simp [hdirty, hdata]
        rw [if_pos rfl, if_pos hnever]
      | some data =>
        have hwritten := written_of_stored hdata
        rw [if_neg (by simp), if_neg (by simp [hwritten]), decoded_of_stored hdata]
        exact (h.clean hfind hdirty hdata).symm

/-- Dropping a band leaves written what the codec was given of it. -/
private theorem written_removeBand (store : BlockStore κ) (band : Nat) (key : BlockRef) :
    K.written { store with cache := store.cache.removeBand band } key =
      if key.band = band then (K.stored store.codec key).isSome else K.written store key := by
  have hfind : (store.cache.removeBand band).find? key =
      if key.band = band then none else store.cache.find? key := BlockCache.find?_removeBand band
  by_cases heq : key.band = band
  · rw [if_pos heq] at hfind ⊢
    rw [written, hfind]
    rfl
  · rw [if_neg heq] at hfind ⊢
    rw [written, written, hfind]

/-- If the dirty blocks of the band were written back, the band is dropped: its blocks that were not
    written have the new padding, and no other block changes. -/
theorem UpToDate.renewed_of_set (h : K.UpToDate before.store)
    (hband : 0 < band ∧ band ≤ bands.length) (hset : Band.NoDataSet band value before after) :
    Renewed K before.store band value
      (fun key => key.band = band ∧ K.written before.store key = false) after.store := by
  obtain ⟨codec, flushed, hrecorded, hflushed, rfl⟩ := hset
  obtain ⟨hholds, hstored, hnoData⟩ := (K.ends_setNoData h.holds hband).of_ok hrecorded
  have hrecord : K.UpToDate (before.store.recordNoData codec band value) :=
    h.recordNoData hholds hstored
  -- the flush succeeded, so that it wrote all dirty blocks of the band
  obtain ⟨keys, hwrites, hkeys⟩ :=
    (CodecModel.ends_flushSelected (hrecord.tidy fun _ => true) _).of_ok hflushed
  have hsize : before.store.bands.size = bands.length := h.shapes.length
  rw [← hsize] at hband
  have hflush : K.UpToDate flushed := (keptByReading.flushSelected _ _ hrecord).of_ok hflushed
  have hkeys {key : BlockRef} (hin : key.band = band) : key ∈ keys ↔
      ∃ block, before.store.cache.find? key = some block ∧ block.dirty = true := by
    rw [hkeys, hin]
    simp [BlockStore.recordNoData]
  -- the blocks of other bands are as before, those of the band are as they are decoded
  have hcontent {key : BlockRef} (hkey : InGrid raster bands key) :
      K.content { flushed with cache := flushed.cache.removeBand band } key =
        if key.band = band ∧ K.written before.store key = false then
          { before.store.descriptor band with noData := value }.padding
        else K.content before.store key := by
    rw [content_removeBand]
    by_cases hin : key.band = band
    · rw [if_pos hin, decoded_of_writtenBack h hstored hband hwrites (hkeys hin)
        (hrecord.served hkey) hin]
      simp [hin]
    · rw [if_neg hin, content_of_writesBack hwrites (hrecord.served hkey),
        content_recordNoData hstored hband hkey.band_pos, if_neg fun hnew => hin hnew.1,
        if_neg fun hnew => hin hnew.1]
  -- the contract, the descriptors, the recorded values
  constructor
  · exact (keptByWriting.invalidateBand band flushed hflush).reached
  · exact hwrites.bands.bands
  · have hsame : K.noData flushed.codec = K.noData codec := hwrites.holds.2
    exact fun other => (congrFun hsame other).trans (hnoData other)
  · -- dropping a dirty block would lose that it was written, but none is dirty any more
    intro key hkey
    rw [written_removeBand]
    by_cases hin : key.band = band
    · have hgiven : (K.stored flushed.codec key).isSome = true ↔
          key ∈ keys ∨ (K.stored codec key).isSome = true :=
        hwrites.given _ (hrecord.served hkey)
      rw [if_pos hin, Bool.eq_iff_iff, hgiven, hkeys hin, hstored, written, Bool.or_eq_true,
        Option.any_eq_true]
    · rw [if_neg hin, written_of_writesBack hwrites (hrecord.served hkey),
        written_recordNoData hstored]
  · intro key hkey hfresh
    rw [hcontent hkey, if_neg hfresh]
  · intro key hkey hfresh
    rw [hcontent hkey, if_pos hfresh]

/-- The codec refused the value, so no block changes. -/
theorem UpToDate.of_refused {error : RasterError} (h : K.UpToDate before.store)
    (hband : 0 < band ∧ band ≤ bands.length)
    (hrefused : Band.NoDataRefused band value before error after) :
    K.UpToDate after.store ∧ K.noData after.store.codec = K.noData before.store.codec ∧
      (∀ key, K.written after.store key = K.written before.store key) ∧
      ∀ key, K.content after.store key = K.content before.store key := by
  obtain ⟨codec, hrun, rfl⟩ := hrefused
  have hsame : K.Same before.store.codec codec := (K.ends_setNoData h.holds hband).of_error hrun
  refine ⟨h.of_codec hsame.holds hsame.stored, hsame.noData, fun key => ?_, fun key => ?_⟩
  · simp only [written, hsame.stored]
  · simp only [content, decoded, BlockStore.descriptor, hsame.stored]

end BlockKeeper

/-! ## The call -/

section Call

variable {κ : Type} [Codec κ] {band : Nat} {value : Option Binary64}

/-- The value is refused for lack of a band or of access, or by the codec; or it is recorded, and
    then the dirty blocks of the band can be written back or not. -/
theorem RasterCall.ends_setNoData (dataset : Dataset κ) :
    ((RasterCall.setNoData band value).perform (κ := κ)).Ends dataset
      (fun _ after => dataset.HasBand band ∧ Band.NoDataSet band value dataset after)
      (fun error after => ¬(dataset.HasBand band ∧ dataset.access = .update) ∧ after = dataset ∨
        dataset.HasBand band ∧ Band.NoDataRefused band value dataset error after ∨
        dataset.HasBand band ∧ Band.NoDataUnfinished band value dataset error after) := by
  apply Dataset.ends_onBand
  · -- the band exists
    intro hband
    cases haccess : dataset.access with
    | readOnly =>
      -- a dataset that is read only refuses
      apply Ends.get_bind
      apply Ends.of_lift_bind
      · intro _ hwritable
        rw [Band.checkWritable_eq_ok_iff.mp hwritable] at haccess
        contradiction
      · exact fun _ _ => .inl ⟨by simp, rfl⟩
    | update =>
      -- the steps of the call, up to the one that fails
      apply (Band.ends_setNoData_steps haccess).mono
      · exact fun _ _ hset => ⟨hband, hset⟩
      · rintro error after (hrefused | hunfinished)
        · exact .inr (.inl ⟨hband, hrefused⟩)
        · exact .inr (.inr ⟨hband, hunfinished⟩)
  · -- a band that is missing is refused before anything else
    exact fun hmissing _ => .inl ⟨fun h => hmissing h.1, rfl⟩

end Call

end RasterStore
