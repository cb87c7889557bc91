import RasterStore.Proofs.Cache.Flush
import RasterStore.Proofs.Cache.NoLostUpdate
import RasterStore.Proofs.Operations

/-!
# Flushing, closing and dropping

A flush is best effort: whatever calls of the codec fail, each dirty block is attempted once, in
the order of the blocks, and the failures are told together. A dataset that is closed, or dropped
without having been closed, flushes its blocks in this way and then its codec, once, also if blocks
failed.

* `FlushesOnce`           what a flush makes of a dataset
* `ClosesOnce`            what closing makes of it
* `flush_best_effort`     flushes of blocks and of datasets, whatever fails
-/

namespace RasterStore

open BlockStore RasterStore.Action

variable {κ : Type}

namespace Dataset

/-- All dirty blocks are attempted, then the codec is flushed, whatever failed. A failure of the
    blocks is told rather than one of the codec. -/
def FlushesOnce (before : Dataset (Observed κ)) (outcome : Except RasterError Unit)
    (after : Dataset (Observed κ)) : Prop :=
  ∃ attempts written synced reached,
    before.store.WritesBack (fun _ => true) attempts written reached ∧
    reached.Called (.flush synced) after.store ∧
    after = { before with store := after.store } ∧
    outcome = written.bind fun () => synced

/-- The dataset is flushed once, and closed whatever failed. -/
def ClosesOnce (before : Dataset (Observed κ)) (outcome : Except RasterError Unit)
    (after : Dataset (Observed κ)) : Prop :=
  ∃ flushed, before.FlushesOnce outcome flushed ∧ after = { flushed with closed := true }

/-- A failure that nobody is told of goes into the journal. -/
def notingFailure (dataset : Dataset κ) : Except RasterError Unit → Dataset κ
  | .ok () => dataset
  | .error error =>
    { dataset with
      store := { dataset.store with
        reports := dataset.store.reports.note
          ⟨.error, s!"flushing {dataset.driver} dataset on drop: {error.message}"⟩ } }

variable [Codec κ] {dataset : Dataset (Observed κ)}

theorem ends_flush_once (hdistinct : dataset.store.cache.Distinct) :
    (flush (κ := Observed κ)).Ends dataset
      (fun _ after => FlushesOnce dataset (.ok ()) after)
      (fun error after => FlushesOnce dataset (.error error) after) := by
  -- the codec is flushed after both outcomes of the blocks
  apply Ends.bind
  apply Ends.attempt
  apply ends_onStore
  apply (ends_flushSelected_writes hdistinct _).mono
  · -- all blocks were written: the outcome is that of the codec
    rintro _ reached ⟨attempts, hwritten⟩
    apply Ends.bind
    apply Ends.attempt
    apply ends_onStore
    apply ends_flushCodec_called.mono
    · exact fun _ after hcalled =>
        ends_pure.mpr ⟨attempts, .ok (), .ok (), reached, hwritten, hcalled, rfl, rfl⟩
    · exact fun error after hcalled =>
        ends_throw.mpr ⟨attempts, .ok (), .error error, reached, hwritten, hcalled, rfl, rfl⟩
  · -- some block was not: its error is the outcome, whatever the codec says
    rintro error reached ⟨attempts, hwritten⟩
    apply Ends.bind
    apply Ends.attempt
    apply ends_onStore
    apply ends_flushCodec_called.mono
    · exact fun _ after hcalled =>
        ends_throw.mpr ⟨attempts, .error error, .ok (), reached, hwritten, hcalled, rfl, rfl⟩
    · exact fun unsynced after hcalled => ends_throw.mpr
        ⟨attempts, .error error, .error unsynced, reached, hwritten, hcalled, rfl, rfl⟩

/-- The drop after closing adds nothing to the flush. -/
theorem ends_close_once (hdistinct : dataset.store.cache.Distinct) :
    (close (κ := Observed κ)).Ends dataset
      (fun _ after => ClosesOnce dataset (.ok ()) after)
      (fun error after => ClosesOnce dataset (.error error) after) := by
  apply ends_close
  apply (ends_flush_once hdistinct).mono
  · exact fun _ flushed hflushed => ⟨flushed, hflushed, rfl⟩
  · exact fun _ flushed hflushed => ⟨flushed, hflushed, rfl⟩

/-- Dropping a dataset that is not closed flushes it, and never fails. -/
theorem ends_drop_once (hdistinct : dataset.store.cache.Distinct) (hopen : dataset.closed = false) :
    (drop (κ := Observed κ)).Ends dataset
      (fun _ after => ∃ outcome flushed, FlushesOnce dataset outcome flushed ∧
        after = flushed.notingFailure outcome)
      (fun _ _ => False) := by
  apply Ends.get_bind
  rw [hopen, if_neg Bool.false_ne_true]
  apply Ends.bind
  -- the error of the flush is caught, and noted instead
  apply Ends.attempt
  apply (ends_flush_once hdistinct).mono
  · exact fun _ flushed hflushed => ends_pure.mpr ⟨.ok (), flushed, hflushed, rfl⟩
  · intro error flushed hflushed
    apply Ends.get_bind
    apply ends_onStore
    exact ends_modify.mpr ⟨.error error, flushed, hflushed, rfl⟩

end Dataset

/-- The flush makes its attempts, and the same flush right after it makes those that failed once
    more. -/
def BlockStore.FlushesAgain [Codec κ] (flush : Action (BlockStore (Observed κ)) Unit)
    (selected : BlockRef → Bool) (store : BlockStore (Observed κ)) : Prop :=
  let (outcome, after) := flush.run store
  let (outcome', last) := flush.run after
  ∃ attempts attempts', WritesBack store selected attempts outcome after ∧
    WritesBack after selected attempts' outcome' last ∧
    attempts'.map (·.key) = (attempts.filter (!·.stored)).map (·.key)

theorem BlockStore.flushSelected_again [Codec κ] {store : BlockStore (Observed κ)}
    (hdistinct : store.cache.Distinct) (selected : BlockRef → Bool) :
    FlushesAgain (flushSelected selected) selected store := by
  obtain ⟨attempts, hwrites⟩ := flushSelected_writes hdistinct selected
  obtain ⟨attempts', hwrites'⟩ := flushSelected_writes (hwrites.distinct hdistinct) selected
  exact ⟨attempts, attempts', hwrites, hwrites', hwrites.again hwrites'⟩

/-- Flushes are best effort, ordered and exact, whatever calls of the codec fail: a flush of all
    blocks or of a band makes of the store what `WritesBack` says, and a second one attempts the
    blocks that failed. Closing a dataset, and dropping one that was not closed, does so for all
    dirty blocks and flushes the codec once; a dropped dataset puts the failure into the journal.
    Dropping a dataset that was closed does nothing. -/
theorem flush_best_effort [Codec κ] :
    (∀ store : BlockStore (Observed κ), store.cache.Distinct →
      FlushesAgain BlockStore.flush (fun _ => true) store ∧
      ∀ band, FlushesAgain (BlockStore.flushBand band) (fun key => key.band == band) store) ∧
    ∀ dataset : Dataset (Observed κ), dataset.store.cache.Distinct →
      dataset.ClosesOnce (Dataset.close.run dataset).1 (Dataset.close.run dataset).2 ∧
      (Dataset.drop.run dataset).1 = .ok () ∧
      if dataset.closed then (Dataset.drop.run dataset).2 = dataset
      else
        ∃ outcome flushed, dataset.FlushesOnce outcome flushed ∧
          (Dataset.drop.run dataset).2 = flushed.notingFailure outcome := by
  refine ⟨fun store hdistinct => ⟨flushSelected_again hdistinct _,
    fun band => flushSelected_again hdistinct _⟩, fun dataset hdistinct => ⟨?_, ?_⟩⟩
  · exact Ends.outcome (fun outcome after => dataset.ClosesOnce outcome after)
      (Dataset.ends_close_once hdistinct)
  · cases hclosed : dataset.closed with
    | true =>
      have hends : (Dataset.drop (κ := Observed κ)).Ends dataset
          (fun _ after => after = dataset) (fun _ _ => False) :=
        Dataset.ends_drop_of_closed hclosed rfl
      obtain ⟨_, dropped, hrun, hsame⟩ := hends.exists_ok
      rw [hrun]
      exact ⟨rfl, hsame⟩
    | false =>
      obtain ⟨_, dropped, hrun, hdropped⟩ :=
        (Dataset.ends_drop_once hdistinct hclosed).exists_ok
      rw [hrun]
      exact ⟨rfl, hdropped⟩

/-! ## A block that cannot be written back -/

/-- Two changed blocks. The codec stores only the second one that it is given. -/
def halfStored : Dataset (Observed ScriptedCodec) where
  driver := "SCRIPT"
  access := .update
  store :=
    { cache :=
        { entries := [(⟨1, 1, 0⟩, ⟨⟨#[8]⟩, true⟩), (⟨1, 0, 0⟩, ⟨⟨#[7]⟩, true⟩)]
          capacity := 2 }
      codec := ⟨⟨fun _ => ByteArray.zeros 1, [.fails]⟩, []⟩
      bands := #[⟨.byte, ⟨1, 1⟩, none⟩]
      raster := ⟨2, 1⟩
      reports := {} }

/-- Its flushes attempt the first block again; closing and dropping it flush the codec as well. -/
theorem flush_best_effort_halfStored :
    halfStored.store.cache.Distinct ∧
    FlushesAgain BlockStore.flush (fun _ => true) halfStored.store ∧
    halfStored.ClosesOnce (Dataset.close.run halfStored).1 (Dataset.close.run halfStored).2 ∧
    (Dataset.drop.run halfStored).1 = .ok () ∧
    ∃ outcome flushed, halfStored.FlushesOnce outcome flushed ∧
      (Dataset.drop.run halfStored).2 = flushed.notingFailure outcome := by
  have hdistinct : halfStored.store.cache.Distinct := by
    unfold BlockCache.Distinct
    decide
  exact ⟨hdistinct, (flush_best_effort.1 halfStored.store hdistinct).1,
    (flush_best_effort.2 halfStored hdistinct).1, (flush_best_effort.2 halfStored hdistinct).2⟩

end RasterStore
