import RasterStore.Band
import RasterStore.Proofs.Transfer.Requests

/-!
# Operations of datasets

What the operations of a dataset and its bands do, over any codec with a `PixelModel`. Each of them
ends in one of three ways: it is accepted and done, its arguments are refused and the dataset is as
before, or a call of the codec fails. Over a codec that cannot fail, arguments that are in order are
enough.

An operation on a band whose blocks cannot be held in memory is not accepted either (`Band.Held`):
it ends before a block is touched.
-/

namespace RasterStore

open BlockStore RasterStore.Action

variable {κ α : Type}

/-- A step on the blocks ends, as a step on the dataset, as it does on the blocks. -/
theorem Dataset.ends_onStore {act : Action (BlockStore κ) α} {dataset : Dataset κ}
    {good : α → Dataset κ → Prop} {bad : RasterError → Dataset κ → Prop}
    (h : act.Ends dataset.store (fun value store => good value { dataset with store })
      (fun error store => bad error { dataset with store })) :
    (Dataset.onStore act).Ends dataset good bad :=
  h.of_part (fun store => { dataset with store }) rfl

/-- The same for a step that has a caller's buffer beside the blocks. -/
theorem Band.ends_onBlocks {act : Action (BlockStore κ × ByteArray) α} {dataset : Dataset κ}
    {buffer : ByteArray} {good : α → Dataset κ × ByteArray → Prop}
    {bad : RasterError → Dataset κ × ByteArray → Prop}
    (h : act.Ends (dataset.store, buffer)
      (fun value after => good value ({ dataset with store := after.1 }, after.2))
      (fun error after => bad error ({ dataset with store := after.1 }, after.2))) :
    (Band.onBlocks act).Ends (dataset, buffer) good bad :=
  h.of_part (fun after : BlockStore κ × ByteArray => ({ dataset with store := after.1 }, after.2)) rfl

/-! ## Checks -/

/-- The request passes the checks of a transfer. -/
structure TransferRequest.Accepted (request : TransferRequest) (raster : Size) (length : Nat) :
    Prop where
  window : Window.check request raster = .ok (.ofRequest request)
  layout : BufferLayout.check request length = .ok (.ofRequest request)

namespace TransferRequest

variable {request : TransferRequest} {raster : Size} {length : Nat}

/-- A valid request passes both checks. -/
theorem Valid.accepted (h : request.Valid raster length) : request.Accepted raster length :=
  ⟨h.check_window, h.check_layout⟩

/-- The window of a request that passes lies in the raster. -/
theorem Accepted.inside (h : request.Accepted raster length) :
    (Window.ofRequest request).Inside raster :=
  (Window.check_eq_ok_iff.mp h.window).2.2

/-- The pixels of a request that passes lie in the buffer. -/
theorem Accepted.fits (h : request.Accepted raster length) :
    (BufferLayout.ofRequest request).Fits length :=
  (BufferLayout.check_eq_ok_iff.mp h.layout).2.1

end TransferRequest

namespace Band

/-- The blocks of the band can be held in memory. -/
def Held (dataset : Dataset κ) (band : Nat) : Prop :=
  (dataset.descriptor band).blockBytes < memoryLimit

/-- A transfer between the band and a buffer of `length` bytes passes all checks. -/
structure Accepts (dataset : Dataset κ) (band : Nat) (request : TransferRequest) (length : Nat) :
    Prop where
  request : request.Accepted dataset.size length
  held : Held dataset band

/-- A vector of bytes can be asked for just if its length is below the limit. -/
theorem checkCapacity_eq_ok_iff {length : Nat} :
    checkCapacity length = .ok () ↔ length < memoryLimit := by
  rw [checkCapacity, ite_eq_left_iff]
  simp only [reduceCtorEq, imp_false, not_not]

/-- The check of the block size lets through just the bands whose blocks can be held. -/
theorem checkHeld_eq_ok_iff {dataset : Dataset κ} {band : Nat} :
    checkHeld dataset band = .ok () ↔ Held dataset band :=
  checkCapacity_eq_ok_iff

/-- Blocks that cannot be held in memory end the program. -/
theorem checkHeld_of_not_held {dataset : Dataset κ} {band : Nat} (h : ¬Held dataset band) :
    checkHeld dataset band = .error .capacityOverflow :=
  if_neg h

/-- A step that works with the bytes of blocks starts once they can be held in memory. -/
theorem ends_checkedHeld {σ : Type} {act : Action σ α} {state : σ} {good : α → σ → Prop}
    {bad : RasterError → σ → Prop} {dataset : Dataset κ} {band : Nat}
    (hheld : Held dataset band → act.Ends state good bad)
    (htooLarge : ¬Held dataset band → ∀ error, bad error state) :
    (do
      (liftM (checkHeld dataset band) : Action σ Unit)
      act).Ends state good bad := by
  apply Ends.of_lift_bind
  case error =>
    intro error herror
    -- a block that can be held passes the check
    refine htooLarge (fun h => ?_) error
    rw [checkHeld_eq_ok_iff.mpr h] at herror
    contradiction
  exact fun _ hchecked => hheld (checkHeld_eq_ok_iff.mp hchecked)

/-- A transfer starts once its request passed the checks; one that is refused leaves all as it
    was. -/
theorem ends_checked {σ : Type} {act : Window → BufferLayout → Action σ α} {state : σ}
    {good : α → σ → Prop} {bad : RasterError → σ → Prop} {request : TransferRequest}
    {dataset : Dataset κ} {band length : Nat}
    (haccepted : Accepts dataset band request length →
      (act (.ofRequest request) (.ofRequest request)).Ends state good bad)
    (hrefused : ¬Accepts dataset band request length → ∀ error, bad error state) :
    (do
      let window ← (liftM (Window.check request dataset.size) : Action σ Window)
      let layout ← (liftM (BufferLayout.check request length) : Action σ BufferLayout)
      (liftM (checkHeld dataset band) : Action σ Unit)
      act window layout).Ends state good bad := by
  refine Ends.bind ?_
  -- whichever check refuses, the transfer is not accepted
  cases hwindow : Window.check request dataset.size with
  | error error =>
    refine hrefused (fun h => ?_) error
    rw [h.request.window] at hwindow
    contradiction
  | ok window =>
    refine Ends.bind ?_
    cases hlayout : BufferLayout.check request length with
    | error error =>
      refine hrefused (fun h => ?_) error
      rw [h.request.layout] at hlayout
      contradiction
    | ok layout =>
      obtain ⟨-, rfl, -⟩ := Window.check_eq_ok_iff.mp hwindow
      obtain ⟨rfl, -⟩ := BufferLayout.check_eq_ok_iff.mp hlayout
      exact ends_checkedHeld (fun hheld => haccepted ⟨⟨hwindow, hlayout⟩, hheld⟩)
        fun hnot => hrefused fun h => hnot h.held

end Band

/-- The store after its codec recorded a no-data value for a band. The blocks of the band are still
    in the cache. -/
def BlockStore.recordNoData (store : BlockStore κ) (codec : κ) (band : Nat)
    (value : Option Binary64) : BlockStore κ :=
  { store with codec, bands := store.bands.modify (band - 1) ({ · with noData := value }) }

namespace Band

variable [Codec κ] {P : PixelModel κ} {dataset : Dataset κ} {band x y : Nat} {method : String}

omit [Codec κ] in
/-- A dataset that is open for update lets all writing methods through. -/
theorem checkWritable_of_update (haccess : dataset.access = .update) :
    checkWritable dataset method = .ok () := by
  rw [checkWritable, haccess]

/-- The block belongs to the grid of the band. -/
def InGrid (dataset : Dataset κ) (band x y : Nat) : Prop :=
  x * (dataset.descriptor band).block.width < dataset.size.width ∧
    y * (dataset.descriptor band).block.height < dataset.size.height

omit [Codec κ] in
/-- A block passes its check just if its first pixel lies in the raster. -/
theorem checkBlock_eq_ok_iff :
    checkBlock dataset band method x y = .ok () ↔ InGrid dataset band x y := by
  unfold checkBlock illegal InGrid
  simp only
  split
  · simp only [reduceCtorEq, false_iff]
    omega
  · split
    · simp only [reduceCtorEq, false_iff]
      omega
    · simp only [true_iff]
      omega

omit [Codec κ] in
/-- A count passes its check just if it is a word of 64 bits. -/
theorem checkCount_eq_ok_iff {count : Nat} : checkCount count = .ok () ↔ count < byteLimit 8 := by
  rw [checkCount, ite_eq_left_iff]
  simp only [reduceCtorEq, imp_false, not_not]

/-- What can be held in memory can be counted in a word. -/
theorem memoryLimit_le : memoryLimit ≤ byteLimit 8 := by
  decide

omit [Codec κ] in
/-- The bytes of a block pass their check just if they are as many as the block has, and the block
    can be held. -/
theorem checkLength_eq_ok_iff {length : Nat} :
    checkLength dataset band method length = .ok () ↔
      length = (dataset.descriptor band).blockBytes ∧ Held dataset band := by
  -- the number of bytes is counted first, then compared, and then the block is made
  have hchecked : checkLength dataset band method length = .ok () ↔
      checkCount (dataset.descriptor band).blockBytes = .ok () ∧
        length = (dataset.descriptor band).blockBytes ∧ checkHeld dataset band = .ok () := by
    unfold checkLength
    cases hcount : checkCount (dataset.descriptor band).blockBytes with
    | error error => simp [hcount, bind, Except.bind]
    | ok _ =>
      by_cases hlength : length = (dataset.descriptor band).blockBytes
      · simp [hcount, hlength, bind, Except.bind]
      · simp [hcount, hlength, bind, Except.bind, illegal]
  rw [hchecked, checkHeld_eq_ok_iff, checkCount_eq_ok_iff]
  exact and_iff_right_of_imp fun h => Nat.lt_of_lt_of_le h.2 memoryLimit_le

/-- The block is in the grid, a buffer of `length` bytes has its size, and it can be held in
    memory. -/
structure AcceptsBlock (dataset : Dataset κ) (band x y length : Nat) : Prop where
  grid : InGrid dataset band x y
  length_eq : length = (dataset.descriptor band).blockBytes
  held : Held dataset band

/-! ## Windows -/

variable {request : TransferRequest} {buffer : ByteArray}

/-- Reading a window fills the buffer, or is stopped at the first cell that cannot be read. -/
theorem ends_readRaw {resampling : Resampling} (hsound : P.Sound dataset.store)
    (hserving : P.Serving dataset.store band) :
    (readRaw (κ := κ) band request resampling).Ends (dataset, buffer)
      (fun _ after => Accepts dataset band request buffer.size ∧
        ∃ store filled, after = ({ dataset with store }, filled) ∧
          P.Filled dataset.store band (.ofRequest request) (.ofRequest request) resampling
            (dataset.store, buffer) (BufferLayout.ofRequest request).cells (store, filled))
      (fun error after => ¬Accepts dataset band request buffer.size ∧ after = (dataset, buffer) ∨
        Accepts dataset band request buffer.size ∧
        ∃ store filled, after = ({ dataset with store }, filled) ∧
          P.Stopped dataset.store band (.ofRequest request) (.ofRequest request) resampling
            (dataset.store, buffer) (BufferLayout.ofRequest request).cells error
            (store, filled)) := by
  refine Ends.get_bind (ends_checked (fun haccepted => ?_) fun hrefused _ => .inl ⟨hrefused, rfl⟩)
  -- past the checks, the call is the transfer on the blocks
  refine ends_onBlocks ((PixelModel.ends_readWindow hsound hserving
    haccepted.request.inside).mono ?_ ?_)
  · exact fun _ after hfilled => ⟨haccepted, after.1, after.2, rfl, hfilled⟩
  · exact fun _ after hstopped => .inr ⟨haccepted, after.1, after.2, rfl, hstopped⟩

/-- Reading a window fills the buffer if the codec does not fail. -/
theorem ends_readRaw_filled {resampling : Resampling} (hsound : P.Sound dataset.store)
    (hserving : P.Serving dataset.store band) :
    (readRaw (κ := κ) band request resampling).Ends (dataset, buffer)
      (fun _ after => Accepts dataset band request buffer.size ∧
        ∃ store filled, after = ({ dataset with store }, filled) ∧
          P.Filled dataset.store band (.ofRequest request) (.ofRequest request) resampling
            (dataset.store, buffer) (BufferLayout.ofRequest request).cells (store, filled))
      (fun _ after => ¬Accepts dataset band request buffer.size ∧ after = (dataset, buffer) ∨
        Accepts dataset band request buffer.size ∧ P.MayFail) := by
  apply (ends_readRaw hsound hserving).mono fun _ _ hfilled => hfilled
  -- a read that has stopped was stopped by a call of the codec
  rintro error after (hrefused | ⟨haccepted, _, _, -, _, _, _, _, -, -, -, -, hfail⟩)
  · exact .inl hrefused
  · exact .inr ⟨haccepted, hfail⟩

/-- Writing a window draws the pixels of the buffer. -/
theorem ends_writeRaw (haccess : dataset.access = .update) (hsound : P.Sound dataset.store)
    (hserving : P.Serving dataset.store band) :
    (writeRaw (κ := κ) band request buffer).Ends dataset
      (fun _ after => Accepts dataset band request buffer.size ∧
        ∃ store, after = { dataset with store } ∧ P.Drawn dataset.store band
          (windowPixels (dataset.descriptor band) (.ofRequest request) (.ofRequest request) buffer)
          store)
      (fun _ after => ¬Accepts dataset band request buffer.size ∧ after = dataset ∨
        Accepts dataset band request buffer.size ∧ P.MayFail) := by
  refine Ends.get_bind (Ends.lift_bind (checkWritable_of_update haccess) ?_)
  refine ends_checked (fun haccepted => ?_) fun hrefused _ => .inl ⟨hrefused, rfl⟩
  refine Dataset.ends_onStore ((PixelModel.ends_writeWindow hsound hserving
    haccepted.request.inside haccepted.request.fits).mono ?_ ?_)
  · exact fun _ store hdrawn => ⟨haccepted, store, rfl, hdrawn⟩
  · -- so was a write
    rintro _ after ⟨_, _, _, _, _, -, -, -, -, hfail⟩
    exact .inr ⟨haccepted, hfail⟩

/-! ## Blocks and whole bands -/

omit [Codec κ] in
/-- A block is read or replaced once all checks are passed; any other call is refused and leaves the
    dataset as it was. -/
private theorem ends_checkedBlock {method : String} {length : Nat} {act : Action (Dataset κ) α}
    {good : α → Dataset κ → Prop} {bad : RasterError → Dataset κ → Prop}
    (haccepted : AcceptsBlock dataset band x y length → act.Ends dataset good bad)
    (hrefused : ¬AcceptsBlock dataset band x y length → ∀ error, bad error dataset) :
    (do
      (liftM (checkBlock dataset band method x y) : Action (Dataset κ) Unit)
      (liftM (checkLength dataset band method length) : Action (Dataset κ) Unit)
      act).Ends dataset good bad := by
  apply Ends.of_lift_bind
  case error =>
    intro error herror
    -- a block of the grid passes the first check
    refine hrefused (fun h => ?_) error
    rw [checkBlock_eq_ok_iff.mpr h.grid] at herror
    contradiction
  intro _ hblock
  apply Ends.of_lift_bind
  case error =>
    intro error herror
    -- bytes of the right length pass the second one
    refine hrefused (fun h => ?_) error
    rw [checkLength_eq_ok_iff.mpr ⟨h.length_eq, h.held⟩] at herror
    contradiction
  intro _ hlength
  obtain ⟨hlength, hheld⟩ := checkLength_eq_ok_iff.mp hlength
  exact haccepted ⟨checkBlock_eq_ok_iff.mp hblock, hlength, hheld⟩

/-- Reading a block answers with its bytes. -/
theorem ends_readBlock {length : Nat} (hsound : P.Sound dataset.store)
    (hserving : P.Serving dataset.store band) :
    (readBlock (κ := κ) band x y length).Ends dataset
      (fun data after => AcceptsBlock dataset band x y length ∧
        ∃ store, after = { dataset with store } ∧
          P.Fetched dataset.store ⟨band, x, y⟩ .read data store)
      (fun _ after => ¬AcceptsBlock dataset band x y length ∧ after = dataset ∨
        AcceptsBlock dataset band x y length ∧ P.MayFail) := by
  apply Ends.get_bind
  refine ends_checkedBlock (fun haccepted => ?_) fun hrefused _ => .inl ⟨hrefused, rfl⟩
  refine Dataset.ends_onStore ((CodecModel.ends_fetch hsound
    (hserving.serves x y haccepted.grid.1 haccepted.grid.2) .read).mono ?_ ?_)
  · exact fun data store hfetched => ⟨haccepted, store, rfl, hfetched⟩
  · exact fun _ _ hfailed => .inr ⟨haccepted, hfailed.2⟩

/-- Reading a block of the grid into a buffer of its length is fetching it. -/
theorem ends_readBlock_of_fetch {good : ByteArray → Dataset κ → Prop}
    {bad : RasterError → Dataset κ → Prop} (hgrid : InGrid dataset band x y)
    (hheld : Held dataset band)
    (hfetch : (BlockStore.fetch ⟨band, x, y⟩ .read).Ends dataset.store
      (fun data store => good data { dataset with store })
      (fun error store => bad error { dataset with store })) :
    (readBlock (κ := κ) band x y (dataset.descriptor band).blockBytes).Ends dataset good bad :=
  Ends.get_bind (Ends.lift_bind (checkBlock_eq_ok_iff.mpr hgrid)
    (Ends.lift_bind (checkLength_eq_ok_iff.mpr ⟨rfl, hheld⟩) (Dataset.ends_onStore hfetch)))

/-- Replacing a block draws its pixels. -/
theorem ends_writeBlock {data : ByteArray} (haccess : dataset.access = .update)
    (hsound : P.Sound dataset.store) (hserving : P.Serving dataset.store band) :
    (writeBlock (κ := κ) band x y data).Ends dataset
      (fun _ after => AcceptsBlock dataset band x y data.size ∧
        ∃ store, after = { dataset with store } ∧ P.Drawn dataset.store band
          (PixelModel.blockPixels (dataset.descriptor band) (x, y) data) store)
      (fun _ after => ¬AcceptsBlock dataset band x y data.size ∧ after = dataset ∨
        AcceptsBlock dataset band x y data.size ∧ P.MayFail) := by
  refine Ends.get_bind (Ends.lift_bind (checkWritable_of_update haccess) ?_)
  refine ends_checkedBlock (fun haccepted => ?_) fun hrefused _ => .inl ⟨hrefused, rfl⟩
  refine Dataset.ends_onStore ((PixelModel.ends_replaceBlock hsound hserving haccepted.grid
    haccepted.length_eq).mono ?_ ?_)
  · exact fun _ store hdrawn => ⟨haccepted, store, rfl, hdrawn⟩
  · exact fun _ _ hfailed => .inr ⟨haccepted, hfailed.2⟩

/-- Filling a band draws the value everywhere. -/
theorem ends_fill {value : Binary64} (haccess : dataset.access = .update)
    (hsound : P.Sound dataset.store) (hserving : P.Serving dataset.store band) :
    (fill (κ := κ) band value).Ends dataset
      (fun _ after => Held dataset band ∧
        ∃ store, after = { dataset with store } ∧ P.Drawn dataset.store band
          (fun _ _ => some (pixelBytes (dataset.descriptor band).type value)) store)
      (fun _ after => ¬Held dataset band ∧ after = dataset ∨
        Held dataset band ∧ P.MayFail) := by
  refine Ends.get_bind (Ends.lift_bind (checkWritable_of_update haccess) ?_)
  refine ends_checkedHeld (fun hheld => ?_) fun htooLarge _ => .inl ⟨htooLarge, rfl⟩
  refine Dataset.ends_onStore ((PixelModel.ends_fillBand hsound hserving value).mono ?_ ?_)
  · exact fun _ store hdrawn => ⟨hheld, store, rfl, hdrawn⟩
  · rintro _ after ⟨_, _, _, _, _, -, -, -, -, hfail⟩
    exact .inr ⟨hheld, hfail⟩

/-- Setting a no-data value lets the codec record it and drops the blocks of the band. -/
theorem ends_setNoData (Q : CodecModel κ) {value : Option Binary64} {post : κ → Prop}
    (haccess : dataset.access = .update)
    (hcodec : (Codec.setNoData band value).Ends dataset.store.codec (fun _ codec => post codec)
      (fun _ _ => False))
    (htidy : ∀ codec, post codec → Q.Tidy (dataset.store.recordNoData codec band value))
    (hclean : ∀ codec, post codec → ∀ {key block}, dataset.store.cache.find? key = some block →
      block.dirty = false → key.band ≠ band →
      Q.view ((dataset.store.recordNoData codec band value).context key) block.data =
        Q.content codec ((dataset.store.recordNoData codec band value).context key)) :
    (setNoData (κ := κ) band value).Ends dataset
      (fun _ after => ∃ codec store, post codec ∧ after = { dataset with store } ∧
        Q.Dropped (dataset.store.recordNoData codec band value) band store)
      (fun _ _ => Q.MayFail) := by
  apply Ends.get_bind
  apply Ends.lift_bind (checkWritable_of_update haccess)
  apply Dataset.ends_onStore
  apply Ends.bind
  apply ends_onCodec
  -- the codec does not refuse the value
  apply hcodec.mono _ fun _ _ hnever => hnever.elim
  intro _ codec hpost
  -- the new value is there before the blocks of the band are dropped
  apply Ends.modify_bind
  apply (CodecModel.ends_dropBand (htidy codec hpost) (hclean codec hpost)).mono
  · exact fun _ store hdropped => ⟨codec, store, hpost, rfl, hdropped⟩
  · exact fun _ _ hfailed => hfailed.2

/-- The codec refused a no-data value. Nothing but the codec can have changed. -/
def NoDataRefused (band : Nat) (value : Option Binary64) (before : Dataset κ) (error : RasterError)
    (after : Dataset κ) : Prop :=
  ∃ codec, (Codec.setNoData band value).run before.store.codec = (.error error, codec) ∧
    after = { before with store := { before.store with codec } }

/-- The codec recorded a no-data value, but blocks of the band could not be written back. -/
def NoDataUnfinished (band : Nat) (value : Option Binary64) (before : Dataset κ)
    (error : RasterError) (after : Dataset κ) : Prop :=
  ∃ codec flushed, (Codec.setNoData band value).run before.store.codec = (.ok (), codec) ∧
    (BlockStore.flushBand band).run (before.store.recordNoData codec band value) =
      (.error error, flushed) ∧
    after = { before with store := flushed }

/-- The codec recorded a no-data value, and the blocks of the band were written back and dropped. -/
def NoDataSet (band : Nat) (value : Option Binary64) (before after : Dataset κ) : Prop :=
  ∃ codec flushed, (Codec.setNoData band value).run before.store.codec = (.ok (), codec) ∧
    (BlockStore.flushBand band).run (before.store.recordNoData codec band value) =
      (.ok (), flushed) ∧
    after = { before with store := { flushed with cache := flushed.cache.removeBand band } }

/-- Setting a no-data value, step by step. -/
theorem ends_setNoData_steps {value : Option Binary64} (haccess : dataset.access = .update) :
    (setNoData (κ := κ) band value).Ends dataset (fun _ => NoDataSet band value dataset)
      (fun error after => NoDataRefused band value dataset error after ∨
        NoDataUnfinished band value dataset error after) := by
  apply Ends.get_bind
  apply Ends.lift_bind (checkWritable_of_update haccess)
  apply Dataset.ends_onStore
  apply Ends.bind
  apply ends_onCodec
  apply ends_run.mono
  · -- the codec has recorded the value, and the blocks are still to be written back and dropped
    intro _ codec hrecorded
    apply Ends.modify_bind
    apply Ends.bind
    apply ends_run.mono
    · intro _ flushed hflushed
      exact ends_modify.mpr ⟨codec, flushed, hrecorded, hflushed, rfl⟩
    · intro error flushed hflushed
      exact .inr ⟨codec, flushed, hrecorded, hflushed, rfl⟩
  · -- the codec has refused it, and nothing else was done
    intro error codec hrefused
    exact .inl ⟨codec, hrefused, rfl⟩

/-- Writing the blocks of a band back leaves the raster as it is. -/
theorem ends_flush (hsound : P.Sound dataset.store) :
    (Band.flush (κ := κ) band).Ends dataset
      (fun _ after => ∃ store, after = { dataset with store } ∧ P.Keeps dataset.store store)
      (fun _ _ => P.MayFail) :=
  Dataset.ends_onStore ((CodecModel.ends_flushSelected_keeps hsound _).mono
    (fun _ store h => ⟨store, rfl, h.1⟩) fun _ _ h => h.2)

end Band

namespace Dataset

variable [Codec κ] {P : PixelModel κ} {dataset : Dataset κ}

/-- Changing the capacity of the cache leaves the raster as it is. -/
theorem ends_setCacheBlocks (hsound : P.Sound dataset.store) (capacity : Nat) :
    (setCacheBlocks (κ := κ) capacity).Ends dataset
      (fun _ after => ∃ store, after = { dataset with store } ∧ P.Keeps dataset.store store)
      (fun _ _ => P.MayFail) :=
  ends_onStore ((CodecModel.ends_setCapacity hsound capacity).mono (fun _ store h => ⟨store, rfl, h⟩)
    fun _ _ h => h.2)

/-- Flushing a dataset does what flushing its blocks does, if flushing the codec does nothing. -/
theorem ends_flush_of_blocks {good : BlockStore κ → Prop} {bad : Prop}
    (hblocks : (BlockStore.flush (κ := κ)).Ends dataset.store (fun _ store => good store)
      (fun _ _ => bad))
    (hflush : ∀ codec : κ, (Codec.flush : Action κ Unit).run codec = (.ok (), codec)) :
    (flush (κ := κ)).Ends dataset
      (fun _ after => ∃ store, after = { dataset with store } ∧ good store) (fun _ _ => bad) := by
  refine Ends.bind (Ends.attempt (ends_onStore (hblocks.mono ?_ ?_)))
  · -- all blocks are written back, and the codec is flushed
    intro _ store hwritten
    refine Ends.bind (Ends.attempt (ends_onStore (ends_onCodec (ends_of_run_ok (hflush _) ?_))))
    exact ends_pure.mpr ⟨store, rfl, hwritten⟩
  · -- the codec is flushed also if some block could not be written back
    intro _ store hfailed
    refine Ends.bind (Ends.attempt (ends_onStore (ends_onCodec (ends_of_run_ok (hflush _) ?_))))
    exact ends_throw.mpr hfailed

/-- Flushing a dataset leaves the raster as it is; afterwards the codec has stored all of it. -/
theorem ends_flush (hsound : P.Sound dataset.store)
    (hflush : ∀ codec : κ, (Codec.flush : Action κ Unit).run codec = (.ok (), codec)) :
    (flush (κ := κ)).Ends dataset
      (fun _ after => ∃ store, after = { dataset with store } ∧ P.Keeps dataset.store store ∧
        ∀ key, P.Serves (dataset.store.context key) →
          P.content store.codec (dataset.store.context key) = P.logical dataset.store key)
      (fun _ _ => P.MayFail) := by
  refine ends_flush_of_blocks ((CodecModel.ends_flushSelected_keeps hsound _).mono ?_ ?_) hflush
  · exact fun _ store hwritten => ⟨hwritten.1, fun key => hwritten.2 key rfl⟩
  · exact fun _ store hfailed => hfailed.2

/-- Dropping a dataset that was closed does nothing. -/
theorem ends_drop_of_closed {good : Unit → Dataset κ → Prop} {bad : RasterError → Dataset κ → Prop}
    (hclosed : dataset.closed = true) (h : good () dataset) :
    (drop (κ := κ)).Ends dataset good bad := by
  apply Ends.get_bind
  rw [if_pos hclosed]
  exact ends_pure.mpr h

/-- Closing a dataset flushes it, and nothing more: the drop that follows finds it closed. -/
theorem ends_close {good : Dataset κ → Prop} {bad : RasterError → Dataset κ → Prop}
    (h : (flush (κ := κ)).Ends dataset (fun _ after => good { after with closed := true })
      (fun error after => bad error { after with closed := true })) :
    (close (κ := κ)).Ends dataset (fun _ => good) bad := by
  -- the outcome of the flush is kept over the drop
  apply Ends.bind
  apply Ends.attempt
  apply h.mono
  · intro _ after hgood
    apply Ends.modify_bind
    apply Ends.bind
    apply ends_drop_of_closed rfl
    exact ends_pure.mpr hgood
  · intro error after hbad
    apply Ends.modify_bind
    apply Ends.bind
    apply ends_drop_of_closed rfl
    exact ends_throw.mpr hbad

/-! ## New datasets -/

omit [Codec κ] in
/-- No band is found to blame if the blocks of all bands have pixels. -/
theorem emptyBlockBand?_eq_none {bands : List BandDescriptor}
    (hblocks : ∀ band ∈ bands, band.block.isEmpty = false) : emptyBlockBand? bands = none := by
  have hnone : bands.findIdx? (·.block.isEmpty) = none := by
    rw [List.findIdx?_eq_none_iff]
    exact hblocks
  rw [emptyBlockBand?, hnone]
  rfl

/-- The dataset was made around a codec, and no block of it is in the cache yet. -/
structure IsNew (codec : κ) (raster : Size) (bands : List BandDescriptor) (access : Access)
    (dataset : Dataset κ) : Prop where
  driver : dataset.driver = Codec.name codec
  access : dataset.access = access
  codec : dataset.store.codec = codec
  bands : dataset.store.bands = bands.toArray
  raster : dataset.store.raster = raster
  empty : dataset.store.cache.entries = []

/-- A codec with a raster, bands and blocks that are not empty makes a dataset. -/
theorem ofCodec_of_nonempty {raster : Size} {bands : List BandDescriptor} (codec : κ)
    (hraster : raster.isEmpty = false) (hbands : bands ≠ [])
    (hblocks : ∀ band ∈ bands, band.block.isEmpty = false) (options : OpenOptions)
    (environment : Option String) :
    ∃ dataset, ofCodec codec raster bands options environment = .ok dataset ∧
      dataset.IsNew codec raster bands options.flags.access := by
  have hnonempty : bands.isEmpty = false := by
    rw [← Bool.not_eq_true, List.isEmpty_iff]
    exact hbands
  -- none of the three checks refuses
  unfold ofCodec
  rw [hraster, hnonempty, emptyBlockBand?_eq_none hblocks]
  exact ⟨_, rfl, ⟨rfl, rfl, rfl, rfl, rfl, rfl⟩⟩

omit [Codec κ] in
/-- If no band is found to blame, the blocks of all bands have pixels. -/
theorem blocked_of_emptyBlockBand? {bands : List BandDescriptor}
    (hnone : emptyBlockBand? bands = none) : ∀ band ∈ bands, band.Blocked := by
  rw [emptyBlockBand?, Option.map_eq_none_iff, List.findIdx?_eq_none_iff] at hnone
  intro band hmem
  have hblock := hnone band hmem
  rw [← Bool.not_eq_true, Size.isEmpty_iff] at hblock
  constructor
  · omega
  · omega

/-- A dataset that is made around a codec is new, and the blocks of its bands have pixels. -/
theorem isNew_of_ofCodec {codec : κ} {raster : Size} {bands : List BandDescriptor}
    {options : OpenOptions} {environment : Option String} {dataset : Dataset κ}
    (h : ofCodec codec raster bands options environment = .ok dataset) :
    dataset.IsNew codec raster bands options.flags.access ∧ ∀ band ∈ bands, band.Blocked := by
  unfold ofCodec notADataset at h
  split at h
  · -- a raster without pixels is refused
    contradiction
  · split at h
    · -- so is one without bands
      contradiction
    · split at h
      · -- and one with a band whose blocks have no pixels
        contradiction
      · next hnone =>
        cases h
        exact ⟨⟨rfl, rfl, rfl, rfl, rfl, rfl⟩, blocked_of_emptyBlockBand? hnone⟩

/-- A dataset is not made without pixels or without bands. -/
theorem nonempty_of_ofCodec {codec : κ} {raster : Size} {bands : List BandDescriptor}
    {options : OpenOptions} {environment : Option String} {dataset : Dataset κ}
    (h : ofCodec codec raster bands options environment = .ok dataset) :
    raster.isEmpty = false ∧ bands ≠ [] := by
  unfold ofCodec notADataset at h
  split at h
  · contradiction
  · next hraster =>
    split at h
    · contradiction
    · next hbands =>
      rw [List.isEmpty_iff] at hbands
      exact ⟨Bool.eq_false_iff.mpr hraster, hbands⟩

end Dataset

end RasterStore
