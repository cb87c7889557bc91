import RasterStore.Codec.Recorder
import RasterStore.Proofs.Transfer.Invariants

/-!
# Runs of calls

A `DatasetCall` is any call that a caller can make to a dataset or to one of its bands. In a run of
such calls (`DatasetCall.performAll`) each one starts from what the one before it left behind,
also where that one failed.

An invariant of the blocks that is kept by what a dataset does with them holds after every run
(`meets_performAll`). If the dataset is open for reading, only what is done for reading calls
matters: all other calls are refused first.
-/

namespace RasterStore

open BlockStore RasterStore.Action

variable {κ α : Type}

/-- Any call to a dataset or to one of its bands. -/
inductive DatasetCall where
  | raster (call : RasterCall)
  | readInto (band : Nat) (x y : Int) (window size : Size) (type : PixelType)
      (resampling : Resampling) (buffer : ByteArray)
  | readAs (band : Nat) (x y : Int) (window size : Size) (type : PixelType)
      (resampling : Resampling)
  | readMatrix (band : Nat) (x y : Int) (window size : Size) (type : PixelType)
      (resampling : Resampling)
  | readAll (band : Nat) (type : PixelType)
  | readBlockAs (band column row : Nat) (type : PixelType)
  | writeBuffer (band : Nat) (x y : Int) (window : Size) (buffer : Buffer)
  | invalidateBlock (band column row : Nat)
  | close
  | drop

namespace DatasetCall

variable [Codec κ]

/-- Makes the call to a dataset. What the call answers is dropped. -/
def perform : DatasetCall → Action (Dataset κ) PUnit
  | raster call => call.perform
  | readInto band x y window size type resampling buffer => do
    let _ ← Dataset.onBand band (Dataset.intoBuffer buffer
      (Band.readInto band x y window size type resampling))
    pure ()
  | readAs band x y window size type resampling => do
    let _ ← Dataset.onBand band (Band.readAs band x y window size type resampling)
    pure ()
  | readMatrix band x y window size type resampling => do
    let _ ← Dataset.onBand band (Band.readMatrix band x y window size type resampling)
    pure ()
  | readAll band type => do
    let _ ← Dataset.onBand band (Band.readAll band type)
    pure ()
  | readBlockAs band column row type => do
    let _ ← Dataset.onBand band (Band.readBlockAs band column row type)
    pure ()
  | writeBuffer band x y window buffer =>
    Dataset.onBand band (Band.write band x y window buffer)
  | invalidateBlock band column row => do
    let _ ← Dataset.onBand band (Band.invalidateBlock band column row)
    pure ()
  | close => Dataset.close
  | drop => Dataset.drop

/-- The dataset after some calls, whether they succeeded or failed. -/
def performAll (calls : List DatasetCall) (dataset : Dataset κ) : Dataset κ :=
  calls.foldl (fun reached call => (call.perform.run reached).2) dataset

end DatasetCall

/-- What a dataset with this access does with its blocks, whatever it is called for, keeps the
    invariant. -/
structure KeptByCalls [Codec κ] (access : Access) (raster : Size) (bands : List BandDescriptor)
    (inv : BlockStore κ → Prop) : Prop extends KeptByReading raster bands inv where
  writing : access = .update → KeptByWriting raster bands inv
  blocked : ∀ descriptor ∈ bands, descriptor.Blocked

/-- The dataset has this access, and its blocks have the invariant. -/
structure Dataset.Meets (access : Access) (inv : BlockStore κ → Prop) (dataset : Dataset κ) :
    Prop where
  access_eq : dataset.access = access
  blocks : inv dataset.store

variable {access : Access} {inv : BlockStore κ → Prop} {raster : Size}
variable {bands : List BandDescriptor} {band : Nat}

/-! ## Steps on the blocks -/

/-- A step on the blocks that keeps the invariant keeps it as a step on the dataset. -/
theorem Dataset.keeps_onStore {act : Action (BlockStore κ) α} (h : Keeps inv act) :
    Keeps (Meets access inv) (onStore act) := by
  intro dataset hdataset
  apply ends_onStore
  apply (h dataset.store hdataset.blocks).imp_reached
  exact fun _ hstore => ⟨hdataset.access_eq, hstore⟩

/-- The same for a step that has a caller's buffer beside the blocks. -/
theorem Band.keeps_onBlocks {act : Action (BlockStore κ × ByteArray) α}
    (h : Keeps (fun state => inv state.1) act) :
    Keeps (fun state => Dataset.Meets access inv state.1) (onBlocks act) := by
  rintro ⟨dataset, buffer⟩ hdataset
  apply ends_onBlocks
  apply (h (dataset.store, buffer) hdataset.blocks).imp_reached
  exact fun _ hstore => ⟨hdataset.access_eq, hstore⟩

/-- A step that fills a buffer of its own keeps what it keeps with the buffer of a caller. -/
theorem Dataset.keeps_intoBuffer {inv : Dataset κ → Prop} {buffer : ByteArray}
    {act : Action (Dataset κ × ByteArray) Unit} (h : Keeps (fun state => inv state.1) act) :
    Keeps inv (intoBuffer buffer act) :=
  fun dataset hdataset => ends_intoBuffer (h (dataset, buffer) hdataset)

variable [Codec κ]

/-- A call to a band is one to a band that is there, or does nothing. -/
theorem Dataset.keeps_onBand {act : Action (Dataset κ) α} (h : KeptByFetching raster bands inv)
    (hblocked : ∀ descriptor ∈ bands, descriptor.Blocked)
    (hact : HasGrid bands band → Keeps (Meets access inv) act) :
    Keeps (Meets access inv) (onBand band act) := by
  intro dataset hdataset
  have hcount : dataset.bandCount = bands.length :=
    (h.shapes _ hdataset.blocks).length
  apply ends_onBand
  · intro hband
    have hpos := hband.1
    have hle := hband.2
    rw [hcount] at hle
    have hmem : bandOf bands band ∈ bands := Tiled.bandAt_mem (by omega)
    exact hact ⟨hpos, hle, hblocked _ hmem⟩ dataset hdataset
  · -- there is no such band, and nothing happens
    intro _ _
    exact hdataset

/-- A call to a band whose answer is dropped. -/
theorem Dataset.keeps_onBand_dropped {act : Action (Dataset κ) α}
    (h : KeptByFetching raster bands inv) (hblocked : ∀ descriptor ∈ bands, descriptor.Blocked)
    (hact : HasGrid bands band → Keeps (Meets access inv) act) :
    Keeps (Meets access inv) (do
      let _ ← onBand band act
      pure PUnit.unit) :=
  (keeps_onBand h hblocked hact).bind fun _ => keeps_pure _

/-! ## Reading -/

namespace Band

variable {request : TransferRequest} {resampling : Resampling} {size window : Size}
variable {type : PixelType} {x y : Int} {column row length : Nat}

/-- Reading a window keeps what fetching blocks keeps, whether it succeeds or fails. -/
theorem keeps_readRaw (h : KeptByFetching raster bands inv) (hgrid : HasGrid bands band) :
    Keeps (fun state => Dataset.Meets access inv state.1)
      (readRaw (κ := κ) band request resampling) := by
  apply keeps_get_bind
  intro state hstate
  obtain ⟨dataset, buffer⟩ := state
  apply keeps_lift_bind
  intro window hwindow
  apply keeps_lift_bind
  intro layout _
  -- the window that was accepted lies in the raster
  have hinside := (Window.check_eq_ok_iff.mp hwindow).2.2
  rw [show dataset.size = raster from h.sameRaster _ hstate.blocks] at hinside
  apply keeps_lift_bind
  intro _ _
  exact keeps_onBlocks (h.keeps_readWindow hgrid hinside resampling)

/-- Reading packed pixels into a buffer of the caller is reading a window. -/
theorem keeps_readInto (h : KeptByFetching raster bands inv) (hgrid : HasGrid bands band) :
    Keeps (fun state => Dataset.Meets access inv state.1)
      (readInto (κ := κ) band x y window size type resampling) := by
  apply keeps_get_bind
  intro state _
  apply keeps_lift_bind
  intro _ _
  apply Keeps.ite
  · exact fun _ => keeps_readRaw h hgrid
  · exact fun _ => keeps_lift _

/-- Reading into a new buffer keeps what reading into a given one does. -/
theorem keeps_readAs (h : KeptByFetching raster bands inv) (hgrid : HasGrid bands band) :
    Keeps (Dataset.Meets access inv)
      (readAs (κ := κ) band x y window size type resampling) := by
  -- the bytes are those of a transfer into a new buffer
  have hbytes : Keeps (Dataset.Meets access inv) (Dataset.intoBuffer (Buffer.zeros type size).bytes
      (readInto (κ := κ) band x y window size type resampling)) :=
    Dataset.keeps_intoBuffer (keeps_readInto h hgrid)
  apply keeps_get_bind
  intro dataset _
  -- the capacity, the window and the layout are checked before
  apply keeps_lift_bind
  intro _ _
  apply keeps_lift_bind
  intro _ _
  apply keeps_lift_bind
  intro _ _
  exact Keeps.bind hbytes fun _ => keeps_pure _

/-- Reading a whole block fetches that one. -/
theorem keeps_readBlock (h : KeptByFetching raster bands inv) (hgrid : HasGrid bands band) :
    Keeps (Dataset.Meets access inv) (readBlock (κ := κ) band column row length) := by
  apply keeps_get_bind
  intro dataset hdataset
  apply keeps_lift_bind
  intro _ hblock
  apply keeps_lift_bind
  intro _ _
  -- the block that was accepted belongs to the grid
  obtain ⟨hcolumn, hrow⟩ := checkBlock_eq_ok_iff.mp hblock
  rw [Dataset.descriptor, h.block_eq hdataset.blocks, Dataset.size,
    h.sameRaster _ hdataset.blocks] at hcolumn hrow
  exact Dataset.keeps_onStore (h.fetch _ (hgrid.inGrid hcolumn hrow))

/-- Reading a block of pixels of a type is reading the block. -/
theorem keeps_readBlockAs (h : KeptByFetching raster bands inv) (hgrid : HasGrid bands band) :
    Keeps (Dataset.Meets access inv) (readBlockAs (κ := κ) band column row type) := by
  apply keeps_get_bind
  intro dataset _
  apply keeps_lift_bind
  intro _ _
  exact (keeps_readBlock h hgrid).bind fun _ => keeps_pure _

/-- Dropping a block from the cache, written back or not, keeps the invariant. -/
theorem keeps_invalidateBlock (h : KeptByReading raster bands inv) :
    Keeps (Dataset.Meets access inv) (invalidateBlock (κ := κ) band column row) := by
  apply keeps_get_bind
  intro dataset _
  apply Keeps.ite
  · exact fun _ => keeps_throw _
  · intro _
    apply keeps_lift_bind
    intro _ _
    exact Dataset.keeps_onStore (h.invalidate _)

/-! ## Writing -/

omit [Codec κ] in
/-- The writing methods are let through just for a dataset that is open for update. -/
theorem checkWritable_eq_ok_iff {dataset : Dataset κ} {method : String} :
    checkWritable dataset method = .ok () ↔ dataset.access = .update := by
  unfold checkWritable
  cases dataset.access with
  | readOnly => simp
  | update => simp

omit [Codec κ] in
/-- What follows the check that a dataset is open for update. -/
theorem keeps_checkWritable_bind {next : Action (Dataset κ) α} {dataset : Dataset κ}
    {method : String} (hdataset : dataset.Meets access inv)
    (h : access = .update → Keeps (Dataset.Meets access inv) next) :
    Keeps (Dataset.Meets access inv)
      ((liftM (checkWritable dataset method) : Action (Dataset κ) Unit) >>= fun _ => next) := by
  apply keeps_lift_bind
  intro _ hwritable
  have haccess := checkWritable_eq_ok_iff.mp hwritable
  rw [hdataset.access_eq] at haccess
  exact h haccess

/-- Writing a window keeps the invariant, also where it is refused. -/
theorem keeps_writeRaw {buffer : ByteArray} (h : KeptByCalls access raster bands inv)
    (hgrid : HasGrid bands band) :
    Keeps (Dataset.Meets access inv) (writeRaw (κ := κ) band request buffer) := by
  apply keeps_get_bind
  intro dataset hdataset
  apply keeps_checkWritable_bind hdataset
  intro hupdate
  apply keeps_lift_bind
  intro window hwindow
  apply keeps_lift_bind
  intro layout hlayout
  -- the window lies in the raster, and the pixels lie in the buffer
  have hinside := (Window.check_eq_ok_iff.mp hwindow).2.2
  have hfits := (BufferLayout.check_eq_ok_iff.mp hlayout).2.1
  rw [show dataset.size = raster from h.sameRaster _ hdataset.blocks] at hinside
  -- the size of the blocks is checked last
  apply keeps_lift_bind
  intro _ _
  have hwritten := (h.writing hupdate).keeps_writeWindow h.toKeptByFetching hgrid hinside hfits
  exact Dataset.keeps_onStore hwritten

/-- Scaling a buffer before it is written keeps what writing it does. -/
theorem keeps_writeResampled {buffer : ByteArray} (h : KeptByCalls access raster bands inv)
    (hgrid : HasGrid bands band) :
    Keeps (Dataset.Meets access inv)
      (writeResampled (κ := κ) band request resampling buffer) := by
  apply keeps_get_bind
  intro dataset hdataset
  apply keeps_checkWritable_bind hdataset
  intro _
  cases resampling with
  | nearest => exact keeps_writeRaw h hgrid
  | average => exact keeps_throw _

/-- Writing packed pixels is writing a window. -/
theorem keeps_write {buffer : Buffer} (h : KeptByCalls access raster bands inv)
    (hgrid : HasGrid bands band) :
    Keeps (Dataset.Meets access inv) (write (κ := κ) band x y window buffer) := by
  apply keeps_get_bind
  intro dataset hdataset
  apply keeps_checkWritable_bind hdataset
  intro _
  apply keeps_lift_bind
  intro _ _
  apply Keeps.ite
  · exact fun _ => keeps_writeRaw h hgrid
  · exact fun _ => keeps_lift _

/-- Writing a whole block keeps the invariant, also where it is refused. -/
theorem keeps_writeBlock {data : ByteArray} (h : KeptByCalls access raster bands inv)
    (hgrid : HasGrid bands band) :
    Keeps (Dataset.Meets access inv) (writeBlock (κ := κ) band column row data) := by
  -- the three checks come before the change, and are what the change relies on
  apply keeps_get_bind
  intro dataset hdataset
  apply keeps_checkWritable_bind hdataset
  intro hupdate
  apply keeps_lift_bind
  intro _ hblock
  apply keeps_lift_bind
  intro _ hlength
  obtain ⟨hcolumn, hrow⟩ := checkBlock_eq_ok_iff.mp hblock
  rw [Dataset.descriptor, h.block_eq hdataset.blocks, Dataset.size,
    h.sameRaster _ hdataset.blocks] at hcolumn hrow
  have hsize := (checkLength_eq_ok_iff.mp hlength).1
  rw [Dataset.descriptor, h.blockBytes_eq hdataset.blocks] at hsize
  -- the new bytes are as many as the old ones
  have hkeeps : KeepsSize bands ⟨band, column, row⟩ fun _ => data := fun _ _ => hsize
  have hchanged := (h.writing hupdate).change _ .overwrite _ (hgrid.inGrid hcolumn hrow) rfl hkeeps
  exact Dataset.keeps_onStore hchanged

/-- Filling a band keeps the invariant, wherever it stops. -/
theorem keeps_fill {value : Binary64} (h : KeptByCalls access raster bands inv)
    (hgrid : HasGrid bands band) :
    Keeps (Dataset.Meets access inv) (fill (κ := κ) band value) := by
  apply keeps_get_bind
  intro dataset hdataset
  apply keeps_checkWritable_bind hdataset
  intro hupdate
  apply keeps_lift_bind
  intro _ _
  exact Dataset.keeps_onStore ((h.writing hupdate).keeps_fillBand h.toKeptByFetching hgrid value)

/-- Changing a no-data value keeps the invariant, also where it is refused. -/
theorem keeps_setNoData {value : Option Binary64} (h : KeptByCalls access raster bands inv)
    (hgrid : HasGrid bands band) :
    Keeps (Dataset.Meets access inv) (setNoData (κ := κ) band value) := by
  apply keeps_get_bind
  intro dataset hdataset
  apply keeps_checkWritable_bind hdataset
  intro hupdate
  have hwriting := h.writing hupdate
  have hcodec := hwriting.setNoData band value ⟨hgrid.pos, hgrid.le⟩
  -- what follows is writing the blocks of the band back and dropping them
  have hdrop : Keeps inv (flushBand (κ := κ) band >>= fun _ => invalidateBand band) :=
    (h.flushSelected _).bind fun _ => hwriting.invalidateBand band
  apply Dataset.keeps_onStore
  apply hcodec.bind
  intro _
  apply Keeps.bind
  · exact keeps_modify fun store => hwriting.withNoData store (band - 1) value
  · exact fun _ => hdrop

end Band

/-! ## Whole datasets -/

namespace Dataset

/-- Writing back and flushing the codec keeps the invariant. -/
theorem keeps_flush (h : KeptByFetching raster bands inv) :
    Keeps (Meets access inv) (flush (κ := κ)) := by
  apply (keeps_onStore (h.flushSelected _)).attempt.bind
  intro written
  -- the codec is flushed also if blocks could not be written
  apply (keeps_onStore h.flushCodec).attempt.bind
  intro synced
  cases written with
  | ok _ => exact keeps_lift _
  | error error => exact keeps_throw _

/-- Dropping a dataset keeps the invariant, as does flushing it. -/
theorem keeps_drop (h : KeptByReading raster bands inv) :
    Keeps (Meets access inv) (drop (κ := κ)) := by
  apply keeps_get_bind
  intro dataset _
  apply Keeps.ite
  · -- a dataset that was closed is left as it is
    exact fun _ => keeps_pure _
  · intro _
    apply (keeps_flush h.toKeptByFetching).attempt.bind
    intro outcome
    cases outcome with
    | ok _ => exact keeps_pure _
    | error error => exact keeps_get_bind fun dataset _ => keeps_onStore (h.note _)

/-- Closing a dataset keeps the invariant: what it does to the blocks is flushing. -/
theorem keeps_close (h : KeptByReading raster bands inv) :
    Keeps (Meets access inv) (close (κ := κ)) := by
  apply (keeps_flush h.toKeptByFetching).attempt.bind
  intro outcome
  apply Keeps.bind
  · exact keeps_modify fun _ hdataset => ⟨hdataset.access_eq, hdataset.blocks⟩
  · exact fun _ => (keeps_drop h).bind fun _ => keeps_lift _

end Dataset

/-! ## Calls -/

namespace RasterCall

/-- The call leaves all pixels and no-data values as they are. -/
def IsReading : RasterCall → Prop
  | read .. | readBlock .. | flushBand _ | flush | setCapacity _ => True
  | write .. | writeResampled .. | writeBlock .. | fill .. | setNoData .. => False

/-- A call that reads keeps what reading keeps, whatever the dataset is open for. -/
theorem keeps_perform_of_isReading (h : KeptByFetching raster bands inv)
    (hblocked : ∀ descriptor ∈ bands, descriptor.Blocked) {call : RasterCall}
    (hreading : call.IsReading) :
    Keeps (Dataset.Meets access inv) (call.perform (κ := κ)) := by
  cases call with
  | read band request resampling buffer =>
    exact Dataset.keeps_onBand_dropped h hblocked fun hgrid =>
      Dataset.keeps_intoBuffer (Band.keeps_readRaw h hgrid)
  | readBlock band column row length =>
    exact Dataset.keeps_onBand_dropped h hblocked (Band.keeps_readBlock h)
  | flushBand band =>
    exact Dataset.keeps_onBand h hblocked fun _ => Dataset.keeps_onStore (h.flushSelected _)
  | flush => exact Dataset.keeps_flush h
  | setCapacity capacity => exact Dataset.keeps_onStore (h.setCapacity capacity)
  -- the other calls do not only read
  | write | writeResampled | writeBlock | fill | setNoData => exact hreading.elim

/-- Every call that transfers pixels or changes a band keeps the invariant. -/
theorem keeps_perform (h : KeptByCalls access raster bands inv) (call : RasterCall) :
    Keeps (Dataset.Meets access inv) (call.perform (κ := κ)) := by
  have hfetching := h.toKeptByFetching
  cases call with
  | write band request buffer =>
    exact Dataset.keeps_onBand hfetching h.blocked (Band.keeps_writeRaw h)
  | writeResampled band request resampling buffer =>
    exact Dataset.keeps_onBand hfetching h.blocked (Band.keeps_writeResampled h)
  | writeBlock band column row data =>
    exact Dataset.keeps_onBand hfetching h.blocked (Band.keeps_writeBlock h)
  | fill band value => exact Dataset.keeps_onBand hfetching h.blocked (Band.keeps_fill h)
  | setNoData band value => exact Dataset.keeps_onBand hfetching h.blocked (Band.keeps_setNoData h)
  -- the other calls do not write
  | read | readBlock | flushBand | flush | setCapacity =>
    exact keeps_perform_of_isReading hfetching h.blocked trivial

end RasterCall

namespace DatasetCall

/-- The call leaves all pixels and no-data values as they are. -/
def IsReading : DatasetCall → Prop
  | .raster call => call.IsReading
  | .writeBuffer .. => False
  | .readInto .. | .readAs .. | .readMatrix .. | .readAll .. | .readBlockAs ..
  | .invalidateBlock .. | .close | .drop => True

/-- A call that reads, or lets go of blocks, needs an invariant that reading keeps and no more. -/
theorem keeps_perform_of_isReading (h : KeptByReading raster bands inv)
    (hblocked : ∀ descriptor ∈ bands, descriptor.Blocked) {call : DatasetCall}
    (hreading : call.IsReading) :
    Keeps (Dataset.Meets access inv) (call.perform (κ := κ)) := by
  have hfetching := h.toKeptByFetching
  -- each reading call is made of fetches in the grid and of steps that keep the store
  cases call with
  | raster call => exact RasterCall.keeps_perform_of_isReading hfetching hblocked hreading
  | readInto band x y window size type resampling buffer =>
    exact Dataset.keeps_onBand_dropped hfetching hblocked fun hgrid =>
      Dataset.keeps_intoBuffer (Band.keeps_readInto hfetching hgrid)
  | readAs band x y window size type resampling =>
    exact Dataset.keeps_onBand_dropped hfetching hblocked (Band.keeps_readAs hfetching)
  | readMatrix band x y window size type resampling =>
    exact Dataset.keeps_onBand_dropped hfetching hblocked fun hgrid =>
      (Band.keeps_readAs hfetching hgrid).bind fun _ => keeps_lift _
  | readAll band type =>
    exact Dataset.keeps_onBand_dropped hfetching hblocked fun hgrid =>
      keeps_get_bind fun _ _ => Band.keeps_readAs hfetching hgrid
  | readBlockAs band column row type =>
    exact Dataset.keeps_onBand_dropped hfetching hblocked (Band.keeps_readBlockAs hfetching)
  | writeBuffer band x y window buffer => exact hreading.elim
  | invalidateBlock band column row =>
    exact Dataset.keeps_onBand_dropped hfetching hblocked fun _ => Band.keeps_invalidateBlock h
  | close => exact Dataset.keeps_close h
  | drop => exact Dataset.keeps_drop h

/-- Every call to a dataset keeps the invariant. -/
theorem keeps_perform (h : KeptByCalls access raster bands inv) (call : DatasetCall) :
    Keeps (Dataset.Meets access inv) (call.perform (κ := κ)) := by
  cases call with
  | raster call => exact call.keeps_perform h
  | writeBuffer band x y window buffer =>
    exact Dataset.keeps_onBand h.toKeptByFetching h.blocked (Band.keeps_write h)
  | readInto | readAs | readMatrix | readAll | readBlockAs | invalidateBlock | close | drop =>
    exact keeps_perform_of_isReading h.toKeptByReading h.blocked trivial

/-- The invariant holds after every run of calls. -/
theorem meets_performAll (h : KeptByCalls access raster bands inv) (calls : List DatasetCall)
    {dataset : Dataset κ} (hdataset : dataset.Meets access inv) :
    (performAll calls dataset).Meets access inv := by
  induction calls generalizing dataset with
  | nil => exact hdataset
  | cons call rest ih =>
    have hreached := (keeps_perform h call).reached hdataset
    exact ih hreached

/-- The invariant holds after every run of calls that read, if fetching blocks keeps it. -/
theorem meets_performAll_of_isReading (h : KeptByFetching raster bands inv)
    (hblocked : ∀ descriptor ∈ bands, descriptor.Blocked) {calls : List RasterCall}
    (hreading : ∀ call ∈ calls, call.IsReading) {dataset : Dataset κ}
    (hdataset : dataset.Meets access inv) :
    (performAll (calls.map .raster) dataset).Meets access inv := by
  induction calls generalizing dataset with
  | nil => exact hdataset
  | cons call rest ih =>
    obtain ⟨hcall, hrest⟩ := List.forall_mem_cons.mp hreading
    have hreached := (RasterCall.keeps_perform_of_isReading h hblocked hcall).reached hdataset
    exact ih hrest hreached

end DatasetCall

/-! ## Requests that are noted -/

namespace Recorder

/-- All requests that were noted are of one kind, and the codec inside has an invariant. -/
structure Noted (P : CodecCall → Prop) (Holds : κ → Prop) (recorder : Recorder κ) : Prop where
  calls : ∀ call ∈ recorder.calls, P call
  inner : Holds recorder.inner

variable {P : CodecCall → Prop} {Holds : κ → Prop}

omit [Codec κ] in
/-- Nothing was noted yet, so all that was noted is of the kind. -/
theorem noted_nil {codec : κ} (hcodec : Holds codec) : Noted P Holds ⟨codec, #[]⟩ where
  calls := by simp
  inner := hcodec

omit [Codec κ] in
/-- One more request of this kind is noted, whatever becomes of it. -/
theorem keeps_record {call : CodecCall} (hcall : P call) {act : Action κ α}
    (hact : Keeps Holds act) : Keeps (Noted P Holds) (record call act) := by
  intro recorder hrecorder
  have hpushed : ∀ noted ∈ recorder.calls.push call, P noted := by
    intro noted hmem
    rcases Array.mem_push.mp hmem with hmem | rfl
    · exact hrecorder.calls noted hmem
    · exact hcall
  have hends := (hact recorder.inner hrecorder.inner).imp_reached
    fun reached hinner => (⟨hpushed, hinner⟩ : Noted P Holds ⟨reached, _⟩)
  exact hends.of_part (fun reached => ⟨reached, recorder.calls.push call⟩) rfl

end Recorder

end RasterStore
