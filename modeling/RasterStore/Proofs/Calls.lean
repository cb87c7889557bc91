import RasterStore.Proofs.Operations

/-!
# Calls to datasets

A `RasterCall` is a call that a caller makes to a dataset or to one of its bands, as a value, so
that runs of calls are lists. A call to a band first asks the dataset for it.
-/

namespace RasterStore

open RasterStore.Action

variable {κ α : Type}

namespace Dataset

/-- Runs a transfer into a buffer and answers with the buffer. -/
def intoBuffer (buffer : ByteArray) (act : Action (Dataset κ × ByteArray) Unit) :
    Action (Dataset κ) ByteArray := fun dataset =>
  match act (dataset, buffer) with
  | (outcome, (reached, filled)) => (outcome.map fun _ => filled, reached)

/-- A step that fills a new buffer answers with what is in it at the end. -/
theorem ends_intoBuffer {buffer : ByteArray} {act : Action (Dataset κ × ByteArray) Unit}
    {dataset : Dataset κ} {good : ByteArray → Dataset κ → Prop}
    {bad : RasterError → Dataset κ → Prop}
    (h : act.Ends (dataset, buffer) (fun _ after => good after.2 after.1)
      (fun error after => bad error after.1)) :
    (intoBuffer buffer act).Ends dataset good bad := by
  have hrun : (intoBuffer buffer act).run dataset =
      ((act.run (dataset, buffer)).1.map fun _ => (act.run (dataset, buffer)).2.2,
        (act.run (dataset, buffer)).2.1) := rfl
  unfold Ends at h ⊢
  rw [hrun]
  cases hact : act.run (dataset, buffer) with
  | mk outcome reached =>
    rw [hact] at h
    cases outcome with
    | ok value => exact h
    | error error => exact h

/-- Runs an operation on a band, if there is one of this number. -/
def onBand (band : Nat) (act : Action (Dataset κ) α) : Action (Dataset κ) α := do
  checkBand (← get) band
  act

/-- The dataset has a band of this number. -/
def HasBand (dataset : Dataset κ) (band : Nat) : Prop :=
  0 < band ∧ band ≤ dataset.bandCount

/-- An operation on a band is carried out if there is the band; else nothing happens. -/
theorem ends_onBand {band : Nat} {act : Action (Dataset κ) α} {dataset : Dataset κ}
    {good : α → Dataset κ → Prop} {bad : RasterError → Dataset κ → Prop}
    (hact : dataset.HasBand band → act.Ends dataset good bad)
    (hrefused : ¬dataset.HasBand band → ∀ error, bad error dataset) :
    (onBand band act).Ends dataset good bad := by
  refine Ends.get_bind (Ends.bind ?_)
  unfold checkBand
  split
  · next hband =>
    refine hrefused (fun h => ?_) _
    have := h.1
    have := h.2
    omega
  · next hband =>
    refine hact ⟨?_, ?_⟩
    · omega
    · omega

end Dataset

/-- A call to a dataset or to one of its bands. -/
inductive RasterCall where
  | read (band : Nat) (request : TransferRequest) (resampling : Resampling) (buffer : ByteArray)
  | readBlock (band column row length : Nat)
  | write (band : Nat) (request : TransferRequest) (buffer : ByteArray)
  | writeResampled (band : Nat) (request : TransferRequest) (resampling : Resampling)
      (buffer : ByteArray)
  | writeBlock (band column row : Nat) (data : ByteArray)
  | fill (band : Nat) (value : Binary64)
  | setNoData (band : Nat) (value : Option Binary64)
  | flushBand (band : Nat)
  | flush
  | setCapacity (capacity : Nat)

namespace Dataset

variable [Codec κ]

/-- Reads a window into a buffer and answers with the buffer. -/
def readWindow (band : Nat) (request : TransferRequest) (resampling : Resampling)
    (buffer : ByteArray) : Action (Dataset κ) ByteArray :=
  onBand band (intoBuffer buffer (Band.readRaw band request resampling))

/-- Reads a block and answers with its bytes. -/
def readBlock (band column row length : Nat) : Action (Dataset κ) ByteArray :=
  onBand band (Band.readBlock band column row length)

end Dataset

/-- Makes the call to a dataset. What a reading call answers is dropped. -/
def RasterCall.perform [Codec κ] : RasterCall → Action (Dataset κ) PUnit
  | read band request resampling buffer => do
    let _ ← Dataset.readWindow band request resampling buffer
    pure ()
  | readBlock band column row length => do
    let _ ← Dataset.readBlock band column row length
    pure ()
  | write band request buffer => Dataset.onBand band (Band.writeRaw band request buffer)
  | writeResampled band request resampling buffer =>
    Dataset.onBand band (Band.writeResampled band request resampling buffer)
  | writeBlock band column row data =>
    Dataset.onBand band (Band.writeBlock band column row data)
  | fill band value => Dataset.onBand band (Band.fill band value)
  | setNoData band value => Dataset.onBand band (Band.setNoData band value)
  | flushBand band => Dataset.onBand band (Band.flush band)
  | flush => Dataset.flush
  | setCapacity capacity => Dataset.setCacheBlocks capacity

/-- The descriptor of a band, counted from one. -/
def bandOf (bands : List BandDescriptor) (band : Nat) : BandDescriptor :=
  bands.getD (band - 1) default

/-- The descriptor that the store has for a band is that of the list. -/
theorem descriptor_of_bands {κ : Type} {store : BlockStore κ} {bands : List BandDescriptor}
    (hbands : store.bands = bands.toArray) (band : Nat) :
    store.descriptor band = bandOf bands band := by
  rw [BlockStore.descriptor, hbands, bandOf, Array.getD_eq_getD_getElem?, List.getElem?_toArray,
    List.getD_eq_getElem?_getD]

namespace RasterCall

/-- The call gives pixels of a block new values, if it succeeds. -/
def Writes (bands : List BandDescriptor) : RasterCall → BlockRef → Prop
  | write band request _, key | writeResampled band request _ _, key =>
    ∃ x y, (Window.ofRequest request).Contains x y ∧ (bandOf bands band).blockOf band x y = key
  | writeBlock band column row _, key => key = ⟨band, column, row⟩
  | fill band _, key => key.band = band
  | read .., _ | readBlock .., _ | setNoData .., _ | flushBand _, _ | flush, _
  | setCapacity _, _ => False

/-- The bands after the call, if it succeeds. -/
def bandsAfter (bands : List BandDescriptor) : RasterCall → List BandDescriptor
  | setNoData band value => bands.modify (band - 1) ({ · with noData := value })
  | read .. | readBlock .. | write .. | writeResampled .. | writeBlock .. | fill ..
  | flushBand _ | flush | setCapacity _ => bands

/-- The bands after several calls. -/
def bandsAfterAll (bands : List BandDescriptor) (calls : List RasterCall) : List BandDescriptor :=
  calls.foldl (fun bands call => call.bandsAfter bands) bands

/-- The last call changes the bands that the calls before it left. -/
theorem bandsAfterAll_concat (bands : List BandDescriptor) (calls : List RasterCall)
    (call : RasterCall) :
    bandsAfterAll bands (calls ++ [call]) = call.bandsAfter (bandsAfterAll bands calls) :=
  List.foldl_append

end RasterCall

/-! ## Shapes of bands -/

/-- The bands differ in their no-data values only. -/
structure SameShapes (bands bands' : List BandDescriptor) : Prop where
  length : bands'.length = bands.length
  type : ∀ band, (bandOf bands' band).type = (bandOf bands band).type
  block : ∀ band, (bandOf bands' band).block = (bandOf bands band).block

namespace SameShapes

variable {bands bands' : List BandDescriptor} {band : Nat}

theorem refl (bands : List BandDescriptor) : SameShapes bands bands :=
  ⟨rfl, fun _ => rfl, fun _ => rfl⟩

theorem symm (h : SameShapes bands bands') : SameShapes bands' bands :=
  ⟨h.length.symm, fun band => (h.type band).symm, fun band => (h.block band).symm⟩

theorem trans {bands'' : List BandDescriptor} (h : SameShapes bands bands')
    (h' : SameShapes bands' bands'') : SameShapes bands bands'' :=
  ⟨h'.length.trans h.length, fun band => (h'.type band).trans (h.type band),
    fun band => (h'.block band).trans (h.block band)⟩

theorem grid (h : SameShapes bands bands') (band : Nat) (raster : Size) :
    (bandOf bands' band).grid raster = (bandOf bands band).grid raster := by
  rw [BandDescriptor.grid, BandDescriptor.grid, h.block]

theorem blockBytes (h : SameShapes bands bands') (band : Nat) :
    (bandOf bands' band).blockBytes = (bandOf bands band).blockBytes := by
  rw [BandDescriptor.blockBytes, BandDescriptor.blockBytes, BandDescriptor.blockPixels,
    BandDescriptor.blockPixels, h.type, h.block]

/-- The same blocks are written whatever the no-data values are. -/
theorem writes (h : SameShapes bands bands') {call : RasterCall} {key : BlockRef}
    (hwrites : call.Writes bands' key) : call.Writes bands key := by
  cases call with
  | write band request buffer | writeResampled band request resampling buffer =>
    obtain ⟨x, y, hcontains, hkey⟩ := hwrites
    rw [BandDescriptor.blockOf, h.block] at hkey
    exact ⟨x, y, hcontains, hkey⟩
  | writeBlock band column row data => exact hwrites
  | fill band value => exact hwrites
  | read | readBlock | setNoData | flushBand | flush | setCapacity => exact hwrites.elim

/-- A new no-data value changes nothing else of a band. -/
private theorem bandOf_modify (bands : List BandDescriptor) (i : Nat) (value : Option Binary64)
    (band : Nat) : ∃ noData, bandOf (bands.modify i ({ · with noData := value })) band =
      { bandOf bands band with noData } := by
  simp only [bandOf, List.getD_eq_getElem?_getD, List.getElem?_modify]
  cases bands[band - 1]? with
  | none => exact ⟨_, rfl⟩
  | some descriptor =>
    by_cases hband : i = band - 1
    · exact ⟨value, by simp [hband]⟩
    · exact ⟨descriptor.noData, by simp [hband]⟩

/-- A call changes no-data values at most, so all bands keep their shape. -/
theorem bandsAfter (call : RasterCall) (bands : List BandDescriptor) :
    SameShapes bands (call.bandsAfter bands) := by
  cases call with
  | setNoData band value =>
    refine ⟨List.length_modify _ _ _, fun other => ?_, fun other => ?_⟩
    · obtain ⟨noData, hother⟩ := bandOf_modify bands (band - 1) value other
      rw [RasterCall.bandsAfter, hother]
    · obtain ⟨noData, hother⟩ := bandOf_modify bands (band - 1) value other
      rw [RasterCall.bandsAfter, hother]
  | _ => exact .refl bands

theorem bandsAfterAll (calls : List RasterCall) (bands : List BandDescriptor) :
    SameShapes bands (RasterCall.bandsAfterAll bands calls) := by
  induction calls generalizing bands with
  | nil => exact .refl bands
  | cons call rest ih => exact (bandsAfter call bands).trans (ih _)

end SameShapes

end RasterStore
