import RasterStore.Proofs.Cache.WriteBack

/-!
# No update is lost

Whatever calls of the codec fail, a change that a caller made to a block survives: in the cache, or
in the codec once it was written back. The codec is any `ExactCodec`, which gives back the bytes
that it was given last; each of its calls may fail, and a decoded block may have a wrong length.

* `CacheCall`             the operations of a block store, and what becomes of its contents
* `Reachable`             the states that they lead to
* `updates_survive`       what holds in all of these states
-/

namespace RasterStore

open BlockStore RasterStore.Action

/-- A codec that stores the bytes of blocks as they are. Its calls may fail, and then they store
    nothing; what is decoded may have a wrong length. -/
class ExactCodec (κ : Type) [Codec κ] where
  /-- The bytes that are stored for a block. -/
  stored : κ → BlockRef → ByteArray
  stored_decode : ∀ (context : BlockContext) (codec : κ),
    stored ((Codec.decode context).run codec).2 = stored codec
  decode_exact : ∀ {context : BlockContext} {codec reached : κ} {decoded : Decoded},
    (Codec.decode context).run codec = (.ok decoded, reached) →
    decoded.bytes.size = context.descriptor.blockBytes →
    decoded.bytes = stored codec context.block
  encode_ok : ∀ {context : BlockContext} {codec reached : κ} {data : ByteArray},
    (Codec.encode context data).run codec = (.ok (), reached) →
    ∀ key, stored reached key = if key = context.block then data else stored codec key
  encode_error : ∀ {context : BlockContext} {codec reached : κ} {data : ByteArray}
    {error : RasterError}, (Codec.encode context data).run codec = (.error error, reached) →
    stored reached = stored codec

variable {κ : Type} [Codec κ] [ExactCodec κ]

/-- An exact codec keeps all bytes of all blocks. -/
def exactModel : CodecModel κ where
  View := ByteArray
  view _ data := data
  content codec context := ExactCodec.stored codec context.block
  Given _ _ := True
  Holds _ := True
  Serves _ := True
  Fits _ _ := True
  MayFail := True
  fits_of_size _ := trivial
  ends_decode := by
    intro codec context _ _
    have hkeeps := ExactCodec.stored_decode context codec
    cases hrun : (Codec.decode context).run codec with
    | mk outcome reached =>
      rw [hrun] at hkeeps
      have hsame : (fun other : BlockContext => ExactCodec.stored reached other.block) =
          fun other => ExactCodec.stored codec other.block := by
        rw [hkeeps]
      cases outcome with
      | error error => exact ends_of_run_error hrun ⟨⟨trivial, hsame, rfl⟩, trivial⟩
      | ok decoded =>
        refine ends_of_run_ok hrun ⟨⟨trivial, hsame, rfl⟩, ?_⟩
        split
        · next hsize => exact ExactCodec.decode_exact hrun hsize
        · trivial
  ends_encode := by
    intro codec context data _ _ _
    cases hrun : (Codec.encode context data).run codec with
    | mk outcome reached =>
      cases outcome with
      | error error =>
        refine ends_of_run_error hrun ⟨⟨trivial, fun other _ => ⟨?_, Iff.rfl⟩⟩, trivial⟩
        rw [ExactCodec.encode_error hrun]
      | ok _ =>
        exact ends_of_run_ok hrun ⟨trivial, fun other _ =>
          ⟨ExactCodec.encode_ok hrun other.block, iff_of_true trivial (.inr trivial)⟩⟩

/-- The content of a block: its bytes in the cache, else those that the codec has stored. -/
def BlockStore.content (store : BlockStore κ) (key : BlockRef) : ByteArray :=
  match store.cache.find? key with
  | some block => block.data
  | none => ExactCodec.stored store.codec key

/-- What a block holds when a caller gets it: its content, or padding if it is going to be
    overwritten and has to be loaded. -/
def BlockStore.contentGot (store : BlockStore κ) (key : BlockRef) (use : BlockUse) : ByteArray :=
  if use = .overwrite ∧ store.cache.find? key = none then (store.descriptor key.band).padding
  else store.content key

/-! ## Operations -/

/-- The operations of a block store. -/
inductive CacheCall where
  /-- Gets a block, for any use. -/
  | get (key : BlockRef) (use : BlockUse)
  /-- Gets a block and changes its bytes. -/
  | change (key : BlockRef) (use : BlockUse) (f : ByteArray → ByteArray)
  | flush
  | flushBand (band : Nat)
  | setCapacity (capacity : Nat)
  | invalidate (key : BlockRef)
  | invalidateBand (band : Nat)

namespace CacheCall

omit [ExactCodec κ] in
/-- Carries an operation out. -/
def perform : CacheCall → Action (BlockStore κ) Unit
  | get key use => do let _ ← BlockStore.fetch key use
  | change key use f => BlockStore.change key use f
  | flush => BlockStore.flush
  | flushBand band => BlockStore.flushBand band
  | setCapacity capacity => BlockStore.setCapacity capacity
  | invalidate key => do let _ ← BlockStore.invalidate key
  | invalidateBand band => BlockStore.invalidateBand band

omit [Codec κ] [ExactCodec κ] in
/-- Blocks are changed only if they were got for writing, and dropped only if they are clean. -/
def Allowed (store : BlockStore κ) : CacheCall → Prop
  | change _ use _ => use.forWriting = true
  | invalidate key => ∀ block, store.cache.find? key = some block → block.dirty = false
  | invalidateBand band =>
    ∀ key block, key.band = band → store.cache.find? key = some block → block.dirty = false
  | get _ _ | flush | flushBand _ | setCapacity _ => True

/-- The content of a block after an operation with the given outcome: the one before, unless the
    block was got to be overwritten or was changed. -/
def contentAfter (store : BlockStore κ) (outcome : Except RasterError Unit) (key : BlockRef) :
    CacheCall → ByteArray
  | get target use =>
    if outcome.isOk ∧ key = target then store.contentGot target use else store.content key
  | change target use f =>
    if outcome.isOk ∧ key = target then f (store.contentGot target use) else store.content key
  | flush | flushBand _ | setCapacity _ | invalidate _ | invalidateBand _ => store.content key

end CacheCall

/-- The states that operations lead to from an empty cache, whatever their outcomes. -/
inductive Reachable : BlockStore κ → Prop
  | start (capacity : Nat) (codec : κ) (bands : Array BandDescriptor) (raster : Size)
      (reports : Reports) : Reachable ⟨BlockCache.empty capacity, codec, bands, raster, reports⟩
  | step {store : BlockStore κ} (call : CacheCall) : Reachable store → call.Allowed store →
      Reachable (call.perform.run store).2

/-! ## What one operation does -/

variable {store : BlockStore κ}

/-- One operation leaves the store sound and makes of each content what it says. -/
private theorem ends_perform (hsound : exactModel.Sound store) (call : CacheCall)
    (hallowed : call.Allowed store) :
    (call.perform (κ := κ)).Ends store
      (fun _ after => exactModel.Sound after ∧
        ∀ key, after.content key = call.contentAfter store (.ok ()) key)
      (fun error after => exactModel.Sound after ∧
        ∀ key, after.content key = call.contentAfter store (.error error) key) := by
  -- most operations change no content
  have hkeeps {after : BlockStore κ} (h : exactModel.Keeps store after) :
      exactModel.Sound after ∧ ∀ key, after.content key = store.content key :=
    ⟨h.sound, fun key => h.logical key trivial⟩
  cases call with
  | get target use =>
    -- a block that is got shows its content and leaves all contents as they are
    refine Ends.bind ((CodecModel.ends_fetch hsound trivial use).mono ?_ ?_)
    · intro data after h
      refine ends_pure.mpr ⟨h.sound, fun key => ?_⟩
      by_cases hkey : key = target
      · subst hkey
        exact h.logical_self.trans (if_pos ⟨rfl, rfl⟩).symm
      · exact (h.others key hkey trivial).trans (if_neg fun hboth => hkey hboth.2).symm
    · exact fun _ _ h => hkeeps h.1
  | change target use f =>
    -- only the changed block has a new content, which is `f` of what the caller was shown
    refine (CodecModel.ends_change hsound trivial hallowed fun _ _ => trivial).mono ?_ ?_
    · intro _ after hafter
      obtain ⟨data, h⟩ := hafter
      refine ⟨h.sound, fun key => ?_⟩
      by_cases hkey : key = target
      · subst hkey
        have hview : data = store.contentGot key use := h.view
        rw [hview] at h
        exact h.logical.trans (if_pos ⟨rfl, rfl⟩).symm
      · exact (h.others key hkey trivial).trans (if_neg fun hboth => hkey hboth.2).symm
    · exact fun _ _ h => hkeeps h.1
  | flush =>
    exact (CodecModel.ends_flushSelected_keeps hsound _).mono (fun _ _ h => hkeeps h.1)
      fun _ _ h => hkeeps h.1
  | flushBand band =>
    exact (CodecModel.ends_flushSelected_keeps hsound _).mono (fun _ _ h => hkeeps h.1)
      fun _ _ h => hkeeps h.1
  | setCapacity capacity =>
    exact (CodecModel.ends_setCapacity hsound capacity).mono (fun _ _ h => hkeeps h)
      fun _ _ h => hkeeps h.1
  | invalidate target =>
    -- a block given up by the caller is not dirty, so that its content is the stored one
    refine Ends.bind (Ends.get_bind (Ends.modify_bind (ends_pure.mpr (ends_pure.mpr (hkeeps ?_)))))
    refine (CodecModel.givesUp_drop hsound (hsound.distinct.remove target)
      (BlockCache.find?_remove store.cache target) ?_).keeps
    rintro other block rfl hheld
    exact hallowed block hheld
  | invalidateBand band =>
    -- the same for all blocks of the band
    refine ends_modify.mpr (hkeeps ?_)
    exact (CodecModel.givesUp_drop hsound (hsound.distinct.removeBand band)
      (fun _ => BlockCache.find?_removeBand band) hallowed).keeps

private theorem reachable_sound (h : Reachable store) : exactModel.Sound store := by
  induction h with
  | start => exact CodecModel.sound_of_empty trivial rfl
  | step call _ hallowed ih =>
    exact Ends.reached ((ends_perform ih call hallowed).mono (fun _ _ h => h.1) fun _ _ h => h.1)

/-! ## What holds in all states -/

/-- No update is lost, whatever calls of the codec fail:
    * a clean block in the cache has the bytes that the codec has stored;
    * an operation, whether it succeeds or fails, changes no content but those that it says;
    * a block that is got has its content;
    * after a flush that succeeds, the codec has stored the content of each block flushed. -/
theorem updates_survive (h : Reachable store) :
    (∀ key block, store.cache.find? key = some block → block.dirty = false →
      block.data = ExactCodec.stored store.codec key) ∧
    (∀ call : CacheCall, call.Allowed store → ∀ key,
      (call.perform.run store).2.content key =
        call.contentAfter store (call.perform.run store).1 key) ∧
    (∀ key use data after, (fetch key use).run store = (.ok data, after) →
      data = store.contentGot key use ∧ after.content key = data) ∧
    (∀ after, (flush (κ := κ)).run store = (.ok (), after) →
      ∀ key, ExactCodec.stored after.codec key = store.content key) ∧
    (∀ band after, (flushBand (κ := κ) band).run store = (.ok (), after) →
      ∀ key, key.band = band → ExactCodec.stored after.codec key = store.content key) := by
  have hsound := reachable_sound h
  refine ⟨fun key block => hsound.clean, fun call hallowed key => ?_, fun key use data after hrun => ?_,
    fun after hrun key => ?_, fun band after hrun key hband => ?_⟩
  · -- the content after a call, by how the call ended
    have hends := ends_perform hsound call hallowed
    unfold Ends at hends
    split at hends
    · next hrun => rw [hrun]; exact hends.2 key
    · next hrun => rw [hrun]; exact hends.2 key
  · -- what a get answers is the content, before and after it
    have hfetched := (CodecModel.ends_fetch hsound trivial use).of_ok hrun
    have hview : data = store.contentGot key use := hfetched.view
    exact ⟨hview, hfetched.logical_self.trans hview.symm⟩
  · -- after a flush the storage holds the content of every block
    exact ((CodecModel.ends_flushSelected_keeps hsound _).of_ok hrun).2 key rfl trivial
  · -- and after a flush of a band that of every block of the band
    exact ((CodecModel.ends_flushSelected_keeps hsound _).of_ok hrun).2 key
      (beq_iff_eq.mpr hband) trivial

/-! ## An exact codec whose calls fail -/

/-- What becomes of a call. -/
inductive ScriptedOutcome where
  | works
  | fails
  /-- A decoded block has one byte too many. -/
  | garbles

/-- A table of blocks. What becomes of the next calls is written down in advance. -/
structure ScriptedCodec where
  table : BlockRef → ByteArray
  script : List ScriptedOutcome

namespace ScriptedCodec

/-- Takes the next outcome from the script; behind its end all calls work. -/
def next : Action ScriptedCodec ScriptedOutcome := fun codec =>
  match codec with
  | ⟨table, []⟩ => (.ok .works, ⟨table, []⟩)
  | ⟨table, outcome :: script⟩ => (.ok outcome, ⟨table, script⟩)

instance : Codec ScriptedCodec where
  name _ := "SCRIPT"
  decode context := do
    match ← next with
    | .works => pure { bytes := (← get).table context.block }
    | .fails => throw (.io none "no such block")
    | .garbles => pure { bytes := ByteArray.zeros (context.descriptor.blockBytes + 1) }
  encode context data := do
    match ← next with
    | .works => modify fun codec =>
        { codec with table := fun key => if key = context.block then data else codec.table key }
    | .fails | .garbles => throw (.io none "no room left")

instance : ExactCodec ScriptedCodec where
  stored codec := codec.table
  stored_decode := by
    rintro context ⟨table, script⟩
    rcases script with - | ⟨- | - | -, script⟩ <;> rfl
  decode_exact := by
    rintro context ⟨table, script⟩ reached decoded hrun hsize
    rcases script with - | ⟨- | - | -, script⟩ <;> cases hrun
    · rfl
    · rfl
    · simp at hsize
  encode_ok := by
    rintro context ⟨table, script⟩ reached data hrun key
    rcases script with - | ⟨- | - | -, script⟩ <;> cases hrun <;> rfl
  encode_error := by
    rintro context ⟨table, script⟩ reached data error hrun
    rcases script with - | ⟨- | - | -, script⟩ <;> cases hrun <;> rfl

/-- Two blocks of one pixel each, room for one of them, and a codec whose next call fails. -/
def crowded : BlockStore ScriptedCodec :=
  ⟨BlockCache.empty 1, ⟨fun _ => ByteArray.zeros 1, [.fails]⟩, #[⟨.byte, ⟨1, 1⟩, none⟩], ⟨2, 1⟩, {}⟩

/-- A change of the first block. -/
def changeFirst : CacheCall :=
  .change ⟨1, 0, 0⟩ .overwrite fun _ => ⟨#[7]⟩

/-- A request for the second block, for which the first one would have to go. -/
def getSecond : CacheCall :=
  .get ⟨1, 1, 0⟩ .overwrite

end ScriptedCodec

open ScriptedCodec in
/-- The changed block cannot be written back to make room for another one; it keeps its bytes. -/
theorem updates_survive_crowded :
    Reachable (changeFirst.perform.run crowded).2 ∧
    (getSecond.perform.run (changeFirst.perform.run crowded).2).1.isOk = false ∧
    (getSecond.perform.run (changeFirst.perform.run crowded).2).2.content ⟨1, 0, 0⟩ = ⟨#[7]⟩ := by
  have hreach : Reachable (changeFirst.perform.run crowded).2 :=
    .step changeFirst (.start 1 _ _ _ _) rfl
  refine ⟨hreach, by rfl, ?_⟩
  exact ((updates_survive hreach).2.1 getSecond trivial ⟨1, 0, 0⟩).trans (by rfl)

end RasterStore
