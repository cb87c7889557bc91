import RasterStore.Proofs.Cache.Access

/-!
# Observed codecs

An `Observed` codec passes every call on to the codec inside it and writes down what was asked and
what the answer was, also when the call failed. The log says exactly how a block store uses its
codec, and which of the calls succeeded.

* `ends_encode_called`   encoding a block is one call
* `asks_fetch`           which blocks are decoded, and whose failure a failing fetch is
* `Blames`               a step that fails only where a call of the codec did
-/

namespace RasterStore

open RasterStore.Action

/-- A call of a codec and what became of it. -/
inductive CodecEvent where
  | decode (context : BlockContext) (outcome : Except RasterError Decoded)
  | encode (context : BlockContext) (data : ByteArray) (outcome : Except RasterError Unit)
  | setNoData (band : Nat) (value : Option Binary64) (outcome : Except RasterError Unit)
  | flush (outcome : Except RasterError Unit)

/-- The call did what was asked. A decoded block has to be a whole one. -/
def CodecEvent.Succeeded : CodecEvent → Prop
  | decode context outcome =>
    ∃ decoded, outcome = .ok decoded ∧ decoded.bytes.size = context.descriptor.blockBytes
  | encode _ _ outcome | setNoData _ _ outcome | flush outcome => outcome = .ok ()

/-- The block that was to be decoded. -/
def CodecEvent.decoded? : CodecEvent → Option BlockRef
  | decode context _ => some context.block
  | encode .. | setNoData .. | flush _ => none

/-- A codec and its calls so far, oldest first. -/
structure Observed (κ : Type) where
  inner : κ
  events : List CodecEvent := []

namespace Observed

variable {κ α : Type}

/-- Passes a call on and writes down what became of it. -/
def observe (event : Except RasterError α → CodecEvent) (act : Action κ α) :
    Action (Observed κ) α := fun observed =>
  match act observed.inner with
  | (outcome, reached) => (outcome, ⟨reached, observed.events ++ [event outcome]⟩)

instance [Codec κ] : Codec (Observed κ) where
  name observed := Codec.name observed.inner
  decode context := observe (.decode context) (Codec.decode context)
  encode context data := observe (.encode context data) (Codec.encode context data)
  setNoData band value := observe (.setNoData band value) (Codec.setNoData band value)
  flush := observe .flush Codec.flush

/-- A call is written down with what became of it, whether it succeeded or failed. -/
theorem ends_observe {event : Except RasterError α → CodecEvent} {act : Action κ α}
    (observed : Observed κ) :
    (observe event act).Ends observed
      (fun value after => after.events = observed.events ++ [event (.ok value)])
      (fun error after => after.events = observed.events ++ [event (.error error)]) := by
  unfold Ends
  have hrun : (observe event act).run observed = ((act.run observed.inner).1,
    ⟨(act.run observed.inner).2, observed.events ++ [event (act.run observed.inner).1]⟩) := rfl
  rw [hrun]
  cases (act.run observed.inner).1 with
  | ok value => rfl
  | error error => rfl

end Observed

namespace BlockStore

variable {κ α β : Type}

/-- One call of the codec was made, and nothing else has changed. -/
structure Called (before : BlockStore (Observed κ)) (event : CodecEvent)
    (after : BlockStore (Observed κ)) : Prop where
  events : after.codec.events = before.codec.events ++ [event]
  others : after = { before with codec := after.codec }

variable [Codec κ] {store : BlockStore (Observed κ)}

/-- Encoding a block is one call of the codec, and an error of it names the block. -/
theorem ends_encode_called (key : BlockRef) (data : ByteArray) :
    (encode key data).Ends store
      (fun _ after => store.Called (.encode (store.context key) data (.ok ())) after)
      (fun error after => ∃ raised, error = raised.located key ∧
        store.Called (.encode (store.context key) data (.error raised)) after) := by
  apply Ends.get_bind
  apply ends_onCodec
  apply Ends.mapError
  apply (Observed.ends_observe store.codec).mono
  · exact fun _ _ hevents => ⟨hevents, rfl⟩
  · exact fun raised _ hevents => ⟨raised, rfl, hevents, rfl⟩

/-- Bringing what was stored to its final place is one call. -/
theorem ends_flushCodec_called :
    (onCodec (κ := Observed κ) Codec.flush).Ends store
      (fun _ after => store.Called (.flush (.ok ())) after)
      (fun error after => store.Called (.flush (.error error)) after) := by
  apply ends_onCodec
  apply (Observed.ends_observe store.codec).mono
  · exact fun _ _ hevents => ⟨hevents, rfl⟩
  · exact fun _ _ hevents => ⟨hevents, rfl⟩

/-! ## What is decoded, and what fails -/

/-- From `before` to `after` the codec was asked to decode these blocks, in this order. -/
structure Decodes (before : BlockStore (Observed κ)) (keys : List BlockRef)
    (after : BlockStore (Observed κ)) : Prop where
  sameBands : before.SameBands after
  events : ∃ events, after.codec.events = before.codec.events ++ events ∧
    events.filterMap CodecEvent.decoded? = keys

/-- From `before` to `after` some call of the codec did not do what was asked. -/
def Blamed (before after : BlockStore (Observed κ)) : Prop :=
  ∃ events, after.codec.events = before.codec.events ++ events ∧ ∃ event ∈ events, ¬event.Succeeded

section Logs

omit [Codec κ]

variable {before middle after : BlockStore (Observed κ)} {keys rest : List BlockRef}
variable {event : CodecEvent}

/-- Where the codec was not called, nothing was decoded. -/
theorem Decodes.of_same (hbands : before.SameBands after) (hcodec : after.codec = before.codec) :
    before.Decodes [] after :=
  ⟨hbands, [], by rw [hcodec, List.append_nil], rfl⟩

/-- Nothing is decoded where nothing happens. -/
theorem Decodes.refl (store : BlockStore (Observed κ)) : store.Decodes [] store :=
  .of_same (.refl store) rfl

/-- What is decoded in two steps is decoded in their order. -/
theorem Decodes.trans (h : before.Decodes keys middle) (h' : middle.Decodes rest after) :
    before.Decodes (keys ++ rest) after := by
  obtain ⟨events, hevents, rfl⟩ := h.events
  obtain ⟨events', hevents', rfl⟩ := h'.events
  refine ⟨h.sameBands.trans h'.sameBands, events ++ events', ?_, List.filterMap_append⟩
  rw [hevents', hevents, List.append_assoc]

/-- A failure after some blocks were decoded. -/
theorem Decodes.blamed (h : before.Decodes keys middle) (h' : middle.Blamed after) :
    before.Blamed after := by
  obtain ⟨events, hevents, -⟩ := h.events
  obtain ⟨events', hevents', event, hmem, hfailed⟩ := h'
  refine ⟨events ++ events', ?_, event, List.mem_append_right events hmem, hfailed⟩
  rw [hevents', hevents, List.append_assoc]

/-- One call of the codec decodes what that call asks for. -/
theorem Decodes.of_event (hbands : before.SameBands after)
    (hevents : after.codec.events = before.codec.events ++ [event])
    (hdecoded : [event].filterMap CodecEvent.decoded? = keys) : before.Decodes keys after :=
  ⟨hbands, [event], hevents, hdecoded⟩

/-- A call that is the last one and did not succeed is to blame. -/
theorem Blamed.of_event (hevents : after.codec.events = before.codec.events ++ [event])
    (hfailed : ¬event.Succeeded) : before.Blamed after :=
  ⟨[event], hevents, event, List.mem_singleton_self event, hfailed⟩

end Logs

/-- From `store`, the step has these blocks decoded. If it fails, then because a call of the codec
    did. -/
def Asks (act : Action (BlockStore (Observed κ)) α) (store : BlockStore (Observed κ))
    (keys : List BlockRef) : Prop :=
  act.Ends store (fun _ after => store.Decodes keys after) (fun _ after => store.Blamed after)

variable {keys rest : List BlockRef}

omit [Codec κ] in
/-- A step that only answers has nothing decoded. -/
theorem asks_pure (value : α) :
    Asks (pure value : Action (BlockStore (Observed κ)) α) store [] :=
  ends_pure.mpr (.refl store)

omit [Codec κ] in
/-- A change of the cache asks nothing of the codec. -/
theorem asks_modifyCache (f : BlockCache → BlockCache) :
    Asks (modifyCache (κ := Observed κ) f) store [] :=
  ends_modify.mpr (.of_same ⟨rfl, rfl⟩ rfl)

omit [Codec κ] in
/-- Two steps have decoded what the first and then the second asks for. -/
theorem Asks.bind {act : Action (BlockStore (Observed κ)) α}
    {next : α → Action (BlockStore (Observed κ)) β} (h : Asks act store keys)
    (hnext : ∀ value reached, Asks (next value) reached rest) :
    Asks (act >>= next) store (keys ++ rest) := by
  apply Ends.bind
  apply h.imp
  intro value reached hreached
  apply (hnext value reached).mono
  · exact fun _ _ hafter => hreached.trans hafter
  · exact fun _ _ hfailed => hreached.blamed hfailed

omit [Codec κ] in
/-- Looking at the state asks nothing of the codec. -/
theorem Asks.get_bind {next : BlockStore (Observed κ) → Action (BlockStore (Observed κ)) β}
    (h : Asks (next store) store keys) : Asks (get >>= next) store keys :=
  Ends.get_bind h

/-- Storing a block has nothing decoded. -/
theorem asks_encode (key : BlockRef) (data : ByteArray) :
    Asks (encode (κ := Observed κ) key data) store [] := by
  apply (ends_encode_called key data).mono
  · intro _ after hcalled
    have hbands : store.SameBands after := by
      rw [hcalled.others]
      exact ⟨rfl, rfl⟩
    exact .of_event hbands hcalled.events rfl
  · rintro _ after ⟨raised, -, hcalled⟩
    exact .of_event hcalled.events fun hok => by cases hok

/-- A block is decoded unless the codec fails or returns too little or too much of it. -/
theorem asks_decode (key : BlockRef) : Asks (decode (κ := Observed κ) key) store [key] := by
  -- one event, whatever the codec answers; it is to blame unless a whole block came
  apply Ends.get_bind
  apply Ends.bind
  apply ends_onCodec
  apply Ends.mapError
  apply (Observed.ends_observe store.codec).mono
  · intro decoded codec hevents
    apply Ends.modify_bind
    apply Ends.ite
    · exact fun _ => ends_pure.mpr (.of_event ⟨rfl, rfl⟩ hevents rfl)
    · -- a block of the wrong size is an answer that is not whole
      intro hsize
      refine ends_throw.mpr (.of_event hevents ?_)
      rintro ⟨_, hok, hwhole⟩
      cases hok
      exact hsize hwhole
  · intro raised codec hevents
    refine .of_event hevents ?_
    rintro ⟨_, hok, -⟩
    contradiction

/-- Giving the oldest block up has nothing decoded, written back or not. -/
theorem asks_evictOldest : Asks (evictOldest (κ := Observed κ)) store [] := by
  apply Asks.get_bind
  cases store.cache.oldest? with
  | none => exact asks_pure ()
  | some entry =>
    obtain ⟨key, block⟩ := entry
    apply Ends.ite
    · exact fun _ => (asks_encode key block.data).bind fun _ _ =>
        (asks_modifyCache _).bind fun _ _ => asks_modifyCache _
    · exact fun _ => asks_modifyCache _

/-- Making room has nothing decoded, however many blocks go. -/
theorem asks_makeRoom (target : Nat) : Asks (makeRoom (κ := Observed κ) target) store [] := by
  have hevict (count : Nat) (store : BlockStore (Observed κ)) :
      Asks (evict (κ := Observed κ) count) store [] := by
    induction count generalizing store with
    | zero => exact asks_pure ()
    | succ count ih => exact asks_evictOldest.bind fun _ reached => ih reached
  exact Asks.get_bind (hevict _ store)

/-- Loading a block has it decoded, unless it is to be overwritten. -/
theorem asks_load (key : BlockRef) (use : BlockUse) :
    Asks (load (κ := Observed κ) key use) store (if use = .overwrite then [] else [key]) := by
  apply Ends.ite
  · intro huse
    rw [if_pos huse]
    exact Asks.get_bind (asks_pure _)
  · intro huse
    rw [if_neg huse]
    exact (asks_decode key).bind fun _ _ => (asks_modifyCache _).bind fun _ _ => asks_pure _

/-- A block is decoded if it is not held, unless all of it is going to be replaced. -/
theorem asks_fetch (key : BlockRef) (use : BlockUse) :
    Asks (fetch (κ := Observed κ) key use) store
      (if store.cache.contains key = true ∨ use = .overwrite then [] else [key]) := by
  -- once the block is in the cache, the codec is asked nothing more
  have hrest (reached : BlockStore (Observed κ)) : Asks (do
      modifyCache (κ := Observed κ) (·.touch key use.forWriting)
      pure (((← get).cache.find? key).elim ByteArray.empty Block.data)) reached [] :=
    (asks_modifyCache _).bind fun _ _ => Asks.get_bind (asks_pure _)
  apply Asks.get_bind
  apply Ends.ite
  · -- a hit asks for nothing
    intro hheld
    rw [if_pos (.inl hheld)]
    exact (asks_modifyCache _).bind fun _ reached => hrest reached
  · -- a miss asks for the block, unless it is to be overwritten
    intro hnot
    simp only [hnot, false_or]
    -- giving blocks up for it decodes nothing
    have hroom (data : ByteArray) (loaded : BlockStore (Observed κ)) : Asks (do
        makeRoom (κ := Observed κ) ((← get).cache.capacity - 1)
        modifyCache (·.insert key data)
        modifyCache (·.touch key use.forWriting)
        pure (((← get).cache.find? key).elim ByteArray.empty Block.data)) loaded [] :=
      Asks.get_bind ((asks_makeRoom _).bind fun _ _ => (asks_modifyCache _).bind fun _ reached =>
        hrest reached)
    have hcounted : Asks (modifyCache (κ := Observed κ) BlockCache.countMiss) store [] :=
      asks_modifyCache _
    have hloaded := hcounted.bind fun _ _ => (asks_load key use).bind hroom
    rw [List.nil_append, List.append_nil] at hloaded
    exact hloaded

/-! ## Failures have a cause -/

/-- The step only adds to the log. If it fails, then because a call of the codec did. -/
def Blames (act : Action (BlockStore (Observed κ)) α) : Prop :=
  ∀ store, act.Ends store
    (fun _ after => store.codec.events <+: after.codec.events)
    (fun _ after => store.codec.events <+: after.codec.events ∧
      ∃ event ∈ after.codec.events, ¬event.Succeeded)

omit [Codec κ] in
/-- A step that is known to ask for some blocks fails only if a call of the codec did. -/
private theorem blames_of_asks {act : Action (BlockStore (Observed κ)) α}
    (h : ∀ store, ∃ keys, Asks act store keys) : Blames act := by
  intro store
  obtain ⟨keys, hasks⟩ := h store
  apply hasks.mono
  · intro _ after hdecodes
    obtain ⟨events, hevents, -⟩ := hdecodes.events
    rw [hevents]
    exact List.prefix_append _ _
  · rintro _ after ⟨events, hevents, event, hmem, hfailed⟩
    rw [hevents]
    exact ⟨List.prefix_append _ _, event, List.mem_append_right _ hmem, hfailed⟩

omit [Codec κ] in
/-- A step that only answers does not fail. -/
theorem blames_pure (value : α) : Blames (pure value : Action (BlockStore (Observed κ)) α) :=
  blames_of_asks fun _ => ⟨_, asks_pure value⟩

omit [Codec κ] in
/-- A change of the cache does not fail. -/
theorem blames_modifyCache (f : BlockCache → BlockCache) :
    Blames (modifyCache (κ := Observed κ) f) :=
  blames_of_asks fun _ => ⟨_, asks_modifyCache f⟩

omit [Codec κ] in
/-- If neither of two steps fails without a cause, the two together do not. -/
theorem Blames.bind {act : Action (BlockStore (Observed κ)) α}
    {next : α → Action (BlockStore (Observed κ)) β} (h : Blames act)
    (hnext : ∀ value, Blames (next value)) : Blames (act >>= next) := by
  intro store
  apply Ends.bind
  apply (h store).imp
  intro value reached hreached
  apply (hnext value reached).mono
  · exact fun _ _ hafter => hreached.trans hafter
  · exact fun _ _ hafter => ⟨hreached.trans hafter.1, hafter.2⟩

/-- Fetching a block fails only if a call of the codec did. -/
theorem blames_fetch (key : BlockRef) (use : BlockUse) :
    Blames (fetch (κ := Observed κ) key use) :=
  blames_of_asks fun _ => ⟨_, asks_fetch key use⟩

end BlockStore

end RasterStore
