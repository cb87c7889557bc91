import RasterStore.Proofs.Cache.Observed
import RasterStore.Proofs.Cache.Residents

/-!
# Requests for blocks

Which blocks a step requests from its cache, one after another, and what the requests cost. A
request finds its block or misses it, and a block that is missed has to be decoded, unless all of
it is going to be replaced. `Traffic` says that some requests are all that was made, and that the
numbers of the cache and the log of the codec agree with them.

* `ends_fetch_traffic`, `ends_change_traffic`   one request
* `Requests.forM`                               the requests of a loop
-/

namespace RasterStore

open BlockStore RasterStore.Action

/-- A block and what it is wanted for. -/
structure Wanted where
  key : BlockRef
  use : BlockUse

/-- A block that was requested, and whether the cache held it then. -/
structure BlockRequest extends Wanted where
  held : Bool

/-- The block has to be decoded for the request. -/
def BlockRequest.decodes (request : BlockRequest) : Bool :=
  !request.held && request.use ≠ .overwrite

variable {κ : Type} [Codec κ]

/-- The store after some requests, each for a block that was fetched, or fetched and changed. -/
inductive Requested : BlockStore κ → List BlockRequest → BlockStore κ → Prop where
  | nil (store : BlockStore κ) : Requested store [] store
  | fetch {before middle after : BlockStore κ} {key : BlockRef} {use : BlockUse}
      {data : ByteArray} {rest : List BlockRequest}
      (run : (BlockStore.fetch key use).run before = (.ok data, middle))
      (later : Requested middle rest after) :
      Requested before (⟨⟨key, use⟩, before.cache.contains key⟩ :: rest) after
  | change {before middle after : BlockStore κ} {key : BlockRef} {use : BlockUse}
      {f : ByteArray → ByteArray} {rest : List BlockRequest}
      (run : (BlockStore.change key use f).run before = (.ok (), middle))
      (later : Requested middle rest after) :
      Requested before (⟨⟨key, use⟩, before.cache.contains key⟩ :: rest) after

theorem Requested.append {before middle after : BlockStore κ} {requests rest : List BlockRequest}
    (h : Requested before requests middle) (hrest : Requested middle rest after) :
    Requested before (requests ++ rest) after := by
  induction h with
  | nil => exact hrest
  | fetch run _ ih => exact .fetch run (ih hrest)
  | change run _ ih => exact .change run (ih hrest)

/-- From `before` to `after` these requests were made, and nothing else was asked of the cache and
    decoded by the codec. -/
structure Traffic (before : BlockStore (Observed κ)) (requests : List BlockRequest)
    (after : BlockStore (Observed κ)) : Prop where
  made : Requested before requests after
  hits : after.cache.stats.hits = before.cache.stats.hits + requests.countP (·.held)
  misses : after.cache.stats.misses = before.cache.stats.misses + requests.countP (!·.held)
  decodes : before.Decodes ((requests.filter BlockRequest.decodes).map (·.key)) after

namespace Traffic

variable {before middle after : BlockStore (Observed κ)} {requests rest : List BlockRequest}

theorem nil (store : BlockStore (Observed κ)) : Traffic store [] store :=
  ⟨.nil store, rfl, rfl, .refl store⟩

theorem append (h : Traffic before requests middle) (hrest : Traffic middle rest after) :
    Traffic before (requests ++ rest) after := by
  refine ⟨h.made.append hrest.made, ?_, ?_, ?_⟩
  · rw [hrest.hits, h.hits, List.countP_append, Nat.add_assoc]
  · rw [hrest.misses, h.misses, List.countP_append, Nat.add_assoc]
  · rw [List.filter_append, List.map_append]
    exact h.decodes.trans hrest.decodes

/-- Each request is a hit or a miss. -/
theorem lookups (h : Traffic before requests after) :
    after.cache.stats.hits + after.cache.stats.misses =
      before.cache.stats.hits + before.cache.stats.misses + requests.length := by
  -- a request is counted by what it found
  have hlength := List.length_eq_countP_add_countP (·.held) (l := requests)
  have hmisses : requests.countP (fun request => decide ¬request.held = true) =
      requests.countP (!·.held) := by
    apply List.countP_congr
    intro request _
    cases request.held <;> simp
  rw [hmisses] at hlength
  rw [h.hits, h.misses]
  omega

end Traffic

/-! ## One request -/

variable {store : BlockStore (Observed κ)}

/-- A fetch is counted as what it is. -/
private theorem ends_fetch_counted (key : BlockRef) (use : BlockUse) :
    (fetch (κ := Observed κ) key use).Ends store
      (fun _ after =>
        after.cache.stats.hits =
          store.cache.stats.hits + [store.cache.contains key].countP id ∧
        after.cache.stats.misses =
          store.cache.stats.misses + [store.cache.contains key].countP not)
      (fun _ _ => True) := by
  -- a hit if the block is held, a miss if it is not
  cases hheld : store.cache.contains key with
  | true =>
    apply (ends_fetch_of_held hheld use).mono _ fun _ _ _ => trivial
    intro _ after hafter
    rw [hafter, BlockCache.stats_touch]
    exact ⟨rfl, rfl⟩
  | false =>
    apply (ends_fetch_of_not_held hheld use).mono _ fun _ _ _ => trivial
    intro _ after hbrought
    rw [hbrought.stats]
    exact ⟨rfl, rfl⟩

omit [Codec κ] in
/-- A request decodes its block if it has to. -/
private theorem decodes_of_request {after : BlockStore (Observed κ)} {key : BlockRef}
    {use : BlockUse}
    (h : store.Decodes
      (if store.cache.contains key = true ∨ use = .overwrite then [] else [key]) after) :
    store.Decodes (([(⟨⟨key, use⟩, store.cache.contains key⟩ : BlockRequest)].filter
      BlockRequest.decodes).map (·.key)) after := by
  have hkeys : (if store.cache.contains key = true ∨ use = .overwrite then [] else [key]) =
      ([(⟨⟨key, use⟩, store.cache.contains key⟩ : BlockRequest)].filter
        BlockRequest.decodes).map (·.key) := by
    cases hheld : store.cache.contains key <;> cases use <;> rfl
  exact hkeys ▸ h

theorem ends_fetch_traffic (key : BlockRef) (use : BlockUse) :
    (fetch (κ := Observed κ) key use).Ends store
      (fun _ after => Traffic store [⟨⟨key, use⟩, store.cache.contains key⟩] after)
      (fun _ after => store.Blamed after) := by
  apply ((ends_run.and (ends_fetch_counted key use)).and (asks_fetch key use)).mono
  · rintro data after ⟨⟨hrun, hhits, hmisses⟩, hdecodes⟩
    exact ⟨.fetch hrun (.nil after), hhits, hmisses, decodes_of_request hdecodes⟩
  · exact fun _ _ hfailed => hfailed.2

/-- A change requests its block once. -/
theorem ends_change_traffic (key : BlockRef) (use : BlockUse) (f : ByteArray → ByteArray) :
    (change (κ := Observed κ) key use f).Ends store
      (fun _ after => Traffic store [⟨⟨key, use⟩, store.cache.contains key⟩] after)
      (fun _ after => store.Blamed after) := by
  -- the changed bytes are put in place after the traffic of the fetch is counted
  have hcounted : (change (κ := Observed κ) key use f).Ends store
      (fun _ after => ∃ fetched, Traffic store [⟨⟨key, use⟩, store.cache.contains key⟩] fetched ∧
        after = { fetched with cache := fetched.cache.modifyNewest f })
      (fun _ after => store.Blamed after) := by
    apply Ends.bind
    apply (ends_fetch_traffic key use).imp
    exact fun _ fetched htraffic => ends_modify.mpr ⟨fetched, htraffic, rfl⟩
  apply (ends_run.and hcounted).mono
  · rintro _ after ⟨hrun, fetched, htraffic, hafter⟩
    -- the new bytes change no number of the cache and ask nothing of the codec
    have hstats : after.cache.stats = fetched.cache.stats := by
      rw [hafter, BlockCache.stats_modifyNewest]
    have hsame : fetched.Decodes [] after := by
      rw [hafter]
      exact .of_same ⟨rfl, rfl⟩ rfl
    refine ⟨.change hrun (.nil after), ?_, ?_, ?_⟩
    · rw [hstats]
      exact htraffic.hits
    · rw [hstats]
      exact htraffic.misses
    · have hdecodes := htraffic.decodes.trans hsame
      rw [List.append_nil] at hdecodes
      exact hdecodes
  · exact fun _ _ hfailed => hfailed.2

/-! ## The requests of a step -/

variable {σ α ι : Type} {part : σ → BlockStore (Observed κ)} {start : σ}

/-- On the store that is a part of its state, the step makes requests for these blocks, in this
    order, and no others. It fails only if a call of the codec does. -/
def Requests (part : σ → BlockStore (Observed κ)) (act : Action σ α) (start : σ)
    (wanted : List Wanted) : Prop :=
  act.Ends start
    (fun _ after => ∃ requests, requests.map BlockRequest.toWanted = wanted ∧
      Traffic (part start) requests (part after))
    (fun _ after => (part start).Blamed (part after))

namespace Requests

/-- A loop makes the requests of its steps, which may rely on the bands that it started with. -/
theorem forM {items : List ι} {act : ι → Action σ PUnit} {wantedOf : ι → List Wanted}
    (hstep : ∀ item ∈ items, ∀ middle, (part start).SameBands (part middle) →
      Requests part (act item) middle (wantedOf item)) :
    Requests part (items.forM act) start (items.flatMap wantedOf) := by
  -- the invariant: the requests so far are those of the items that are done
  refine Ends.mono (Ends.forM
    (fun done state => ∃ requests, requests.map BlockRequest.toWanted = done.flatMap wantedOf ∧
      Traffic (part start) requests (part state))
    (fun _ _ state => (part start).Blamed (part state)) ⟨[], rfl, .nil _⟩ ?_)
    (fun _ _ hdone => hdone) ?_
  · rintro done item rest middle hitems ⟨requests, hwanted, htraffic⟩
    have hitem : item ∈ items := by
      rw [hitems]
      simp
    apply (hstep item hitem middle htraffic.decodes.sameBands).mono
    · -- the requests of this item are appended to those of the items before it
      rintro _ after ⟨more, hmore, htrafficMore⟩
      refine ⟨requests ++ more, ?_, htraffic.append htrafficMore⟩
      rw [List.map_append, hwanted, hmore, List.flatMap_append, List.flatMap_singleton]
    · -- an item that fails is to blame for the whole
      exact fun _ _ hfailed => htraffic.decodes.blamed hfailed
  · rintro _ after ⟨_, _, _, -, hfailed⟩
    exact hfailed

end Requests

end RasterStore
