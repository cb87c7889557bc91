import Mathlib.Data.Finset.Sort
import RasterStore.Proofs.Cache.Traffic
import RasterStore.Proofs.Dataset.InterruptedWrites
import RasterStore.Proofs.Transfer.Scaling

/-!
# The blocks that a transfer requests

A transfer requests no block more often than it has to. Reading the nearest pixels requests, for
each row of the buffer, each block that the row is read from once, from left to right; writing
requests each block that its window touches once, row by row, and has only those decoded that are
not held and keep some of their pixels. This holds for caches of all sizes, as long as no call of
the codec fails.

* `map_runColumn`            the runs of a row are its blocks, in ascending order
* `requests_readNearest`     the requests of a read
* `requests_writeWindow`     the requests of a write
* `transfer_traffic_minimal` what both make of the cache and the log of the codec
-/

namespace RasterStore

open BlockStore RasterStore.Action

/-! ## The blocks of a row -/

/-- The column of the block that a run is read from. -/
def runColumn (blockWidth : Nat) : List ColumnPair → Nat
  | [] => 0
  | pair :: _ => pair.source / blockWidth

/-- The columns of the blocks that each row of a buffer is read from. -/
def sourceColumns (blockWidth : Nat) (window : Window) (layout : BufferLayout) : Finset Nat :=
  (Finset.range layout.width).image fun column =>
    scaled window.x column window.width layout.width / blockWidth

section Runs

variable {blockWidth : Nat} {sources : List Nat} {run : List ColumnPair}

theorem ne_nil_of_mem_columnRuns (hrun : run ∈ columnRuns blockWidth sources) : run ≠ [] :=
  List.ne_nil_of_mem_splitBy hrun

theorem source_div_eq_runColumn (hrun : run ∈ columnRuns blockWidth sources) {pair : ColumnPair}
    (hmem : pair ∈ run) : pair.source / blockWidth = runColumn blockWidth run := by
  cases run with
  | nil => contradiction
  | cons first rest => exact source_div_of_mem_columnRuns hrun pair hmem

/-- The runs lie in the blocks of the sources. -/
theorem mem_map_runColumn {column : Nat} :
    column ∈ (columnRuns blockWidth sources).map (runColumn blockWidth) ↔
      ∃ source ∈ sources, source / blockWidth = column := by
  have hpairs := flatten_columnRuns blockWidth sources
  rw [List.mem_map]
  constructor
  · -- a run has a source, whose column is that of the run
    rintro ⟨run, hrun, rfl⟩
    obtain ⟨pair, hpair⟩ := List.exists_mem_of_ne_nil _ (ne_nil_of_mem_columnRuns hrun)
    exact ⟨pair.source, List.mem_of_getElem? (getElem?_of_mem_columnRuns hrun hpair),
      source_div_eq_runColumn hrun hpair⟩
  · rintro ⟨source, hsource, rfl⟩
    -- the source stands in some run, at the place that it has in the row
    obtain ⟨i, hi⟩ := List.getElem?_of_mem hsource
    have hmem : (⟨source, i⟩ : ColumnPair) ∈ (columnRuns blockWidth sources).flatten := by
      rw [hpairs]
      exact List.mem_map.mpr ⟨(source, i), List.mem_zipIdx_iff_getElem?.mpr hi, rfl⟩
    obtain ⟨run, hrun, hpair⟩ := List.mem_flatten.mp hmem
    exact ⟨run, hrun, (source_div_eq_runColumn hrun hpair).symm⟩

/-- Neighbouring runs lie in different blocks. -/
theorem isChain_runColumn (blockWidth : Nat) (sources : List Nat) :
    ((columnRuns blockWidth sources).map (runColumn blockWidth)).IsChain (· ≠ ·) := by
  rw [List.isChain_map]
  -- a run is split from the next one where the block changes
  apply (List.isChain_getLast_head_splitBy _ _).imp_of_mem_imp
  rintro run next hrun hnext ⟨hsome, hsomeNext, hapart⟩ heq
  rw [← source_div_eq_runColumn hrun (List.getLast_mem hsome),
    ← source_div_eq_runColumn hnext (List.head_mem hsomeNext)] at heq
  exact beq_eq_false_iff_ne.mp hapart heq

/-- From left to right the sources do not go back, and neither do their blocks. -/
theorem pairwise_le_runColumn (blockWidth : Nat) (hsources : sources.Pairwise (· ≤ ·)) :
    ((columnRuns blockWidth sources).map (runColumn blockWidth)).Pairwise (· ≤ ·) := by
  -- the sources ascend along the row, and so they do in the runs
  have hpairs : (columnRuns blockWidth sources).flatten.Pairwise
      fun a b => a.source ≤ b.source := by
    rw [flatten_columnRuns, List.pairwise_map]
    rw [← List.zipIdx_map_fst 0 sources, List.pairwise_map] at hsources
    exact hsources
  rw [List.pairwise_map]
  apply List.Pairwise.imp_of_mem _ (List.pairwise_flatten.mp hpairs).2
  intro run next hrun hnext hle
  obtain ⟨pair, hpair⟩ := List.exists_mem_of_ne_nil _ (ne_nil_of_mem_columnRuns hrun)
  obtain ⟨pair', hpair'⟩ := List.exists_mem_of_ne_nil _ (ne_nil_of_mem_columnRuns hnext)
  rw [← source_div_eq_runColumn hrun hpair, ← source_div_eq_runColumn hnext hpair']
  exact Nat.div_le_div_right (hle pair hpair pair' hpair')

/-- Each run lies in a block of its own, further to the right than the ones before it. -/
theorem pairwise_lt_runColumn (blockWidth : Nat) (hsources : sources.Pairwise (· ≤ ·)) :
    ((columnRuns blockWidth sources).map (runColumn blockWidth)).Pairwise (· < ·) := by
  have hle := pairwise_le_runColumn blockWidth hsources
  have hlt : ((columnRuns blockWidth sources).map (runColumn blockWidth)).IsChain (· < ·) := by
    apply List.isChain_iff_forall_rel_of_append_cons_cons.mpr
    intro column next before after hsplit
    have hne := List.isChain_iff_forall_rel_of_append_cons_cons.mp
      (isChain_runColumn blockWidth sources) hsplit
    rw [hsplit, List.pairwise_append] at hle
    exact Nat.lt_of_le_of_ne (List.rel_of_pairwise_cons hle.2.1 List.mem_cons_self) hne
  exact hlt.pairwise

end Runs

/-- The runs of a row are the blocks that it is read from, each once and in ascending order. -/
theorem map_runColumn (blockWidth : Nat) (window : Window) (layout : BufferLayout) :
    (columnRuns blockWidth (nearestCells window.x window.width layout.width)).map
      (runColumn blockWidth) = (sourceColumns blockWidth window layout).sort := by
  have hlt := pairwise_lt_runColumn blockWidth
    (pairwise_nearestCells window.x window.width layout.width)
  -- both lists hold the same columns, and both ascend
  have hset : ((columnRuns blockWidth (nearestCells window.x window.width layout.width)).map
      (runColumn blockWidth)).toFinset = sourceColumns blockWidth window layout := by
    ext column
    rw [List.mem_toFinset, mem_map_runColumn]
    simp [sourceColumns, nearestCells]
  rw [← hset]
  exact ((List.toFinset_sort _ (hlt.imp Nat.ne_of_lt)).mpr (hlt.imp Nat.le_of_lt)).symm

/-! ## Reading -/

variable {κ : Type} [Codec κ] {store : BlockStore (Observed κ)} {band : Nat}
variable {descriptor : BandDescriptor} {window : Window} {layout : BufferLayout}
variable {buffer : ByteArray}

/-- The requests of a read: for each row of the buffer, each block that the row is read from. -/
def readRequests (descriptor : BandDescriptor) (band : Nat) (window : Window)
    (layout : BufferLayout) : List Wanted :=
  (List.range layout.height).flatMap fun row =>
    (sourceColumns descriptor.block.width window layout).sort.map fun column =>
      ⟨⟨band, column, scaled window.y row window.height layout.height / descriptor.block.height⟩,
        .read⟩

/-- Reading asks for one block in each line of the buffer and column of blocks. -/
theorem length_readRequests : (readRequests descriptor band window layout).length =
    layout.height * (sourceColumns descriptor.block.width window layout).card := by
  simp [readRequests, List.length_flatMap]

/-- A run requests its block once. -/
private theorem requests_readRun {sources : List Nat} {sourceRow row : Nat}
    {run : List ColumnPair} (hrun : run ∈ columnRuns descriptor.block.width sources)
    (start : BlockStore (Observed κ) × ByteArray) :
    Requests Prod.fst (readRun (κ := Observed κ) band descriptor layout sourceRow row run) start
      [⟨⟨band, runColumn descriptor.block.width run, sourceRow / descriptor.block.height⟩,
        .read⟩] := by
  obtain ⟨reached, filled⟩ := start
  cases run with
  | nil => exact absurd rfl (ne_nil_of_mem_columnRuns hrun)
  | cons pair rest =>
    -- the block of the first column serves all of them
    apply Ends.bind
    apply Ends.onFirst
    apply (ends_fetch_traffic (descriptor.blockOf band pair.source sourceRow) .read).imp
    exact fun _ _ htraffic => Ends.onSecond (ends_modify.mpr ⟨_, rfl, htraffic⟩)

/-- Reading the nearest pixels requests the blocks of each row once, from left to right. -/
theorem requests_readNearest (start : BlockStore (Observed κ) × ByteArray) :
    Requests Prod.fst (readNearest (κ := Observed κ) band descriptor window layout) start
      (readRequests descriptor band window layout) := by
  -- one loop over the rows, and in each row one over its runs
  apply Requests.forM
  intro row _ middle _
  rw [← map_runColumn, List.map_map, List.map_eq_flatMap]
  apply Requests.forM
  exact fun run hrun reached _ => requests_readRun hrun reached

/-! ## Writing -/

/-- The requests of a write: each block that the window touches. -/
def writeRequests (descriptor : BandDescriptor) (raster : Size) (band : Nat) (window : Window) :
    List Wanted :=
  (touchedBlocks descriptor window).map fun block =>
    ⟨BlockRef.ofCell band block,
      if covers descriptor raster window block.1 block.2 then .overwrite else .update⟩

/-- Writing a window requests each block that it touches once, row by row. -/
theorem requests_writeWindow (store : BlockStore (Observed κ)) :
    Requests id (writeWindow (κ := Observed κ) band window layout buffer) store
      (writeRequests (store.descriptor band) store.raster band window) := by
  apply Ends.get_bind
  rw [writeRequests, List.map_eq_flatMap]
  apply Requests.forM
  intro block _ middle hsame
  -- the bands are read anew for each block, and are still those of the start
  have hbands : store.SameBands middle := hsame
  rw [← hbands.descriptor, ← hbands.raster]
  apply Ends.get_bind
  exact (ends_change_traffic _ _ _).imp fun _ _ htraffic => ⟨_, rfl, htraffic⟩

/-! ## What a transfer costs -/

/-- What a read of the nearest pixels makes of a cache, as long as no call of the codec fails. -/
structure ReadTraffic (band : Nat) (window : Window) (layout : BufferLayout)
    (before after : BlockStore (Observed κ)) : Prop where
  /-- Each row requests the blocks that it is read from, each once and in ascending order. -/
  requests : ∃ requests, Traffic before requests after ∧ requests.map BlockRequest.toWanted =
    readRequests (before.descriptor band) band window layout
  lookups : after.cache.stats.hits + after.cache.stats.misses =
    before.cache.stats.hits + before.cache.stats.misses +
      layout.height * (sourceColumns (before.descriptor band).block.width window layout).card

/-- What the requests of a write make of a cache, as long as no call of the codec fails. -/
structure WriteTraffic (band : Nat) (window : Window) (before : BlockStore (Observed κ))
    (requests : List BlockRequest) (after : BlockStore (Observed κ)) : Prop where
  traffic : Traffic before requests after
  /-- Row by row, and none twice. -/
  ordered : (requests.map (·.key)).Pairwise BlockRef.Before
  /-- The blocks that are requested are those that the window touches. -/
  mem_iff : ∀ key, key ∈ requests.map (·.key) ↔
    ∃ x y, window.Contains x y ∧ (before.descriptor band).blockOf band x y = key
  /-- A block is decoded if it is not held and has pixels of the raster outside the window. -/
  decodes_iff : ∀ request ∈ requests, request.decodes = true ↔ request.held = false ∧
    ∃ x y, (x < before.raster.width ∧ y < before.raster.height) ∧
      (before.descriptor band).blockOf band x y = request.key ∧ ¬window.Contains x y
  lookups : after.cache.stats.hits + after.cache.stats.misses =
    before.cache.stats.hits + before.cache.stats.misses + requests.length

theorem readTraffic_of_requests {after : BlockStore (Observed κ)} {requests : List BlockRequest}
    (htraffic : Traffic store requests after) (hwanted : requests.map BlockRequest.toWanted =
      readRequests (store.descriptor band) band window layout) :
    ReadTraffic band window layout store after := by
  refine ⟨⟨requests, htraffic, hwanted⟩, ?_⟩
  have hlength := congrArg List.length hwanted
  rw [List.length_map, length_readRequests] at hlength
  rw [htraffic.lookups, hlength]

private theorem blockOf_eq_ofCell_iff {x y : Nat} {block : Nat × Nat} :
    descriptor.blockOf band x y = BlockRef.ofCell band block ↔
      (x / descriptor.block.width, y / descriptor.block.height) = block := by
  simp [BandDescriptor.blockOf, BlockRef.ofCell, Prod.ext_iff]

theorem writeTraffic_of_requests {after : BlockStore (Observed κ)} {requests : List BlockRequest}
    (hblocked : (store.descriptor band).Blocked) (hwindow : window.Inside store.raster)
    (htraffic : Traffic store requests after) (hwanted : requests.map BlockRequest.toWanted =
      writeRequests (store.descriptor band) store.raster band window) :
    WriteTraffic band window store requests after := by
  have hkeys : requests.map (·.key) =
      (touchedBlocks (store.descriptor band) window).map (BlockRef.ofCell band) := by
    have hmap := congrArg (List.map Wanted.key) hwanted
    rw [List.map_map, writeRequests, List.map_map] at hmap
    exact hmap
  refine ⟨htraffic, ?_, ?_, ?_, htraffic.lookups⟩
  · rw [hkeys]
    exact pairwise_ofCell band _ _ _
  · -- a block is requested if and only if a pixel of the window lies in it
    intro key
    rw [hkeys, List.mem_map]
    constructor
    · rintro ⟨block, hblock, rfl⟩
      obtain ⟨x, y, hcontains, hcell⟩ := contains_of_touched hblocked hwindow hblock
      exact ⟨x, y, hcontains, blockOf_eq_ofCell_iff.mpr hcell⟩
    · rintro ⟨x, y, hcontains, rfl⟩
      exact ⟨_, touched_of_contains hcontains, (blockOf_eq_ofCell_iff.mpr rfl).symm⟩
  · -- which requests decode: those of blocks that were not held and that the window does not cover
    intro request hrequest
    have hmem : request.toWanted ∈
        writeRequests (store.descriptor band) store.raster band window := by
      rw [← hwanted]
      exact List.mem_map_of_mem hrequest
    obtain ⟨block, hblock, heq⟩ := List.mem_map.mp hmem
    obtain ⟨hleft, htop⟩ := inside_of_touched hblocked hwindow hblock
    have huse : request.use = .overwrite ↔
        covers (store.descriptor band) store.raster window block.1 block.2 = true := by
      rw [← congrArg Wanted.use heq]
      by_cases hcovers : covers (store.descriptor band) store.raster window block.1 block.2 = true
      · simp [hcovers]
      · simp [hcovers]
    -- what a block keeps is what the window does not cover of it
    rw [← congrArg Wanted.key heq, BlockRequest.decodes]
    simp only [Bool.and_eq_true, Bool.not_eq_true', decide_eq_true_eq, ne_eq, huse,
      covers_iff hblocked hleft htop, blockOf_eq_ofCell_iff, not_forall, exists_prop, and_assoc]

/-- The block traffic of a transfer is minimal, for a cache of any size. Reading the nearest pixels
    requests, for each row of the buffer, each column of blocks that holds a source of the row once,
    in ascending order. Writing requests each block that the window touches once, row by row, and
    has exactly those decoded that are not held when they are requested and do not lie in the window
    with all that they have inside the raster. Each request is counted as a hit or a miss, and
    nothing else is. Either ends otherwise only if a call of the codec fails. The blocks of the band
    are not too large to be held in memory. -/
theorem transfer_traffic_minimal (dataset : Dataset (Observed κ)) (band : Nat)
    (request : TransferRequest) (buffer : ByteArray) (hheld : Band.Held dataset band)
    (hvalid : request.Valid dataset.size buffer.size) :
    (Band.readRaw band request .nearest).Ends (dataset, buffer)
      (fun _ after => ReadTraffic band (.ofRequest request) (.ofRequest request) dataset.store
        after.1.store)
      (fun _ after => dataset.store.Blamed after.1.store) ∧
    ((dataset.descriptor band).Blocked → dataset.access = .update →
      (Band.writeRaw band request buffer).Ends dataset
        (fun _ after => ∃ requests,
          WriteTraffic band (.ofRequest request) dataset.store requests after.store)
        (fun _ after => dataset.store.Blamed after.store)) := by
  have haccepted : Band.Accepts dataset band request buffer.size := ⟨hvalid.accepted, hheld⟩
  constructor
  · apply Ends.get_bind
    apply Band.ends_checked _ fun hrefused => absurd haccepted hrefused
    intro _
    apply Band.ends_onBlocks
    apply Ends.get_bind
    apply (requests_readNearest (dataset.store, buffer)).imp
    rintro _ after ⟨requests, hwanted, htraffic⟩
    exact readTraffic_of_requests htraffic hwanted
  · -- a write checks the access first, and the arguments after it
    intro hblocked haccess
    apply Ends.get_bind
    apply Ends.lift_bind (Band.checkWritable_of_update haccess)
    apply Band.ends_checked _ fun hrefused => absurd haccepted hrefused
    intro _
    apply Dataset.ends_onStore
    apply (requests_writeWindow dataset.store).imp
    rintro _ after ⟨requests, hwanted, htraffic⟩
    exact ⟨requests, writeTraffic_of_requests hblocked haccepted.request.inside htraffic hwanted⟩

/-! ## A block at the edge -/

/-- Three pixels of a row in two blocks of two, so that half of the second block lies outside. -/
def edgeRow : Dataset (Observed ScriptedCodec) where
  driver := "SCRIPT"
  access := .update
  store :=
    { cache := .empty 1
      codec := ⟨⟨fun _ => ByteArray.zeros 2, []⟩, []⟩
      bands := #[⟨.byte, ⟨2, 1⟩, none⟩]
      raster := ⟨3, 1⟩
      reports := {} }

/-- A request for its last two pixels. -/
def lastTwo : TransferRequest :=
  Band.packedRequest 1 0 ⟨2, 1⟩ ⟨2, 1⟩ .byte

/-- Both blocks are requested, in both directions. A write has the first one decoded, since its
    first pixel stays; the second one has only its first pixel in the raster, and is replaced. -/
theorem transfer_traffic_minimal_edgeRow :
    Band.Held edgeRow 1 ∧ lastTwo.Valid edgeRow.size 2 ∧ (edgeRow.descriptor 1).Blocked ∧
    edgeRow.access = .update ∧
    (let read := ((Band.readRaw 1 lastTwo .nearest).run (edgeRow, ⟨#[0, 0]⟩)).2.1.store
    ReadTraffic 1 (.ofRequest lastTwo) (.ofRequest lastTwo) edgeRow.store read ∧
      read.cache.stats.hits + read.cache.stats.misses = 2) ∧
    (let written := ((Band.writeRaw 1 lastTwo ⟨#[7, 8]⟩).run edgeRow).2.store
    (∃ requests, WriteTraffic 1 (.ofRequest lastTwo) edgeRow.store requests written) ∧
      written.cache.stats = { misses := 2, decodes := 1, encodes := 1, evictions := 1 }) := by
  have hvalid : lastTwo.Valid edgeRow.size 2 :=
    ⟨by decide, by decide, by decide, by decide, by decide, by decide, .inl rfl, by decide,
      by decide, by decide, by decide⟩
  have hblocked : (edgeRow.descriptor 1).Blocked := by
    unfold BandDescriptor.Blocked
    decide
  have hheld : Band.Held edgeRow 1 := (by decide : 2 < memoryLimit)
  refine ⟨hheld, hvalid, hblocked, rfl, ⟨?_, by rfl⟩, ?_, by rfl⟩
  · exact (transfer_traffic_minimal edgeRow 1 lastTwo ⟨#[0, 0]⟩ hheld hvalid).1.of_ok (by rfl)
  · exact ((transfer_traffic_minimal edgeRow 1 lastTwo ⟨#[7, 8]⟩ hheld hvalid).2 hblocked rfl).of_ok
      (by rfl)

end RasterStore
