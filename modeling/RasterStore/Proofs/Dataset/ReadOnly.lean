import RasterStore.Driver
import RasterStore.Proofs.Dataset.Runs

/-!
# Datasets open for reading

A dataset that is open for reading holds no dirty block, so nothing that it does with its blocks
gives one to the codec: blocks that make room are dropped, and a flush has nothing to write
(`Clean.keptByReading`). Every call that writes is refused before it touches anything
(`rejectsWrites`). So after any run of calls the codec is what decoding and flushing made of it,
and these leave the codecs of all formats, and so their storage, as they are (`onlyReads_decode`).
-/

namespace RasterStore

open BlockStore RasterStore.Action Tiled

/-! ## Steps that only read -/

namespace Action

variable {σ α β : Type}

/-- The step leaves every state as it is. -/
def OnlyReads (act : Action σ α) : Prop :=
  ∀ state, Keeps (· = state) act

/-- A step that only answers leaves its state as it is. -/
theorem onlyReads_pure (value : α) : OnlyReads (pure value : Action σ α) :=
  fun _ => keeps_pure value

/-- A value that was computed leaves the state as it is. -/
theorem onlyReads_lift (outcome : Except RasterError α) :
    OnlyReads (liftM outcome : Action σ α) :=
  fun _ => keeps_lift outcome

/-- Looking at the state leaves it as it is. -/
theorem onlyReads_get : OnlyReads (get : Action σ σ) :=
  fun _ _ h => h

/-- Two steps that leave the state as it is do so together. -/
theorem OnlyReads.bind {act : Action σ α} {next : α → Action σ β} (h : OnlyReads act)
    (hnext : ∀ value, OnlyReads (next value)) : OnlyReads (act >>= next) :=
  fun state => (h state).bind fun value => hnext value state

end Action

namespace Choice

variable {κ τ α : Type} {onLeft : Action κ α} {onRight : Action τ α}

/-- A step on either of two codecs leaves the codec as it is if both steps do. -/
theorem onlyReads_either (hleft : OnlyReads onLeft) (hright : OnlyReads onRight) :
    OnlyReads (either onLeft onRight) := by
  intro start state hstate
  subst hstate
  cases state with
  | inl codec =>
    exact ((hleft codec codec rfl).imp_reached fun _ h => congrArg Sum.inl h).of_part Sum.inl rfl
  | inr codec =>
    exact ((hright codec codec rfl).imp_reached fun _ h => congrArg Sum.inr h).of_part Sum.inr rfl

end Choice

/-! ## Formats -/

/-- Decoding a block leaves the codec as it is, also if it fails. -/
theorem onlyReads_decode (context : BlockContext) :
    OnlyReads (Codec.decode context : Action FormatCodec Decoded) := by
  apply Choice.onlyReads_either
  · exact onlyReads_get.bind fun _ => onlyReads_pure _
  · apply Choice.onlyReads_either
    · exact onlyReads_get.bind fun _ => (onlyReads_lift _).bind fun _ => onlyReads_pure _
    · exact onlyReads_get.bind fun _ => onlyReads_lift _

/-- Flushing leaves the codec as it is: what is written to a storage is final at once. -/
theorem onlyReads_flush : OnlyReads (Codec.flush : Action FormatCodec Unit) := by
  apply Choice.onlyReads_either
  · exact onlyReads_pure _
  · apply Choice.onlyReads_either
    · exact fun _ _ h => h
    · exact fun _ _ h => h

/-! ## Blocks that are only read -/

variable {κ : Type} {raster : Size} {bands : List BandDescriptor} {Holds : κ → Prop}
variable {store : BlockStore κ} {key : BlockRef} {block : Block}

/-- No block in the cache is dirty, and the codec has the invariant. -/
structure Clean (raster : Size) (bands : List BandDescriptor) (Holds : κ → Prop)
    (store : BlockStore κ) : Prop where
  holds : Holds store.codec
  clean : ∀ key block, (key, block) ∈ store.cache.entries → block.dirty = false
  sameRaster : store.raster = raster
  shapes : SameShapes bands store.bands.toList

namespace Clean

/-- A change of the cache that makes no block dirty. -/
theorem keeps_modifyCache {f : BlockCache → BlockCache}
    (hf : ∀ cache key block, (key, block) ∈ (f cache).entries →
      block.dirty = false ∨ (key, block) ∈ cache.entries) :
    Keeps (Clean raster bands Holds) (modifyCache f) := by
  apply keeps_modify
  intro store h
  have hclean : ∀ key block, (key, block) ∈ (f store.cache).entries → block.dirty = false := by
    intro key block hmem
    -- a block after the change was made clean, or was there before
    rcases hf store.cache key block hmem with hclean | hheld
    · exact hclean
    · exact h.clean key block hheld
  exact { h with clean := hclean }

/-- Changing numbers of a cache changes no block. -/
theorem keeps_modifyNumbers {f : BlockCache → BlockCache}
    (hf : ∀ cache, (f cache).entries = cache.entries) :
    Keeps (Clean raster bands Holds) (modifyCache f) := by
  apply keeps_modifyCache
  intro cache key block hmem
  right
  rw [← hf cache]
  exact hmem

/-- Reporting an error leaves the blocks clean. -/
theorem keeps_modifyReports (f : Reports → Reports) :
    Keeps (Clean raster bands Holds) (modifyReports f) :=
  keeps_modify fun _ h => { h with }

/-- A step of the codec leaves the blocks clean: the cache is not its concern. -/
theorem keeps_onCodec {α : Type} {act : Action κ α} (hact : Keeps Holds act) :
    Keeps (Clean raster bands Holds) (onCodec act) := by
  intro store h
  apply ends_onCodec
  apply (hact store.codec h.holds).imp_reached
  exact fun _ hholds => { h with holds := hholds }

/-- Using a block for reading makes none dirty. -/
theorem keeps_touch (key : BlockRef) :
    Keeps (Clean raster bands Holds) (modifyCache (·.touch key BlockUse.read.forWriting)) := by
  apply keeps_modify
  intro store h
  have hclean : ∀ other block,
      (other, block) ∈ (store.cache.touch key BlockUse.read.forWriting).entries →
        block.dirty = false := by
    intro other block hmem
    cases hfind : store.cache.find? key with
    | none =>
      rw [BlockCache.touch, hfind] at hmem
      exact h.clean other block hmem
    | some held =>
      rw [BlockCache.entries_touch hfind, List.mem_cons] at hmem
      rcases hmem with heq | hrest
      · -- the block that is used keeps its mark
        have hheld := h.clean key held (BlockCache.mem_entries_of_find? hfind)
        obtain ⟨-, rfl⟩ := Prod.mk.inj heq
        rw [hheld]
        rfl
      · exact h.clean other block (List.mem_of_mem_filter hrest)
  exact { h with clean := hclean }

/-- There is nothing to write back in a clean cache. -/
theorem dirtyKeys_eq_nil (h : Clean raster bands Holds store) (selected : BlockRef → Bool) :
    store.cache.dirtyKeys selected = [] := by
  rw [BlockCache.dirtyKeys, List.filter_eq_nil_iff.mpr, List.map_nil, List.mergeSort_nil]
  -- no block is selected, because none is dirty
  rintro ⟨key, block⟩ hmem
  simp [h.clean key block hmem]

variable [Codec κ]

/-! ### Making room -/

/-- The block that was used longest ago is clean, so it is dropped without being encoded. -/
theorem keeps_evictOldest : Keeps (Clean raster bands Holds) (evictOldest (κ := κ)) := by
  apply keeps_get_bind
  intro store h
  cases holdest : store.cache.oldest? with
  | none => exact keeps_pure _
  | some entry =>
    obtain ⟨key, block⟩ := entry
    have hclean : block.dirty = false := h.clean key block (List.mem_of_getLast? holdest)
    -- a clean block is dropped without being encoded
    simp only [hclean, Bool.false_eq_true, if_false]
    apply keeps_modifyCache
    intro cache key block hmem
    right
    have hrest : (key, block) ∈ cache.entries.dropLast := hmem
    exact (List.dropLast_sublist _).subset hrest

/-- Giving up clean blocks leaves clean ones. -/
theorem keeps_evict (count : Nat) : Keeps (Clean raster bands Holds) (evict (κ := κ) count) := by
  induction count with
  | zero => exact keeps_pure _
  | succ count ih => exact keeps_evictOldest.bind fun _ => ih

/-- Making room leaves clean blocks. -/
theorem keeps_makeRoom (target : Nat) :
    Keeps (Clean raster bands Holds) (makeRoom (κ := κ) target) :=
  keeps_get_bind fun _ _ => keeps_evict _

/-- Another capacity leaves clean blocks. -/
theorem keeps_setCapacity (capacity : Nat) :
    Keeps (Clean raster bands Holds) (setCapacity (κ := κ) capacity) :=
  Keeps.bind (keeps_modifyNumbers fun _ => rfl) fun _ => keeps_makeRoom _

/-! ### Getting blocks -/

/-- Decoding a block leaves the blocks clean. -/
theorem keeps_decode (hdecode : ∀ context, Keeps Holds (Codec.decode (κ := κ) context))
    (key : BlockRef) : Keeps (Clean raster bands Holds) (decode (κ := κ) key) := by
  apply keeps_get_bind
  intro store _
  apply (keeps_onCodec ((hdecode _).mapError _)).bind
  intro decoded
  apply (keeps_modifyReports _).bind
  intro _
  exact .ite (fun _ => keeps_pure _) fun _ => keeps_throw _

/-- Getting the bytes of a block leaves the blocks clean. -/
theorem keeps_load (hdecode : ∀ context, Keeps Holds (Codec.decode (κ := κ) context))
    (key : BlockRef) (use : BlockUse) :
    Keeps (Clean raster bands Holds) (load (κ := κ) key use) := by
  apply Keeps.ite
  · exact fun _ => keeps_get_bind fun _ _ => keeps_pure _
  · intro _
    apply (keeps_decode hdecode key).bind
    intro data
    exact Keeps.bind (keeps_modifyNumbers fun _ => rfl) fun _ => keeps_pure _

/-- A fetched block is clean if it is only read. -/
theorem keeps_fetch (hdecode : ∀ context, Keeps Holds (Codec.decode (κ := κ) context))
    (key : BlockRef) : Keeps (Clean raster bands Holds) (fetch (κ := κ) key .read) := by
  have huse : Keeps (Clean raster bands Holds) (do
      modifyCache (·.touch key BlockUse.read.forWriting)
      pure (((← get).cache.find? key).elim ByteArray.empty Block.data) :
        Action (BlockStore κ) ByteArray) :=
    (keeps_touch key).bind fun _ => keeps_get_bind fun _ _ => keeps_pure _
  -- a block is clean when it is inserted
  have hinsert (data : ByteArray) :
      Keeps (Clean raster bands Holds) (modifyCache (κ := κ) (·.insert key data)) := by
    apply keeps_modifyCache
    intro cache other block hmem
    rcases List.mem_cons.mp hmem with heq | hheld
    · obtain ⟨-, rfl⟩ := Prod.mk.inj heq
      exact .inl rfl
    · exact .inr hheld
  apply keeps_get_bind
  intro store _
  apply Keeps.ite
  · -- a hit moves the block to the front
    intro _
    have hcount : Keeps (Clean raster bands Holds) (modifyCache (κ := κ) BlockCache.countHit) :=
      keeps_modifyNumbers fun _ => rfl
    exact hcount.bind fun _ => huse
  · -- a miss brings it in, clean
    intro _
    have hcount : Keeps (Clean raster bands Holds) (modifyCache (κ := κ) BlockCache.countMiss) :=
      keeps_modifyNumbers fun _ => rfl
    apply hcount.bind
    intro _
    apply (keeps_load hdecode key .read).bind
    intro data
    apply keeps_get_bind
    intro _ _
    apply (keeps_makeRoom _).bind
    exact fun _ => (hinsert data).bind fun _ => huse

/-- A flush has nothing to write back. -/
theorem keeps_flushSelected (selected : BlockRef → Bool) :
    Keeps (Clean raster bands Holds) (flushSelected (κ := κ) selected) := by
  apply keeps_get_bind
  intro store h
  rw [h.dirtyKeys_eq_nil selected]
  apply (keeps_pure _).bind
  intro failures
  exact .ite (fun _ => keeps_pure _) fun _ => keeps_throw _

/-- Calls that read only decode blocks and flush the codec. -/
theorem keptByReading (hdecode : ∀ context, Keeps Holds (Codec.decode (κ := κ) context))
    (hflush : Keeps Holds (Codec.flush (κ := κ))) :
    KeptByReading raster bands (Clean (κ := κ) raster bands Holds) where
  sameRaster _ h := h.sameRaster
  shapes _ h := h.shapes
  fetch key _ := keeps_fetch hdecode key
  setCapacity := keeps_setCapacity
  flushSelected := keeps_flushSelected
  flushCodec := keeps_onCodec hflush
  -- invalidating only takes blocks out of the cache
  invalidate key := by
    apply keeps_get_bind
    intro store _
    apply Keeps.bind
    · exact keeps_modifyCache fun _ _ _ hmem => .inr (List.mem_of_mem_filter hmem)
    · exact fun _ => keeps_pure _
  note notice := keeps_modifyReports _

/-- After any calls to a new dataset that is open for reading, no block is dirty, and the codec has
    what decoding and flushing keep. -/
theorem performAll {codec : κ} {options : OpenOptions} {environment : Option String}
    {dataset : Dataset κ} (hreadOnly : options.flags.access = .readOnly)
    (hdecode : ∀ context, Keeps Holds (Codec.decode (κ := κ) context))
    (hflush : Keeps Holds (Codec.flush (κ := κ))) (hholds : Holds codec)
    (hnew : Dataset.ofCodec codec raster bands options environment = .ok dataset)
    (calls : List DatasetCall) :
    (DatasetCall.performAll calls dataset).Meets .readOnly (Clean raster bands Holds) := by
  obtain ⟨hnew, hblocked⟩ := Dataset.isNew_of_ofCodec hnew
  have hstart : Clean raster bands Holds dataset.store := by
    constructor
    · rw [hnew.codec]
      exact hholds
    · intro key block hmem
      rw [hnew.empty] at hmem
      contradiction
    · exact hnew.raster
    · rw [hnew.bands]
      exact .refl bands
  have hkept : KeptByCalls .readOnly raster bands (Clean (κ := κ) raster bands Holds) :=
    { keptByReading hdecode hflush with
      -- a dataset that is open for reading is not open for update
      writing := fun hupdate => by contradiction
      blocked := hblocked }
  exact DatasetCall.meets_performAll hkept calls ⟨hnew.access.trans hreadOnly, hstart⟩

end Clean

/-! ## Calls that write -/

/-- Each call that writes is refused for lack of access, whatever its arguments are, and leaves the
    dataset as it is. -/
structure RejectsWrites [Codec κ] (dataset : Dataset κ) : Prop where
  writeRaw : ∀ band request buffer, (Band.writeRaw band request buffer).run dataset =
    (.error (.noWriteAccess "raster_io"), dataset)
  writeResampled : ∀ band request resampling buffer,
    (Band.writeResampled band request resampling buffer).run dataset =
      (.error (.noWriteAccess "raster_io"), dataset)
  write : ∀ band x y window buffer, (Band.write band x y window buffer).run dataset =
    (.error (.noWriteAccess "write"), dataset)
  writeBlock : ∀ band x y data, (Band.writeBlock band x y data).run dataset =
    (.error (.noWriteAccess "write_block"), dataset)
  fill : ∀ band value, (Band.fill band value).run dataset =
    (.error (.noWriteAccess "fill"), dataset)
  setNoData : ∀ band value, (Band.setNoData band value).run dataset =
    (.error (.noWriteAccess "set_no_data_value"), dataset)

/-- What is checked first decides. -/
theorem run_checkWritable_bind {α : Type} {dataset : Dataset κ} {method : String}
    (haccess : dataset.access = .readOnly) (next : Unit → Action (Dataset κ) α) :
    ((liftM (Band.checkWritable dataset method) : Action (Dataset κ) Unit) >>= next).run dataset =
      (.error (.noWriteAccess method), dataset) := by
  apply run_bind_of_error
  rw [run_lift, Band.checkWritable, haccess]

/-- A dataset that is open for reading refuses each writing method before it does anything. -/
theorem rejectsWrites [Codec κ] {dataset : Dataset κ} (haccess : dataset.access = .readOnly) :
    RejectsWrites dataset where
  writeRaw _ _ _ := run_checkWritable_bind haccess _
  writeResampled _ _ _ _ := run_checkWritable_bind haccess _
  write _ _ _ _ _ := run_checkWritable_bind haccess _
  writeBlock _ _ _ _ := run_checkWritable_bind haccess _
  fill _ _ := run_checkWritable_bind haccess _
  setNoData _ _ := run_checkWritable_bind haccess _

/-! ## Whole runs -/

/-- The request does not change what is stored. -/
def CodecCall.IsReading : CodecCall → Prop
  | decode _ | flush => True
  | encode .. | setNoData .. => False

/-- A dataset that is open for reading is never written. After any calls to it, whether they
    succeeded or failed:
    * no block in the cache is dirty, and calls that write are refused and change nothing;
    * the codec was only asked to decode blocks and to be flushed, never to store anything;
    * the codecs of all formats, and with them the bytes of their storage, are as they were. -/
theorem read_only_never_written {options : OpenOptions}
    (hreadOnly : options.flags.access = .readOnly) (raster : Size) (bands : List BandDescriptor)
    (environment : Option String) (calls : List DatasetCall) :
    (∀ {κ : Type} [Codec κ] (codec : κ) (dataset : Dataset κ),
      Dataset.ofCodec codec raster bands options environment = .ok dataset →
        (∀ key block, (key, block) ∈ (DatasetCall.performAll calls dataset).store.cache.entries →
          block.dirty = false) ∧
        RejectsWrites (DatasetCall.performAll calls dataset)) ∧
    (∀ {κ : Type} [Codec κ] (codec : κ) (dataset : Dataset (Recorder κ)),
      Dataset.ofCodec ⟨codec, #[]⟩ raster bands options environment = .ok dataset →
        ∀ call ∈ (DatasetCall.performAll calls dataset).store.codec.calls, call.IsReading) ∧
    (∀ (codec : FormatCodec) (dataset : Dataset FormatCodec),
      Dataset.ofCodec codec raster bands options environment = .ok dataset →
        (DatasetCall.performAll calls dataset).store.codec = codec) := by
  refine ⟨?_, ?_, ?_⟩
  · intro κ _ codec dataset hnew
    -- nothing needs to be known of the codec
    have hclean : (DatasetCall.performAll calls dataset).Meets .readOnly
        (Clean raster bands fun _ => True) :=
      Clean.performAll hreadOnly (fun _ => keeps_true _) (keeps_true _) trivial hnew calls
    exact ⟨hclean.blocks.clean, rejectsWrites hclean.access_eq⟩
  · -- no call but a reading one is ever noted by the codec
    intro κ _ codec dataset hnew
    have hclean : (DatasetCall.performAll calls dataset).Meets .readOnly
        (Clean raster bands (Recorder.Noted CodecCall.IsReading fun _ => True)) :=
      Clean.performAll hreadOnly (fun _ => Recorder.keeps_record trivial (keeps_true _))
        (Recorder.keeps_record trivial (keeps_true _)) (Recorder.noted_nil trivial) hnew calls
    exact hclean.blocks.holds.calls
  · -- the formats do not change when they decode and flush
    intro codec dataset hnew
    have hclean : (DatasetCall.performAll calls dataset).Meets .readOnly
        (Clean raster bands fun reached => reached = codec) :=
      Clean.performAll hreadOnly (fun context => onlyReads_decode context codec)
        (onlyReads_flush codec) rfl hnew calls
    exact hclean.blocks.holds

/-! ## A row of two blocks -/

/-- A tiled file of two blocks. Only the second one has a tile. -/
def rowFile : ByteArray :=
  headerRecord ⟨2, 1⟩ 1 ++ bandRecord ⟨.byte, ⟨1, 1⟩, none⟩ ++ (IndexEntry.mk 0 0).toBytes ++
    (IndexEntry.mk 72 1).toBytes ++ ⟨#[7]⟩

/-- The file, loaded from a storage that cannot be written. -/
def sealedRow : TiledCodec :=
  ⟨.inMemory rowFile false, #[⟨48, 2, #[⟨0, 0⟩, ⟨72, 1⟩]⟩]⟩

/-- The bytes of the file are loaded as a tiled file of one band. -/
private theorem load_rowFile : TiledCodec.load (.inMemory rowFile false) =
    .ok (sealedRow, ⟨2, 1⟩, [⟨.byte, ⟨1, 1⟩, none⟩]) := by
  with_unfolding_all rfl

/-- A dataset around a codec with two blocks, of which the cache can hold one. -/
def sealedDataset {κ : Type} [Codec κ] (codec : κ) : Dataset κ :=
  { driver := Codec.name codec
    access := .readOnly
    store :=
      { cache := .empty 1
        codec
        bands := #[⟨.byte, ⟨1, 1⟩, none⟩]
        raster := ⟨2, 1⟩
        reports := {} } }

/-- Both blocks are read, and one of them is tried to be written. -/
def sealedCalls : List DatasetCall :=
  [.raster (.readBlock 1 0 0 1), .raster (.writeBlock 1 0 0 ⟨#[7]⟩), .raster (.fill 1 .zero),
    .raster (.readBlock 1 1 0 1), .raster (.setNoData 1 none), .drop]

/-- The codec is asked for both blocks and to flush. It then has the same bytes and indexes, from
    which the second block is read. -/
theorem read_only_never_written_row :
    TiledCodec.load (.inMemory rowFile false) =
      .ok (sealedRow, ⟨2, 1⟩, [⟨.byte, ⟨1, 1⟩, none⟩]) ∧
    (DatasetCall.performAll sealedCalls
      (sealedDataset (⟨.inr (.inl sealedRow), #[]⟩ : Recorder FormatCodec))).store.codec.calls.size =
        3 ∧
    (∀ call ∈ (DatasetCall.performAll sealedCalls
      (sealedDataset (⟨.inr (.inl sealedRow), #[]⟩ : Recorder FormatCodec))).store.codec.calls,
      call.IsReading) ∧
    RejectsWrites (DatasetCall.performAll sealedCalls
      (sealedDataset (.inr (.inl sealedRow) : FormatCodec))) ∧
    (DatasetCall.performAll sealedCalls
      (sealedDataset (.inr (.inl sealedRow) : FormatCodec))).store.codec = .inr (.inl sealedRow) ∧
    ((Dataset.readBlock 1 1 0 1).run (DatasetCall.performAll sealedCalls
      (sealedDataset (.inr (.inl sealedRow) : FormatCodec)))).1.toOption = some ⟨#[7]⟩ := by
  obtain ⟨hblocks, hcalls, hcodec⟩ := @read_only_never_written { cacheBlocks := some 1 } rfl ⟨2, 1⟩
    [⟨.byte, ⟨1, 1⟩, none⟩] none sealedCalls
  exact ⟨load_rowFile, by decide +kernel, hcalls (.inr (.inl sealedRow)) (sealedDataset _) rfl,
    (hblocks (.inr (.inl sealedRow) : FormatCodec) (sealedDataset _) rfl).2,
    hcodec (.inr (.inl sealedRow)) (sealedDataset _) rfl, by decide +kernel⟩

end RasterStore
