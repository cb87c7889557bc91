import RasterStore.Proofs.Dataset.Runs
import RasterStore.Proofs.Memory.Planes

/-!
# The contract between datasets and codecs

A codec relies on what it is asked: a block lies in the grid of an existing band and is described
as that band is, and the bytes that it is given are exactly one block. `KeptByContract` says that
such calls keep an invariant of a codec. A dataset only makes such calls, whatever it is called for
and whatever fails, so the invariant then holds after every run (`Orderly`).

One such invariant is that all requests noted by a `Recorder` are of this kind, which makes the
contract visible (`contract_honoured`). Blocks inside the grid have entries of their own in the
index of a tiled file, and their rows lie inside the planes of a raster in memory (`Placed`).
-/

namespace RasterStore

open BlockStore RasterStore.Action
open Tiled (InGrid BlockTable)

/-! ## Orderly block stores -/

/-- What a codec is told about a block of the grid. -/
structure BlockContext.Served (raster : Size) (bands : List BandDescriptor)
    (context : BlockContext) : Prop where
  inGrid : InGrid raster bands context.block
  sameRaster : context.raster = raster
  type : context.descriptor.type = (bandOf bands context.block.band).type
  block : context.descriptor.block = (bandOf bands context.block.band).block

theorem BlockContext.Served.blockBytes_eq {raster : Size} {bands : List BandDescriptor}
    {context : BlockContext} (h : context.Served raster bands) :
    context.descriptor.blockBytes = (bandOf bands context.block.band).blockBytes := by
  rw [BandDescriptor.blockBytes, BandDescriptor.blockBytes, BandDescriptor.blockPixels,
    BandDescriptor.blockPixels, h.type, h.block]

variable {κ : Type} {raster : Size} {bands : List BandDescriptor} {Holds : κ → Prop}
variable {store after : BlockStore κ} {key : BlockRef}

/-- The cache holds each block of the grid at most once and with its size, and the codec has the
    invariant. -/
structure Orderly (raster : Size) (bands : List BandDescriptor) (Holds : κ → Prop)
    (store : BlockStore κ) : Prop where
  holds : Holds store.codec
  distinct : store.cache.Distinct
  cached : ∀ key block, store.cache.find? key = some block →
    InGrid raster bands key ∧ block.data.size = (bandOf bands key.band).blockBytes
  sameRaster : store.raster = raster
  shapes : SameShapes bands store.bands.toList

namespace Orderly

theorem served (h : Orderly raster bands Holds store) (hkey : InGrid raster bands key) :
    (store.context key).Served raster bands where
  inGrid := hkey
  sameRaster := h.sameRaster
  type := by
    rw [context_descriptor, descriptor_eq_bandOf]
    exact h.shapes.type key.band
  block := by
    rw [context_descriptor, descriptor_eq_bandOf]
    exact h.shapes.block key.band

theorem blockBytes_eq (h : Orderly raster bands Holds store) (band : Nat) :
    (store.descriptor band).blockBytes = (bandOf bands band).blockBytes := by
  rw [descriptor_eq_bandOf]
  exact h.shapes.blockBytes band

/-- What the cache holds are still blocks of the grid, with the size that their band gives them. -/
theorem of_sameBands (h : Orderly raster bands Holds store) (hbands : store.SameBands after)
    (hholds : Holds after.codec) (hdistinct : after.cache.Distinct)
    (hblocks : ∀ key block, after.cache.find? key = some block →
      (after.context key).Served raster bands ∧
        block.data.size = (after.context key).descriptor.blockBytes) :
    Orderly raster bands Holds after where
  holds := hholds
  distinct := hdistinct
  cached key block hfind := by
    obtain ⟨hserved, hsize⟩ := hblocks key block hfind
    rw [hbands.context] at hserved hsize
    exact ⟨hserved.inGrid, hsize.trans (h.blockBytes_eq key.band)⟩
  sameRaster := hbands.raster.trans h.sameRaster
  shapes := by
    rw [hbands.bands]
    exact h.shapes

/-- Giving up blocks leaves the others in order. -/
theorem of_subset (h : Orderly raster bands Holds store) {cache : BlockCache}
    (hdistinct : cache.Distinct)
    (hsubset : ∀ key block, cache.find? key = some block → store.cache.find? key = some block) :
    Orderly raster bands Holds { store with cache } :=
  { h with
    distinct := hdistinct
    cached := fun key block hfind => h.cached key block (hsubset key block hfind) }

/-- No-data values do not matter to the order of blocks. -/
theorem withNoData (h : Orderly raster bands Holds store) (i : Nat) (value : Option Binary64) :
    Orderly raster bands Holds
      { store with bands := store.bands.modify i ({ · with noData := value }) } :=
  { h with
    shapes := by
      rw [Array.toList_modify]
      exact h.shapes.trans (SameShapes.bandsAfter (.setNoData (i + 1) value) _) }

/-- A step of the codec that keeps the invariant touches nothing else. -/
theorem keeps_onCodec {act : Action κ Unit} (hact : Keeps Holds act) :
    Keeps (Orderly raster bands Holds) (onCodec act) := by
  intro store h
  apply ends_onCodec
  apply (hact store.codec h.holds).imp_reached
  exact fun _ hholds => { h with holds := hholds }

end Orderly

/-! ## Calls within the contract -/

variable [Codec κ]

/-- Calls to the codec keep the invariant as long as they are about blocks of the grid, of the size
    that they have there. They may fail. -/
structure KeptByContract (raster : Size) (bands : List BandDescriptor) (Holds : κ → Prop) :
    Prop where
  decode : ∀ context, context.Served raster bands → Keeps Holds (Codec.decode context)
  encode : ∀ context data, context.Served raster bands →
    data.size = context.descriptor.blockBytes → Keeps Holds (Codec.encode context data)
  setNoData : ∀ band value, 0 < band ∧ band ≤ bands.length →
    Keeps Holds (Codec.setNoData band value)
  flush : Keeps Holds Codec.flush

/-- A codec of which no more is known than the invariant: nothing is said of what it stores, and
    its calls may fail. -/
def contractModel (hkept : KeptByContract raster bands Holds) : CodecModel κ where
  View := Unit
  view _ _ := ()
  content _ _ := ()
  Given _ _ := True
  Holds := Holds
  Serves := BlockContext.Served raster bands
  Fits context data := data.size = context.descriptor.blockBytes
  MayFail := True
  fits_of_size h := h
  ends_decode := by
    intro codec context hholds hserved
    apply (hkept.decode context hserved codec hholds).mono
    · intro decoded reached hreached
      refine ⟨⟨hreached, rfl, rfl⟩, ?_⟩
      -- a decoding of the wrong size is refused, which may happen
      split
      · rfl
      · trivial
    · exact fun _ reached hreached => ⟨⟨hreached, rfl, rfl⟩, trivial⟩
  ends_encode := by
    intro codec context data hholds hserved hsize
    apply (hkept.encode context data hserved hsize codec hholds).mono
    · exact fun _ reached hreached => ⟨hreached, fun _ _ => ⟨rfl, iff_of_true trivial (.inr trivial)⟩⟩
    · exact fun _ reached hreached => ⟨⟨hreached, fun _ _ => ⟨rfl, Iff.rfl⟩⟩, trivial⟩

/-! ## What a dataset does -/

namespace Orderly

/-- An orderly store is sound: a codec of which nothing is known cannot disagree with the cache. -/
theorem sound (hkept : KeptByContract raster bands Holds) (h : Orderly raster bands Holds store) :
    (contractModel hkept).Sound store where
  holds := h.holds
  distinct := h.distinct
  served hfind := h.served (h.cached _ _ hfind).1
  fits {key} _ hfind := (h.cached _ _ hfind).2.trans (h.blockBytes_eq key.band).symm
  clean _ _ := rfl

/-- A store that is sound for the contract is as orderly as before. -/
theorem of_sound (hkept : KeptByContract raster bands Holds) (h : Orderly raster bands Holds store)
    (hbands : store.SameBands after) (hsound : (contractModel hkept).Sound after) :
    Orderly raster bands Holds after :=
  h.of_sameBands hbands hsound.holds hsound.distinct fun _ _ hfind =>
    ⟨hsound.served hfind, hsound.fits hfind⟩

variable (hkept : KeptByContract raster bands Holds)
include hkept

/-- What changes no content leaves a store in order. -/
theorem of_keeps (h : Orderly raster bands Holds store)
    (hkeeps : (contractModel hkept).Keeps store after) : Orderly raster bands Holds after :=
  h.of_sound hkept hkeeps.bands hkeeps.sound

/-- The model of the contract knows all that an orderly store has to keep. -/
theorem keptByModels : KeptByModels raster bands (Orderly raster bands Holds) where
  sameRaster _ h := h.sameRaster
  shapes _ h := h.shapes
  model _ h := ⟨contractModel hkept, h.sound hkept, fun _ hkey => h.served hkey,
    fun _ hkeeps => h.of_keeps hkept hkeeps⟩
  subset _ _ h hdistinct hsubset := h.of_subset hdistinct hsubset
  reports _ _ h := { h with }
  flushCodec := keeps_onCodec hkept.flush

/-- Calls that write leave the blocks in order. -/
theorem keptByWriting : KeptByWriting raster bands (Orderly raster bands Holds) where
  change key use f hkey hwriting hf store h := by
    have hfits := hf.of_sameShapes h.shapes
    apply (CodecModel.ends_change (h.sound hkept) (h.served hkey) hwriting hfits).mono
    · intro _ after hchanged
      obtain ⟨data, hchanged⟩ := hchanged
      exact h.of_sound hkept hchanged.bands hchanged.sound
    · exact fun _ _ hfailed => h.of_keeps hkept hfailed.1
  setNoData band value hband := keeps_onCodec (hkept.setNoData band value hband)
  withNoData _ i value h := h.withNoData i value
  invalidateBand := (keptByModels hkept).keeps_invalidateBand

/-- Every call keeps the blocks orderly, if the codec keeps its own invariant. -/
theorem keptByCalls (access : Access) (hblocked : ∀ band ∈ bands, band.Blocked) :
    KeptByCalls access raster bands (Orderly raster bands Holds) where
  toKeptByReading := (keptByModels hkept).keptByReading
  writing _ := keptByWriting hkept
  blocked := hblocked

omit hkept in
/-- A new dataset holds no blocks, so they are in order. -/
theorem of_isNew {codec : κ} {access : Access} {dataset : Dataset κ} (hholds : Holds codec)
    (hnew : dataset.IsNew codec raster bands access) :
    Orderly raster bands Holds dataset.store := by
  -- the cache of a new dataset is empty
  have hnone (key : BlockRef) : dataset.store.cache.find? key = none := by
    rw [BlockCache.find?, hnew.empty]
    rfl
  constructor
  · rw [hnew.codec]
    exact hholds
  · rw [BlockCache.Distinct, BlockCache.keys, hnew.empty]
    exact List.nodup_nil
  · intro key block hfind
    rw [hnone] at hfind
    contradiction
  · exact hnew.raster
  · rw [hnew.bands]
    exact .refl bands

/-- After any calls to a new dataset its blocks are in order and its codec has the invariant. -/
theorem performAll {codec : κ} {options : OpenOptions} {environment : Option String}
    {dataset : Dataset κ} (hholds : Holds codec)
    (hnew : Dataset.ofCodec codec raster bands options environment = .ok dataset)
    (calls : List DatasetCall) :
    Orderly raster bands Holds (DatasetCall.performAll calls dataset).store := by
  obtain ⟨hnew, hblocked⟩ := Dataset.isNew_of_ofCodec hnew
  exact (DatasetCall.meets_performAll (keptByCalls hkept dataset.access hblocked) calls
    ⟨rfl, of_isNew hholds hnew⟩).blocks

end Orderly

/-! ## Requests that were noted -/

/-- The request is within the contract. -/
def CodecCall.Allowed (raster : Size) (bands : List BandDescriptor) : CodecCall → Prop
  | decode block => InGrid raster bands block
  | encode block data =>
    InGrid raster bands block ∧ data.size = (bandOf bands block.band).blockBytes
  | setNoData band _ => 0 < band ∧ band ≤ bands.length
  | flush => True

namespace Recorder

/-- A recorded codec keeps that all requests are allowed, and what the codec inside keeps. -/
theorem keptByContract (hkept : KeptByContract raster bands Holds) :
    KeptByContract raster bands (Noted (CodecCall.Allowed raster bands) Holds) where
  decode context hserved := keeps_record hserved.inGrid (hkept.decode context hserved)
  encode context data hserved hsize :=
    keeps_record ⟨hserved.inGrid, hsize.trans hserved.blockBytes_eq⟩
      (hkept.encode context data hserved hsize)
  setNoData band value hband := keeps_record hband (hkept.setNoData band value hband)
  flush := keeps_record trivial hkept.flush

end Recorder

/-! ## Where blocks of the grid are kept -/

/-- The index has an entry for each block of a band. -/
structure Tiled.BlockTable.Matches (table : BlockTable) (band : BandDescriptor) (raster : Size) :
    Prop where
  blocksPerRow : table.blocksPerRow = (band.grid raster).width
  entries : table.entries.size = band.blockCount raster

/-- The block has an entry of its own in an index of its band, and its rows lie in the bytes of a
    block and in the plane of its band. -/
structure Placed (raster : Size) (bands : List BandDescriptor) (block : BlockRef) : Prop where
  entry_lt : ∀ table : BlockTable, table.Matches (bandOf bands block.band) raster →
    table.entryIndex block.x block.y < table.entries.size
  entry_inj : ∀ table : BlockTable, table.Matches (bandOf bands block.band) raster →
    ∀ other, InGrid raster bands other → other.band = block.band →
      table.entryIndex other.x other.y = table.entryIndex block.x block.y → other = block
  row_in_block : ∀ context : BlockContext, context.Served raster bands → context.block = block →
    ∀ row < context.validSize.height,
      MemoryCodec.blockOffset context row + MemoryCodec.rowBytes context ≤
        (bandOf bands block.band).blockBytes
  row_in_plane : ∀ context : BlockContext, context.Served raster bands → context.block = block →
    ∀ codec, MemoryCodec.HasPlanes raster bands codec → ∀ row < context.validSize.height,
      MemoryCodec.planeOffset raster context row + MemoryCodec.rowBytes context ≤
        (codec.planes.getD (block.band - 1) ByteArray.empty).size

/-- The rows of a block lie where the planes have them. -/
theorem BlockContext.Served.shaped {context : BlockContext} (h : context.Served raster bands) :
    MemoryCodec.Shaped raster bands context where
  sameRaster := h.sameRaster
  left_lt := by
    rw [MemoryCodec.left, h.block]
    exact h.inGrid.left_lt
  top_lt := by
    rw [MemoryCodec.top, h.block]
    exact h.inGrid.top_lt
  band_pos := h.inGrid.band_pos
  shape := by
    refine ⟨bandOf bands context.block.band, ?_, h.type, h.block⟩
    -- the band exists, so its descriptor is the one at this place
    have hlt := h.inGrid.lt
    rw [bandOf, List.getD_eq_getElem?_getD, List.getElem?_eq_getElem hlt, Option.getD_some]

/-- Blocks of the grid have their places. -/
theorem placed_of_inGrid {block : BlockRef} (hblock : InGrid raster bands block) :
    Placed raster bands block where
  -- the number of the block is below the number of entries
  entry_lt table htable := by
    rw [BlockTable.entryIndex, htable.blocksPerRow, htable.entries]
    exact hblock.blockNumber_lt
  -- two blocks of a band have different numbers
  entry_inj table htable other hother hband hindex := by
    rw [BlockTable.entryIndex, BlockTable.entryIndex, htable.blocksPerRow] at hindex
    refine hblock.eq_of_blockNumber hother (by rw [hband]) ?_
    rw [Tiled.blockNumber, Tiled.blockNumber, hband]
    exact hindex
  -- a row of the block lies in the block
  row_in_block context hserved heq row hrow := by
    have hinside := MemoryCodec.blockOffset_inside hrow
    rw [hserved.blockBytes_eq, heq] at hinside
    exact hinside
  -- and the row of the plane it comes from lies in the plane
  row_in_plane context hserved heq codec hplanes row hrow := by
    have hsize := hplanes.size_plane hserved.shaped
    rw [heq] at hsize
    rw [hsize]
    exact MemoryCodec.planeOffset_inside hserved.shaped.toInside hrow

/-! ## Codecs that rely on the contract -/

/-- The planes of a raster in memory keep their sizes. -/
theorem MemoryCodec.keptByContract (raster : Size) (bands : List BandDescriptor) :
    KeptByContract raster bands (HasPlanes raster bands) where
  decode context hserved := by
    intro codec h
    apply (ends_decode h hserved.shaped).mono
    · intro decoded reached hdecoded
      rw [hdecoded.1]
      exact h
    · exact fun _ _ hnever => hnever.elim
  encode context data hserved hsize := by
    intro codec h
    apply (ends_encode h hserved.shaped hsize).mono
    · exact fun _ _ hencoded => hencoded.1
    · exact fun _ _ hnever => hnever.elim
  setNoData band value hband := keeps_pure _
  flush := keeps_pure _

namespace TiledCodec

/-- A step on the storage keeps what is known of the indexes in memory. -/
theorem keeps_onStorage {α : Type} (P : Array BlockTable → Prop) (act : Action Storage α) :
    Keeps (fun codec : TiledCodec => P codec.tables) (onStorage act) := by
  intro codec h
  apply ends_onStorage
  exact ends_of_forall (fun _ _ => h) fun _ _ => h

/-- The indexes of a tiled file keep their form, so that they have entries for all blocks. -/
theorem keptByContract (raster : Size) (bands : List BandDescriptor) :
    KeptByContract raster bands fun codec : TiledCodec => Tiled.Laid raster bands codec.tables where
  decode context hserved :=
    keeps_get_bind fun _ _ => keeps_lift_bind fun _ _ => keeps_pure _
  encode context data hserved hsize := by
    show Keeps _ (writeBlock context.block data)
    unfold writeBlock
    apply keeps_get_bind
    intro codec _
    apply keeps_lift_bind
    intro plan _
    apply (keeps_onStorage _ _).bind
    intro _
    -- only now, when the bytes are stored, the entry of the block is replaced
    apply keeps_modify
    intro reached h
    exact h.setEntry hserved.inGrid.lt _ _ _
  -- a new value is written into a header and leaves all tables alone
  setNoData band value hband := by
    show Keeps _ (writeNoData band value)
    unfold writeNoData
    apply keeps_get_bind
    intro codec _
    apply keeps_lift_bind
    intro raw _
    apply keeps_lift_bind
    intro descriptor _
    apply keeps_lift_bind
    intro header _
    exact keeps_onStorage _ _
  flush := keeps_onStorage _ _

end TiledCodec

/-! ## Whole runs -/

/-- What the dataset asked of its codec was within the contract, and so are the blocks that it
    holds. -/
structure HonoursContract (raster : Size) (bands : List BandDescriptor)
    (dataset : Dataset (Recorder κ)) : Prop where
  calls : ∀ call ∈ dataset.store.codec.calls, call.Allowed raster bands
  distinct : dataset.store.cache.keys.Nodup
  cached : ∀ key block, (key, block) ∈ dataset.store.cache.entries →
    InGrid raster bands key ∧ block.data.size = (dataset.descriptor key.band).blockBytes
  sameRaster : dataset.size = raster
  shapes : SameShapes bands dataset.store.bands.toList

/-- Of any codec it holds that it is a codec. -/
theorem keptByContract_true : KeptByContract raster bands fun _ : κ => True where
  decode _ _ := keeps_true _
  encode _ _ _ _ := keeps_true _
  setNoData _ _ _ := keeps_true _
  flush := keeps_true _

omit [Codec κ] in
/-- The requests that an orderly store has made are those that the contract allows. -/
theorem honoursContract_of_orderly {Holds : κ → Prop} {dataset : Dataset (Recorder κ)}
    (h : Orderly raster bands (Recorder.Noted (CodecCall.Allowed raster bands) Holds)
      dataset.store) : HonoursContract raster bands dataset where
  calls := h.holds.calls
  distinct := h.distinct
  cached key block hmem := by
    obtain ⟨hkey, hsize⟩ := h.cached key block ((BlockCache.find?_eq_some_iff h.distinct).mpr hmem)
    exact ⟨hkey, hsize.trans (h.blockBytes_eq key.band).symm⟩
  sameRaster := h.sameRaster
  shapes := h.shapes

/-- A dataset honours the contract with its codec, whatever calls are made to it and whichever of
    them, or of the codec's own, fail:
    * every block that the codec is asked for lies in the grid of an existing band;
    * every block that it is given has the size of a block of its band;
    * the cache holds no block twice, and each one with its size.
    What the codec keeps as long as it is asked for such blocks, described as their bands are, still
    holds. The index of a tiled file has an entry for each of them, which no other one has, and
    their rows lie inside the planes of a raster in memory. -/
theorem codec_contract_honoured {codec : κ} {options : OpenOptions} {environment : Option String}
    {dataset : Dataset (Recorder κ)}
    (hnew : Dataset.ofCodec (⟨codec, #[]⟩ : Recorder κ) raster bands options environment =
      .ok dataset) (calls : List DatasetCall) :
    HonoursContract raster bands (DatasetCall.performAll calls dataset) ∧
      (∀ Holds : κ → Prop, KeptByContract raster bands Holds → Holds codec →
        Holds (DatasetCall.performAll calls dataset).store.codec.inner) ∧
      ∀ block, InGrid raster bands block → Placed raster bands block := by
  refine ⟨?honoured, ?inner, fun _ => placed_of_inGrid⟩
  case honoured =>
    have horderly := Orderly.performAll (Recorder.keptByContract keptByContract_true)
      (Recorder.noted_nil trivial) hnew calls
    exact honoursContract_of_orderly horderly
  case inner =>
    intro Holds hkept hholds
    have horderly := Orderly.performAll (Recorder.keptByContract hkept)
      (Recorder.noted_nil hholds) hnew calls
    exact horderly.holds.inner

/-- A raster in memory with two blocks of one pixel, and room for one of them in the cache. -/
def crowdedPair : Dataset (Recorder MemoryCodec) :=
  { driver := "MEM"
    access := .update
    store :=
      { cache := .empty 1
        codec := ⟨MemoryCodec.blank ⟨2, 1⟩ #[⟨.byte, ⟨1, 1⟩, none⟩], #[]⟩
        bands := #[⟨.byte, ⟨1, 1⟩, none⟩]
        raster := ⟨2, 1⟩
        reports := {} } }

/-- Calls that replace the first block, get the second one, which drives the first one out, and ask
    for a third one, which is not there. -/
def pairCalls : List DatasetCall :=
  [.raster (.writeBlock 1 0 0 ⟨#[7]⟩), .raster (.readBlock 1 1 0 1), .raster (.readBlock 1 2 0 1)]

/-- The codec was asked for the second block and given the first one, but not asked for the third
    one. Its planes have kept their sizes. -/
theorem codec_contract_honoured_evicted :
    (DatasetCall.performAll pairCalls crowdedPair).store.codec.calls.size = 2 ∧
      HonoursContract ⟨2, 1⟩ [⟨.byte, ⟨1, 1⟩, none⟩]
        (DatasetCall.performAll pairCalls crowdedPair) ∧
      MemoryCodec.HasPlanes ⟨2, 1⟩ [⟨.byte, ⟨1, 1⟩, none⟩]
        (DatasetCall.performAll pairCalls crowdedPair).store.codec.inner ∧
      Placed ⟨2, 1⟩ [⟨.byte, ⟨1, 1⟩, none⟩] ⟨1, 1, 0⟩ := by
  have hnew : Dataset.ofCodec ⟨MemoryCodec.blank ⟨2, 1⟩ #[⟨.byte, ⟨1, 1⟩, none⟩], #[]⟩ ⟨2, 1⟩
      [⟨.byte, ⟨1, 1⟩, none⟩] { flags := { update := true }, cacheBlocks := some 1 } none =
        .ok crowdedPair := rfl
  obtain ⟨hhonoured, hkept, hplaced⟩ := codec_contract_honoured hnew pairCalls
  exact ⟨by decide +kernel, hhonoured,
    hkept _ (MemoryCodec.keptByContract _ _) (MemoryCodec.hasPlanes_blank _ _),
    hplaced _ (by constructor <;> decide)⟩

end RasterStore
