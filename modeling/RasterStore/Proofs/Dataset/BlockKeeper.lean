import RasterStore.Proofs.Cache.WriteBack
import RasterStore.Proofs.Dataset.Contract

/-!
# Codecs that keep whole blocks

A `BlockKeeper` says of a codec that it gives back each block as it was given, byte for byte, and
answers with padding for the blocks that it was never given. Its calls may fail, and then they
leave what it keeps as it was.

The padding depends on the no-data value of the band, and a change of this value that fails halfway
leaves clean blocks with the old padding in the cache. So what a dataset maintains is less than that
its clean blocks are those of the codec: it is that the clean blocks *that the codec was given* are
(`BlockKeeper.UpToDate`). Any call keeps this (`UpToDate.keptByCalls`). For a single step, the
blocks that are written when it starts are compared with the codec, and no others
(`BlockKeeper.modelOn`), so that the step is one over a sound store.
-/

namespace RasterStore

open BlockStore RasterStore.Action
open Tiled (InGrid)

/-- What is known of a codec in each of its states. -/
structure CodecReading (κ : Type) where
  /-- The invariant of the codec. -/
  Holds : κ → Prop
  /-- The bytes that the codec was given for a block, if it was. -/
  stored : κ → BlockRef → Option ByteArray
  /-- The no-data value that the codec has recorded for a band. -/
  noData : κ → Nat → Option Binary64

/-- The codec still has its invariant, the same blocks and the same no-data values. -/
structure CodecReading.Same {κ : Type} (reading : CodecReading κ) (before after : κ) : Prop where
  holds : reading.Holds after
  stored : reading.stored after = reading.stored before
  noData : reading.noData after = reading.noData before

/-- A codec that gives back the blocks that it was given, and padding for all others. -/
structure BlockKeeper (κ : Type) [Codec κ] (raster : Size) (bands : List BandDescriptor) extends
    CodecReading κ where
  /-- Calls may fail. -/
  MayFail : Prop
  ends_decode : ∀ {codec : κ} {context : BlockContext}, Holds codec → context.Served raster bands →
    (Codec.decode context).Ends codec
      (fun decoded reached => toCodecReading.Same codec reached ∧
        if decoded.bytes.size = context.descriptor.blockBytes then
          decoded.bytes = (stored codec context.block).getD context.descriptor.padding
        else MayFail)
      (fun _ reached => toCodecReading.Same codec reached ∧ MayFail)
  ends_encode : ∀ {codec : κ} {context : BlockContext} {data : ByteArray}, Holds codec →
    context.Served raster bands → data.size = context.descriptor.blockBytes →
    (Codec.encode context data).Ends codec
      (fun _ reached => Holds reached ∧ noData reached = noData codec ∧ ∀ key,
        stored reached key = if key = context.block then some data else stored codec key)
      (fun _ reached => toCodecReading.Same codec reached ∧ MayFail)
  ends_setNoData : ∀ {codec : κ} {band : Nat} {value : Option Binary64}, Holds codec →
    0 < band ∧ band ≤ bands.length →
    (Codec.setNoData band value).Ends codec
      (fun _ reached => Holds reached ∧ stored reached = stored codec ∧ ∀ other,
        noData reached other = if other = band then value else noData codec other)
      (fun _ reached => toCodecReading.Same codec reached)
  ends_flush : ∀ {codec : κ}, Holds codec →
    (Codec.flush).Ends codec (fun _ => toCodecReading.Same codec)
      (fun _ => toCodecReading.Same codec)

namespace BlockKeeper

variable {κ : Type} [Codec κ] {raster : Size} {bands : List BandDescriptor}
variable (K : BlockKeeper κ raster bands)

/-- What the codec keeps of the selected blocks, as long as its no-data values are `noData`. -/
def modelOn (selected : BlockRef → Bool) (noData : Nat → Option Binary64) : CodecModel κ where
  View := Option ByteArray
  view context data := if selected context.block then some data else none
  content codec context :=
    if selected context.block then
      some ((K.stored codec context.block).getD context.descriptor.padding)
    else none
  Given codec context := (K.stored codec context.block).isSome = true
  Holds codec := K.Holds codec ∧ K.noData codec = noData
  Serves := BlockContext.Served raster bands
  Fits context data := data.size = context.descriptor.blockBytes
  MayFail := K.MayFail
  fits_of_size h := h
  ends_decode := by
    rintro codec context ⟨hholds, rfl⟩ hserved
    apply (K.ends_decode hholds hserved).mono
    · rintro decoded reached ⟨hsame, hbytes⟩
      simp only [hsame.stored]
      refine ⟨⟨⟨hsame.holds, hsame.noData⟩, trivial, trivial⟩, ?_⟩
      split at hbytes
      · next hsize => rw [if_pos hsize, hbytes]
      · next hsize => rwa [if_neg hsize]
    · rintro error reached ⟨hsame, hfail⟩
      simp only [hsame.stored]
      exact ⟨⟨⟨hsame.holds, hsame.noData⟩, trivial, trivial⟩, hfail⟩
  ends_encode := by
    rintro codec context data ⟨hholds, rfl⟩ hserved hsize
    apply (K.ends_encode hholds hserved hsize).mono
    · rintro _ reached ⟨hreached, hnoData, hstored⟩
      refine ⟨⟨hreached, hnoData⟩, fun other _ => ?_⟩
      rw [hstored]
      by_cases hother : other.block = context.block
      · simp [hother]
      · simp [hother]
    · rintro error reached ⟨hsame, hfail⟩
      rw [hsame.stored]
      exact ⟨⟨⟨hsame.holds, hsame.noData⟩, fun _ _ => ⟨rfl, Iff.rfl⟩⟩, hfail⟩

/-- The block is dirty, or the codec was given it. -/
def written (store : BlockStore κ) (key : BlockRef) : Bool :=
  (store.cache.find? key).any Block.dirty || (K.stored store.codec key).isSome

/-- The bytes that the codec answers with for a block. -/
def decoded (store : BlockStore κ) (key : BlockRef) : ByteArray :=
  (K.stored store.codec key).getD (store.descriptor key.band).padding

/-- The bytes that a block is read with. -/
def content (store : BlockStore κ) (key : BlockRef) : ByteArray :=
  match store.cache.find? key with
  | some block => block.data
  | none => K.decoded store key

/-- The clean blocks in the cache that the codec was given are what it was given. -/
structure UpToDate (store : BlockStore κ) : Prop extends Orderly raster bands K.Holds store where
  clean : ∀ {key : BlockRef} {block : Block} {data : ByteArray},
    store.cache.find? key = some block → block.dirty = false →
    K.stored store.codec key = some data → block.data = data

variable {K} {store before after : BlockStore κ} {key : BlockRef}
variable {selected : BlockRef → Bool} {noData : Nat → Option Binary64}

/-- The blocks that are known as written are those that count as written in the model. -/
theorem written_iff :
    K.written store key = true ↔ (K.modelOn selected noData).Written store key := by
  rw [written, Bool.or_eq_true, Option.any_eq_true]
  exact Iff.rfl

theorem written_of_stored {data : ByteArray} (h : K.stored store.codec key = some data) :
    K.written store key = true := by
  rw [written, h, Option.isSome_some, Bool.or_true]

/-- A clean block that counts as written was given to the codec. -/
theorem stored_of_clean {block : Block} (hwritten : K.written store key = true)
    (hfind : store.cache.find? key = some block) (hclean : block.dirty = false) :
    ∃ data, K.stored store.codec key = some data := by
  rw [written, hfind, Option.any_some, hclean, Bool.false_or] at hwritten
  exact Option.isSome_iff_exists.mp hwritten

/-- A block in the cache has the content that it has there. -/
theorem content_of_some {block : Block} (hfind : store.cache.find? key = some block) :
    K.content store key = block.data := by
  rw [content, hfind]

/-- A block that is not in the cache has the content that decoding gives. -/
theorem content_of_none (hfind : store.cache.find? key = none) :
    K.content store key = K.decoded store key := by
  rw [content, hfind]

theorem decoded_of_stored {data : ByteArray} (h : K.stored store.codec key = some data) :
    K.decoded store key = data := by
  rw [decoded, h, Option.getD_some]

/-- The content of a selected block is that of the model. -/
theorem logical_modelOn (hselected : selected key = true) :
    (K.modelOn selected noData).logical store key = some (K.content store key) := by
  cases hfind : store.cache.find? key with
  | none =>
    rw [CodecModel.logical_of_none hfind, content_of_none hfind]
    exact if_pos hselected
  | some block =>
    rw [CodecModel.logical_of_some hfind, content_of_some hfind]
    exact if_pos hselected

namespace UpToDate

theorem tidy (h : K.UpToDate store) (selected : BlockRef → Bool) :
    (K.modelOn selected (K.noData store.codec)).Tidy store where
  holds := ⟨h.holds, rfl⟩
  distinct := h.distinct
  served hfind := h.served (h.cached _ _ hfind).1
  fits {key} _ hfind := (h.cached _ _ hfind).2.trans (h.blockBytes_eq key.band).symm

/-- The store is sound as far as written blocks and those that are not in the cache go. -/
theorem sound (h : K.UpToDate store)
    (hselected : ∀ key, selected key = true →
      K.written store key = true ∨ store.cache.find? key = none) :
    (K.modelOn selected (K.noData store.codec)).Sound store where
  toTidy := h.tidy selected
  clean {key block} hfind hclean := by
    show (if selected key then some block.data else none) =
      if selected key then some ((K.stored store.codec key).getD _) else none
    by_cases hkey : selected key = true
    · -- a selected block is in the cache only if it is written
      rcases hselected key hkey with hwritten | hnone
      · obtain ⟨data, hdata⟩ := stored_of_clean hwritten hfind hclean
        rw [if_pos hkey, if_pos hkey, hdata, Option.getD_some, h.clean hfind hclean hdata]
      · rw [hfind] at hnone
        contradiction
    · rw [if_neg hkey, if_neg hkey]

/-- The store is sound as far as its written blocks go. -/
theorem sound_written (h : K.UpToDate store) :
    (K.modelOn (K.written store) (K.noData store.codec)).Sound store :=
  h.sound fun _ hwritten => .inl hwritten

/-- A sound store is up to date if each clean block that the codec was given is selected. -/
theorem of_sound (h : K.UpToDate before) (hbands : before.SameBands after)
    (hsound : (K.modelOn selected noData).Sound after)
    (hselected : ∀ {key block data}, after.cache.find? key = some block → block.dirty = false →
      K.stored after.codec key = some data → selected key = true) :
    K.UpToDate after where
  toOrderly := h.toOrderly.of_sameBands hbands hsound.holds.1 hsound.distinct fun _ _ hfind =>
    ⟨hsound.served hfind, hsound.fits hfind⟩
  clean {key block data} hfind hclean hstored := by
    -- what the codec has stored is selected
    have hkey := hselected hfind hclean hstored
    have hview : (if selected key then some block.data else none) =
        if selected key then some ((K.stored after.codec key).getD _) else none :=
      hsound.clean hfind hclean
    rw [if_pos hkey, if_pos hkey, hstored, Option.getD_some, Option.some.injEq] at hview
    exact hview

/-- A step that changes no content of written blocks leaves the store up to date. -/
theorem of_keeps (h : K.UpToDate before)
    (hkeeps : (K.modelOn (K.written before) noData).Keeps before after) : K.UpToDate after := by
  apply h.of_sound hkeeps.bands hkeeps.sound
  intro key block data hfind _ hstored
  have hserved := hkeeps.sound.served hfind
  rw [hkeeps.bands.context] at hserved
  exact written_iff.mpr ((hkeeps.written key hserved).mp
    (written_iff.mp (written_of_stored hstored)))

/-- Giving up blocks leaves the others up to date. -/
theorem of_subset (h : K.UpToDate store) {cache : BlockCache} (hdistinct : cache.Distinct)
    (hsubset : ∀ key block, cache.find? key = some block → store.cache.find? key = some block) :
    K.UpToDate { store with cache } where
  toOrderly := h.toOrderly.of_subset hdistinct hsubset
  clean hfind hclean hstored := h.clean (hsubset _ _ hfind) hclean hstored

/-- A codec that was given the same blocks. -/
theorem of_codec (h : K.UpToDate store) {codec : κ} (hholds : K.Holds codec)
    (hstored : K.stored codec = K.stored store.codec) : K.UpToDate { store with codec } where
  toOrderly := { h with holds := hholds }
  clean {key block data} hfind hclean hdata := by
    rw [hstored] at hdata
    exact h.clean hfind hclean hdata

/-- No-data values do not matter to blocks that were given to the codec. -/
theorem withNoData (h : K.UpToDate store) (i : Nat) (value : Option Binary64) :
    K.UpToDate { store with bands := store.bands.modify i ({ · with noData := value }) } where
  toOrderly := h.toOrderly.withNoData i value
  clean := h.clean

/-- The model of the written blocks knows all that has to be kept. -/
theorem keptByModels : KeptByModels raster bands K.UpToDate where
  sameRaster _ h := h.sameRaster
  shapes _ h := h.shapes
  model _ h := ⟨_, h.sound_written, fun _ hkey => h.served hkey, fun _ hkeeps => h.of_keeps hkeeps⟩
  subset _ _ h hdistinct hsubset := h.of_subset hdistinct hsubset
  reports _ _ h := { h with }
  flushCodec := by
    intro store h
    apply ends_onCodec
    apply (K.ends_flush h.holds).imp_reached
    exact fun _ hsame => h.of_codec hsame.holds hsame.stored

/-- Calls that read leave the blocks up to date. -/
theorem keptByReading : KeptByReading raster bands K.UpToDate :=
  keptByModels.keptByReading

/-- Calls that write leave the blocks up to date. -/
theorem keptByWriting : KeptByWriting raster bands K.UpToDate where
  change key use f hkey hwriting hf store h := by
    have hsound := h.sound_written
    have hserves := h.served hkey
    have hfits := hf.of_sameShapes h.shapes
    apply ((CodecModel.ends_change hsound hserves hwriting hfits).and
      (CodecModel.ends_change_dirty hsound hserves hwriting)).mono
    · -- of all other blocks the codec holds what it held, so that a clean one still agrees with it
      rintro _ after ⟨⟨data, hchanged⟩, dirtied, hdirtied, hdirty⟩
      apply h.of_sound hchanged.bands hchanged.sound
      intro other block bytes hfind hclean hstored
      by_cases hother : other = key
      · -- the changed block is dirty, so it need not be compared
        rw [hother, hdirtied, Option.some.injEq] at hfind
        rw [← hfind, hdirty] at hclean
        contradiction
      · have hserved := hchanged.sound.served hfind
        rw [hchanged.bands.context] at hserved
        exact written_iff.mpr ((hchanged.written other hother hserved).mp
          (written_iff.mp (written_of_stored hstored)))
    · exact fun _ _ hfailed => h.of_keeps hfailed.1.1
  setNoData band value hband store h := by
    apply ends_onCodec
    apply (K.ends_setNoData h.holds hband).mono
    · exact fun _ _ hreached => h.of_codec hreached.1 hreached.2.1
    · exact fun _ _ hsame => h.of_codec hsame.holds hsame.stored
  withNoData _ i value h := h.withNoData i value
  invalidateBand := keptByModels.keeps_invalidateBand

/-- Every call keeps what is known of the blocks up to date. -/
theorem keptByCalls (access : Access) (hblocked : ∀ band ∈ bands, band.Blocked) :
    KeptByCalls access raster bands K.UpToDate where
  toKeptByReading := keptByReading
  writing _ := keptByWriting
  blocked := hblocked

/-- A store whose cache is empty is up to date. -/
theorem of_empty (horderly : Orderly raster bands K.Holds store)
    (hempty : store.cache.entries = []) : K.UpToDate store where
  toOrderly := horderly
  clean {key block data} hfind := by
    rw [BlockCache.find?, hempty] at hfind
    contradiction

/-- The blocks of a dataset are up to date after any calls. -/
theorem performAll {codec : κ} {options : OpenOptions} {environment : Option String}
    {dataset : Dataset κ} (hholds : K.Holds codec)
    (hnew : Dataset.ofCodec codec raster bands options environment = .ok dataset)
    (calls : List DatasetCall) :
    (DatasetCall.performAll calls dataset).Meets options.flags.access K.UpToDate := by
  obtain ⟨hnew, hblocked⟩ := Dataset.isNew_of_ofCodec hnew
  apply DatasetCall.meets_performAll (keptByCalls _ hblocked)
  exact ⟨hnew.access, .of_empty (.of_isNew hholds hnew) hnew.empty⟩

/-! ## Reading -/

/-- A block is read with its content, unless making room for it fails. -/
theorem ends_fetch (h : K.UpToDate store) (hkey : InGrid raster bands key) :
    (fetch key .read).Ends store (fun data _ => data = K.content store key)
      (fun _ _ => K.MayFail) := by
  cases hfind : store.cache.find? key with
  | some block =>
    -- a block that is held is answered from the cache
    rw [content_of_some hfind]
    exact (ends_fetch_of_find? hfind).mono (fun _ _ h => h) fun _ _ hnever => hnever.elim
  | none =>
    -- the block itself may be compared with the codec too, as the cache does not hold it
    have hsound : (K.modelOn (fun other => K.written store other || other == key)
        (K.noData store.codec)).Sound store := by
      apply h.sound
      intro other hother
      rcases (Bool.or_eq_true _ _).mp hother with hwritten | heq
      · exact .inl hwritten
      · rw [eq_of_beq heq]
        exact .inr hfind
    have hkey' : (K.written store key || key == key) = true := by simp
    apply (CodecModel.ends_fetch hsound (h.served hkey) .read).mono
    · intro data after hfetched
      have hview := hfetched.view
      rw [CodecModel.fetchedView, if_neg (by simp), logical_modelOn hkey'] at hview
      exact Option.some.inj ((if_pos hkey').symm.trans hview)
    · exact fun _ _ hfailed => hfailed.2

section Blocks

variable {dataset : Dataset κ}

/-- The blocks of the grid are those that a dataset accepts. -/
theorem inGrid_iff (h : K.UpToDate dataset.store)
    (hblocked : ∀ descriptor ∈ bands, descriptor.Blocked) :
    InGrid raster bands key ↔
      dataset.HasBand key.band ∧ Band.InGrid dataset key.band key.x key.y := by
  have hcount : dataset.bandCount = bands.length := h.shapes.length
  have hblock : (dataset.descriptor key.band).block = (bandOf bands key.band).block := by
    rw [Dataset.descriptor, descriptor_eq_bandOf]
    exact h.shapes.block key.band
  rw [Dataset.HasBand, Band.InGrid, hcount, hblock, Dataset.size, h.sameRaster]
  constructor
  · exact fun hkey => ⟨⟨hkey.band_pos, hkey.band_le⟩, hkey.left_lt, hkey.top_lt⟩
  · rintro ⟨⟨hpos, hle⟩, hcolumn, hrow⟩
    have hmem : bandOf bands key.band ∈ bands := Tiled.bandAt_mem (by omega)
    exact HasGrid.inGrid ⟨hpos, hle, hblocked _ hmem⟩ hcolumn hrow

/-- Reading a block of the grid into a buffer of its length is fetching it. -/
theorem ends_readBlock_of_fetch {good : ByteArray → Prop} {bad : Prop}
    (h : K.UpToDate dataset.store) (hblocked : ∀ descriptor ∈ bands, descriptor.Blocked)
    (hkey : InGrid raster bands key) (hheld : (bandOf bands key.band).blockBytes < memoryLimit)
    (hfetch : (fetch key .read).Ends dataset.store (fun data _ => good data) (fun _ _ => bad)) :
    (Dataset.readBlock key.band key.x key.y (bandOf bands key.band).blockBytes).Ends dataset
      (fun data _ => good data) (fun _ _ => bad) := by
  -- the block passes the checks of a band that is there
  obtain ⟨hband, hgrid⟩ := (h.inGrid_iff hblocked).mp hkey
  apply Dataset.ends_onBand
  · intro _
    rw [← h.blockBytes_eq key.band] at hheld ⊢
    exact Band.ends_readBlock_of_fetch hgrid hheld hfetch
  · exact fun hmissing => absurd hband hmissing

/-- A block that is read has its content, whatever the arguments are. -/
theorem ends_readBlock (h : K.UpToDate dataset.store)
    (hblocked : ∀ descriptor ∈ bands, descriptor.Blocked) (key : BlockRef) (length : Nat) :
    (Dataset.readBlock key.band key.x key.y length).Ends dataset
      (fun data _ => InGrid raster bands key ∧ data = K.content dataset.store key)
      (fun _ _ => True) := by
  apply Dataset.ends_onBand
  · intro hband
    apply Ends.get_bind
    refine Ends.of_lift_bind (fun _ hcheck => ?_) fun _ _ => trivial
    -- the block that was accepted belongs to the grid
    have hkey := (h.inGrid_iff hblocked).mpr ⟨hband, Band.checkBlock_eq_ok_iff.mp hcheck⟩
    refine Ends.of_lift_bind (fun _ _ => ?_) fun _ _ => trivial
    apply Dataset.ends_onStore
    exact (h.ends_fetch hkey).mono (fun _ _ hdata => ⟨hkey, hdata⟩) fun _ _ _ => trivial
  · exact fun _ _ => trivial

end Blocks

/-- Fetching, making room and writing back change no content of the selected blocks. -/
theorem keptByFetching_keeps (h : K.UpToDate before) :
    KeptByFetching raster bands ((K.modelOn selected noData).Keeps before) where
  sameRaster _ hkeeps := hkeeps.bands.raster.trans h.sameRaster
  shapes _ hkeeps := by
    rw [hkeeps.bands.bands]
    exact h.shapes
  -- every step of a transfer keeps what `before` had, and so does a run of them
  fetch key hkey := by
    intro store hkeeps
    have hserved := h.served hkey
    rw [← hkeeps.bands.context] at hserved
    apply (CodecModel.ends_fetch hkeeps.sound hserved .read).mono
    · exact fun _ _ hfetched => hkeeps.trans (hfetched.keeps rfl)
    · exact fun _ _ hfailed => hkeeps.trans hfailed.1
  setCapacity capacity := by
    intro store hkeeps
    apply (CodecModel.ends_setCapacity hkeeps.sound capacity).mono
    · exact fun _ _ hroom => hkeeps.trans hroom
    · exact fun _ _ hfailed => hkeeps.trans hfailed.1
  flushSelected chosen := by
    intro store hkeeps
    apply (CodecModel.ends_flushSelected_keeps hkeeps.sound chosen).mono
    · exact fun _ _ hflushed => hkeeps.trans hflushed.1
    · exact fun _ _ hfailed => hkeeps.trans hfailed.1
  flushCodec := by
    intro store hkeeps
    apply ends_onCodec
    apply (K.ends_flush hkeeps.sound.holds.1).imp_reached
    intro codec hsame
    apply hkeeps.trans
    -- flushing the codec touches no block of the cache
    refine .of_codec hkeeps.sound ⟨rfl, rfl⟩ (fun _ => rfl) hkeeps.sound.distinct ?_ ?_
    · exact ⟨hsame.holds, hsame.noData.trans hkeeps.sound.holds.2⟩
    · intro key _
      simp only [CodecModel.Unchanged, modelOn, hsame.stored, and_self]

/-- Calls that read change no content of blocks that are written or not in the cache. -/
theorem content_performAll {dataset : Dataset κ} (h : K.UpToDate dataset.store)
    (hblocked : ∀ descriptor ∈ bands, descriptor.Blocked) {calls : List RasterCall}
    (hreading : ∀ call ∈ calls, call.IsReading) (hkey : InGrid raster bands key)
    (hstable : K.written dataset.store key = true ∨ dataset.store.cache.find? key = none) :
    K.content (DatasetCall.performAll (calls.map .raster) dataset).store key =
      K.content dataset.store key := by
  -- the blocks whose contents are stable, in one model
  let selected (other : BlockRef) : Bool :=
    K.written dataset.store other || (dataset.store.cache.find? other).isNone
  have hselected {other : BlockRef} : selected other = true ↔
      K.written dataset.store other = true ∨ dataset.store.cache.find? other = none := by
    rw [← Option.isNone_iff_eq_none]
    exact Bool.or_eq_true_iff
  have hsound := h.sound fun _ => hselected.mp
  -- reading calls keep the contents of this model
  have hreached : (DatasetCall.performAll (calls.map .raster) dataset).Meets dataset.access _ :=
    DatasetCall.meets_performAll_of_isReading h.keptByFetching_keeps hblocked hreading
      ⟨rfl, .refl hsound⟩
  have hlogical := hreached.blocks.logical key (h.served hkey)
  rw [logical_modelOn (hselected.mpr hstable), logical_modelOn (hselected.mpr hstable)] at hlogical
  exact Option.some.inj hlogical

end UpToDate

/-! ## Writing back -/

section WritingBack

variable {flushed : List BlockRef}

/-- A block that was written back is decoded with the bytes that it had in the cache. -/
theorem decoded_of_writesBack
    (h : (K.modelOn (fun _ => true) noData).WritesBack before flushed after)
    (hserved : (before.context key).Served raster bands) :
    K.decoded after key =
      match before.cache.find? key with
      | some block => if key ∈ flushed then block.data else K.decoded before key
      | none => K.decoded before key := by
  have hcontent := h.content _ hserved
  rw [context_block] at hcontent
  rw [decoded, h.bands.descriptor]
  cases hfind : before.cache.find? key with
  | none =>
    rw [hfind] at hcontent
    exact Option.some.inj hcontent
  | some block =>
    rw [hfind] at hcontent
    -- a block that was flushed decodes to what was in the cache
    by_cases hmem : key ∈ flushed
    · exact (Option.some.inj (hcontent.trans (if_pos hmem))).trans (if_pos hmem).symm
    · exact (Option.some.inj (hcontent.trans (if_neg hmem))).trans (if_neg hmem).symm

/-- Writing blocks back changes no content, also if clean blocks are not what the codec has. -/
theorem content_of_writesBack
    (h : (K.modelOn (fun _ => true) noData).WritesBack before flushed after)
    (hserved : (before.context key).Served raster bands) :
    K.content after key = K.content before key := by
  have hafter := h.find? key
  cases hfind : before.cache.find? key with
  | none =>
    rw [hfind, Option.map_none] at hafter
    rw [content_of_none hafter, content_of_none hfind, decoded_of_writesBack h hserved, hfind]
  | some block =>
    rw [hfind, Option.map_some] at hafter
    rw [content_of_some hafter, content_of_some hfind]
    -- flushed or not, the bytes in the cache are the same
    split
    · rfl
    · rfl

/-- Writing back makes no block written that was not, and none unwritten. -/
theorem written_of_writesBack
    (h : (K.modelOn (fun _ => true) noData).WritesBack before flushed after)
    (hserved : (before.context key).Served raster bands) :
    K.written after key = K.written before key := by
  rw [Bool.eq_iff_iff]
  exact written_iff.trans ((h.written hserved).trans written_iff.symm)

end WritingBack

end BlockKeeper

end RasterStore
