import RasterStore.Proofs.Cache.NoLostUpdate
import RasterStore.Proofs.Dataset.Contract
import RasterStore.Proofs.Memory.PlainRaster

/-!
# Datasets over codecs that store blocks exactly

An `ExactCodec` stores the bytes of blocks as they are, and any of its calls may fail. Over such a
codec a dataset has pixels whatever failed before: those of the contents of its blocks
(`BlockStore.pixels`). If nothing but encoding changes what the codec has stored (`EncodesOnly`),
the clean blocks in the cache are those of the codec after any calls (`ExactlyCached.performAll`),
so that transfers can be described by these pixels (`exactPixels`).
-/

namespace RasterStore

open BlockStore RasterStore.Action
open Tiled (InGrid)

/-- Nothing but encoding changes what the codec has stored. -/
class EncodesOnly (κ : Type) [Codec κ] [ExactCodec κ] : Prop where
  stored_setNoData : ∀ (band : Nat) (value : Option Binary64) (codec : κ),
    ExactCodec.stored ((Codec.setNoData band value).run codec).2 = ExactCodec.stored codec
  stored_flush : ∀ codec : κ,
    ExactCodec.stored ((Codec.flush : Action κ Unit).run codec).2 = ExactCodec.stored codec

instance : EncodesOnly ScriptedCodec where
  stored_setNoData _ _ _ := rfl
  stored_flush _ := rfl

variable {κ : Type} [Codec κ] [ExactCodec κ]

/-- The pixel in a column and row of a band, as the content of its block has it. -/
def BlockStore.pixels (store : BlockStore κ) : PlainRaster := fun band x y =>
  let descriptor := store.descriptor band
  descriptor.pixel (store.content (descriptor.blockOf band x y))
    (x % descriptor.block.width) (y % descriptor.block.height)

/-- An exact codec keeps all pixels of the blocks of the grid. -/
def exactPixels (raster : Size) (bands : List BandDescriptor) : PixelModel κ where
  toCodecModel := { exactModel with
    Serves := BlockContext.Served raster bands
    Fits := fun context data => data.size = context.descriptor.blockBytes
    fits_of_size := fun hsize => hsize
    ends_decode := fun _ _ => exactModel.ends_decode trivial trivial
    ends_encode := fun _ _ _ => (exactModel.ends_encode trivial trivial trivial).mono
      (fun _ _ h => ⟨h.1, fun other _ => h.2 other trivial⟩)
      fun _ _ h => ⟨⟨h.1.1, fun other _ => h.1.2 other trivial⟩, h.2⟩ }
  pixel context data column row := context.descriptor.pixel data column row
  pixel_view _ _ _ := rfl
  size_of_fits hsize := hsize

/-- The cache holds each block of the grid at most once and with its size, and the clean ones are
    what the codec has stored. -/
structure ExactlyCached (raster : Size) (bands : List BandDescriptor) (store : BlockStore κ) :
    Prop extends Orderly raster bands (fun _ : κ => True) store where
  clean : ∀ {key : BlockRef} {block : Block}, store.cache.find? key = some block →
    block.dirty = false → block.data = ExactCodec.stored store.codec key

variable {raster : Size} {bands : List BandDescriptor} {store before after : BlockStore κ}
variable {key : BlockRef} {band : Nat}

namespace ExactlyCached

theorem sound (h : ExactlyCached raster bands store) :
    (exactPixels raster bands).Sound store where
  holds := trivial
  distinct := h.distinct
  served hfind := h.served (h.cached _ _ hfind).1
  fits {key} _ hfind := (h.cached _ _ hfind).2.trans (h.blockBytes_eq key.band).symm
  clean := h.clean

theorem of_sound (h : ExactlyCached raster bands before) (hbands : before.SameBands after)
    (hsound : (exactPixels raster bands).Sound after) : ExactlyCached raster bands after where
  toOrderly := h.toOrderly.of_sameBands hbands trivial hsound.distinct fun _ _ hfind =>
    ⟨hsound.served hfind, hsound.fits hfind⟩
  clean := hsound.clean

/-- A step that changes no content leaves the cache exact. -/
theorem of_keeps (h : ExactlyCached raster bands before)
    (hkeeps : (exactPixels raster bands).Keeps before after) : ExactlyCached raster bands after :=
  h.of_sound hkeeps.bands hkeeps.sound

/-- Giving up blocks leaves the others as they are. -/
theorem of_subset (h : ExactlyCached raster bands store) {cache : BlockCache}
    (hdistinct : cache.Distinct)
    (hsubset : ∀ key block, cache.find? key = some block → store.cache.find? key = some block) :
    ExactlyCached raster bands { store with cache } where
  toOrderly := h.toOrderly.of_subset hdistinct hsubset
  clean hfind := h.clean (hsubset _ _ hfind)

/-- A step of the codec that stores nothing leaves the blocks exact. -/
theorem keeps_onCodec {act : Action κ Unit}
    (hact : ∀ codec, ExactCodec.stored (act.run codec).2 = ExactCodec.stored codec) :
    Keeps (ExactlyCached raster bands) (onCodec act) := by
  intro store h
  apply ends_onCodec
  apply ends_run.mono
  all_goals
    intro _ codec hrun
    -- whether the step worked or failed, the codec still has what it had
    have hstored := hact store.codec
    rw [hrun] at hstored
    refine ⟨{ h.toOrderly with holds := trivial }, fun hfind hclean => ?_⟩
    rw [h.clean hfind hclean, hstored]

/-- The model of exact pixels knows all that has to be kept. -/
theorem keptByModels [EncodesOnly κ] :
    KeptByModels raster bands (ExactlyCached (κ := κ) raster bands) where
  sameRaster _ h := h.sameRaster
  shapes _ h := h.shapes
  model _ h := ⟨_, h.sound, fun _ hkey => h.served hkey, fun _ hkeeps => h.of_keeps hkeeps⟩
  subset _ _ h hdistinct hsubset := h.of_subset hdistinct hsubset
  reports _ _ h := { h with }
  flushCodec := keeps_onCodec EncodesOnly.stored_flush

/-- Calls that write leave the blocks exact. -/
theorem keptByWriting [EncodesOnly κ] :
    KeptByWriting raster bands (ExactlyCached (κ := κ) raster bands) where
  change key use f hkey hwriting hf store h := by
    have hfits := hf.of_sameShapes h.shapes
    apply (CodecModel.ends_change h.sound (h.served hkey) hwriting hfits).mono
    · rintro _ after ⟨data, hchanged⟩
      exact h.of_sound hchanged.bands hchanged.sound
    · exact fun _ _ hfailed => h.of_keeps hfailed.1
  setNoData band value _ := keeps_onCodec (EncodesOnly.stored_setNoData band value)
  withNoData _ i value h := ⟨h.toOrderly.withNoData i value, h.clean⟩
  invalidateBand := keptByModels.keeps_invalidateBand

/-- Every call keeps the cache exact over a codec that stores nothing but what it encodes. -/
theorem keptByCalls [EncodesOnly κ] (access : Access) (hblocked : ∀ band ∈ bands, band.Blocked) :
    KeptByCalls access raster bands (ExactlyCached (κ := κ) raster bands) where
  toKeptByReading := keptByModels.keptByReading
  writing _ := keptByWriting
  blocked := hblocked

end ExactlyCached

/-! ## Datasets -/

/-- The dataset was made around an exact codec, and any calls were made to it. -/
structure ExactDataset (access : Access) (raster : Size) (bands : List BandDescriptor)
    (dataset : Dataset κ) : Prop where
  access_eq : dataset.access = access
  blocks : ExactlyCached raster bands dataset.store
  blocked : ∀ descriptor ∈ bands, descriptor.Blocked

/-- After any calls to a new dataset, whatever failed, its blocks are exact. -/
theorem exactDataset_performAll [EncodesOnly κ] {codec : κ} {options : OpenOptions}
    {environment : Option String} {dataset : Dataset κ}
    (hnew : Dataset.ofCodec codec raster bands options environment = .ok dataset)
    (calls : List DatasetCall) :
    ExactDataset options.flags.access raster bands (DatasetCall.performAll calls dataset) := by
  obtain ⟨hnew, hblocked⟩ := Dataset.isNew_of_ofCodec hnew
  have hstart : ExactlyCached raster bands dataset.store := by
    refine ⟨.of_isNew trivial hnew, fun {key block} hfind => ?_⟩
    rw [BlockCache.find?, hnew.empty] at hfind
    contradiction
  obtain ⟨haccess, hblocks⟩ := DatasetCall.meets_performAll
    (ExactlyCached.keptByCalls options.flags.access hblocked) calls ⟨hnew.access, hstart⟩
  exact ⟨haccess, hblocks, hblocked⟩

namespace ExactDataset

variable {access : Access} {dataset : Dataset κ}

theorem hasGrid (h : ExactDataset access raster bands dataset) (hband : IsBand bands band) :
    HasGrid bands band := by
  obtain ⟨hpos, hle⟩ := hband
  exact ⟨hpos, hle, h.blocked _ (Tiled.bandAt_mem (by omega))⟩

theorem hasBand (h : ExactDataset access raster bands dataset) (hband : IsBand bands band) :
    dataset.HasBand band := by
  have hcount : dataset.bandCount = bands.length := h.blocks.shapes.length
  rw [Dataset.HasBand, hcount]
  exact hband

theorem block_eq (h : ExactDataset access raster bands dataset) (band : Nat) :
    (dataset.store.descriptor band).block = (bandOf bands band).block := by
  rw [descriptor_eq_bandOf]
  exact h.blocks.shapes.block band

theorem type_eq (h : ExactDataset access raster bands dataset) (band : Nat) :
    (dataset.store.descriptor band).type = (bandOf bands band).type := by
  rw [descriptor_eq_bandOf]
  exact h.blocks.shapes.type band

/-- No-data values do not change how large blocks are. -/
theorem held (h : ExactDataset access raster bands dataset)
    (hheld : (bandOf bands band).blockBytes < memoryLimit) : Band.Held dataset band := by
  rw [Band.Held, Dataset.descriptor, h.blocks.blockBytes_eq]
  exact hheld

/-- The codec may be asked for all blocks of a band. -/
theorem serving (h : ExactDataset access raster bands dataset) (hband : IsBand bands band) :
    (exactPixels raster bands).Serving dataset.store band where
  blocked := by
    rw [BandDescriptor.Blocked, h.block_eq]
    exact (h.hasGrid hband).blocked
  serves x y hx hy := by
    rw [h.block_eq, h.blocks.sameRaster] at hx hy
    exact h.blocks.served ((h.hasGrid hband).inGrid hx hy)

end ExactDataset

namespace ScriptedCodec

/-- A row of three blocks of one pixel each. The cache has room for one of them, and the third call
    of the codec fails. -/
def row : Dataset ScriptedCodec where
  driver := "SCRIPT"
  access := .update
  store :=
    { cache := .empty 1
      codec := ⟨fun key => ⟨#[10 + key.x.toUInt8]⟩, [.works, .works, .fails]⟩
      bands := #[⟨.byte, ⟨1, 1⟩, none⟩]
      raster := ⟨3, 1⟩
      reports := {} }

theorem new_row : Dataset.ofCodec row.store.codec ⟨3, 1⟩ [⟨.byte, ⟨1, 1⟩, none⟩]
    { flags := { update := true }, cacheBlocks := some 1 } none = .ok row := rfl

end ScriptedCodec

end RasterStore
