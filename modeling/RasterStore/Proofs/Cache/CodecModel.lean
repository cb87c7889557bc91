import RasterStore.BlockStore
import RasterStore.Proofs.Action.Ends
import RasterStore.Proofs.Cache.Entries
import RasterStore.Proofs.Pixel.Packed

/-!
# What a block store holds

A `CodecModel` says what a codec keeps of the blocks that it is given: `content` is what it has
stored for a block, `view` is the part of a block's bytes that storing it keeps. Decoding gives
back the content; encoding replaces it; a call that fails leaves it as it was.

Over such a codec each block of a `BlockStore` has one logical content (`CodecModel.logical`): the
bytes in the cache if the block is held there, else the content of the codec. The invariant
`CodecModel.Sound` says that the two agree wherever the block in the cache is clean.
`CodecModel.Keeps` says that a step changes the logical content of no block. A block counts as
written (`CodecModel.Written`) from when it becomes dirty; only written blocks reach the codec, and
they stay written.
-/

namespace RasterStore

/-- What a codec keeps of its blocks. -/
structure CodecModel (κ : Type) [Codec κ] where
  /-- What is kept of one block. -/
  View : Type
  /-- The part of a block's bytes that is kept. -/
  view : BlockContext → ByteArray → View
  /-- What is stored for a block. -/
  content : κ → BlockContext → View
  /-- The block counts as given to the codec. -/
  Given : κ → BlockContext → Prop
  /-- The invariant of the codec. -/
  Holds : κ → Prop
  /-- The blocks that the codec may be asked for. -/
  Serves : BlockContext → Prop
  /-- The bytes that the codec may be given for a block. -/
  Fits : BlockContext → ByteArray → Prop
  /-- Calls may fail. -/
  MayFail : Prop
  fits_of_size : ∀ {context : BlockContext} {data : ByteArray},
    data.size = context.descriptor.blockBytes → Fits context data
  ends_decode : ∀ {codec : κ} {context : BlockContext}, Holds codec → Serves context →
    (Codec.decode context).Ends codec
      (fun decoded reached =>
        (Holds reached ∧ content reached = content codec ∧ Given reached = Given codec) ∧
        if decoded.bytes.size = context.descriptor.blockBytes then
          view context decoded.bytes = content codec context
        else MayFail)
      (fun _ reached =>
        (Holds reached ∧ content reached = content codec ∧ Given reached = Given codec) ∧ MayFail)
  ends_encode : ∀ {codec : κ} {context : BlockContext} {data : ByteArray}, Holds codec →
    Serves context → Fits context data →
    (Codec.encode context data).Ends codec
      (fun _ reached => Holds reached ∧ ∀ other, Serves other →
        (content reached other =
          if other.block = context.block then view other data else content codec other) ∧
        (Given reached other ↔ other.block = context.block ∨ Given codec other))
      (fun _ reached => (Holds reached ∧ ∀ other, Serves other →
        content reached other = content codec other ∧ (Given reached other ↔ Given codec other)) ∧
        MayFail)

namespace BlockStore

variable {κ : Type}

/-- The stores have the same bands over rasters of the same size. -/
structure SameBands (before after : BlockStore κ) : Prop where
  bands : after.bands = before.bands
  raster : after.raster = before.raster

theorem SameBands.refl (store : BlockStore κ) : SameBands store store := ⟨rfl, rfl⟩

/-- Bands that stay the same in two steps stay the same. -/
theorem SameBands.trans {first second third : BlockStore κ} (h : SameBands first second)
    (h' : SameBands second third) : SameBands first third :=
  ⟨h'.bands.trans h.bands, h'.raster.trans h.raster⟩

/-- With the same bands, a band has the same descriptor. -/
theorem SameBands.descriptor {before after : BlockStore κ} (h : SameBands before after)
    (band : Nat) : after.descriptor band = before.descriptor band := by
  rw [BlockStore.descriptor, BlockStore.descriptor, h.bands]

/-- With the same bands, the codec is told the same of a block. -/
theorem SameBands.context {before after : BlockStore κ} (h : SameBands before after)
    (key : BlockRef) : after.context key = before.context key := by
  rw [BlockStore.context, BlockStore.context, h.descriptor, h.raster]

@[simp] theorem context_block (store : BlockStore κ) (key : BlockRef) :
    (store.context key).block = key := rfl

@[simp] theorem context_descriptor (store : BlockStore κ) (key : BlockRef) :
    (store.context key).descriptor = store.descriptor key.band := rfl

end BlockStore

namespace CodecModel

variable {κ : Type} [Codec κ] (M : CodecModel κ)

/-- The content of a block: what the cache holds, else what the codec has stored. -/
def logical (store : BlockStore κ) (key : BlockRef) : M.View :=
  match store.cache.find? key with
  | some block => M.view (store.context key) block.data
  | none => M.content store.codec (store.context key)

/-- The block counts as written: it is dirty, or it counts as given to the codec. -/
def Written (store : BlockStore κ) (key : BlockRef) : Prop :=
  (∃ block, store.cache.find? key = some block ∧ block.dirty = true) ∨
    M.Given store.codec (store.context key)

/-- The codec has the same content for a block as before, and was given it if it was before. -/
def Unchanged (before after : κ) (context : BlockContext) : Prop :=
  M.content after context = M.content before context ∧
    (M.Given after context ↔ M.Given before context)

/-- The blocks in the cache have their own keys, and the codec may be asked for them and be given
    their bytes. -/
structure Tidy (store : BlockStore κ) : Prop where
  holds : M.Holds store.codec
  distinct : store.cache.Distinct
  served : ∀ {key block}, store.cache.find? key = some block → M.Serves (store.context key)
  fits : ∀ {key block}, store.cache.find? key = some block → M.Fits (store.context key) block.data

/-- A clean block in the cache is what the codec has stored. -/
structure Sound (store : BlockStore κ) : Prop extends Tidy M store where
  clean : ∀ {key block}, store.cache.find? key = some block → block.dirty = false →
    M.view (store.context key) block.data = M.content store.codec (store.context key)

variable {M} {store before after : BlockStore κ} {key other : BlockRef} {block : Block}

/-- The content of a block in the cache is that of its bytes there. -/
theorem logical_of_some (hfind : store.cache.find? key = some block) :
    M.logical store key = M.view (store.context key) block.data := by
  rw [logical, hfind]

/-- The content of a block that is not in the cache is what the codec has stored. -/
theorem logical_of_none (hfind : store.cache.find? key = none) :
    M.logical store key = M.content store.codec (store.context key) := by
  rw [logical, hfind]

theorem Unchanged.refl (codec : κ) (context : BlockContext) : M.Unchanged codec codec context :=
  ⟨rfl, Iff.rfl⟩

/-- The content of a block depends on the block in the cache and on what the codec has stored. -/
theorem logical_congr (hbands : before.SameBands after)
    (hfind : after.cache.find? key = before.cache.find? key)
    (hcontent : M.content after.codec (before.context key) =
      M.content before.codec (before.context key)) :
    M.logical after key = M.logical before key := by
  rw [logical, logical, hfind, hbands.context, hcontent]

/-- A store whose cache is empty is sound. -/
theorem sound_of_empty (hholds : M.Holds store.codec) (hempty : store.cache.entries = []) :
    M.Sound store := by
  -- in an empty cache there is no block that could break anything
  have hnone (key : BlockRef) : store.cache.find? key = none := by
    rw [BlockCache.find?, hempty]
    rfl
  constructor
  · constructor
    · exact hholds
    · rw [BlockCache.Distinct, BlockCache.keys, hempty]
      exact List.nodup_nil
    · intro key block hfind
      simp [hnone] at hfind
    · intro key block hfind
      simp [hnone] at hfind
  · intro key block hfind
    simp [hnone] at hfind

/-- A store with the same cache over a codec of the same content is as sound as before. -/
theorem Sound.of_codec (hsound : M.Sound before) (hbands : before.SameBands after)
    (hcache : ∀ key, after.cache.find? key = before.cache.find? key)
    (hdistinct : after.cache.Distinct) (hholds : M.Holds after.codec)
    (hcontent : ∀ key, M.Serves (before.context key) →
      M.Unchanged before.codec after.codec (before.context key)) :
    M.Sound after := by
  constructor
  · constructor
    · exact hholds
    · exact hdistinct
    · intro key block hfind
      rw [hcache] at hfind
      rw [hbands.context]
      exact hsound.served hfind
    · intro key block hfind
      rw [hcache] at hfind
      rw [hbands.context]
      exact hsound.fits hfind
  · -- a clean block still agrees with the storage, whose content for it is unchanged
    intro key block hfind hclean
    rw [hcache] at hfind
    rw [hbands.context, (hcontent key (hsound.served hfind)).1]
    exact hsound.clean hfind hclean

/-! ## Steps that change no content -/

variable (M) in
/-- The step from `before` to `after` left the store sound and the content of each block as it
    was. The written blocks are those that were written before. -/
structure Keeps (before after : BlockStore κ) : Prop where
  bands : before.SameBands after
  sound : M.Sound after
  logical : ∀ key, M.Serves (before.context key) → M.logical after key = M.logical before key
  written : ∀ key, M.Serves (before.context key) → (M.Written after key ↔ M.Written before key)

theorem Keeps.refl (hsound : M.Sound store) : M.Keeps store store :=
  ⟨.refl store, hsound, fun _ _ => rfl, fun _ _ => Iff.rfl⟩

/-- Two steps that change no content change none together. -/
theorem Keeps.trans {first second third : BlockStore κ} (h : M.Keeps first second)
    (h' : M.Keeps second third) : M.Keeps first third := by
  have hmiddle {key : BlockRef} (hserves : M.Serves (first.context key)) :
      M.Serves (second.context key) := by
    rwa [h.bands.context]
  refine ⟨h.bands.trans h'.bands, h'.sound, fun key hserves => ?_, fun key hserves => ?_⟩
  · rw [h'.logical key (hmiddle hserves), h.logical key hserves]
  · rw [h'.written key (hmiddle hserves), h.written key hserves]

/-- A store with the same blocks in its cache, over a codec of the same content, keeps all. -/
theorem Keeps.of_codec (hsound : M.Sound before) (hbands : before.SameBands after)
    (hcache : ∀ key, after.cache.find? key = before.cache.find? key)
    (hdistinct : after.cache.Distinct) (hholds : M.Holds after.codec)
    (hcontent : ∀ key, M.Serves (before.context key) →
      M.Unchanged before.codec after.codec (before.context key)) :
    M.Keeps before after := by
  refine ⟨hbands, hsound.of_codec hbands hcache hdistinct hholds hcontent, fun key hserves => ?_,
    fun key hserves => ?_⟩
  · exact logical_congr hbands (hcache key) (hcontent key hserves).1
  · rw [Written, hcache, hbands.context, (hcontent key hserves).2]
    exact Iff.rfl

end CodecModel

end RasterStore
