import RasterStore.Proofs.Tiled.Opened

/-!
# Room for dirty blocks

A tiled file cannot grow beyond the length that files may have, so storing a block can fail. It
does not if there is room for all dirty blocks that have no tile yet (`HasRoom`):

* `StoresTiles.ends_fetch`   a block can be fetched, whatever blocks have to be given up for it
* `Opened.ends_readBlock_of_hasRoom`   reading does not fail
* `ends_flush_hasRoom`                 a flush that succeeds shows that there was room

The sum of the length of the file and of what is missing of the dirty blocks is what giving blocks
up and writing them back leave as it is.
-/

namespace RasterStore

open BlockStore Tiled RasterStore.Action

variable {held : String} {raster : Size} {bands : List BandDescriptor}
variable {store : BlockStore FormatCodec} {tiled : TiledCodec} {key : BlockRef}

/-- The file may become as long as storing all dirty blocks makes it. -/
def HasRoom (bands : List BandDescriptor) (store : BlockStore FormatCodec) : Prop :=
  ∃ tiled : TiledCodec, store.codec = .inr (.inl tiled) ∧
    tiled.storage.length + store.cache.dirtySum (tiled.growth bands) < offsetLimit

/-! ## Storing a block -/

/-- A block was stored: the file grew by what was missing of it, and nothing else is missing less. -/
structure Grown (raster : Size) (bands : List BandDescriptor) (before : TiledCodec)
    (key : BlockRef) (after : TiledCodec) : Prop where
  length : after.storage.length = before.storage.length + before.growth bands key
  growth : ∀ other, InGrid raster bands other → other ≠ key →
    after.growth bands other = before.growth bands other

private theorem ends_encode_grown {data : ByteArray} (hcodec : store.codec = .inr (.inl tiled))
    (hintact : tiled.Intact raster bands) (hgrid : InGrid raster bands key)
    (hsize : data.size = (bandAt bands (key.band - 1)).blockBytes) :
    (BlockStore.encode key data).Ends store
      (fun _ after => ∃ next : TiledCodec, after = { store with codec := .inr (.inl next) } ∧
        Grown raster bands tiled key next)
      (fun _ _ => offsetLimit ≤ tiled.storage.length + tiled.growth bands key) := by
  refine Ends.get_bind (ends_onCodec (Ends.mapError ?_))
  rw [hcodec]
  refine Choice.ends_inr (Choice.ends_inl ((TiledCodec.ends_writeBlock hintact hgrid hsize).mono
    ?_ fun _ _ h => h.2))
  intro _ next hnext
  obtain ⟨-, hlength, hstage, -⟩ := hnext
  -- no other block needs more room than before, or less
  refine ⟨next, rfl, hlength, fun other hother hne => ?_⟩
  rw [TiledCodec.growth, TiledCodec.growth, hstage.entries other hother hne]

/-- Over this model, blocks are stored in an intact tiled file. The bands of the file may have other
    no-data values. -/
structure StoresTiles (raster : Size) (bands : List BandDescriptor) (M : CodecModel FormatCodec) :
    Prop where
  intact : ∀ {tiled : TiledCodec}, M.Holds (.inr (.inl tiled)) →
    ∃ bands', SameShapes bands bands' ∧ tiled.Intact raster bands'
  inGrid : ∀ {context : BlockContext}, M.Serves context → InGrid raster bands context.block
  size : ∀ {context : BlockContext} {data : ByteArray}, M.Serves context → M.Fits context data →
    data.size = (bandAt bands (context.block.band - 1)).blockBytes

theorem storesTiles_tiledModel :
    StoresTiles raster bands (tiledModel held raster bands).toCodecModel where
  intact hholds := ⟨bands, .refl bands, (hholds.of_codec rfl).2⟩
  inGrid hserves := hserves.1
  size hserves hfits := by
    rw [hfits, hserves.2]
    rfl

variable {M : CodecModel FormatCodec}

/-- What is missing of a block is as much as the block has bytes. -/
private theorem growth_of_sameShapes {bands' : List BandDescriptor}
    (hshapes : SameShapes bands bands') (tiled : TiledCodec) (key : BlockRef) :
    tiled.growth bands' key = tiled.growth bands key := by
  have hbytes : (bandAt bands' (key.band - 1)).blockBytes = _ := hshapes.blockBytes key.band
  rw [TiledCodec.growth, TiledCodec.growth, hbytes]
  rfl

/-- Storing a block of a sound store makes the file grow. -/
private theorem StoresTiles.ends_encode {data : ByteArray} (h : StoresTiles raster bands M)
    (hcodec : store.codec = .inr (.inl tiled)) (hholds : M.Holds store.codec)
    (hserves : M.Serves (store.context key)) (hfits : M.Fits (store.context key) data) :
    (BlockStore.encode key data).Ends store
      (fun _ after => ∃ next : TiledCodec, after = { store with codec := .inr (.inl next) } ∧
        Grown raster bands tiled key next)
      (fun _ _ => offsetLimit ≤ tiled.storage.length + tiled.growth bands key) := by
  rw [hcodec] at hholds
  -- the no-data values in the file may be other ones, which need no other room
  obtain ⟨bands', hshapes, hintact⟩ := h.intact hholds
  have hsize := (h.size hserves hfits).trans (hshapes.blockBytes key.band).symm
  have hgrid : InGrid raster bands' key := (h.inGrid hserves).of_sameShapes hshapes
  apply (ends_encode_grown hcodec hintact hgrid hsize).mono
  · rintro _ after ⟨next, rfl, hgrown⟩
    refine ⟨next, rfl, ?_, fun other hother hne => ?_⟩
    · rw [hgrown.length, growth_of_sameShapes hshapes]
    · rw [← growth_of_sameShapes hshapes, ← growth_of_sameShapes hshapes]
      exact hgrown.growth other (hother.of_sameShapes hshapes) hne
  · intro _ _ hfull
    rwa [growth_of_sameShapes hshapes] at hfull

/-! ## Giving blocks up -/

/-- If there is room, the oldest block can be given up, and there is still room. -/
private theorem ends_evictOldest_of_hasRoom (htiles : StoresTiles raster bands M)
    (hsound : M.Sound store) (hroom : HasRoom bands store) :
    (evictOldest (κ := FormatCodec)).Ends store (fun _ after => HasRoom bands after)
      (fun _ _ => False) := by
  obtain ⟨tiled, hcodec, hlt⟩ := hroom
  refine Ends.get_bind ?_
  cases holdest : store.cache.oldest? with
  | none => exact ends_pure.mpr ⟨tiled, hcodec, hlt⟩
  | some entry =>
    obtain ⟨key, block⟩ := entry
    have hfind := BlockCache.find?_of_oldest? hsound.distinct holdest
    rw [BlockCache.dirtySum_of_oldest? holdest] at hlt
    dsimp only
    cases hdirty : block.dirty with
    | false =>
      -- a clean block is not stored
      refine ends_modify.mpr ⟨tiled, hcodec, ?_⟩
      show tiled.storage.length + store.cache.removeOldest.dirtySum (tiled.growth bands) < _
      omega
    | true =>
      rw [hdirty, if_pos rfl] at hlt
      refine Ends.bind ((htiles.ends_encode hcodec hsound.holds (hsound.served hfind)
        (hsound.fits hfind)).mono ?_ ?_)
      · intro _ after hafter
        obtain ⟨next, rfl, hgrown⟩ := hafter
        refine Ends.modify_bind (ends_modify.mpr ⟨next, rfl, ?_⟩)
        show next.storage.length + store.cache.removeOldest.dirtySum (next.growth bands) < _
        -- what is missing of the other blocks is still missing
        have hsum : store.cache.removeOldest.dirtySum (next.growth bands) =
            store.cache.removeOldest.dirtySum (tiled.growth bands) := by
          refine BlockCache.dirtySum_congr fun other hmem => ?_
          obtain ⟨found, hfound⟩ := BlockCache.mem_keys_iff.mp hmem
          rw [BlockCache.find?_removeOldest hsound.distinct holdest] at hfound
          split at hfound
          · contradiction
          · next hne => exact hgrown.growth other (htiles.inGrid (hsound.served hfound)) hne
        rw [hsum, hgrown.length]
        omega
      · -- the file would be too long with this block alone
        intro _ _ hfull
        omega

private theorem ends_evict_of_hasRoom (htiles : StoresTiles raster bands M)
    (hsound : M.Sound store) (hroom : HasRoom bands store) (count : Nat) :
    (evict (κ := FormatCodec) count).Ends store (fun _ after => HasRoom bands after)
      (fun _ _ => False) := by
  induction count generalizing store with
  | zero => exact ends_pure.mpr hroom
  | succ count ih =>
    have hfirst := (CodecModel.ends_evictOldest hsound).and
      (ends_evictOldest_of_hasRoom htiles hsound hroom)
    refine Ends.bind (hfirst.mono (fun _ middle hmiddle => ?_) fun _ _ h => h.2)
    exact ih hmiddle.1.keeps.sound hmiddle.2

/-! ## Reading -/

/-- If there is room for all dirty blocks, every block that can be decoded can be fetched. -/
theorem StoresTiles.ends_fetch {data : ByteArray} (htiles : StoresTiles raster bands M)
    (hsound : M.Sound store) (hserves : M.Serves (store.context key))
    (hdecode : (Codec.decode (store.context key)).Ends store.codec
      (fun decoded codec => decoded.bytes = data ∧ codec = store.codec) (fun _ _ => False))
    (hsize : data.size = (store.descriptor key.band).blockBytes) (hroom : HasRoom bands store) :
    (fetch key .read).Ends store (fun _ _ => True) (fun _ _ => False) := by
  refine Ends.get_bind (Ends.ite (fun _ => ?_) fun _ => ?_)
  · -- a block that is held is only marked
    exact Ends.modify_bind (Ends.modify_bind (Ends.get_bind (ends_pure.mpr trivial)))
  have hcounted : M.Keeps store { store with cache := store.cache.countMiss } :=
    .of_codec hsound ⟨rfl, rfl⟩ (fun _ => rfl) hsound.distinct hsound.holds fun _ _ => .refl _ _
  -- decoding changes neither the codec nor what is held
  have hcountedDecode : (Codec.decode
      (context { store with cache := store.cache.countMiss } key)).Ends store.codec
      (fun decoded codec => decoded.bytes = data ∧ codec = store.codec) (fun _ _ => False) :=
    hdecode
  have hload := (CodecModel.ends_load hcounted.sound hserves .read).and
    (ends_load_of_decode hcountedDecode hsize)
  refine Ends.modify_bind (Ends.bind (hload.mono ?_ fun _ _ h => h.2))
  intro data loaded hloaded
  obtain ⟨⟨⟨hkeeps, -⟩, -⟩, -, hcodec, hentries⟩ := hloaded
  have hloadedRoom : HasRoom bands loaded := by
    obtain ⟨tiled, htiled, hlt⟩ := hroom
    refine ⟨tiled, hcodec.trans htiled, ?_⟩
    rw [BlockCache.dirtySum, hentries]
    exact hlt
  refine Ends.get_bind (Ends.bind (Ends.get_bind ((ends_evict_of_hasRoom htiles hkeeps.sound
    hloadedRoom _).mono (fun _ _ _ => ?_) fun _ _ h => h)))
  exact Ends.modify_bind (Ends.modify_bind (Ends.get_bind (ends_pure.mpr trivial)))

/-- If there is room for all dirty blocks, every block can be fetched. -/
theorem ends_fetch_of_hasRoom (hsound : (tiledModel held raster bands).Sound store)
    (hserves : (tiledModel held raster bands).Serves (store.context key))
    (hroom : HasRoom bands store) :
    (fetch key .read).Ends store (fun _ _ => True) (fun _ _ => False) := by
  -- what is decoded has the size of the block
  have hsize : (store.codec.tile (store.context key)).size =
      (store.descriptor key.band).blockBytes := by
    obtain ⟨tiled, hcodec, -, hintact⟩ := hsound.holds
    rw [hcodec]
    refine TiledCodec.size_tile hintact.image ?_
    rw [hserves.2]
    rfl
  refine storesTiles_tiledModel.ends_fetch hsound hserves ?_ hsize hroom
  exact (FormatCodec.ends_decode hsound.holds hserves).mono (fun _ _ h => ⟨h.2, h.1⟩) fun _ _ h => h

/-- Then reading a block answers with its content. -/
theorem Opened.ends_readBlock_of_hasRoom {dataset : Dataset FormatCodec} {band x y : Nat}
    (h : Opened held raster bands dataset) (hgrid : InGrid raster bands ⟨band, x, y⟩)
    (hroom : HasRoom bands dataset.store) :
    (Dataset.readBlock band x y (bandOf bands band).blockBytes).Ends dataset
      (fun data _ => data = (tiledModel held raster bands).logical dataset.store ⟨band, x, y⟩)
      (fun _ _ => False) := by
  obtain ⟨hband, hinside⟩ := (inGrid_iff h.geometry h.sameRaster h.sameBands).mp hgrid
  -- with room for the blocks that may have to go, a read is answered
  have hanswers : (Dataset.readBlock band x y (bandOf bands band).blockBytes).Ends dataset
      (fun _ _ => True) (fun _ _ => False) := by
    refine Dataset.ends_onBand (fun _ => ?_) fun hnot => absurd hband hnot
    rw [← h.descriptor_eq]
    exact Band.ends_readBlock_of_fetch hinside
      (held_of_geometry h.geometry h.sameBands hband)
      (ends_fetch_of_hasRoom h.sound (h.serves hgrid) hroom)
  exact (h.ends_readBlock.and hanswers).mono (fun _ _ hread => hread.1.2.1) fun _ _ h => h.2

/-! ## Flushing -/

/-- Writing a block back without a failure makes the file grow. -/
private theorem ends_flushBlock_grown {block : Block}
    (htidy : (tiledModel held raster bands).Tidy store)
    (hcodec : store.codec = .inr (.inl tiled)) (hfind : store.cache.find? key = some block) :
    (flushBlock key).Ends store
      (fun failures after => failures = [] → ∃ next : TiledCodec,
        after.codec = .inr (.inl next) ∧ Grown raster bands tiled key next)
      (fun _ _ => False) := by
  refine Ends.get_bind ?_
  rw [hfind]
  refine Ends.bind (Ends.attempt ((storesTiles_tiledModel.ends_encode hcodec htidy.holds
    (htidy.served hfind) (htidy.fits hfind)).mono ?_ ?_))
  · intro _ after hafter
    obtain ⟨next, rfl, hgrown⟩ := hafter
    exact Ends.modify_bind (ends_pure.mpr fun _ => ⟨next, rfl, hgrown⟩)
  · intro error after _
    exact Ends.modify_bind (ends_pure.mpr fun hnone => by contradiction)

/-- Writing blocks back without a failure makes the file grow by what was missing of all of them. -/
private theorem ends_flushBlocks_grown {keys : List BlockRef}
    (htidy : (tiledModel held raster bands).Tidy store)
    (hcodec : store.codec = .inr (.inl tiled)) (hnodup : keys.Nodup)
    (hheld : ∀ key ∈ keys, ∃ block, store.cache.find? key = some block ∧ block.dirty = true) :
    (flushBlocks keys).Ends store
      (fun failures after => failures = [] → ∃ next : TiledCodec,
        after.codec = .inr (.inl next) ∧ next.storage.length =
          tiled.storage.length + (keys.map (tiled.growth bands)).sum)
      (fun _ _ => False) := by
  induction keys generalizing store tiled with
  | nil => exact ends_pure.mpr fun _ => ⟨tiled, hcodec, rfl⟩
  | cons key rest ih =>
    -- the rest is dirty and tidy after the first block, so that the hypothesis applies to it
    obtain ⟨block, hfind, hdirty⟩ := hheld key List.mem_cons_self
    obtain ⟨hkey, hnodup⟩ := List.nodup_cons.mp hnodup
    have hfirst := (CodecModel.ends_flushBlock htidy hfind hdirty).and
      (ends_flushBlock_grown htidy hcodec hfind)
    refine Ends.bind (hfirst.mono ?_ fun _ _ h => h.1)
    intro failed middle hmiddle
    obtain ⟨⟨written, hwrites, honly, -⟩, hgrown⟩ := hmiddle
    have hmiddleHeld : ∀ other ∈ rest, ∃ block, middle.cache.find? other = some block ∧
        block.dirty = true := by
      intro other hmem
      rw [hwrites.find?_of_ne honly fun heq => hkey (heq ▸ hmem)]
      exact hheld other (List.mem_cons_of_mem _ hmem)
    have hmiddleTidy := hwrites.tidy htidy
    obtain ⟨between, hbetween, -⟩ := hmiddleTidy.holds
    refine Ends.bind ((ih hmiddleTidy hbetween hnodup hmiddleHeld).mono ?_ fun _ _ h => h)
    intro failedLater after hafter
    refine ends_pure.mpr fun hnone => ?_
    obtain ⟨hfailed, hfailedLater⟩ := List.append_eq_nil_iff.mp hnone
    obtain ⟨next, hnext, hlength⟩ := hafter hfailedLater
    obtain ⟨between', hbetween', hgrown⟩ := hgrown hfailed
    obtain rfl : between = between' := Sum.inl.inj (Sum.inr.inj (hbetween.symm.trans hbetween'))
    refine ⟨next, hnext, ?_⟩
    -- storing the first block leaves what is missing of the others
    have hrest : rest.map (between.growth bands) = rest.map (tiled.growth bands) := by
      refine List.map_congr_left fun other hmem => ?_
      obtain ⟨found, hfound, -⟩ := hheld other (List.mem_cons_of_mem _ hmem)
      exact hgrown.growth other (htidy.served hfound).1 fun heq => hkey (heq ▸ hmem)
    rw [hlength, hrest, hgrown.length, List.map_cons, List.sum_cons]
    omega

/-- A flush that succeeds shows that there was room for all dirty blocks. -/
theorem ends_flush_hasRoom (hsound : (tiledModel held raster bands).Sound store) :
    (BlockStore.flush (κ := FormatCodec)).Ends store (fun _ _ => HasRoom bands store)
      (fun _ _ => True) := by
  obtain ⟨tiled, hcodec, -⟩ := hsound.holds
  have hheld := BlockCache.exists_of_mem_dirtyKeys hsound.distinct fun _ => true
  have hnodup := BlockCache.nodup_dirtyKeys hsound.distinct fun _ => true
  have hblocks := (CodecModel.ends_flushBlocks hsound.toTidy hnodup hheld).and
    (ends_flushBlocks_grown hsound.toTidy hcodec hnodup hheld)
  refine Ends.get_bind (Ends.bind (hblocks.mono ?_ fun _ _ h => h.1.elim))
  intro failures after hafter
  obtain ⟨⟨written, hwrites, -⟩, hgrown⟩ := hafter
  refine Ends.ite (fun hempty => ?_) fun _ => ends_throw.mpr trivial
  obtain ⟨next, hnext, hlength⟩ := hgrown (List.isEmpty_iff.mp hempty)
  -- the file that the flush left is not too long
  obtain ⟨hmedium, hintact⟩ := hwrites.holds.of_codec hnext
  have hlimit := hintact.usable.readable.length_lt (by simp [hmedium])
  rw [hlength, BlockCache.sum_dirtyKeys] at hlimit
  exact ends_pure.mpr ⟨tiled, hcodec, hlimit⟩

end RasterStore
