import RasterStore.Proofs.Tiled.Files
import RasterStore.Proofs.Tiled.Room

/-!
# Tiled files keep what was written

A tiled dataset is made, used, closed and opened again any number of times (`Sessions`). After it
was closed for the last time the file is recognised and opened with the raster, the bands and the
last no-data values, and each of its blocks reads as it did just before: `contents_persist`.

The invariant of a session is `OpenAt`: the dataset is `Opened`, and its file has the bytes of its
storage. A block is stored only if some call wrote to it, so all other blocks read as padding.
-/

namespace RasterStore

open BlockStore Tiled RasterStore.Action

variable {path held : String} {raster : Size} {bands : List BandDescriptor}
variable {system : FileSystem} {dataset : Dataset FormatCodec} {tiled : TiledCodec}

/-! ## One session -/

/-- The dataset is open for update, and the file at the path has the bytes of its storage. -/
structure OpenAt (path held : String) (raster : Size) (bands : List BandDescriptor)
    (state : FileSystem × Dataset FormatCodec) : Prop where
  opened : Opened held raster bands state.2
  file : ∃ tiled : TiledCodec, state.2.store.codec = .inr (.inl tiled) ∧
    state.1.fileAt path = .ok (held, tiled.storage.bytes)

theorem OpenAt.exists_tiled {state : FileSystem × Dataset FormatCodec}
    (h : OpenAt path held raster bands state) :
    ∃ tiled : TiledCodec, state.2.store.codec = .inr (.inl tiled) ∧
      state.1.fileAt path = .ok (held, tiled.storage.bytes) ∧
      tiled.storage.medium = .file held ∧ tiled.Intact raster bands := by
  obtain ⟨tiled, hcodec, hfile⟩ := h.file
  exact ⟨tiled, hcodec, hfile, h.opened.sound.holds.of_codec hcodec⟩

private theorem storage?_of_codec (hcodec : dataset.store.codec = .inr (.inl tiled)) :
    dataset.storage? = some tiled.storage := by
  rw [Dataset.storage?, hcodec]
  rfl

/-- Nothing has to be brought up to date if the storage has the bytes of its file. -/
private theorem mapStorage_attach (hcodec : dataset.store.codec = .inr (.inl tiled))
    (hmedium : tiled.storage.medium = .file held)
    (hfile : system.fileAt path = .ok (held, tiled.storage.bytes)) :
    dataset.mapStorage system.attach = dataset := by
  apply Dataset.mapStorage_eq_self (storage?_of_codec hcodec)
  · rw [hcodec]
    rfl
  · exact FileSystem.attach_of_find? hmedium (FileSystem.find?_of_fileAt hfile)

/-- A step that keeps the dataset open also keeps its file. -/
theorem OpenAt.ends_onFiles {α : Type} {act : Action (Dataset FormatCodec) α}
    {bands' : List BandDescriptor} {post : α → Dataset FormatCodec → Prop}
    (h : OpenAt path held raster bands (system, dataset))
    (hact : act.Ends dataset
      (fun value after => Opened held raster bands' after ∧ post value after) (fun _ _ => True)) :
    (Dataset.onFiles act).Ends (system, dataset)
      (fun value after => OpenAt path held raster bands' after ∧ post value after.2)
      (fun _ _ => True) := by
  -- the storage is attached as it is in the file, and saved from where the call left it
  obtain ⟨tiled, hcodec, hfile, hmedium, -⟩ := h.exists_tiled
  refine Dataset.ends_onFiles (mapStorage_attach hcodec hmedium hfile)
    (hact.mono ?_ fun _ _ _ => trivial)
  intro value after hafter
  obtain ⟨hopened, hpost⟩ := hafter
  obtain ⟨next, hnext, hnextMedium, -⟩ := hopened.sound.holds
  exact ⟨⟨hopened, next, hnext,
    Dataset.fileAt_save (storage?_of_codec hnext) hnextMedium hfile⟩, hpost⟩

/-- What is left of a dataset when it is closed: its file, with the content of each block as its
    tile. -/
structure Closed (path held : String) (raster : Size) (bands : List BandDescriptor)
    (dataset : Dataset FormatCodec) (tiled : TiledCodec) (system : FileSystem) : Prop where
  file : system.fileAt path = .ok (held, tiled.storage.bytes)
  medium : tiled.storage.medium = .file held
  intact : tiled.Intact raster bands
  tile : ∀ key, InGrid raster bands key → tiled.tile (contextOf raster bands key) =
    (tiledModel held raster bands).logical dataset.store key
  written : ∀ key, InGrid raster bands key → (tiled.entryOf key).isWritten = true →
    IsWritten dataset key

/-- A dataset that can be closed leaves its content in the file, which had room for it. -/
theorem OpenAt.ends_close (h : OpenAt path held raster bands (system, dataset)) :
    (Dataset.onFiles Dataset.close).Ends (system, dataset)
      (fun _ after => HasRoom bands dataset.store ∧
        ∃ tiled, Closed path held raster bands dataset tiled after.1)
      (fun _ _ => True) := by
  have hopened : Opened held raster bands dataset := h.opened
  have hroom := Dataset.ends_flush_of_blocks (ends_flush_hasRoom hopened.sound) flush_formatCodec
  have hflush : (Dataset.close (κ := FormatCodec)).Ends dataset
      (fun _ after => Opened held raster bands after ∧ HasRoom bands dataset.store ∧
        ∃ store, after = { dataset with store, closed := true } ∧
          (tiledModel held raster bands).Keeps dataset.store store ∧
          ∀ key, (tiledModel held raster bands).Serves (dataset.store.context key) →
            FormatCodec.tile store.codec (dataset.store.context key) =
              (tiledModel held raster bands).logical dataset.store key)
      (fun _ _ => True) := by
    apply Dataset.ends_close
    refine ((Dataset.ends_flush hopened.sound flush_formatCodec).and hroom).mono ?_
      fun _ _ _ => trivial
    intro _ after hflushed
    obtain ⟨⟨store, rfl, hkeeps, hcontent⟩, -, -, hroom⟩ := hflushed
    have hflushed := hopened.of_sameBands hkeeps.bands hkeeps.sound
    exact ⟨⟨hflushed.access, hflushed.sameRaster, hflushed.sameBands, hflushed.sound⟩, hroom, store,
      rfl, hkeeps, hcontent⟩
  refine (h.ends_onFiles hflush).mono ?_ fun _ _ h => h
  intro _ after hafter
  obtain ⟨hat, hroom, store, hstore, hkeeps, hcontent⟩ := hafter
  obtain ⟨tiled, hcodec, hfile, hmedium, hintact⟩ := hat.exists_tiled
  rw [hstore] at hcodec
  refine ⟨hroom, tiled, hfile, hmedium, hintact, fun key hgrid => ?_, fun key hgrid hentry => ?_⟩
  · -- the flush has stored the content of every block
    have hkey := hcontent key (hopened.serves hgrid)
    rw [hopened.context_eq, hcodec] at hkey
    exact hkey
  · -- a block with a tile had been written before the close
    refine (hkeeps.written key (hopened.serves hgrid)).mp (.inr ?_)
    rw [hcodec]
    exact hentry

/-- A dataset that was made around the codec of its file is open. Only blocks with a tile are
    written. -/
theorem openAt_of_isNew (hfile : system.fileAt path = .ok (held, tiled.storage.bytes))
    (hmedium : tiled.storage.medium = .file held) (hintact : tiled.Intact raster bands)
    (hnew : dataset.IsNew (.inr (.inl tiled)) raster bands .update) :
    OpenAt path held raster bands (system, dataset) ∧
      ∀ key, IsWritten dataset key → (tiled.entryOf key).isWritten = true := by
  have hholds : FormatCodec.IsTiled held raster bands dataset.store.codec :=
    ⟨tiled, hnew.codec, hmedium, hintact⟩
  refine ⟨⟨⟨hnew.access, hnew.raster, hnew.bands, CodecModel.sound_of_empty hholds hnew.empty⟩,
    tiled, hnew.codec, hfile⟩, fun key hwritten => ?_⟩
  rcases hwritten with ⟨block, hfind, -⟩ | hgiven
  · -- nothing is in the cache yet
    rw [BlockCache.find?, hnew.empty] at hfind
    contradiction
  · rw [hnew.codec] at hgiven
    exact hgiven

theorem Closed.tiledFile (h : Closed path held raster bands dataset tiled system) :
    TiledFile system path held raster bands tiled.tables tiled.storage.bytes := by
  have hlength := h.intact.usable.readable.length_lt (by simp [h.medium])
  exact ⟨h.file, h.intact.image, hlength⟩

/-- A dataset that is opened for update again is over the codec that the last one left. -/
theorem Closed.openAt {options : OpenOptions} {environment : Option String}
    {reopened : Dataset FormatCodec} {notices : List Notice}
    (h : Closed path held raster bands dataset tiled system)
    (hupdate : options.flags.update = true)
    (hopen : openFile system path options environment = (.ok reopened, notices)) :
    OpenAt path held raster bands (system, reopened) ∧
      ∀ key, InGrid raster bands key → IsWritten reopened key → IsWritten dataset key := by
  have hnew := h.tiledFile.isNew_of_openFile hopen
  -- opened for update, the codec is the one that was closed
  have hcodec : (⟨⟨.file held, tiled.storage.bytes, options.flags.update⟩, tiled.tables⟩ :
      TiledCodec) = tiled := by
    rw [hupdate, ← h.intact.usable.writable, ← h.medium]
  rw [hcodec, OpenFlags.access, if_pos hupdate] at hnew
  obtain ⟨hat, hwritten⟩ := openAt_of_isNew h.file h.medium h.intact hnew
  exact ⟨hat, fun key hgrid hkey => h.written key hgrid (hwritten key hkey)⟩

/-! ## Reading around a close -/

/-- Before it is closed, the dataset answers with the content of a block. -/
theorem OpenAt.readBlock_run {band x y : Nat}
    (h : OpenAt path held raster bands (system, dataset))
    (hroom : HasRoom bands dataset.store) (hgrid : InGrid raster bands ⟨band, x, y⟩) :
    ((Dataset.onFiles (Dataset.readBlock band x y (bandOf bands band).blockBytes)).run
        (system, dataset)).1 =
      .ok ((tiledModel held raster bands).logical dataset.store ⟨band, x, y⟩) := by
  obtain ⟨tiled, hcodec, hfile, hmedium, -⟩ := h.exists_tiled
  have hopened : Opened held raster bands dataset := h.opened
  exact Dataset.answer_onFiles (mapStorage_attach hcodec hmedium hfile)
    (hopened.ends_readBlock_of_hasRoom hgrid hroom)

/-- After it is opened again, it answers with the tile that the last dataset left. -/
theorem Closed.readBlock_run {band x y : Nat} {access : Access} {writable : Bool}
    {reopened : Dataset FormatCodec}
    (h : Closed path held raster bands dataset tiled system)
    (hnew : reopened.IsNew (.inr (.inl ⟨⟨.file held, tiled.storage.bytes, writable⟩,
      tiled.tables⟩)) raster bands access)
    (hgrid : InGrid raster bands ⟨band, x, y⟩) :
    ((Dataset.onFiles (Dataset.readBlock band x y (bandOf bands band).blockBytes)).run
        (system, reopened)).1 = .ok (tiled.tile (contextOf raster bands ⟨band, x, y⟩)) := by
  refine Dataset.answer_onFiles (mapStorage_attach hnew.codec rfl h.file) ?_
  refine (ends_readBlock_of_isNew ?_ ?_ hnew hgrid).mono (fun _ _ h => h) fun _ _ h => h
  · exact h.intact.image
  · exact h.tiledFile.length_lt

/-! ## Many sessions -/

/-- The states that a dataset and its file are led to by calls that succeed, if it is closed and
    opened for update again any number of times between them. -/
inductive Sessions (path : String) (start : FileSystem × Dataset FormatCodec) :
    List RasterCall → FileSystem × Dataset FormatCodec → Prop
  | start : Sessions path start [] start
  | call {calls : List RasterCall} {state after : FileSystem × Dataset FormatCodec}
      (call : RasterCall) : Sessions path start calls state →
      (Dataset.onFiles call.perform).run state = (.ok ⟨⟩, after) →
      Sessions path start (calls ++ [call]) after
  | reopen {calls : List RasterCall} {state after : FileSystem × Dataset FormatCodec}
      {options : OpenOptions} {environment : Option String} {dataset : Dataset FormatCodec}
      {notices : List Notice} : Sessions path start calls state →
      (Dataset.onFiles Dataset.close).run state = (.ok (), after) →
      options.flags.update = true →
      openFile after.1 path options environment = (.ok dataset, notices) →
      Sessions path start calls (after.1, dataset)

/-- In all sessions the dataset is open with the bands that the calls left, and every block that is
    written was written by one of the calls. -/
theorem Sessions.openAt {start state : FileSystem × Dataset FormatCodec} {calls : List RasterCall}
    (h : Sessions path start calls state) (hstart : OpenAt path held raster bands start)
    (hblank : ∀ key, ¬IsWritten start.2 key) :
    OpenAt path held raster (RasterCall.bandsAfterAll bands calls) state ∧
      ∀ key, InGrid raster bands key → IsWritten state.2 key →
        ∃ call ∈ calls, call.Writes bands key := by
  -- closing and opening again lets no block become written, so only calls do
  induction h with
  | start => exact ⟨hstart, fun key _ hwritten => absurd hwritten (hblank key)⟩
  | @call calls state after call _ hrun ih =>
    obtain ⟨hat, hwrites⟩ := ih
    have hshapes := SameShapes.bandsAfterAll calls bands
    have hperformed : call.perform.Ends state.2
        (fun _ after => Opened held raster (call.bandsAfter (RasterCall.bandsAfterAll bands calls))
          after ∧ Performed held raster (RasterCall.bandsAfterAll bands calls) call state.2 after)
        -- the call is made on the files, so that the dataset is the one that is open
        (fun _ _ => True) :=
      (hat.opened.ends_perform call).mono (fun _ _ h => ⟨h.opened, h⟩) fun _ _ h => h
    obtain ⟨hafter, hcall⟩ := (hat.ends_onFiles hperformed).of_ok hrun
    rw [RasterCall.bandsAfterAll_concat]
    refine ⟨hafter, fun key hgrid hwritten => ?_⟩
    -- a block that is written now was written before, or by this call
    rcases hcall.written key (hgrid.of_sameShapes hshapes) hwritten with hbefore | hnow
    · obtain ⟨other, hmem, hother⟩ := hwrites key hgrid hbefore
      exact ⟨other, List.mem_append_left _ hmem, hother⟩
    · exact ⟨call, List.mem_append_right _ List.mem_cons_self, hshapes.writes hnow⟩
  | @reopen calls state after options environment dataset notices _ hclose hupdate hopen ih =>
    -- closing and opening are no calls; what has a tile then had been written
    obtain ⟨hat, hwrites⟩ := ih
    have hshapes := SameShapes.bandsAfterAll calls bands
    obtain ⟨-, tiled, hclosed⟩ := hat.ends_close.of_ok hclose
    obtain ⟨hreopened, hkept⟩ := hclosed.openAt hupdate hopen
    refine ⟨hreopened, fun key hgrid hwritten => hwrites key hgrid ?_⟩
    exact hkept key (hgrid.of_sameShapes hshapes) hwritten

/-- After its last close, a tiled dataset can be opened from its file, with its raster, its bands
    and their no-data values. Every block reads as it did before the close. One that no call wrote
    to reads as padding. -/
theorem contents_persist {bandCount : Nat} {type : PixelType} {block : Size}
    {options : List (String × String)} {list : OptionList} {environment : Option String}
    {started current left : FileSystem} {created dataset closed : Dataset FormatCodec}
    {calls : List RasterCall}
    (hraster : Storable raster) (hcount : 0 < bandCount)
    (hoptions : OptionList.ofPairs options = .ok list)
    (hblock : Driver.blockSize list ⟨256, 256⟩ = .ok block) (hstorable : Storable block)
    (hbytes : block.area * type.bytes < byteLimit 4)
    (hcreate : (Driver.createDataset .tiled path raster bandCount type options environment).run
      system = (.ok created, started))
    (hsessions : Sessions path (started, created) calls (current, dataset))
    (hclose : (Dataset.onFiles Dataset.close).run (current, dataset) = (.ok (), (left, closed)))
    (opening : OpenOptions) (hallowed : opening.allowed = none) (environment' : Option String) :
    ∃ reopened, openFile left path opening environment' = (.ok reopened, []) ∧
      reopened.driver = "GTiled" ∧ reopened.size = raster ∧
      reopened.store.bands = dataset.store.bands ∧
      reopened.store.bands = (RasterCall.bandsAfterAll
        (List.replicate bandCount ⟨type, block, none⟩) calls).toArray ∧
      ∀ band x y, reopened.HasBand band → Band.InGrid reopened band x y → ∃ bytes,
        ((Dataset.onFiles (Dataset.readBlock band x y (reopened.descriptor band).blockBytes)).run
          (left, reopened)).1 = .ok bytes ∧
        ((Dataset.onFiles (Dataset.readBlock band x y (reopened.descriptor band).blockBytes)).run
          (current, dataset)).1 = .ok bytes ∧
        ((∀ call ∈ calls, ¬call.Writes (List.replicate bandCount ⟨type, block, none⟩)
            ⟨band, x, y⟩) →
          bytes = (reopened.descriptor band).padding) := by
  -- a new file has no tiles
  obtain ⟨held, tiled, hcreated⟩ := (ends_createDataset hraster hcount hoptions hblock hstorable
    hbytes).of_ok hcreate
  obtain ⟨hstart, hwritten⟩ := openAt_of_isNew hcreated.file hcreated.medium hcreated.intact
    hcreated.isNew
  have hblank (key : BlockRef) : ¬IsWritten created key := by
    intro hkey
    have hentry := hwritten key hkey
    rw [hcreated.blank] at hentry
    contradiction
  -- the calls keep it open, and the last close leaves its content in the file
  obtain ⟨hat, hwrites⟩ := hsessions.openAt hstart hblank
  obtain ⟨hroom, tiled, hclosed⟩ := hat.ends_close.of_ok hclose
  obtain ⟨reopened, hreopened, hnew⟩ := hclosed.tiledFile.openFile hallowed environment'
  have hopened := hat.opened
  refine ⟨reopened, hreopened, hnew.driver, hnew.raster, ?_, hnew.bands,
    fun band x y hband hinside => ?_⟩
  · rw [hnew.bands, hopened.sameBands]
  have hgrid := (inGrid_iff hopened.geometry hnew.raster hnew.bands).mpr ⟨hband, hinside⟩
  have hdescriptor : reopened.descriptor band = _ := descriptor_of_bands hnew.bands band
  rw [hdescriptor]
  refine ⟨_, hclosed.readBlock_run hnew hgrid, ?_, fun hnone => ?_⟩
  · rw [hclosed.tile _ hgrid]
    exact hat.readBlock_run hroom hgrid
  · -- a block with a tile was written by one of the calls
    have hentry : ¬(tiled.entryOf ⟨band, x, y⟩).isWritten = true := by
      intro hentry
      have hshapes := SameShapes.bandsAfterAll calls (List.replicate bandCount ⟨type, block, none⟩)
      obtain ⟨call, hmem, hcall⟩ := hwrites ⟨band, x, y⟩ (hgrid.of_sameShapes hshapes.symm)
        (hclosed.written _ hgrid hentry)
      exact hnone call hmem hcall
    exact if_neg hentry

/-- What is there before and after a new dataset of two blocks, of which one is written, is
    closed. -/
private def singleSession : Option (FileSystem × Dataset FormatCodec × FileSystem) :=
  match (Driver.createDataset .tiled "/a" ⟨3, 2⟩ 1 .byte
    [("BLOCKXSIZE", "2"), ("BLOCKYSIZE", "2")] none).run ⟨["/"], []⟩ with
  | (.ok created, started) =>
    match (Dataset.onFiles (RasterCall.writeBlock 1 1 0 ⟨#[5, 6, 7, 8]⟩).perform).run
      (started, created) with
    | (.ok _, (current, dataset)) =>
      match (Dataset.onFiles Dataset.close).run (current, dataset) with
      | (.ok _, (left, _)) => some (current, dataset, left)
      | _ => none
    | _ => none
  | _ => none

theorem contents_persist_single : ∃ current dataset left reopened,
    singleSession = some (current, dataset, left) ∧
    openFile left "/a" {} none = (.ok reopened, []) ∧ reopened.driver = "GTiled" ∧
    (∃ bytes, ((Dataset.onFiles (Dataset.readBlock 1 1 0 4)).run (left, reopened)).1 = .ok bytes ∧
      ((Dataset.onFiles (Dataset.readBlock 1 1 0 4)).run (current, dataset)).1 = .ok bytes) ∧
    ((Dataset.onFiles (Dataset.readBlock 1 0 0 4)).run (left, reopened)).1 =
      .ok ⟨#[0, 0, 0, 0]⟩ := by
  -- the session is run once; what is needed of it is evaluated, the rest follows from the theorem
  have hsome : singleSession.isSome = true := by decide +kernel
  obtain ⟨⟨current, dataset, left⟩, hsession⟩ := Option.isSome_iff_exists.mp hsome
  have hsteps := hsession
  unfold singleSession at hsteps
  split at hsteps
  · next created started hcreate =>
    split at hsteps
    · next current' dataset' hcall =>
      split at hsteps
      · next left' closed hclose =>
        cases hsteps
        have hraster : Storable ⟨3, 2⟩ := ⟨by decide, by decide, by decide, by decide⟩
        have hblock : Storable ⟨2, 2⟩ := ⟨by decide, by decide, by decide, by decide⟩
        have hoptions : OptionList.ofPairs [("BLOCKXSIZE", "2"), ("BLOCKYSIZE", "2")] =
          .ok ⟨[("BLOCKXSIZE", "2"), ("BLOCKYSIZE", "2")]⟩ := rfl
        have hside : Driver.blockSize ⟨[("BLOCKXSIZE", "2"), ("BLOCKYSIZE", "2")]⟩ ⟨256, 256⟩ =
          .ok ⟨2, 2⟩ := rfl
        have hsessions : Sessions "/a" (started, created)
            [.writeBlock 1 1 0 ⟨#[5, 6, 7, 8]⟩] (current, dataset) := .call _ .start hcall
        obtain ⟨reopened, hopen, hdriver, hsize, -, hbands, hread⟩ :=
          contents_persist hraster Nat.one_pos hoptions hside hblock (by decide) hcreate hsessions
            hclose {} rfl none
        have hband : reopened.HasBand 1 := by
          rw [Dataset.HasBand, Dataset.bandCount, hbands]
          decide
        have hdescriptor : reopened.descriptor 1 = ⟨.byte, ⟨2, 2⟩, none⟩ := by
          rw [Dataset.descriptor, BlockStore.descriptor, hbands]
          rfl
        have hgrid {x : Nat} (hx : x * 2 < 3) : Band.InGrid reopened 1 x 0 := by
          rw [Band.InGrid, hdescriptor, hsize]
          exact ⟨hx, by decide⟩
        obtain ⟨bytes, hnow, hbefore, -⟩ := hread 1 1 0 hband (hgrid (by decide))
        -- nothing was written to the other block, so that it is padding
        obtain ⟨blank, hblank, -, hpadding⟩ := hread 1 0 0 hband (hgrid (by decide))
        have hzeros : blank = ⟨#[0, 0, 0, 0]⟩ := by
          rw [hpadding (by simp [RasterCall.Writes]), hdescriptor]
          decide +kernel
        rw [hdescriptor] at hnow hbefore hblank
        rw [hzeros] at hblank
        exact ⟨current, dataset, left, reopened, hsession, hopen, hdriver, ⟨bytes, hnow, hbefore⟩,
          hblank⟩
      · contradiction
    · contradiction
  · contradiction

end RasterStore
