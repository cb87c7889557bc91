import RasterStore.Proofs.Dted.Files
import RasterStore.Proofs.Tiled.Files

/-!
# Refused creation

A driver checks the options, and a format with a fixed band checks the band, before it touches the
file. What it is asked to store is checked only when the headers are written and the dataset is made
around them, and then the file that was there is already emptied. So a file survives a refused
creation exactly if its format can hold what was asked for or the refusal came before
(`refused_creation`): creating a matrix that is too wide for its header destroys the file
(`refused_creation_destroys`). No other file is ever touched.
-/

namespace RasterStore

open Tiled RasterStore.Action

variable {system : FileSystem} {path : String} {raster : Size} {bands : List BandDescriptor}

/-! ## Refusals -/

/-- The failure is the refusal of an argument. -/
def RasterError.RefusesArgument : RasterError → Prop
  | .badArgument _ => True
  | .illegalArgument _ _ => True
  | _ => False

namespace Storage

/-- A storage that fails to write does not blame the caller's arguments. -/
theorem ends_write_unrefused (offset : Nat) (data : ByteArray) (storage : Storage) :
    (write offset data).Ends storage (fun _ _ => True)
      (fun error _ => ¬error.RefusesArgument) := by
  obtain ⟨medium, bytes, writable⟩ := storage
  -- writing fails on a storage that is not writable or whose file would become too long, and
  -- neither is a refusal of an argument
  cases medium with
  | memory =>
    cases writable with
    | false => exact ends_of_run_error rfl id
    | true => exact ends_of_run_ok rfl trivial
  | file path | directory path =>
    cases writable with
    | false => exact ends_of_run_error rfl id
    | true =>
      by_cases hlimit : offsetLimit ≤ offset + data.size
      · exact ends_of_run_error (if_pos hlimit) id
      · by_cases hdata : data.size = 0
        · exact ends_of_run_ok ((if_neg hlimit).trans (if_pos hdata)) trivial
        · exact ends_of_run_ok ((if_neg hlimit).trans (if_neg hdata)) trivial

theorem ends_setLength_unrefused (length : Nat) (storage : Storage) :
    (setLength length).Ends storage (fun _ _ => True)
      (fun error _ => ¬error.RefusesArgument) := by
  obtain ⟨medium, bytes, writable⟩ := storage
  -- on no medium is a failure one of the argument
  cases medium with
  | memory => exact ends_of_run_ok rfl trivial
  | file path | directory path =>
    by_cases hlimit : offsetLimit ≤ length
    · exact ends_of_run_error (if_pos hlimit) id
    · cases writable with
      | false => exact ends_of_run_error ((if_neg hlimit).trans rfl) id
      | true => exact ends_of_run_ok ((if_neg hlimit).trans rfl) trivial

end Storage

/-! ## Writing a new file -/

namespace TiledCodec

/-- Creation does not change what holds the bytes, also if it fails. -/
theorem keeps_medium_create (medium : Medium) (raster : Size) (bands : List BandDescriptor) :
    Keeps (·.medium = medium) (create raster bands) := by
  apply keeps_lift_bind
  intro header _
  apply keeps_lift_bind
  intro bandHeaders _
  refine (Storage.keeps_medium_setLength medium 0).bind fun _ => ?_
  refine (Storage.keeps_medium_write medium 0 _).bind fun _ => ?_
  refine (Storage.keeps_medium_setLength medium _).bind fun _ => ?_
  exact keeps_get_bind fun _ _ => keeps_pure _

/-- If all numbers fit into the headers, only the storage can fail. -/
theorem ends_create_unrefused (hcounted : Counted raster bands) (storage : Storage) :
    (create raster bands).Ends storage (fun _ _ => True)
      (fun error _ => ¬error.RefusesArgument) := by
  have hheader :=
    header_eq_ok_iff.mpr ⟨hcounted.width_lt, hcounted.height_lt, hcounted.bands_lt, rfl⟩
  have hbandHeaders := bandHeaders_eq_ok_iff.mpr ⟨hcounted.block_lt, rfl⟩
  -- both headers can be made, and what follows only writes them
  refine Ends.lift_bind hheader (Ends.lift_bind hbandHeaders ?_)
  apply Ends.bind
  apply (Storage.ends_setLength_unrefused 0 storage).imp
  intro _ emptied _
  apply Ends.bind
  apply (Storage.ends_write_unrefused 0 _ emptied).imp
  intro _ started _
  apply Ends.bind
  apply (Storage.ends_setLength_unrefused _ started).imp
  exact fun _ _ _ => trivial

end TiledCodec

theorem DtedCodec.keeps_medium_create (medium : Medium) (raster : Size) :
    Keeps (·.medium = medium) (create raster) := by
  apply Keeps.ite
  · exact fun _ => keeps_throw _
  · intro _
    refine (Storage.keeps_medium_setLength medium 0).bind fun _ => ?_
    refine (Storage.keeps_medium_write medium 0 _).bind fun _ => ?_
    refine (keeps_forM fun _ _ => Storage.keeps_medium_write medium _ _).bind fun _ => ?_
    exact keeps_get_bind fun _ _ => keeps_pure _

/-! ## Replacing a file -/

namespace FileSystem

/-- The file at the path was written anew, and nothing else is changed. -/
def Replaced (path : String) (system after : FileSystem) : Prop :=
  ∃ held bytes, system.placeFor path = .ok held ∧ after = system.put held bytes

private theorem putIn_putIn (held : String) (first second : ByteArray)
    (files : List (String × ByteArray)) :
    putIn held second (putIn held first files) = putIn held second files := by
  induction files with
  | nil => simp [putIn]
  | cons file rest ih =>
    obtain ⟨other, old⟩ := file
    by_cases h : other = held
    · simp [putIn, h]
    · simp [putIn, h, ih]

/-- Of two writes to a file only the second one counts. -/
theorem put_put (system : FileSystem) (held : String) (first second : ByteArray) :
    (system.put held first).put held second = system.put held second := by
  rw [put, put, putIn_putIn]
  rfl

/-- What both drivers do behind their first checks. Whatever they refuse then, they refuse for what
    the format cannot hold, and the file is replaced already. -/
theorem ends_replace {κ α : Type} {write : Action Storage κ}
    {finish : κ → Except RasterError α} (fits : Prop)
    (hmedium : ∀ medium, Keeps (·.medium = medium) write)
    (hwrite : fits → ∀ storage, storage.Usable → write.Ends storage
      (fun codec _ => ∃ value, finish codec = .ok value) (fun error _ => ¬error.RefusesArgument)) :
    (do
      let storage ← createStorage path
      let codec ← onStorage storage write
      finish codec : Action FileSystem α).Ends system (fun _ _ => True)
      (fun error after => error.RefusesArgument → ¬fits ∧ Replaced path system after) := by
  refine Ends.bind (Ends.get_bind (Ends.bind ?_))
  -- if the path has no place, nothing is replaced, and the reason is no refusal
  cases hplace : system.placeFor path with
  | error reason => exact fun hrefuses => hrefuses.elim
  | ok held =>
    have husable : Storage.Usable ⟨.file held, ByteArray.empty, true⟩ :=
      ⟨show 0 < offsetLimit by decide, rfl⟩
    have hreplaced (reached : Storage) (hreached : reached.medium = .file held) :
        Replaced path system ((system.put held ByteArray.empty).save reached) := by
      rw [save_of_file hreached, put_put]
      exact ⟨held, _, hplace, rfl⟩
    apply Ends.bind
    apply ends_onStorage
    have hwritten := hmedium (.file held) ⟨.file held, ByteArray.empty, true⟩ rfl
    -- sizes that fit are not refused, so that a refusal is to blame on those that do not
    by_cases hfits : fits
    · apply ((hwrite hfits _ husable).and hwritten).mono
      · rintro codec reached ⟨⟨value, hvalue⟩, -⟩
        exact Ends.lift_ok hvalue trivial
      · exact fun error reached hbad hrefuses => absurd hrefuses hbad.1
    · -- with sizes that do not fit a refusal leaves the path with a new file
      apply hwritten.mono
      · intro codec reached hreached
        cases hfinish : finish codec with
        | ok value => exact Ends.lift_ok rfl trivial
        | error error => exact fun _ => ⟨hfits, hreplaced reached hreached⟩
      · exact fun error reached hreached _ => ⟨hfits, hreplaced reached hreached⟩

end FileSystem

/-! ## Drivers -/

namespace Driver

/-- The driver takes the options and the bands, whatever the size of the raster. -/
def Accepts (driver : Driver) (bandCount : Nat) (type : PixelType)
    (options : List (String × String)) : Prop :=
  ∃ list, OptionList.ofPairs options = .ok list ∧
    match driver with
    | memory | tiled => ∃ block, blockSize list ⟨256, 256⟩ = .ok block
    | dted => list.checkKnown [] = .ok () ∧ bandCount = 1 ∧ type = .int16

/-- The format can hold a raster of this size, with these bands and blocks. -/
def Fits (driver : Driver) (raster : Size) (bandCount : Nat) (options : List (String × String)) :
    Prop :=
  match driver with
  | memory => True
  | tiled => Storable raster ∧ 0 < bandCount ∧ bandCount < byteLimit 4 ∧
    ∀ list block, OptionList.ofPairs options = .ok list →
      blockSize list ⟨256, 256⟩ = .ok block → Storable block
  | dted => Dted.FitsHeaders raster

variable {bandCount : Nat} {type : PixelType} {options : List (String × String)}
variable {environment : Option String}

/-- A failed creation of a tiled file. -/
theorem ends_createDataset_tiled :
    (createDataset .tiled path raster bandCount type options environment).Ends system
      (fun _ _ => True)
      (fun error after => error.RefusesArgument →
        ¬tiled.Accepts bandCount type options ∧ after = system ∨
        tiled.Accepts bandCount type options ∧ ¬tiled.Fits raster bandCount options ∧
          FileSystem.Replaced path system after) := by
  -- the options are read first, and refusing them leaves the system as it is
  apply Ends.of_lift_bind
  case error =>
    rintro error herror -
    refine .inl ⟨?_, rfl⟩
    rintro ⟨list, hlist, -⟩
    rw [hlist] at herror
    contradiction
  intro list hlist
  -- so is the block size
  apply Ends.of_lift_bind
  case error =>
    rintro error herror -
    refine .inl ⟨?_, rfl⟩
    rintro ⟨list', hlist', block, hblock⟩
    rw [hlist, Except.ok.injEq] at hlist'
    subst hlist'
    rw [hblock] at herror
    contradiction
  intro block hblock
  -- from here on the file is replaced
  have haccepts : tiled.Accepts bandCount type options := ⟨list, hlist, block, hblock⟩
  apply (FileSystem.ends_replace (tiled.Fits raster bandCount options)
    (fun medium => TiledCodec.keeps_medium_create medium raster _) ?_).mono (fun _ _ h => h)
  · exact fun error after hbad hrefuses => .inr ⟨haccepts, hbad hrefuses⟩
  · intro ⟨hraster, hpos, hlt, hblocks⟩ storage husable
    have hstorable : Storable block := hblocks list block hlist hblock
    have hcounted : TiledCodec.Counted raster (List.replicate bandCount ⟨type, block, none⟩) := by
      refine ⟨hraster.width_lt, hraster.height_lt, ?_, ?_⟩
      · rwa [List.length_replicate]
      · intro band hmem
        rw [List.eq_of_mem_replicate hmem]
        exact ⟨hstorable.width_lt, hstorable.height_lt⟩
    -- the header is written; what is left is to make the dataset
    apply (TiledCodec.ends_create_unrefused hcounted storage).imp
    intro codec _ _
    have hbands : List.replicate bandCount (BandDescriptor.mk type block none) ≠ [] :=
      List.ne_nil_of_length_pos (by rwa [List.length_replicate])
    have hempty : ∀ band ∈ List.replicate bandCount (BandDescriptor.mk type block none),
        band.block.isEmpty = false := by
      intro band hmem
      rw [List.eq_of_mem_replicate hmem]
      exact hstorable.isEmpty
    obtain ⟨dataset, hdataset, -⟩ := Dataset.ofCodec_of_nonempty (.inr (.inl codec) : FormatCodec)
      hraster.isEmpty hbands hempty { flags := OpenFlags.ofAccess .update } environment
    exact ⟨dataset, hdataset⟩

/-- A failed creation of an elevation file. -/
theorem ends_createDataset_dted :
    (createDataset .dted path raster bandCount type options environment).Ends system
      (fun _ _ => True)
      (fun error after => error.RefusesArgument →
        ¬dted.Accepts bandCount type options ∧ after = system ∨
        dted.Accepts bandCount type options ∧ ¬dted.Fits raster bandCount options ∧
          FileSystem.Replaced path system after) := by
  -- the options, the known names, the number of bands and the type, in this order
  apply Ends.of_lift_bind
  case error =>
    rintro error herror -
    refine .inl ⟨?_, rfl⟩
    rintro ⟨list, hlist, -⟩
    rw [hlist] at herror
    contradiction
  intro list hlist
  apply Ends.of_lift_bind
  case error =>
    rintro error herror -
    refine .inl ⟨?_, rfl⟩
    rintro ⟨list', hlist', hknown, -⟩
    rw [hlist, Except.ok.injEq] at hlist'
    subst hlist'
    rw [hknown] at herror
    contradiction
  intro _ hknown
  apply Ends.ite
  · rintro hband -
    refine .inl ⟨?_, rfl⟩
    rintro ⟨list', -, -, hcount, htype⟩
    exact hband.elim (· hcount) (· htype)
  -- from here on the file is replaced
  intro hband
  have haccepts : dted.Accepts bandCount type options := by
    refine ⟨list, hlist, hknown, by omega, ?_⟩
    exact Decidable.not_not.mp fun hne => hband (.inr hne)
  apply (FileSystem.ends_replace (dted.Fits raster bandCount options)
    (fun medium => DtedCodec.keeps_medium_create medium raster) ?_).mono (fun _ _ h => h)
  · exact fun error after hbad hrefuses => .inr ⟨haccepts, hbad hrefuses⟩
  · intro hsides storage husable
    apply (DtedCodec.ends_create husable hsides).mono
    · rintro _ _ ⟨after, rfl, -⟩
      have hblock : ∀ band ∈ [DtedCodec.band raster.height], band.block.isEmpty = false := by
        rw [List.forall_mem_singleton, Bool.eq_false_iff, ne_eq, Size.isEmpty_iff]
        exact fun hempty => hempty.elim Nat.one_ne_zero hsides.height_pos.ne'
      obtain ⟨dataset, hdataset, -⟩ := Dataset.ofCodec_of_nonempty
        (.inr (.inr ⟨after, Dted.headerBytes, raster⟩) : FormatCodec) hsides.isEmpty
        (List.cons_ne_nil _ _) hblock { flags := OpenFlags.ofAccess .update } environment
      exact ⟨dataset, hdataset⟩
    · exact fun _ _ hfalse => hfalse.elim

/-- If a driver refuses what it is asked to make, then for its options or bands, with all files as
    they were, or for what its format cannot hold, with the file at the path replaced by then. -/
theorem refused_creation {driver : Driver} (hdriver : driver ≠ .memory) (system : FileSystem)
    (path : String) (raster : Size) (bandCount : Nat) (type : PixelType)
    (options : List (String × String)) (environment : Option String) :
    (driver.createDataset path raster bandCount type options environment).Ends system
      (fun _ _ => True)
      (fun error after => error.RefusesArgument →
        ¬driver.Accepts bandCount type options ∧ after = system ∨
        driver.Accepts bandCount type options ∧ ¬driver.Fits raster bandCount options ∧
          FileSystem.Replaced path system after) := by
  cases driver with
  | memory => exact absurd rfl hdriver
  | tiled => exact ends_createDataset_tiled
  | dted => exact ends_createDataset_dted

/-- A file of four bytes. -/
def fourBytes : FileSystem :=
  ⟨["/"], [("//a", ⟨#[1, 2, 3, 4]⟩)]⟩

/-- An elevation file with two bands is refused, and the file at the path stays. -/
theorem refused_creation_two_bands : ∃ error after,
    (createDataset .dted "/a" ⟨3, 2⟩ 2 .int16 [] none).run fourBytes = (.error error, after) ∧
    error.RefusesArgument ∧ after = fourBytes := by
  have hdriver : Driver.dted ≠ .memory := by decide
  have hends := refused_creation hdriver fourBytes "/a" ⟨3, 2⟩ 2 .int16 [] none
  refine ⟨_, _, rfl, trivial, ?_⟩
  rcases hends.of_error rfl trivial with hkept | ⟨⟨_, _, _, hcount, _⟩, _⟩
  · exact hkept.2
  · exact absurd hcount (by decide)

/-- A matrix that is too wide is refused as well, but the file at the path is emptied. -/
theorem refused_creation_destroys :
    ¬∀ (driver : Driver) (system : FileSystem) (path held : String) (old : ByteArray)
      (raster : Size) (bandCount : Nat) (type : PixelType) (options : List (String × String))
      (environment : Option String) (error : RasterError) (after : FileSystem),
      driver ≠ .memory → system.fileAt path = .ok (held, old) →
      (driver.createDataset path raster bandCount type options environment).run system =
        (.error error, after) →
      error.RefusesArgument → after.fileAt path = .ok (held, old) := by
  intro h
  -- a matrix of too many columns goes in the place of a file of four bytes
  have hfile := h .dted fourBytes "/a" "//a" ⟨#[1, 2, 3, 4]⟩ ⟨10000, 1⟩ 1 .int16 [] none _ _
    (by decide) rfl rfl trivial
  have hempty : some ByteArray.empty = some ⟨#[1, 2, 3, 4]⟩ := FileSystem.find?_of_fileAt hfile
  exact absurd hempty (by decide)

end Driver

end RasterStore
