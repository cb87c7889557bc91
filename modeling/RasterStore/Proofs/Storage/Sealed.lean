import RasterStore.Proofs.Dted.Matrix
import RasterStore.Proofs.Storage.Calls
import RasterStore.Proofs.Tiled.Encode

/-!
# Storage that cannot be written

A storage that is not writable refuses every write, and as a file also every change of its length;
what is refused leaves it as it is. Memory is the exception: it takes a new length even where it is
not writable. So only a change of the length can touch such a storage (`Storage.performAll_kept`),
and of the formats only a new file begins with one: creation over memory that is not writable fails
at its first write, with the memory emptied, while everything else a format does to its storage is
refused at once.
-/

namespace RasterStore

open RasterStore.Action

namespace Storage

variable {storage : Storage}

/-! ## Refused steps -/

/-- A write to a storage that cannot be written fails, and changes nothing. -/
theorem ends_write_of_sealed (hsealed : storage.writable = false) (offset : Nat)
    (data : ByteArray) :
    (write offset data).Ends storage (fun _ _ => False) (fun _ after => after = storage) := by
  obtain ⟨medium, bytes, writable⟩ := storage
  subst hsealed
  cases medium with
  | memory => exact ends_of_run_error rfl rfl
  | file path => exact ends_of_run_error rfl rfl
  | directory path => exact ends_of_run_error rfl rfl

/-- Only memory takes a new length if it cannot be written. -/
theorem ends_setLength_of_sealed (hsealed : storage.writable = false) (length : Nat) :
    (setLength length).Ends storage
      (fun _ after => storage.medium = .memory ∧
        after = { storage with bytes := resized storage.bytes length })
      (fun _ after => after = storage) := by
  obtain ⟨medium, bytes, writable⟩ := storage
  subst hsealed
  cases medium with
  | memory => exact ends_of_run_ok rfl ⟨rfl, rfl⟩
  | file path | directory path =>
    -- it is refused for its length, or else because the file is sealed
    by_cases hlimit : offsetLimit ≤ length
    · exact ends_of_run_error (if_pos hlimit) rfl
    · exact ends_of_run_error ((if_neg hlimit).trans rfl) rfl

/-! ## Runs of calls -/

/-- One call leaves a storage that cannot be written as it is, unless it changes the length of
    memory. -/
theorem Call.perform_kept (hsealed : storage.writable = false) {call : Call}
    (hcall : storage.medium = .memory → ∀ length, call ≠ .setLength length) :
    (call.perform.run storage).2 = storage := by
  have hends : call.perform.Ends storage (fun _ after => after = storage)
      (fun _ after => after = storage) := by
    -- by the call: what reads keeps the storage anyway
    cases call with
    | read offset count =>
      exact Ends.get_bind (Ends.of_lift_bind (fun _ _ => ends_pure.mpr rfl) fun _ _ => rfl)
    | write offset data =>
      exact Ends.bind ((ends_write_of_sealed hsealed offset data).mono (fun _ _ h => h.elim)
        fun _ _ h => h)
    | setLength length =>
      apply Ends.bind
      -- memory can be cut also when it is sealed, which `hcall` leaves out
      apply (ends_setLength_of_sealed hsealed length).mono
      · exact fun _ _ hcut => absurd rfl (hcall hcut.1 length)
      · exact fun _ _ h => h
    | flush => exact ends_pure.mpr rfl
    | getLength => exact Ends.get_bind (ends_pure.mpr rfl)
  exact hends.reached

/-- No run of calls touches a storage that cannot be written, unless one of the calls changes the
    length of memory. -/
theorem performAll_kept (hsealed : storage.writable = false) {calls : List Call}
    (hcalls : storage.medium = .memory → ∀ length, Call.setLength length ∉ calls) :
    performAll calls storage = storage := by
  induction calls with
  | nil => rfl
  | cons call rest ih =>
    -- the first call leaves the storage to the others as it was
    have hfirst : (call.perform.run storage).2 = storage := by
      apply Call.perform_kept hsealed
      rintro hmemory length rfl
      exact hcalls hmemory length List.mem_cons_self
    have hrest : performAll rest storage = storage :=
      ih fun hmemory length hmem => hcalls hmemory length (List.mem_cons_of_mem _ hmem)
    rw [performAll, List.foldl_cons, hfirst]
    exact hrest

/-- Memory that cannot be written is cut off all the same, and a new file over it empties it. -/
theorem sealed_memory_cut :
    (performAll [.setLength 1] (inMemory ⟨#[1, 2, 3]⟩ false)).bytes = ⟨#[1]⟩ ∧
    ((TiledCodec.create ⟨1, 1⟩ [⟨.byte, ⟨1, 1⟩, none⟩]).run
      (inMemory ⟨#[1, 2, 3]⟩ false)).2.bytes = ByteArray.empty := by
  decide +kernel

/-! ## New files -/

/-- What a failed creation leaves behind: the storage as it was, or memory without its bytes. -/
def KeptOrEmptied (storage after : Storage) : Prop :=
  after = storage ∨ storage.medium = .memory ∧ after = { storage with bytes := ByteArray.empty }

/-- The steps with which every new file begins. -/
theorem ends_rewrite_of_sealed {α : Type} (hsealed : storage.writable = false)
    (headers : ByteArray) (next : PUnit → Action Storage α) :
    (setLength 0 >>= fun _ => write 0 headers >>= next).Ends storage
      (fun _ _ => False) (fun _ after => KeptOrEmptied storage after) := by
  apply Ends.bind
  apply (ends_setLength_of_sealed hsealed 0).mono
  · -- memory is emptied, and then refuses the headers
    rintro _ emptied ⟨hmemory, rfl⟩
    apply Ends.bind
    have hemptied :
        ({ storage with bytes := resized storage.bytes 0 } : Storage).writable = false :=
      hsealed
    apply (ends_write_of_sealed hemptied 0 headers).mono
    · exact fun _ _ h => h.elim
    · rintro _ after rfl
      refine .inr ⟨hmemory, ?_⟩
      rw [resized_zero]
  · -- a file refuses to be emptied
    exact fun _ _ h => .inl h

end Storage

open Storage

variable {storage : Storage}

theorem TiledCodec.ends_create_of_sealed (hsealed : storage.writable = false) (raster : Size)
    (bands : List BandDescriptor) :
    (create raster bands).Ends storage (fun _ _ => False)
      (fun _ after => KeptOrEmptied storage after) := by
  refine Ends.of_lift_bind (fun header _ => ?_) (fun _ _ => .inl rfl)
  refine Ends.of_lift_bind (fun bandHeaders _ => ?_) (fun _ _ => .inl rfl)
  exact ends_rewrite_of_sealed hsealed _ _

theorem DtedCodec.ends_create_of_sealed (hsealed : storage.writable = false) (raster : Size) :
    (create raster).Ends storage (fun _ _ => False)
      (fun _ after => KeptOrEmptied storage after) := by
  apply Ends.ite
  · exact fun _ => .inl rfl
  · exact fun _ => ends_rewrite_of_sealed hsealed _ _

/-! ## Blocks and no-data values -/

namespace TiledCodec

variable {codec : TiledCodec}

/-- Whether or not a block has its tile, storing it begins with a write. -/
theorem exists_first_of_planEncode {block : BlockRef} {data : ByteArray}
    {writes : List (Nat × ByteArray)} {entry : Tiled.IndexEntry}
    (hplan : codec.planEncode block data = .ok (writes, entry)) :
    ∃ offset piece rest, writes = (offset, piece) :: rest := by
  dsimp only [planEncode] at hplan
  split at hplan
  · -- the block has a tile
    split at hplan
    · cases hplan
    · cases hplan
      exact ⟨_, _, _, rfl⟩
  · -- it has none
    cases hsize : Tiled.dimension data.size with
    | error error =>
      rw [hsize] at hplan
      cases hplan
    | ok size =>
      rw [hsize] at hplan
      cases hplan
      exact ⟨_, _, _, rfl⟩

theorem ends_writeBlock_of_sealed (hsealed : codec.storage.writable = false) (block : BlockRef)
    (data : ByteArray) :
    (writeBlock block data).Ends codec (fun _ _ => False) (fun _ after => after = codec) := by
  refine Ends.get_bind (Ends.of_lift_bind ?_ fun _ _ => rfl)
  rintro ⟨writes, entry⟩ hplan
  obtain ⟨offset, piece, rest, rfl⟩ := exists_first_of_planEncode hplan
  refine Ends.bind (ends_onStorage (Ends.bind ?_))
  apply (ends_write_of_sealed hsealed offset piece).mono
  · exact fun _ _ h => h.elim
  · rintro _ after rfl
    rfl

theorem ends_writeNoData_of_sealed (hsealed : codec.storage.writable = false) (band : Nat)
    (value : Option Binary64) :
    (writeNoData band value).Ends codec (fun _ _ => False) (fun _ after => after = codec) := by
  apply Ends.get_bind
  -- the checks before the write change nothing
  refine Ends.of_lift_bind (fun _ _ => ?_) (fun _ _ => rfl)
  refine Ends.of_lift_bind (fun _ _ => ?_) (fun _ _ => rfl)
  refine Ends.of_lift_bind (fun header _ => ?_) (fun _ _ => rfl)
  apply ends_onStorage
  apply (ends_write_of_sealed hsealed _ header).mono
  · exact fun _ _ h => h.elim
  · rintro _ after rfl
    rfl

end TiledCodec

/-- A column is stored by a single write. -/
theorem DtedCodec.ends_writeColumn_of_sealed {codec : DtedCodec}
    (hsealed : codec.storage.writable = false) (column : Nat) (values : List Int) :
    (writeColumn column values).Ends codec (fun _ _ => False) (fun _ after => after = codec) := by
  apply Ends.get_bind
  apply ends_onStorage
  apply (ends_write_of_sealed hsealed _ _).mono
  · exact fun _ _ h => h.elim
  · rintro _ after rfl
    rfl

/-! ## What is promised -/

/-- A storage that is not writable keeps its bytes whatever is called, except that memory can be
    given another length. Creating a file over it fails, and leaves a file as it was and memory as
    it was or empty; storing a block and changing a no-data value fail and leave it as it was. -/
theorem sealed_storage_kept (hsealed : storage.writable = false) :
    (∀ calls : List Call,
      (storage.medium = .memory → ∀ length, .setLength length ∉ calls) →
      performAll calls storage = storage) ∧
    (∀ raster bands, (TiledCodec.create raster bands).Ends storage (fun _ _ => False)
      (fun _ after => KeptOrEmptied storage after)) ∧
    (∀ raster, (DtedCodec.create raster).Ends storage (fun _ _ => False)
      (fun _ after => KeptOrEmptied storage after)) ∧
    (∀ codec : TiledCodec, codec.storage = storage →
      (∀ context data, (Codec.encode context data).Ends codec (fun _ _ => False)
        (fun _ after => after = codec)) ∧
      (∀ band value, (Codec.setNoData band value).Ends codec (fun _ _ => False)
        (fun _ after => after = codec))) ∧
    (∀ codec : DtedCodec, codec.storage = storage →
      (∀ context data, (Codec.encode context data).Ends codec (fun _ _ => False)
        (fun _ after => after = codec)) ∧
      (∀ band value, (Codec.setNoData band value).Ends codec (fun _ _ => False)
        (fun _ after => after = codec))) := by
  refine ⟨fun calls hcalls => performAll_kept hsealed hcalls,
    fun raster bands => TiledCodec.ends_create_of_sealed hsealed raster bands,
    fun raster => DtedCodec.ends_create_of_sealed hsealed raster, ?_, ?_⟩
  · rintro codec rfl
    exact ⟨fun context data => TiledCodec.ends_writeBlock_of_sealed hsealed context.block data,
      fun band value => TiledCodec.ends_writeNoData_of_sealed hsealed band value⟩
  · rintro codec rfl
    exact ⟨fun context data => DtedCodec.ends_writeColumn_of_sealed hsealed context.block.x
        (Dted.blockValues data),
      fun band value => ends_throw.mpr rfl⟩

/-- A file of three bytes that is open for reading. -/
theorem sealed_storage_kept_file :
    let storage : Storage := ⟨.file "a", ⟨#[1, 2, 3]⟩, false⟩
    performAll [.setLength 0, .write 1 ⟨#[9]⟩, .flush, .read 0 3] storage = storage ∧
    ((TiledCodec.create ⟨1, 1⟩ [⟨.byte, ⟨1, 1⟩, none⟩]).run storage).2 = storage := by
  intro storage
  have hsealed : storage.writable = false := rfl
  obtain ⟨hcalls, htiled, -⟩ := sealed_storage_kept hsealed
  have hcreate : (TiledCodec.create ⟨1, 1⟩ [⟨.byte, ⟨1, 1⟩, none⟩]).Ends storage
      (fun _ after => after = storage) (fun _ after => after = storage) :=
    (htiled ⟨1, 1⟩ _).mono (fun _ _ h => h.elim) fun _ _ h =>
      h.resolve_right fun hmemory => nomatch hmemory.1
  exact ⟨hcalls _ (fun hmemory => nomatch hmemory), hcreate.reached⟩

end RasterStore
