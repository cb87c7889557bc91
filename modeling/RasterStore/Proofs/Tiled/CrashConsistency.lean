import RasterStore.Proofs.Tiled.Encode

/-!
# Crash consistency of tiled files

A tiled file can be interrupted between any two writes. What is found then is the file as it was
before the block that was being stored, or the file with that block: never anything else.

* `Reached`            the open files that creating, storing and setting no-data values lead to
* `crashPoints`        the storages before, between and after the writes that store a block
* `crash_consistent`   what a reader finds at each of these points
-/

namespace RasterStore.TiledCodec

open ByteArray Tiled RasterStore.Action

variable {raster : Size} {bands : List BandDescriptor} {codec : TiledCodec}
variable {block : BlockRef} {data : ByteArray}

/-- The pixels that the codec answers for a block. -/
def decoded (codec : TiledCodec) (context : BlockContext) : Except RasterError ByteArray :=
  ((Codec.decode context).run codec).1.map Decoded.bytes

private theorem decoded_eq (codec : TiledCodec) (context : BlockContext) :
    codec.decoded context = codec.readBlock context := by
  have hrun : ((Codec.decode context).run codec) =
      ((codec.readBlock context).map fun bytes => { bytes }, codec) := by
    show (liftM (codec.readBlock context) >>= fun bytes => pure { bytes } :
      Action TiledCodec Decoded).run codec = _
    rw [run_bind, run_lift]
    cases codec.readBlock context <;> rfl
  rw [decoded, hrun]
  cases codec.readBlock context <;> rfl

/-- The states of a tiled file with the bands that it has in them: it is created, then blocks are
    stored and no-data values are set, whatever the outcomes. -/
inductive Reached (raster : Size) : List BandDescriptor → TiledCodec → Prop
  | create {bands : List BandDescriptor} {storage after : Storage} {codec : TiledCodec} :
      Geometry raster bands → storage.Usable →
      (create raster bands).run storage = (.ok codec, after) → Reached raster bands codec
  | encode {bands : List BandDescriptor} {codec : TiledCodec} (block : BlockRef)
      (data : ByteArray) : Reached raster bands codec → InGrid raster bands block →
      data.size = (bandAt bands (block.band - 1)).blockBytes →
      Reached raster bands ((Codec.encode (contextOf raster bands block) data).run codec).2
  | setNoData {bands : List BandDescriptor} {codec : TiledCodec} (band : Nat)
      (value : Option Binary64) : Reached raster bands codec → 0 < band → band ≤ bands.length →
      Reached raster (withNoData bands (band - 1) value) ((Codec.setNoData band value).run codec).2

/-- Whatever was called, the file is an image of the indexes in memory. -/
private theorem Reached.intact (h : Reached raster bands codec) : Intact raster bands codec := by
  induction h with
  | create hgeometry husable hrun =>
    obtain ⟨-, -, hafter, -, -, himage⟩ := (ends_create hgeometry husable).of_ok hrun
    exact ⟨hafter, himage⟩
  | encode block data _ hgrid hsize ih =>
    exact Ends.reached ((ends_writeBlock ih hgrid hsize).mono (fun _ _ h => h.2.2.1.intact)
      fun _ _ h => h.1 ▸ ih)
  | setNoData band value _ hpos hband ih =>
    exact Ends.reached ((ends_writeNoData ih hpos hband value).mono (fun _ _ h => h.2.2.2.1)
      fun _ _ h => h.elim)

/-- The storages before, between and after the writes that store a block. -/
def crashPoints (codec : TiledCodec) (block : BlockRef) (data : ByteArray) : List Storage :=
  match codec.planEncode block data with
  | .error _ => [codec.storage]
  | .ok (writes, _) => (List.range (writes.length + 1)).map fun n =>
    ((Storage.writeAll (writes.take n)).run codec.storage).2

/-- What is read of an image does not depend on what holds its bytes. -/
private theorem readBlock_copy {after : TiledCodec} (h : Intact raster bands after)
    (writable : Bool) (context : BlockContext)
    (hdescriptor : context.descriptor = bandAt bands (context.block.band - 1)) :
    readBlock ⟨.inMemory after.storage.bytes writable, after.tables⟩ context =
      .ok (after.tile context) :=
  readBlock_of_image h.image trivial (congrArg _ hdescriptor)

/-- A copy of an intact file is loaded with the indexes that are in memory. -/
private theorem load_copy {after : TiledCodec} (h : Intact raster bands after)
    (hlimit : after.storage.length < byteLimit 8) (writable : Bool) :
    load (.inMemory after.storage.bytes writable) =
      .ok (⟨.inMemory after.storage.bytes writable, after.tables⟩, raster, bands) :=
  load_of_image h.image trivial hlimit

/-- In every state of a tiled file a copy of its bytes is loaded with the geometry and the indexes
    of the open file. While a block is stored, each point between two writes is loaded with the
    same geometry; every other block reads as before, and the block itself reads as before or as
    the new bytes. The length of a memory is a number of 64 bits; files are shorter. -/
theorem crash_consistent (h : Reached raster bands codec) (hgrid : InGrid raster bands block)
    (hsize : data.size = (bandAt bands (block.band - 1)).blockBytes)
    (hlimit : codec.storage.medium = .memory →
      codec.storage.length + data.size < byteLimit 8) (writable : Bool) :
    load (.inMemory codec.storage.bytes writable) =
      .ok (⟨.inMemory codec.storage.bytes writable, codec.tables⟩, raster, bands) ∧
    codec.storage ∈ codec.crashPoints block data ∧
    ((Codec.encode (contextOf raster bands block) data).run codec).2.storage ∈
      codec.crashPoints block data ∧
    ∀ point ∈ codec.crashPoints block data, ∃ loaded,
      load (.inMemory point.bytes writable) = .ok (loaded, raster, bands) ∧
      (∀ other, InGrid raster bands other → other ≠ block → ∃ bytes,
        codec.decoded (contextOf raster bands other) = .ok bytes ∧
        loaded.decoded (contextOf raster bands other) = .ok bytes) ∧
      ∃ bytes, codec.decoded (contextOf raster bands block) = .ok bytes ∧
        (loaded.decoded (contextOf raster bands block) = .ok bytes ∨
          loaded.decoded (contextOf raster bands block) = .ok data) := by
  have hintact := h.intact
  have hlimit : codec.storage.length + data.size < byteLimit 8 := by
    by_cases hmemory : codec.storage.medium = .memory
    · exact hlimit hmemory
    · -- files end below 2 ^ 63, and a block has less than 2 ^ 32 bytes
      have hlength := hintact.usable.readable.length_lt hmemory
      have hbytes := hintact.image.geometry.blockBytes_lt _ (bandAt_mem hgrid.lt)
      have hsum : offsetLimit + byteLimit 4 ≤ byteLimit 8 := by decide
      omega
  obtain ⟨writes, entry, hplan, hseen⟩ := stage_of_prefix hintact hgrid hsize
  have hpoints : codec.crashPoints block data = (List.range (writes.length + 1)).map fun n =>
      ((Storage.writeAll (writes.take n)).run codec.storage).2 := by
    rw [crashPoints, hplan]
  have hbefore (other : BlockRef) : codec.decoded (contextOf raster bands other) =
      .ok (codec.tile (contextOf raster bands other)) := by
    rw [decoded_eq]
    exact readBlock_of_image hintact.image hintact.usable.readable rfl
  refine ⟨load_copy hintact (by omega) writable, ?_, ?_, fun point hpoint => ?_⟩
  · -- no write yet
    rw [hpoints]
    exact List.mem_map.mpr ⟨0, by simp, rfl⟩
  · -- all writes
    rw [hpoints]
    refine List.mem_map.mpr ⟨writes.length, by simp, ?_⟩
    rw [List.take_length]
    exact (storage_writeBlock hplan).symm
  · rw [hpoints] at hpoint
    obtain ⟨n, -, rfl⟩ := List.mem_map.mp hpoint
    obtain ⟨hlength, tables, hstage⟩ := hseen n
    have hread (other : BlockRef) := readBlock_copy hstage.intact writable
      (contextOf raster bands other) rfl
    refine ⟨_, load_copy hstage.intact (Nat.lt_of_le_of_lt hlength hlimit) writable,
      fun other hother hne => ⟨_, hbefore other, ?_⟩, _, hbefore block, ?_⟩
    · rw [decoded_eq, hread, hstage.others other hother hne]
    · rw [decoded_eq, hread]
      exact hstage.own.imp (congrArg _) (congrArg _)

/-! ## A row of two pixels -/

/-- A band of bytes in blocks of one pixel. -/
def rowBands (noData : Option Binary64) : List BandDescriptor :=
  [⟨.byte, ⟨1, 1⟩, noData⟩]

private theorem geometry_row : Geometry ⟨2, 1⟩ (rowBands none) := by
  refine ⟨⟨by decide, by decide, by decide, by decide⟩, by decide, by decide, ?_, ?_⟩
  · intro band hband
    rw [List.mem_singleton.mp hband]
    exact ⟨by decide, by decide, by decide, by decide⟩
  · intro band hband
    rw [List.mem_singleton.mp hband]
    decide

/-- A new file for a row of two pixels. -/
def newRow : Option TiledCodec :=
  ((create ⟨2, 1⟩ (rowBands none)).run (.inMemory .empty true)).1.toOption

/-- The first pixel is stored, then the no-data value is set to three. -/
def halfRow (made : TiledCodec) : TiledCodec :=
  let stored := ((Codec.encode (contextOf ⟨2, 1⟩ (rowBands none) ⟨1, 0, 0⟩) ⟨#[7]⟩).run made).2
  ((Codec.setNoData 1 (some (.ofInt 3))).run stored).2

private theorem reached_halfRow {made : TiledCodec} (h : newRow = some made) :
    Reached ⟨2, 1⟩ (rowBands (some (.ofInt 3))) (halfRow made) := by
  have husable : (Storage.inMemory .empty true).Usable := ⟨trivial, rfl⟩
  unfold newRow at h
  cases hrun : (create ⟨2, 1⟩ (rowBands none)).run (.inMemory .empty true) with
  | mk outcome after =>
    rw [hrun] at h
    cases outcome with
    | error error => contradiction
    | ok codec =>
      cases h
      have hgrid : InGrid ⟨2, 1⟩ (rowBands none) ⟨1, 0, 0⟩ :=
        ⟨by decide, by decide, by decide, by decide⟩
      have hstored := (Reached.create geometry_row husable hrun).encode ⟨1, 0, 0⟩ ⟨#[7]⟩ hgrid rfl
      exact hstored.setNoData 1 (some (.ofInt 3)) (by decide) (by decide)

/-- While the second pixel is stored, a reader finds the first one as it was stored before, and the
    second one as the no-data value or as the new byte. -/
theorem crash_consistent_halfRow : ∃ made, newRow = some made ∧
    Reached ⟨2, 1⟩ (rowBands (some (.ofInt 3))) (halfRow made) ∧
    ∀ point ∈ (halfRow made).crashPoints ⟨1, 1, 0⟩ ⟨#[8]⟩, ∃ loaded,
      load (.inMemory point.bytes false) = .ok (loaded, ⟨2, 1⟩, rowBands (some (.ofInt 3))) ∧
      loaded.decoded (contextOf ⟨2, 1⟩ (rowBands (some (.ofInt 3))) ⟨1, 0, 0⟩) = .ok ⟨#[7]⟩ ∧
      (loaded.decoded (contextOf ⟨2, 1⟩ (rowBands (some (.ofInt 3))) ⟨1, 1, 0⟩) = .ok ⟨#[3]⟩ ∨
        loaded.decoded (contextOf ⟨2, 1⟩ (rowBands (some (.ofInt 3))) ⟨1, 1, 0⟩) = .ok ⟨#[8]⟩) := by
  -- the file before the second block is stored, evaluated
  have hbefore : newRow.map (fun made => ((halfRow made).storage.length,
      ((halfRow made).decoded (contextOf ⟨2, 1⟩ (rowBands (some (.ofInt 3))) ⟨1, 0, 0⟩)).toOption,
      ((halfRow made).decoded (contextOf ⟨2, 1⟩ (rowBands (some (.ofInt 3))) ⟨1, 1, 0⟩)).toOption)) =
      some (73, some ⟨#[7]⟩, some ⟨#[3]⟩) := by decide +kernel
  obtain ⟨made, hmade, hvalues⟩ := Option.map_eq_some_iff.mp hbefore
  obtain ⟨hlength, hfirst, hsecond⟩ : _ ∧ _ ∧ _ := by simpa only [Prod.mk.injEq] using hvalues
  have hreached := reached_halfRow hmade
  refine ⟨made, hmade, hreached, fun point hpoint => ?_⟩
  have hfirstGrid : InGrid ⟨2, 1⟩ (rowBands (some (.ofInt 3))) ⟨1, 0, 0⟩ :=
    ⟨by decide, by decide, by decide, by decide⟩
  have hsecondGrid : InGrid ⟨2, 1⟩ (rowBands (some (.ofInt 3))) ⟨1, 1, 0⟩ :=
    ⟨by decide, by decide, by decide, by decide⟩
  have hlimit : (halfRow made).storage.length + (⟨#[8]⟩ : ByteArray).size < byteLimit 8 := by
    rw [hlength]
    decide
  obtain ⟨loaded, hload, hothers, bytes, hown, hread⟩ :=
    (crash_consistent hreached hsecondGrid rfl (fun _ => hlimit) false).2.2.2 point hpoint
  obtain ⟨other, hother, hsame⟩ := hothers ⟨1, 0, 0⟩ hfirstGrid (by decide)
  -- what was read before is what the evaluation gave
  rw [hother] at hfirst
  rw [hown] at hsecond
  cases hfirst
  cases hsecond
  exact ⟨loaded, hload, hsame, hread⟩

end RasterStore.TiledCodec
