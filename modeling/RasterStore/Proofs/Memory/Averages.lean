import RasterStore.Proofs.Memory.PlainRaster
import RasterStore.Proofs.Transfer.Means

/-!
# Averages of bands with missing pixels

An average over a box of pixels leaves out those that equal the no-data value of the band. What the
library itself stores for missing pixels, in padding and in blocks that were never written, are the
bytes of the no-data value in the band's type. They are left out if the type preserves the value,
and otherwise averaged like all others (`average_mixes_in_noData`).

* `average_leaves_out_noData`   what the cells of a buffer hold after averages were read
-/

namespace RasterStore

open ByteArray RasterStore.Action

variable {κ : Type} [Codec κ] {P : PixelModel κ} {dataset : Dataset κ} {band : Nat}
variable {request : TransferRequest} {buffer : ByteArray} {noData : Binary64}

/-- What a cell of a buffer holds for the pixels in its box, on a band with a no-data value. -/
structure BandDescriptor.LeavesOut (descriptor : BandDescriptor) (noData : Binary64)
    (target : PixelType) (pixels : List ByteArray) (cell : ByteArray) : Prop where
  /-- The pixels that equal the no-data value as numbers are neither added nor counted. -/
  mean : cell = (descriptor.meanOf pixels).encode target
  /-- The pixels that are stored for the no-data value might as well not be there, if the type
      preserves it. -/
  as_if_absent :
    (pixelBytes descriptor.type noData ∈ pixels → descriptor.type.Preserves noData) →
    cell = (descriptor.meanOf
      (pixels.filter (· ≠ pixelBytes descriptor.type noData))).encode target
  /-- If all others are one integer, so is the mean. -/
  of_equal :
    (pixelBytes descriptor.type noData ∈ pixels → descriptor.type.Preserves noData) →
    ∀ value : Int,
      (∀ pixel ∈ pixels, pixel ≠ pixelBytes descriptor.type noData →
        Pixel.decode descriptor.type pixel 0 = ⟨.int value, .int 0⟩) →
      (∃ pixel ∈ pixels, pixel ≠ pixelBytes descriptor.type noData) →
      SumsExactly (pixels.countP (· ≠ pixelBytes descriptor.type noData)) value →
      cell = (Pixel.mk (.int value) (.int 0)).encode target

/-- Over a codec that keeps pixels, reading averages of a valid window fills each cell of the buffer
    with the mean of the pixels in its box, and leaves out those that are missing. The blocks of the
    band are not too large to be held in memory. -/
theorem average_leaves_out_noData (hsound : P.Sound dataset.store)
    (hserving : P.Serving dataset.store band) (hheld : Band.Held dataset band)
    (hnoData : (dataset.descriptor band).noData = some noData)
    (hvalid : request.Valid dataset.size buffer.size)
    (hseparate : (BufferLayout.ofRequest request).Separate) :
    (Band.readRaw (κ := κ) band request .average).Ends (dataset, buffer)
      (fun _ after => ∀ column row, column < request.buffer.width → row < request.buffer.height →
        (dataset.descriptor band).LeavesOut noData request.type
          (P.boxPixels dataset.store band (.ofRequest request) (.ofRequest request) (column, row))
          (after.2.slice ((BufferLayout.ofRequest request).offset column row) request.type.bytes))
      (fun _ _ => P.MayFail) := by
  refine (Band.ends_readRaw_filled hsound hserving).mono ?_ ?_
  · rintro _ _ ⟨-, store, filled, rfl, haveraged⟩ column row hcolumn hrow
    have hmem : (column, row) ∈ (BufferLayout.ofRequest request).cells :=
      BufferLayout.mem_cells.mpr ⟨hcolumn, hrow⟩
    have hcell := haveraged.slice hseparate hvalid.accepted.fits hmem
    constructor
    · -- three statements, each about the cell with the mean of the pixels that stay
      exact hcell
    · -- left out are then the pixels that have the bytes of the value
      intro hpreserves
      rw [BandDescriptor.meanOf, BandDescriptor.present_filter hnoData hpreserves]
      exact hcell
    · -- all that stay are one integer, so that their mean is it
      intro hpreserves value hothers hsome hexact
      exact hcell.trans (BandDescriptor.encode_meanOf_of_forall hnoData hpreserves
        (haveraged.sizes _ hmem) hothers hsome hexact request.type)
  · -- a valid request is not refused, so that only the codec can have failed
    rintro _ _ (⟨hrefused, -⟩ | ⟨-, hfail⟩)
    · exact absurd ⟨hvalid.accepted, hheld⟩ hrefused
    · exact hfail

/-! ## Ten beside a missing pixel -/

/-- A row of two pixels, bytes in blocks of one. The first one is ten, the second one is what is
    stored for the no-data value. -/
def tenBeside (noData : Binary64) : Dataset MemoryCodec where
  driver := "MEM"
  access := .update
  store :=
    { cache := .empty 1
      codec := ⟨⟨2, 1⟩, #[⟨#[10]⟩ ++ pixelBytes .byte noData]⟩
      bands := #[⟨.byte, ⟨1, 1⟩, some noData⟩]
      raster := ⟨2, 1⟩
      reports := {} }

/-- The request for the average of both pixels. -/
def bothPixels : TransferRequest :=
  Band.packedRequest 0 0 ⟨2, 1⟩ ⟨1, 1⟩ .byte

private theorem bothPixels_valid : bothPixels.Valid ⟨2, 1⟩ 1 :=
  ⟨by decide, by decide, by decide, by decide, by decide, by decide, .inl rfl, by decide,
    by decide, by decide, by decide⟩

/-- The planes of a row of two bytes. -/
private abbrev rowModel (noData : Binary64) : PixelModel MemoryCodec :=
  MemoryCodec.planeModel ⟨2, 1⟩ [⟨.byte, ⟨1, 1⟩, some noData⟩]

private theorem tenBeside_sound (noData : Binary64) :
    (rowModel noData).Sound (tenBeside noData).store := by
  refine CodecModel.sound_of_empty ⟨rfl, rfl, fun i band hget => ?_⟩ rfl
  cases i with
  | zero =>
    obtain rfl := Option.some.inj hget
    show (⟨#[10]⟩ ++ pixelBytes .byte noData : ByteArray).size = _
    rw [ByteArray.size_append, size_pixelBytes]
    rfl
  | succ i => contradiction

private theorem tenBeside_serving (noData : Binary64) :
    (rowModel noData).Serving (tenBeside noData).store 1 := by
  have hbands : HasBands ⟨2, 1⟩ [⟨.byte, ⟨1, 1⟩, some noData⟩] (tenBeside noData) := by
    refine ⟨rfl, rfl, rfl, fun band => ?_⟩
    rcases hindex : band - 1 with _ | i
    · exact ⟨some noData, by
        rw [BlockStore.descriptor, bandOf, hindex]
        rfl⟩
    · exact ⟨none, by
        rw [BlockStore.descriptor, bandOf, hindex]
        rfl⟩
  refine hbands.serving (fun band hmem => ?_) ⟨by decide, Nat.le_refl 1⟩
  rw [List.mem_singleton.mp hmem]
  exact ⟨rfl, (by decide : 1 < memoryLimit)⟩

/-- A block of one byte can be held in memory. -/
private theorem tenBeside_held (noData : Binary64) : Band.Held (tenBeside noData) 1 :=
  (by decide : 1 < memoryLimit)

/-- Byte preserves 255, so the average is that of the ten alone. -/
theorem average_leaves_out_noData_ten :
    ∃ after, (Band.readRaw 1 bothPixels .average).run (tenBeside (.ofInt 255), ⟨#[0]⟩) =
        (.ok ⟨⟩, after) ∧ after.2.slice 0 1 = ⟨#[10]⟩ := by
  have hnoData : ((tenBeside (.ofInt 255)).descriptor 1).noData = some (.ofInt 255) := rfl
  have hseparate : (BufferLayout.ofRequest bothPixels).Separate := by decide
  have hvalid : bothPixels.Valid (tenBeside (.ofInt 255)).size (⟨#[0]⟩ : ByteArray).size :=
    bothPixels_valid
  have hread := average_leaves_out_noData (tenBeside_sound _) (tenBeside_serving _)
    (tenBeside_held _) hnoData hvalid hseparate
  obtain ⟨_, after, hrun, hcells⟩ :=
    (hread.mono (fun _ _ h => h) fun _ _ (hnever : False) => hnever).exists_ok
  have hcell := hcells 0 0 (by decide) (by decide)
  have hbox : (rowModel (.ofInt 255)).boxPixels (tenBeside (.ofInt 255)).store 1
      (.ofRequest bothPixels) (.ofRequest bothPixels) (0, 0) = [⟨#[10]⟩, ⟨#[255]⟩] := by
    decide +kernel
  have hstored : pixelBytes ((tenBeside (.ofInt 255)).descriptor 1).type (.ofInt 255) =
      ⟨#[255]⟩ := by decide +kernel
  have hpreserves : ((tenBeside (.ofInt 255)).descriptor 1).type.Preserves (.ofInt 255) := by
    decide +kernel
  rw [hbox] at hcell
  have hten := hcell.of_equal (fun _ => hpreserves) 10
  rw [hstored] at hten
  refine ⟨after, hrun, hten ?_ ⟨⟨#[10]⟩, List.mem_cons_self, by decide⟩ ⟨by decide, by decide⟩⟩
  -- the pixel that is left is ten
  intro pixel hmem hpixel
  rcases List.mem_cons.mp hmem with rfl | hmissing
  · rfl
  · exact absurd (List.mem_singleton.mp hmissing) hpixel

/-- Byte makes 44 of 300, which is then averaged with the ten: what is stored for a no-data value
    is not always left out. -/
theorem average_mixes_in_noData :
    ¬∀ (raster : Size) (bands : List BandDescriptor) (dataset : Dataset MemoryCodec) (band : Nat)
      (request : TransferRequest) (buffer : ByteArray) (noData : Binary64) (value : Int),
      (MemoryCodec.planeModel raster bands).Sound dataset.store →
      (MemoryCodec.planeModel raster bands).Serving dataset.store band →
      Band.Held dataset band →
      (dataset.descriptor band).noData = some noData →
      request.Valid dataset.size buffer.size →
      (BufferLayout.ofRequest request).Separate →
      (Band.readRaw band request .average).Ends (dataset, buffer)
        (fun _ after => ∀ column row, column < request.buffer.width →
          row < request.buffer.height → ∀ pixels, pixels =
            (MemoryCodec.planeModel raster bands).boxPixels dataset.store band
              (.ofRequest request) (.ofRequest request) (column, row) →
          (∀ pixel ∈ pixels, pixel ≠ pixelBytes (dataset.descriptor band).type noData →
            Pixel.decode (dataset.descriptor band).type pixel 0 = ⟨.int value, .int 0⟩) →
          (∃ pixel ∈ pixels, pixel ≠ pixelBytes (dataset.descriptor band).type noData) →
          SumsExactly
            (pixels.countP (· ≠ pixelBytes (dataset.descriptor band).type noData)) value →
          after.2.slice ((BufferLayout.ofRequest request).offset column row)
            request.type.bytes = (Pixel.mk (.int value) (.int 0)).encode request.type)
        (fun _ _ => False) := by
  intro hleftOut
  have hnoData : ((tenBeside (.ofInt 300)).descriptor 1).noData = some (.ofInt 300) := rfl
  have hseparate : (BufferLayout.ofRequest bothPixels).Separate := by decide
  have hvalid : bothPixels.Valid (tenBeside (.ofInt 300)).size (⟨#[0]⟩ : ByteArray).size :=
    bothPixels_valid
  obtain ⟨_, after, hrun, hcells⟩ := (hleftOut _ _ _ _ _ _ _ 10 (tenBeside_sound _)
    (tenBeside_serving _) (tenBeside_held _) hnoData hvalid hseparate).exists_ok
  have hbox : [⟨#[10]⟩, ⟨#[44]⟩] = (rowModel (.ofInt 300)).boxPixels (tenBeside (.ofInt 300)).store
      1 (.ofRequest bothPixels) (.ofRequest bothPixels) (0, 0) := by
    decide +kernel
  have hstored : pixelBytes ((tenBeside (.ofInt 300)).descriptor 1).type (.ofInt 300) =
      ⟨#[44]⟩ := by decide +kernel
  have hten := hcells 0 0 (by decide) (by decide) _ hbox
  rw [hstored] at hten
  -- the run gives the mean of 10 and 44
  have hmean : ((Band.readRaw 1 bothPixels .average).run
      (tenBeside (.ofInt 300), ⟨#[0]⟩)).2.2.slice 0 1 = ⟨#[27]⟩ := by decide +kernel
  rw [hrun] at hmean
  refine absurd (hmean.symm.trans (hten ?_ ⟨⟨#[10]⟩, List.mem_cons_self, by decide⟩
    ⟨by decide, by decide⟩)) (by decide)
  -- with the pixel of 44 left out, only the ten is assumed to count
  intro pixel hmem hpixel
  rcases List.mem_cons.mp hmem with rfl | hmissing
  · rfl
  · exact absurd (List.mem_singleton.mp hmissing) hpixel

end RasterStore
