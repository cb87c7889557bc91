import RasterStore.Proofs.Tiled.Create
import RasterStore.Proofs.Tiled.LoadExact

/-!
# Which new files can be loaded

The writer of a new file asks that its sizes fit into four bytes each, the loader that the bytes of
a block do. `loadable_blankFile_iff` is where both meet: a new file has all that the loader wants of
the headers and the indexes, so the size of the blocks alone decides.
-/

namespace RasterStore.Tiled

open ByteArray TiledCodec

variable {raster : Size} {bands : List BandDescriptor} {i : Nat}

/-- The file header of a new file is read back. -/
theorem isHeader_blankFile (hraster : Storable raster) (hpos : 0 < bands.length)
    (hlt : bands.length < byteLimit 4) :
    IsHeader (blankFile raster bands) ∧ storedRaster (blankFile raster bands) = raster ∧
      storedCount (blankFile raster bands) = bands.length := by
  apply isHeader_of_parseHeader
  rw [← parseHeader_slice, slice_blankFile_header, parseHeader_headerRecord hraster hlt hpos]

/-- So is the header of each band. -/
theorem isBandHeader_blankFile (raster : Size) (hblocks : ∀ band ∈ bands, Storable band.block)
    (hi : i < bands.length) :
    IsBandHeader (blankFile raster bands) (headerBytes + i * bandHeaderBytes) ∧
      storedBand (blankFile raster bands) (headerBytes + i * bandHeaderBytes) = bandAt bands i := by
  apply isBandHeader_of_parseBandHeader
  rw [← parseBandHeader_slice, slice_blankFile_bandHeader raster hi,
    parseBandHeader_bandRecord (hblocks _ (bandAt_mem hi))]

variable (hraster : Storable raster) (hpos : 0 < bands.length) (hlt : bands.length < byteLimit 4)
variable (hblocks : ∀ band ∈ bands, Storable band.block)
include hraster hpos hlt hblocks

theorem storedBands_blankFile : storedBands (blankFile raster bands) = bands := by
  obtain ⟨-, -, hcount⟩ := isHeader_blankFile hraster hpos hlt
  have hbands : ∀ i ∈ List.range bands.length,
      storedBand (blankFile raster bands) (headerBytes + i * bandHeaderBytes) = bandAt bands i :=
    fun i hi => (isBandHeader_blankFile raster hblocks (List.mem_range.mp hi)).2
  rw [storedBands, hcount, List.map_congr_left hbands, map_bandAt]

/-- A new file can be loaded exactly if the bytes of a block can be counted in four bytes. -/
theorem loadable_blankFile_iff :
    Loadable (blankFile raster bands) ↔ ∀ band ∈ bands, band.blockBytes < byteLimit 4 := by
  obtain ⟨hheader, hstoredRaster, hcount⟩ := isHeader_blankFile hraster hpos hlt
  have hbands := storedBands_blankFile hraster hpos hlt hblocks
  constructor
  · intro h
    have hbytes := h.blockBytes_lt
    rwa [hbands] at hbytes
  · intro hbytes
    constructor
    · exact hheader
    · -- the headers end where the indexes start
      rw [hcount, size_blankFile]
      exact tablesStart_le
    · -- the headers are those of the bands
      intro i hi
      rw [hcount] at hi
      exact (isBandHeader_blankFile raster hblocks hi).1
    · rwa [hbands]
    · -- the indexes end where the file does
      apply Nat.le_of_eq
      rw [hstoredRaster, hbands, size_blankFile]

end RasterStore.Tiled
