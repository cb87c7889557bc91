import RasterStore.Dataset
import RasterStore.FileSystem

/-!
# Datasets over shared files

Several datasets may be open over one file, and the file may be changed by others meanwhile. A
step of a dataset therefore starts from the bytes that its file has then and puts them back when it
is done.
-/

namespace RasterStore

/-- Codecs that may keep their blocks in a storage. -/
class StoredCodec (κ : Type) where
  /-- The storage, if there is one. -/
  storage? : κ → Option Storage
  /-- The codec on another storage. -/
  withStorage : κ → Storage → κ

instance {κ τ : Type} [StoredCodec κ] [StoredCodec τ] : StoredCodec (κ ⊕ τ) where
  storage?
    | .inl codec => StoredCodec.storage? codec
    | .inr codec => StoredCodec.storage? codec
  withStorage codec storage :=
    match codec with
    | .inl codec => .inl (StoredCodec.withStorage codec storage)
    | .inr codec => .inr (StoredCodec.withStorage codec storage)

namespace Dataset

variable {κ τ α : Type}

/-- The dataset with another form of its codec. -/
def mapCodec (f : κ → τ) (dataset : Dataset κ) : Dataset τ :=
  match dataset with
  | ⟨driver, access, ⟨cache, codec, bands, raster, reports⟩, closed⟩ =>
    ⟨driver, access, ⟨cache, f codec, bands, raster, reports⟩, closed⟩

/-- The storage of the dataset's codec, if there is one. -/
def storage? [StoredCodec κ] (dataset : Dataset κ) : Option Storage :=
  StoredCodec.storage? dataset.store.codec

/-- The dataset with changed storage. -/
def mapStorage [StoredCodec κ] (f : Storage → Storage) (dataset : Dataset κ) : Dataset κ :=
  dataset.mapCodec fun codec =>
    match StoredCodec.storage? codec with
    | some storage => StoredCodec.withStorage codec (f storage)
    | none => codec

/-- Runs a step of a dataset against its file as it is now, and puts the file back. -/
def onFiles [StoredCodec κ] (act : Action (Dataset κ) α) : Action (FileSystem × Dataset κ) α :=
  fun (system, dataset) =>
    match act (dataset.mapStorage system.attach) with
    | (outcome, reached) => (outcome, (reached.storage?.elim system system.save, reached))

end Dataset

end RasterStore
