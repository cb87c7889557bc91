import RasterStore.Codec

/-!
# Recorded codecs

A `Recorder` passes every request on to the codec inside it and keeps a list of the requests in
the order in which they were made, also of those that failed. It shows how a dataset uses its
codec.
-/

namespace RasterStore

/-- One request to a codec. -/
inductive CodecCall where
  | decode (block : BlockRef)
  | encode (block : BlockRef) (data : ByteArray)
  | setNoData (band : Nat) (value : Option Binary64)
  | flush

/-- A codec and the requests it has got, oldest first. -/
structure Recorder (κ : Type) where
  inner : κ
  calls : Array CodecCall := #[]

namespace Recorder

variable {κ α : Type}

/-- Notes a request and passes it on. -/
def record (call : CodecCall) (act : Action κ α) : Action (Recorder κ) α := fun recorder =>
  match recorder with
  | ⟨inner, calls⟩ =>
    match act inner with
    | (outcome, reached) => (outcome, ⟨reached, calls.push call⟩)

instance [Codec κ] : Codec (Recorder κ) where
  name recorder := Codec.name recorder.inner
  decode context := record (.decode context.block) (Codec.decode context)
  encode context data := record (.encode context.block data) (Codec.encode context data)
  setNoData band value := record (.setNoData band value) (Codec.setNoData band value)
  flush := record .flush Codec.flush

end Recorder

end RasterStore
