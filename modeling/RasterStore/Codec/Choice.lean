import RasterStore.Codec

/-!
# One of two codecs

A dataset whose format is only known when it is opened has a codec of one of several types. The sum
of two types of codecs is a type of codecs: every request goes to the one that is there.
-/

namespace RasterStore.Choice

variable {κ τ α : Type}

/-- Runs the step of the codec that is there. -/
def either (onLeft : Action κ α) (onRight : Action τ α) : Action (κ ⊕ τ) α := fun codec =>
  match codec with
  | .inl codec =>
    match onLeft codec with
    | (outcome, reached) => (outcome, .inl reached)
  | .inr codec =>
    match onRight codec with
    | (outcome, reached) => (outcome, .inr reached)

instance [Codec κ] [Codec τ] : Codec (κ ⊕ τ) where
  name
    | .inl codec => Codec.name codec
    | .inr codec => Codec.name codec
  decode context := either (Codec.decode context) (Codec.decode context)
  encode context data := either (Codec.encode context data) (Codec.encode context data)
  setNoData band value := either (Codec.setNoData band value) (Codec.setNoData band value)
  flush := either Codec.flush Codec.flush

end RasterStore.Choice
