import RasterStore.Geometry

/-!
# Failures

Every operation that can fail does so with a `RasterError`. An input/output or format failure may
carry the block at which it happened; `RasterError.located` fills that in where it is missing.
`RasterError.message` is the text shown to the user.
-/

namespace RasterStore

/-- Why an operation failed. -/
inductive RasterError where
  /-- A caller's argument was refused. -/
  | illegalArgument (method reason : String)
  /-- The storage could not deliver or take bytes. -/
  | io (block : Option BlockRef) (cause : String)
  /-- Stored bytes do not have the expected form. -/
  | format (block : Option BlockRef) (reason : String)
  /-- A write was asked of something open for reading only. -/
  | noWriteAccess (method : String)
  /-- The format does not have this operation. -/
  | notSupported (method : String)
  /-- Blocks that could not be written back, each with its own failure. -/
  | flushFailed (failures : List (BlockRef × RasterError))
  | unknownDriver (name : String)
  | openFailed (path reason : String)
  | badArgument (reason : String)
  /-- A sequence of pixels does not have the length its shape asks for. -/
  | shapeMismatch (reason : String)
  /-- More bytes were to be held than memory can have. The program ends with this; it is no answer
      that a caller could handle. -/
  | capacityOverflow
deriving Inhabited

/-- Where a failure happened, as added to its message. -/
def locationText : Option BlockRef → String
  | some block => s!" at {block.text}"
  | none => ""

namespace RasterError

mutual

/-- The text of a failure. -/
def message : RasterError → String
  | illegalArgument method reason => s!"Illegal argument in '{method}': {reason}"
  | io block cause => s!"I/O error{locationText block}: {cause}"
  | format block reason => s!"Format error{locationText block}: {reason}"
  | noWriteAccess method => s!"Attempt to write to read only dataset in '{method}'"
  | notSupported method => s!"'{method}' not supported for this dataset"
  | flushFailed failures =>
    let texts := ", ".intercalate (failureTexts failures)
    s!"Failed to flush {failures.length} block(s): {texts}"
  | unknownDriver name => s!"Unknown driver '{name}'"
  | openFailed path reason => s!"Unable to open '{path}': {reason}"
  | badArgument reason => s!"Bad argument: {reason}"
  | shapeMismatch reason => reason
  | capacityOverflow => "capacity overflow"

/-- The texts of the blocks listed in a failed flush. -/
def failureTexts : List (BlockRef × RasterError) → List String
  | [] => []
  | (block, error) :: rest =>
    let text := message error
    s!"[{block.text}: {text}]" :: failureTexts rest

end

/-- Attaches a block to an input/output or format failure that was raised without one. -/
def located (block : BlockRef) : RasterError → RasterError
  | io none cause => io (some block) cause
  | format none reason => format (some block) reason
  | other => other

/-- A failure that carries a block keeps it. -/
@[simp] theorem located_located (first second : BlockRef) (error : RasterError) :
    (error.located first).located second = error.located first := by
  cases error with
  | io block cause => cases block <;> rfl
  | format block reason => cases block <;> rfl
  | _ => rfl

end RasterError

end RasterStore
