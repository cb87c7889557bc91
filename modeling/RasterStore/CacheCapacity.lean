import RasterStore.Reports
import RasterStore.Text.Numeral
import RasterStore.Text.Quoted

/-!
# Configuration

The capacity of a block cache comes from the caller, else from the environment, else it is the
default. The environment is passed in as the value of its one variable.
-/

namespace RasterStore

/-- Name of the environment variable that holds the default capacity of block caches. -/
def cacheVariable : String :=
  "BLOCKRASTER_CACHEMAX"

/-- Capacity of a block cache for which nothing is configured. -/
def defaultCacheBlocks : Nat :=
  64

/-- The capacity of a new block cache: the explicit one, at least one block; else the one set in
    the environment; else the default. A value in the environment that is not a positive number is
    passed over with a report. -/
def cacheCapacity (explicit : Option Nat) (environment : Option String) : Nat × Option Notice :=
  match explicit, environment with
  | some blocks, _ => (max blocks 1, none)
  | none, none => (defaultCacheBlocks, none)
  | none, some value =>
    match positiveNumeral? value with
    | some blocks => (blocks, none)
    | none =>
      let shown := quoted value
      let text := s!"ignoring invalid {cacheVariable}={shown}, using {defaultCacheBlocks}"
      (defaultCacheBlocks, some ⟨.warning, text⟩)

/-- A configured text, or the fallback if it is not set. -/
def configured (environment : Option String) (fallback : String) : String :=
  environment.getD fallback

end RasterStore
