import RasterStore.BlockCache
import RasterStore.Codec

/-!
# Blocks behind a cache

A `BlockStore` gives access to the blocks of a dataset: it asks the codec for blocks that the cache
does not hold and keeps what it got. Blocks changed by the caller become dirty. A dirty block is
encoded before it is given up; if that fails it stays, and so does everything else.

* `BlockStore.fetch` brings a block into the cache.
* `BlockStore.flush` writes dirty blocks back, all that it can.
* `BlockStore.setCapacity` changes the number of blocks held.
-/

namespace RasterStore

/-- A codec, the bands it serves and a cache of their blocks. -/
structure BlockStore (κ : Type) where
  cache : BlockCache
  codec : κ
  bands : Array BandDescriptor
  raster : Size
  reports : Reports

/-- What a block is wanted for. -/
inductive BlockUse where
  /-- Its pixels are read. -/
  | read
  /-- Some of its pixels are changed. -/
  | update
  /-- All of its pixels are replaced, so that they need not be decoded. -/
  | overwrite
deriving DecidableEq

/-- The block will be changed. -/
def BlockUse.forWriting : BlockUse → Bool
  | read => false
  | update | overwrite => true

namespace BlockStore

variable {κ α : Type}

/-- The descriptor of a band, counted from one. -/
def descriptor (store : BlockStore κ) (band : Nat) : BandDescriptor :=
  store.bands.getD (band - 1) default

/-- What the codec is told about a block. -/
def context (store : BlockStore κ) (block : BlockRef) : BlockContext :=
  ⟨block, store.descriptor block.band, store.raster⟩

/-- Runs a step of the codec. -/
def onCodec (act : Action κ α) : Action (BlockStore κ) α := fun store =>
  match store with
  | ⟨cache, codec, bands, raster, reports⟩ =>
    match act codec with
    | (outcome, reached) => (outcome, ⟨cache, reached, bands, raster, reports⟩)

/-- Changes the cache. -/
def modifyCache (f : BlockCache → BlockCache) : Action (BlockStore κ) Unit :=
  modify fun store => { store with cache := f store.cache }

/-- Changes the reports. -/
def modifyReports (f : Reports → Reports) : Action (BlockStore κ) Unit :=
  modify fun store => { store with reports := f store.reports }

variable [Codec κ]

/-! ## Single blocks -/

/-- Decodes a block and checks that the codec returned all of it. -/
def decode (block : BlockRef) : Action (BlockStore κ) ByteArray := do
  let context := (← get).context block
  let decoded ← onCodec ((Codec.decode context).mapError (·.located block))
  modifyReports (·.warnAll decoded.anomalies)
  let expected := context.descriptor.blockBytes
  -- a codec may return too little or too much of a damaged block
  if decoded.bytes.size = expected then
    pure decoded.bytes
  else
    throw (.format (some block)
      s!"codec returned {decoded.bytes.size} bytes, expected {expected}")

/-- Encodes a block. -/
def encode (block : BlockRef) (data : ByteArray) : Action (BlockStore κ) Unit := do
  let context := (← get).context block
  onCodec ((Codec.encode context data).mapError (·.located block))

/-! ## Making room -/

/-- Gives up the block that was used longest ago, encoding it first if it is dirty. -/
def evictOldest : Action (BlockStore κ) Unit := do
  match (← get).cache.oldest? with
  | none => pure ()
  | some (key, block) =>
    if block.dirty then
      -- a block that cannot be encoded keeps its place, and the failure ends the step here
      encode key block.data
      modifyCache BlockCache.countEncode
    modifyCache fun cache => cache.removeOldest.countEviction

/-- Gives up a number of blocks, longest unused first; the first failure ends it. -/
def evict : (count : Nat) → Action (BlockStore κ) Unit
  | 0 => pure ()
  | count + 1 => do
    evictOldest
    evict count

/-- Gives up blocks until at most `target` are left. -/
def makeRoom (target : Nat) : Action (BlockStore κ) Unit := do
  evict ((← get).cache.size - target)

/-- Changes the number of blocks that may be held. -/
def setCapacity (capacity : Nat) : Action (BlockStore κ) Unit := do
  modifyCache ({ · with capacity := max capacity 1 })
  makeRoom (max capacity 1)

/-! ## Access to blocks -/

/-- The bytes of a block that the cache does not hold: decoded, or padding if all of it is going to
    be replaced. -/
def load (key : BlockRef) (use : BlockUse) : Action (BlockStore κ) ByteArray := do
  if use = .overwrite then
    pure ((← get).descriptor key.band).padding
  else
    let data ← decode key
    modifyCache BlockCache.countDecode
    pure data

/-- Makes a block the most recently used one of the cache, loading it if it is not held, and
    answers with its bytes. -/
def fetch (key : BlockRef) (use : BlockUse) : Action (BlockStore κ) ByteArray := do
  if (← get).cache.contains key then
    modifyCache BlockCache.countHit
  else
    modifyCache BlockCache.countMiss
    -- decoded before room is made: what cannot be decoded drives no other block out
    let data ← load key use
    makeRoom ((← get).cache.capacity - 1)
    modifyCache (·.insert key data)
  modifyCache (·.touch key use.forWriting)
  pure (((← get).cache.find? key).elim ByteArray.empty Block.data)

/-- Changes the bytes of a block inside the cache. -/
def change (key : BlockRef) (use : BlockUse) (f : ByteArray → ByteArray) :
    Action (BlockStore κ) Unit := do
  let _ ← fetch key use
  -- the fetched block is now the newest one
  modifyCache (·.modifyNewest f)

/-! ## Writing back -/

/-- Writes one block back. A failure is reported and returned; the block then stays dirty. -/
def flushBlock (key : BlockRef) : Action (BlockStore κ) (List (BlockRef × RasterError)) := do
  match (← get).cache.find? key with
  | none => pure []
  | some block =>
    match ← (encode key block.data).attempt with
    | .ok () =>
      modifyCache fun cache => (cache.markClean key).countEncode
      pure []
    | .error error =>
      modifyReports (·.note ⟨.error, s!"failed to flush {key.text}: {error.message}"⟩)
      pure [(key, error)]

/-- Writes blocks back in the given order and lists those that failed. -/
def flushBlocks : List BlockRef → Action (BlockStore κ) (List (BlockRef × RasterError))
  | [] => pure []
  | key :: rest => do
    let failed ← flushBlock key
    let failedLater ← flushBlocks rest
    pure (failed ++ failedLater)

/-- Writes the selected dirty blocks back. Every one of them is attempted; the failures are
    returned together. -/
def flushSelected (selected : BlockRef → Bool) : Action (BlockStore κ) Unit := do
  let failures ← flushBlocks ((← get).cache.dirtyKeys selected)
  if failures.isEmpty then pure () else throw (.flushFailed failures)

/-- Writes all dirty blocks back. -/
def flush : Action (BlockStore κ) Unit :=
  flushSelected fun _ => true

/-- Writes the dirty blocks of a band back. -/
def flushBand (band : Nat) : Action (BlockStore κ) Unit :=
  flushSelected fun key => key.band == band

/-! ## Dropping blocks -/

omit [Codec κ] in
/-- Drops a block without writing it back and answers whether it was held. -/
def invalidate (key : BlockRef) : Action (BlockStore κ) Bool := do
  let held := (← get).cache.contains key
  modifyCache (·.remove key)
  pure held

omit [Codec κ] in
/-- Drops all blocks of a band without writing them back. -/
def invalidateBand (band : Nat) : Action (BlockStore κ) Unit :=
  modifyCache (·.removeBand band)

end BlockStore

end RasterStore
