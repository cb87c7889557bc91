import RasterStore.Band
import RasterStore.Codec.Recorder
import RasterStore.Driver
import RasterStore.Proofs.Action.Ends
import RasterStore.Proofs.Cache.NoLostUpdate
import RasterStore.Proofs.Tiled.CrashConsistency
import RasterStore.Proofs.Tiled.Opened
import RasterStore.Proofs.Memory.PlainRaster
import RasterStore.Proofs.Memory.ReadBack
import RasterStore.Proofs.Tiled.LoadExact
import RasterStore.Proofs.Tiled.Blank
import RasterStore.Proofs.Tiled.Persistence
import RasterStore.Proofs.Dataset.Contract
import RasterStore.Proofs.Dataset.ReadOnly
import RasterStore.Proofs.Dataset.CreatedOpens
import RasterStore.Proofs.Dataset.CacheIndependence
import RasterStore.Proofs.Dted.Elevations
import RasterStore.Proofs.Dted.Files
import RasterStore.Proofs.Dataset.BlockKeeper
import RasterStore.Proofs.Dataset.RefusedCreation
import RasterStore.Proofs.Storage.Sealed
import RasterStore.Proofs.Dataset.NoDataValue
import RasterStore.Proofs.Dataset.FailedNoData
import RasterStore.Proofs.Dataset.TiledKeeper
import RasterStore.Proofs.Dataset.TiledNoData
import RasterStore.Proofs.Cache.Bounded
import RasterStore.Proofs.Cache.Recency
import RasterStore.Proofs.Dataset.Closing
import RasterStore.Proofs.Memory.Averages
import RasterStore.Proofs.Cache.FailedFetch
import RasterStore.Proofs.Transfer.Words
import RasterStore.Proofs.Dataset.ExactBlocks
import RasterStore.Proofs.Dataset.InterruptedWrites
import RasterStore.Proofs.Dataset.InterruptedReads
import RasterStore.Proofs.Dted.Corruption
import RasterStore.Proofs.Dted.Labels
import RasterStore.Proofs.Tiled.Extents
import RasterStore.Proofs.Cache.Traffic
import RasterStore.Proofs.Dataset.BlockTraffic
import RasterStore.Proofs.Pixel.Wrapping
import RasterStore.Proofs.Storage.Interchange
import RasterStore.Proofs.Options.History
import RasterStore.Proofs.Transfer.Scaling
import RasterStore.Proofs.Dataset.BlockGrid
import RasterStore.Proofs.Options.Lines
