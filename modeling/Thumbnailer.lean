import Thumbnailer.Numeric.Word
import Thumbnailer.Numeric.FloatOrder
import Thumbnailer.Decimal.Shortest
import Thumbnailer.Decimal.Text
import Thumbnailer.Decimal.Read
import Thumbnailer.Text.Blank
import Thumbnailer.Time.Instant
import Thumbnailer.Raster.Bitmap
import Thumbnailer.Cache.CostLru
import Thumbnailer.Cache.Pool
import Thumbnailer.Cache.Compressed
import Thumbnailer.Cache.PageCache
import Thumbnailer.Page.Size
import Thumbnailer.Render.Preference
import Thumbnailer.Render.Dpi
import Thumbnailer.Config.Names
import Thumbnailer.Raster.Resample
import Thumbnailer.Page.Source
import Thumbnailer.Page.Synthetic
import Thumbnailer.Page.Folder
import Thumbnailer.Render.Error
import Thumbnailer.Render.Backend
import Thumbnailer.Config.Cache
import Thumbnailer.Generator.Rejection
import Thumbnailer.Schedule.Request
import Thumbnailer.Schedule.Queue
import Thumbnailer.Schedule.Scheduler
import Thumbnailer.Schedule.Release
import Thumbnailer.Schedule.Viewport
import Thumbnailer.Schedule.Cancel
import Thumbnailer.Generator.PageState
import Thumbnailer.Generator.Events
import Thumbnailer.Generator.Statistics
import Thumbnailer.Service.Value
import Thumbnailer.Service.Session
import Thumbnailer.Service.Encoding
import Thumbnailer.Service.Caches
import Thumbnailer.Service.Rendering
import Thumbnailer.Service.Scheduling
import Thumbnailer.Service.Answer
import Thumbnailer.Config.Toml
import Thumbnailer.Config.Env
import Thumbnailer.Config.CacheFile
import Thumbnailer.Config.Generator
import Thumbnailer.Config.GeneratorFile
import Thumbnailer.Service.Configs
import Thumbnailer.Generator.Engine
import Thumbnailer.Generator.Workers
import Thumbnailer.Viewer.Model
import Thumbnailer.Service.Generating
import Thumbnailer.Raster.Inflate
import Thumbnailer.Raster.Png
import Thumbnailer.Raster.Jpeg
import Thumbnailer.Cli.Args
import Thumbnailer.Cli.Run
import Thumbnailer.Main
import Thumbnailer.Proofs.Numeric.FloatDistance
import Thumbnailer.Proofs.Schedule.DistinctWork
import Thumbnailer.Proofs.Schedule.QueueOrder
import Thumbnailer.Proofs.Schedule.Run
import Thumbnailer.Proofs.Schedule.Conservation
import Thumbnailer.Proofs.Schedule.Stale
import Thumbnailer.Proofs.Schedule.Pages
import Thumbnailer.Proofs.Generator.Run
import Thumbnailer.Proofs.Generator.StaleResults
import Thumbnailer.Proofs.Generator.PageView
import Thumbnailer.Proofs.Generator.PageAgreement
import Thumbnailer.Proofs.Generator.Stamps
import Thumbnailer.Proofs.Generator.Announcements
import Thumbnailer.Proofs.Generator.Accounting
import Thumbnailer.Proofs.Cache.Recency
import Thumbnailer.Proofs.Cache.Arena
import Thumbnailer.Proofs.Cache.Layout
import Thumbnailer.Proofs.Cache.Refinement
import Thumbnailer.Proofs.Cache.PageCacheContents
import Thumbnailer.Proofs.Viewer.Session
import Thumbnailer.Proofs.Viewer.Freshness
import Thumbnailer.Proofs.Cache.Lending
import Thumbnailer.Proofs.Cache.PageCacheBounds
import Thumbnailer.Proofs.Cache.CompressedStatistics
import Thumbnailer.Proofs.Schedule.AdmissionScan
import Thumbnailer.Proofs.Schedule.ClockedRuns
import Thumbnailer.Proofs.Cache.EvictionPolicy
import Thumbnailer.Proofs.Generator.DroppedWork
import Thumbnailer.Proofs.Schedule.Retries
import Thumbnailer.Proofs.Schedule.Lineage
import Thumbnailer.Proofs.Schedule.RetryBound
import Thumbnailer.Proofs.Generator.Validation
import Thumbnailer.Proofs.Cache.PoolAcquire
import Thumbnailer.Proofs.Cache.PoolPruning
import Thumbnailer.Proofs.Cache.StoredSizes
import Thumbnailer.Proofs.Render.RequestOrder
import Thumbnailer.Proofs.Render.DpiMemo
import Thumbnailer.Proofs.Cache.RunningCost
import Thumbnailer.Proofs.Generator.Submission
import Thumbnailer.Proofs.Config.Loading
import Thumbnailer.Proofs.Numeric.FloatBits
import Thumbnailer.Proofs.Numeric.Rounding
import Thumbnailer.Proofs.Decimal.ReadBack
import Thumbnailer.Proofs.Config.TomlReadBack
import Thumbnailer.Proofs.Config.RoundTrip
import Thumbnailer.Proofs.Raster.Pixels
import Thumbnailer.Proofs.Page.Crop
import Thumbnailer.Proofs.Cache.Cleanup
import Thumbnailer.Proofs.Viewer.Preload
import Thumbnailer.Proofs.Cache.SlotReuse
import Thumbnailer.Proofs.Schedule.Requeue
