import LandRecords.Base.Text
import LandRecords.Base.Sha256
import LandRecords.Base.Datetime
import LandRecords.Base.HashChain
import LandRecords.Base.MerkleTree
import LandRecords.Base.OrderBy
import LandRecords.Base.TimedChain
import LandRecords.Audit.Chain
import LandRecords.Audit.History
import LandRecords.Audit.ShardVerification
import LandRecords.Audit.Concurrency
import LandRecords.Audit.Merkle
import LandRecords.Audit.Verify
import LandRecords.Audit.AnchoredRoot
import LandRecords.Base.Fallible
import LandRecords.Base.Guarded
import LandRecords.Queue.InMemory
import LandRecords.Queue.Recorded
import LandRecords.Worker.Runner
import LandRecords.Worker.Delivery
import LandRecords.Worker.Settlement
import LandRecords.Worker.CommittedWork
import LandRecords.Queue.Bookkeeping
import LandRecords.Worker.HandledFirst
import LandRecords.Queue.RedisServer
import LandRecords.Queue.RedisStreams
import LandRecords.Queue.ConsumerGroup
import LandRecords.Queue.Redelivery
import LandRecords.Base.Rows
import LandRecords.Backend.Database
import LandRecords.Decision.PageLifecycle
import LandRecords.Decision.Route
import LandRecords.Decision.Routed
import LandRecords.Decision.ExactlyOnce
import LandRecords.Publication.ConflictRegister
import LandRecords.Review.Correction
import LandRecords.Review.Workflow
import LandRecords.Review.Returned
import LandRecords.Decision.Replay
import LandRecords.Decision.PageProcessed
import LandRecords.Publication.Acknowledged
import LandRecords.Publication.Records
import LandRecords.Publication.BlockedGroup
import LandRecords.Config.Versions
import LandRecords.Config.Lineage
import LandRecords.Config.Client
import LandRecords.Config.Freshness
import LandRecords.Review.MakerChecker
import LandRecords.Base.ReadCommitted
import LandRecords.Review.Concurrency
import LandRecords.Decision.Concurrency
import LandRecords.Decision.Alerted
import LandRecords.Base.Raised
import LandRecords.Base.Numeric
import LandRecords.Calibration.Novelty
import LandRecords.Calibration.UnseenStratum
import LandRecords.Base.Payload
import LandRecords.Calibration.Calibrator
import LandRecords.Calibration.DecisionFlow
import LandRecords.Calibration.AutoAccept
import LandRecords.Queue.Replayed
import LandRecords.Queue.ReplayedRedis
import LandRecords.Ingest.Custody
import LandRecords.Ingest.Recognised
import LandRecords.Ingest.PageSplit
import LandRecords.Ingest.SplitOnce
import LandRecords.Triage.Routing
import LandRecords.Triage.PinnedOnce
import LandRecords.Base.RowLocks
import LandRecords.Outbox.Relay
import LandRecords.Outbox.Delivered
import LandRecords.Outbox.PublishedOnce
import LandRecords.Outbox.Drained
import LandRecords.Review.Claims
import LandRecords.Review.Exclusive
import LandRecords.Base.TwoRuns
import LandRecords.Review.Routes
import LandRecords.Review.Indistinguishable
import LandRecords.Base.Planar
import LandRecords.Base.Rounding
import LandRecords.Base.FloatFormat
import LandRecords.Extract.Strikethrough
import LandRecords.Extract.StruckOut
import LandRecords.Base.Equality
import LandRecords.Extract.RecordAssembly
import LandRecords.Extract.PageSequence
import LandRecords.Extract.AssembledFields
import LandRecords.Extract.LostReadings
import LandRecords.Extract.Relationships
import LandRecords.Extract.PageBindings
import LandRecords.Queue.InMemoryLog
import LandRecords.Queue.RedisLog
import LandRecords.Base.ContentAddressed
import LandRecords.Base.FileObject
import LandRecords.Storage.LocalFs
import LandRecords.Storage.Immutable
import LandRecords.Masking.Views
import LandRecords.Masking.Noninterference
import LandRecords.Base.LeastSquares
import LandRecords.Parcels.Georeference
import LandRecords.Parcels.Vectorize
import LandRecords.Parcels.Labels
import LandRecords.Parcels.ParcelPipeline
import LandRecords.Parcels.ControlPointFit
import LandRecords.Parcels.NoFabrication
import LandRecords.Audit.TamperWindow
import LandRecords.Base.Cuts
import LandRecords.Ocr.TableExtractor
import LandRecords.Ocr.TableTokens
import LandRecords.Ocr.MergedCells
import LandRecords.Parcels.LabelBinding
import LandRecords.Parcels.LabelOrder
import LandRecords.Base.EdgeSums
import LandRecords.Parcels.RayParity
import LandRecords.Base.RayCrossings
import LandRecords.Base.Separation
import LandRecords.Base.SimpleRings
import LandRecords.Base.Enclosed
import LandRecords.Parcels.ClosedPolygon
import LandRecords.Parcels.RingValidation
import LandRecords.Base.Backtracking
import LandRecords.Ocr.Normalization
import LandRecords.Ocr.CanonicalIdentifiers
import LandRecords.Ocr.RegionRouter
import LandRecords.Ocr.FieldExtractor
import LandRecords.Ocr.RegionIsolation
import LandRecords.Base.EditScripts
import LandRecords.Review.EditDistance
import LandRecords.Calibration.ColdStart
import LandRecords.Base.GroupedSums
import LandRecords.Calibration.CalibrationError
import LandRecords.Calibration.Training
import LandRecords.Calibration.TrainingSplit
import LandRecords.Base.Grouping
import LandRecords.Calibration.StratumModels
import LandRecords.Base.PlaneTurns
import LandRecords.Masking.ProvenanceBoxes
import LandRecords.Publication.Versions
import LandRecords.Storage.FixitySweep
import LandRecords.Storage.SweepCoverage
import LandRecords.Ingest.DropFolder
import LandRecords.Ingest.IntakeCustody
import LandRecords.Ingest.FileOutcomes
import LandRecords.Ingest.NothingLost
import LandRecords.Ingest.TransientFailures
import LandRecords.Base.Pivot
import LandRecords.Dashboard.PageActivity
import LandRecords.Dashboard.Reconciled
import LandRecords.Base.Clients
import LandRecords.Storage.S3
import LandRecords.Audit.Anchoring
import LandRecords.Base.LastEvent
import LandRecords.Api.AccessControl
import LandRecords.Api.Conflicts
import LandRecords.Api.UnmaskedRead
import LandRecords.Api.Server
import LandRecords.Api.Accountability
import LandRecords.Api.RegisterReplay
import LandRecords.Worker.OverDatabase
import LandRecords.Worker.AckedMessages
import LandRecords.Decision.Worker
import LandRecords.Config.ClosedSets
import LandRecords.Config.CorpusPartition
import LandRecords.Config.PinnedScope
import LandRecords.Config.PinnedReplay
import LandRecords.Triage.ModelRegistry
import LandRecords.Triage.Worker
import LandRecords.Base.Streaks
import LandRecords.Review.Sittings
import LandRecords.Base.Ensures
import LandRecords.Extract.TextLane
import LandRecords.Extract.RepeatedReadings
import LandRecords.Extract.LaneOutput
import LandRecords.Ingest.Consumer
import LandRecords.Ingest.DocumentsSplit
import LandRecords.Ingest.IngestionRuns
