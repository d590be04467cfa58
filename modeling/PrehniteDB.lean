import PrehniteDB.RollbackTrace
import PrehniteDB.ClogTruncation
import PrehniteDB.RowidCounter
import PrehniteDB.Vacuum
import PrehniteDB.SnapshotStability
import PrehniteDB.ClogRewriting
import PrehniteDB.WalHistory
import PrehniteDB.EdgeRecording
import PrehniteDB.ReadCoverage
import PrehniteDB.ReferentialIntegrity
import PrehniteDB.PlanFreshness
import PrehniteDB.UniqueInterleaving
import PrehniteDB.OnlineIndexBuild
import PrehniteDB.IndexBuildAnswers
import PrehniteDB.WireRoundTrip
import PrehniteDB.CatalogRecords
import PrehniteDB.PresortedScan
import PrehniteDB.GroupOrder
import PrehniteDB.JoinBatches
import PrehniteDB.ExternalSort
import PrehniteDB.PoolBooks
import PrehniteDB.CascadeReadings
import PrehniteDB.PlanInlining
import PrehniteDB.ScopedSubqueries
import PrehniteDB.TreeRuns
import PrehniteDB.ConstraintReads
import PrehniteDB.WalRefinement
import PrehniteDB.SchemaViews
