import VectorDb.Index.HnswReach
import VectorDb.Index.TopKUses
import VectorDb.Index.Neighbours
import VectorDb.Index.LayerSearch
import VectorDb.Distance.RankKeys
import VectorDb.Concurrency.ParallelForCoverage
import VectorDb.Concurrency.PoolLiveness
import VectorDb.Storage.MetadataTransactions
import VectorDb.Index.HnswRecall
import VectorDb.Lib.LittleEndian
import VectorDb.Index.HnswFile
import VectorDb.Index.HnswWords
import VectorDb.Index.HnswRuns
import VectorDb.Storage.VectorStoreRuns
import VectorDb.Db.Lockstep
import VectorDb.Db.Operations
import VectorDb.Db.CrashConsistency
import VectorDb.Db.DamagedFiles
import VectorDb.Db.StoredConfig
import VectorDb.Db.CompactionAnswers
import VectorDb.Db.ApproximateSearch
import VectorDb.Db.MetadataFlag
import VectorDb.Storage.MetadataEdits
import VectorDb.Storage.TransactionBodies
import VectorDb.Storage.PoisonedStatements
import VectorDb.Storage.FilterNumbers
import VectorDb.Storage.FilterRoundTrip
import VectorDb.Cli.Commands
import VectorDb.Persistence.SpanReader
import VectorDb.Db.ExactSearch
import VectorDb.Db.HandleOwnership
import VectorDb.Db.AutoIds
import VectorDb.Db.FetchWindow
import VectorDb.Db.Rebuild
import VectorDb.Db.Orphans
import VectorDb.Db.LoadedSearch
import VectorDb.Db.ConcurrentRuns
import VectorDb.Index.HnswOffsets
import VectorDb.Index.HnswChecksum
import VectorDb.Distance.KernelLoops
import VectorDb.Index.GreedyDescent
import VectorDb.Index.VisitedSet
import VectorDb.Cli.Output
import VectorDb.Cli.ImportExport
import VectorDb.Util.VectorCsv
import VectorDb.Cli.CsvTransfer
import VectorDb.Db.Catalogue
import VectorDb.Cli.Args
import VectorDb.Cli.CommandLine
import VectorDb.Cli.Sessions
