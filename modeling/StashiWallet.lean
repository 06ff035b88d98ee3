import StashiWallet.WitnessRepairRuns
import StashiWallet.ResumeCursor
import StashiWallet.PassphraseRollback
import StashiWallet.DuressRuns
import StashiWallet.BalanceRuns
import StashiWallet.SpentInputRuns
import StashiWallet.SeedExportRuns
import StashiWallet.SpendabilityGate
import StashiWallet.NoteWriterRuns
import StashiWallet.RescanReplayRuns
import StashiWallet.InflightRanges
import StashiWallet.BlockCacheLegacy
import StashiWallet.RollbackComposition
import StashiWallet.TransportRuns
import StashiWallet.ChunkStreamRuns
import StashiWallet.PrefetchWakeups
import StashiWallet.DiversifierRotation
import StashiWallet.IronwoodActivation
import StashiWallet.QortalBalance
import StashiWallet.KeyRemoval
import StashiWallet.GraftRollback
import StashiWallet.ShardRoundTrip
import StashiWallet.LeafCounts
import StashiWallet.ReceivedNoteOrder
import StashiWallet.SeedReconcileRuns
import StashiWallet.NoteBirthdayRuns
import StashiWallet.TransactionPageGaps
import StashiWallet.TransactionSums
import StashiWallet.CheckpointRollback
import StashiWallet.RollbackAnchors
import StashiWallet.AncestorSearch
import StashiWallet.PoolAnchors
import StashiWallet.SegmentControllerRuns
import StashiWallet.SegmentRouterRuns
import StashiWallet.BlockCacheMap
import StashiWallet.ScanBatcherRuns
import StashiWallet.ConstructionRanges
import StashiWallet.DrainedLeaves
import StashiWallet.StoredChain
