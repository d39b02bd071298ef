import JobAgg.ColdArchive.RoundTrip
import JobAgg.CommitmentLog.StoredChain
import JobAgg.EpochVault.ForkEvidence
import JobAgg.EpochVault.KeyCoverage
import JobAgg.EpochVault.TerminalFence
import JobAgg.HostRecovery.Reopening
import JobAgg.JobDatabase.Lifecycle
import JobAgg.LivePublication.Binding
import JobAgg.PendingPublication.CrashSafety
import JobAgg.PolicyAuthority.Agreement
import JobAgg.PublicationExports.CrashSafety
import JobAgg.RemediationConcurrency.Evidence
import JobAgg.RuntimeHolds.Releasing
import JobAgg.SemanticHistory.Replay
import JobAgg.SemanticHistory.Union
import JobAgg.StorageBudget.Conservation
import JobAgg.SyncQueue.Reducers
import JobAgg.SyncSource.Retirement
import JobAgg.CommitmentLog.CacheCoherence
import JobAgg.VaultApi.Credentials
import JobAgg.VaultApi.OpaqueHistory
import JobAgg.VaultApi.OpaqueIsolation
import JobAgg.EpochVault.RollbackTracker
import JobAgg.Filters.DateBounds
import JobAgg.PolicyAuthority.BatchAudit
import JobAgg.PolicyAuthority.JsonExport
import JobAgg.PublicationWork.Attendance
import JobAgg.RemediationWorker.Refunds
import JobAgg.SyncSource.BreakerDiscipline
import JobAgg.TrustedDevices.PairingReplay
import JobAgg.VaultCrypto.RecoveryKey
import JobAgg.Models.IdentityKey
import JobAgg.Normalize.NeverGuesses
import JobAgg.HttpCheckpoint.HeaderPrivacy
import JobAgg.StorageCompression.VerifiedRead
import JobAgg.SemanticHistory.JobVersions
import JobAgg.TerminalPublication.Removal
import JobAgg.RemediationWorker.IntervalPeak
import JobAgg.PublicationArtifacts.RoundTrip
import JobAgg.HttpCheckpoint.SafeError
