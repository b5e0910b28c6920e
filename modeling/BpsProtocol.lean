import BpsProtocol.WeightHistory
import BpsProtocol.ClaimManagerSafety
import BpsProtocol.TradeRouterConservation
import BpsProtocol.UniswapAdapterSafety
import BpsProtocol.RialtoAdapterSafety
import BpsProtocol.GuardedExecutorSafety
import BpsProtocol.MerkleSoundness
import BpsProtocol.SnapshotClaims
import BpsProtocol.SnapshotCompleteness
import BpsProtocol.TwabWeights
import BpsProtocol.AcquisitionReconcile
import BpsProtocol.TransparencyRemaining
import BpsProtocol.TransparencyTotals
import BpsProtocol.CanaryDisciplines
import BpsProtocol.CanaryExposure
import BpsProtocol.SettlementConsumption
import BpsProtocol.PriceGuardFloor
import BpsProtocol.SettlementDigest
import BpsProtocol.GuardedSettlementBounds
import BpsProtocol.GuardedSettlementBinding
import BpsProtocol.AllocationFairness
import BpsProtocol.CoordinatorFunding
import BpsProtocol.Dashboard
import BpsProtocol.ArtifactReproducibility
import BpsProtocol.LockBonusParity
import BpsProtocol.ClaimBatch
import BpsProtocol.FeedAcceptance
import BpsProtocol.SerializeFaithful
import BpsProtocol.PacketDigestBinding
import BpsProtocol.LogWindows
import BpsProtocol.TradePreview
import BpsProtocol.ClaimPlan
import BpsProtocol.CanaryReadiness
import BpsProtocol.DeploymentCompleteness
import BpsProtocol.WalletLifecycleSoundness
import BpsProtocol.CreatableCycles
import BpsProtocol.DuplicateKeys
import BpsProtocol.QuoteAmounts
import BpsProtocol.SerializeRoundTrip
import BpsProtocol.PackagedText
import BpsProtocol.RecoveryOperatorGates
import BpsProtocol.ProtocolBudget
import BpsProtocol.DeployedProtocol
import BpsProtocol.RecoveryCaptured
import BpsProtocol.GuardedStack
import BpsProtocol.SnapshotConsumer
import BpsProtocol.QuoteEvaluation
