import BpsProtocol.ClaimManager
import BpsProtocol.StockVault

/-! `DistributionFundingCoordinator`, wired to the stock vault and the claim manager.
The world of the wired system holds the storage of all three contracts.  The coordinator
records each acquisition from the vault's counters and funds each record once. -/
namespace BpsProtocol
namespace Coordinator

open Checked Mapping Erc20

inductive AcquisitionStatus
  | none
  | recorded
  | funded
  deriving DecidableEq

structure AcquisitionRecord where
  status : AcquisitionStatus
  stockToken : Address
  wethSpent : ℕ
  acquiredStock : ℕ
  distributionAmount : ℕ
  reserveAmount : ℕ
  cycleId : Uint256
  deriving DecidableEq

def AcquisitionRecord.unset : AcquisitionRecord := ⟨.none,0,0,0,0,0,0⟩

/-- The immutable configuration, with what the constructor checked of it. -/
structure Deployment where
  here : Address
  stockAcquisitionVault : Address
  distributionClaimManager : Address
  acquisitionOperator : Address
  rootPublisher : Address
  nonzero : 0 ∉ [stockAcquisitionVault,distributionClaimManager,acquisitionOperator,
    rootPublisher]
  vault_distinct : stockAcquisitionVault ∉
    [distributionClaimManager,acquisitionOperator,rootPublisher]
  manager_distinct : distributionClaimManager ∉ [acquisitionOperator,rootPublisher]
  -- it has code before the coordinator has
  manager_deployed : distributionClaimManager ≠ here

/-- The three contracts as they are wired: the coordinator holds both roles of the vault. -/
structure System where
  coordinator : Deployment
  vault : StockVault.Deployment
  manager : ClaimManager.Deployment
  vault_here : coordinator.stockAcquisitionVault = vault.here
  manager_here : coordinator.distributionClaimManager = manager.here
  executor : vault.acquisitionExecutor = coordinator.here
  releases_to : vault.distributionFundingCoordinator = coordinator.here

inductive Event
  | acquisitionRecorded (acquisitionId : ℕ) (stockToken operator : Address)
      (wethSpent acquiredStock distributionAmount reserveAmount : ℕ)
  | acquisitionFunded (acquisitionId : ℕ) (cycleId : Uint256) (stockToken : Address) (amount : ℕ)
      (merkleRoot : Bytes32) (claimStart claimDeadline : ℕ)
  deriving DecidableEq

inductive Error
  | notAcquisitionOperator
  | notRootPublisher
  | stockNotApproved (stockToken : Address)
  | zeroAmountIn
  | zeroMinimumOutput
  | expiredDeadline
  | wethSpendMismatch (expected actual : ℕ)
  | zeroAcquired
  | distributionRuleMismatch (expected actual : ℕ)
  | reserveRuleMismatch (expected actual : ℕ)
  | unexpectedRelease (delta : ℕ)
  | acquisitionNotRecorded (acquisitionId : ℕ)
  | cycleAlreadyUsed (cycleId : Uint256)
  | releaseDeltaMismatch (expected actual : ℕ)
  | coordinatorReceiptMismatch (expected actual : ℕ)
  | reserveAccountingChanged (before afterBalance : ℕ)
  | coordinatorResidue (baseline afterBalance : ℕ)
  | managerReceiptMismatch (expected actual : ℕ)
  | allowanceNotCleared (remaining : ℕ)
  | panic
  | vault (e : StockVault.Error)
  | manager (e : ClaimManager.Error)
  | token (e : Erc20.Error)
  | noSuchCall
  deriving DecidableEq

structure Storage where
  acquisitions : ℕ → AcquisitionRecord
  acquisitionCount : ℕ
  cycleUsed : Uint256 → Bool
  cycleAcquisitionId : Uint256 → ℕ
  events : List Event

def Storage.deployed : Storage := ⟨fun _ => .unset,0,fun _ => false,fun _ => 0,[]⟩

structure World where
  timestamp : ℕ
  tokens : Ledger
  manager : ClaimManager.Storage
  stock : StockVault.Storage
  coordinator : Storage

/-- What the vault's functions see of the world. -/
def World.atVault (w : World) : StockVault.World ClaimManager.Storage :=
  ⟨w.timestamp,w.tokens,w.manager,w.stock⟩

def World.afterVault (w : World) (u : StockVault.World ClaimManager.Storage) : World :=
  { w with tokens := u.tokens, manager := u.others, stock := u.stock }

/-- What the manager's functions see of the world. -/
def World.atManager (w : World) : ClaimManager.World := ⟨w.timestamp,w.tokens,w.manager⟩

def World.afterManager (w : World) (u : ClaimManager.World) : World :=
  { w with tokens := u.tokens, manager := u.manager }

structure Counters where
  wethSpent : ℕ
  acquired : ℕ
  distribution : ℕ
  reserve : ℕ
  released : ℕ

def readCounters (v : StockVault.Storage) (stockToken : Address) : Counters where
  wethSpent := v.totalWethSpent
  acquired := v.totalStockAcquired stockToken
  distribution := v.distributionAllocated stockToken
  reserve := v.reserveAllocated stockToken
  released := v.distributionReleased stockToken

/-- `_deriveRecord` -/
def deriveRecord (stockToken : Address) (wethAmountIn : ℕ) (b a : Counters) :
    Except Error AcquisitionRecord := do
  let wethDelta ← sub .panic a.wethSpent b.wethSpent
  let acquiredDelta ← sub .panic a.acquired b.acquired
  let distDelta ← sub .panic a.distribution b.distribution
  let resDelta ← sub .panic a.reserve b.reserve
  revertIf (wethDelta ≠ wethAmountIn) (.wethSpendMismatch wethAmountIn wethDelta)
  revertIf (acquiredDelta = 0) .zeroAcquired
  let expectedDist ← mulDiv .panic acquiredDelta StockVault.distributionPercent
    StockVault.splitDenominator
  revertIf (distDelta ≠ expectedDist) (.distributionRuleMismatch expectedDist distDelta)
  let expectedRes ← sub .panic acquiredDelta expectedDist
  revertIf (resDelta ≠ expectedRes) (.reserveRuleMismatch expectedRes resDelta)
  let releasedDelta ← sub .panic a.released b.released
  revertIf (releasedDelta ≠ 0) (.unexpectedRelease releasedDelta)
  return {
    status := .recorded
    stockToken
    wethSpent := wethDelta
    acquiredStock := acquiredDelta
    distributionAmount := distDelta
    reserveAmount := resDelta
    cycleId := 0 }

/-- The new acquisition id is returned beside the next world. -/
def executeAndRecordAcquisition (s : System)
    (acquireStock : StockVault.Adapter ClaimManager.Storage) (w : World)
    (sender stockToken : Address) (wethAmountIn minStockOut deadline : ℕ) :
    Except Error (ℕ × World) := do
  revertIf (sender ≠ s.coordinator.acquisitionOperator) .notAcquisitionOperator
  revertIf (s.vault.isApprovedStockToken stockToken = false) (.stockNotApproved stockToken)
  revertIf (wethAmountIn = 0) .zeroAmountIn
  revertIf (minStockOut = 0) .zeroMinimumOutput
  revertIf (deadline < w.timestamp) .expiredDeadline
  let b := readCounters w.stock stockToken
  let (_,u) ← (StockVault.executeAcquisition s.vault acquireStock w.atVault s.coordinator.here
    stockToken wethAmountIn minStockOut deadline).mapError .vault
  let record ← deriveRecord stockToken wethAmountIn b (readCounters u.stock stockToken)
  let acquisitionId ← add .panic w.coordinator.acquisitionCount 1
  let c := w.coordinator
  return (acquisitionId,{ w.afterVault u with
    coordinator := { c with
      acquisitionCount := acquisitionId
      acquisitions := set c.acquisitions acquisitionId record
      events := .acquisitionRecorded acquisitionId stockToken sender record.wethSpent
        record.acquiredStock record.distributionAmount record.reserveAmount::c.events } })

structure PublishInputs where
  cycleId : Uint256
  merkleRoot : Bytes32
  allocationsContentHash : Bytes32
  manifestEnvelopeHash : Bytes32
  claimStart : ℕ
  claimDeadline : ℕ

def PublishInputs.publication (p : PublishInputs) (stockToken : Address) (amount : ℕ) :
    ClaimManager.Publication where
  cycleId := p.cycleId
  merkleRoot := p.merkleRoot
  allocationsContentHash := p.allocationsContentHash
  manifestEnvelopeHash := p.manifestEnvelopeHash
  claimStart := p.claimStart
  claimDeadline := p.claimDeadline
  assets := [stockToken]
  fundedAmounts := [amount]

/-- `_releaseExact` -/
def releaseExact (s : System) (w : World) (stockToken : Address) (amount coordBaseline : ℕ) :
    Except Error World := do
  let relBefore := w.stock.distributionReleased stockToken
  let resBefore := w.stock.reserveAllocated stockToken
  let u ← (StockVault.releaseToDistributionCoordinator s.vault w.atVault s.coordinator.here
    stockToken amount).mapError .vault
  let relDelta ← sub .panic (u.stock.distributionReleased stockToken) relBefore
  revertIf (relDelta ≠ amount) (.releaseDeltaMismatch amount relDelta)
  let coordReceived ← sub .panic ((u.tokens stockToken).balanceOf s.coordinator.here)
    coordBaseline
  revertIf (coordReceived ≠ amount) (.coordinatorReceiptMismatch amount coordReceived)
  let resAfter := u.stock.reserveAllocated stockToken
  revertIf (resAfter ≠ resBefore) (.reserveAccountingChanged resBefore resAfter)
  return w.afterVault u

/-- `_publishExact` -/
def publishExact (s : System) (w : World) (p : PublishInputs) (stockToken : Address)
    (amount coordBaseline : ℕ) : Except Error World := do
  let here := s.coordinator.here
  let mgrBefore := (w.tokens stockToken).balanceOf s.manager.here
  let tokens ← (w.tokens.approve stockToken here s.manager.here amount).mapError .token
  let u ← (ClaimManager.publishCycle s.manager { w with tokens }.atManager here
    (p.publication stockToken amount)).mapError .manager
  let tokens ← (u.tokens.approve stockToken here s.manager.here 0).mapError .token
  let coordAfter := (tokens stockToken).balanceOf here
  revertIf (coordAfter ≠ coordBaseline) (.coordinatorResidue coordBaseline coordAfter)
  let mgrReceived ← sub .panic ((tokens stockToken).balanceOf s.manager.here) mgrBefore
  revertIf (mgrReceived ≠ amount) (.managerReceiptMismatch amount mgrReceived)
  let remaining := (tokens stockToken).allowance here s.manager.here
  revertIf (remaining ≠ 0) (.allowanceNotCleared remaining)
  return { w.afterManager u with tokens }

/-- `_releaseAndFund` -/
def releaseAndFund (s : System) (w : World) (p : PublishInputs) (acquisitionId : ℕ)
    (stockToken : Address) (amount : ℕ) : Except Error World := do
  let coordBaseline := (w.tokens stockToken).balanceOf s.coordinator.here
  let w ← releaseExact s w stockToken amount coordBaseline
  let w ← publishExact s w p stockToken amount coordBaseline
  return { w with
    coordinator := { w.coordinator with
      events := .acquisitionFunded acquisitionId p.cycleId stockToken amount p.merkleRoot
        p.claimStart p.claimDeadline::w.coordinator.events } }

/-- The state machine advances, and the cycle is bound to the acquisition for good. -/
def Storage.bindCycle (c : Storage) (acquisitionId : ℕ) (cycleId : Uint256) : Storage :=
  { c with
    acquisitions := set c.acquisitions acquisitionId
      { c.acquisitions acquisitionId with status := .funded, cycleId }
    cycleUsed := set c.cycleUsed cycleId true
    cycleAcquisitionId := set c.cycleAcquisitionId cycleId acquisitionId }

def fundRecordedAcquisition (s : System) (w : World) (sender : Address) (acquisitionId : ℕ)
    (p : PublishInputs) : Except Error World := do
  revertIf (sender ≠ s.coordinator.rootPublisher) .notRootPublisher
  let c := w.coordinator
  let record := c.acquisitions acquisitionId
  revertIf (record.status ≠ .recorded) (.acquisitionNotRecorded acquisitionId)
  revertIf (c.cycleUsed p.cycleId = true) (.cycleAlreadyUsed p.cycleId)
  -- effects before interaction
  releaseAndFund s { w with coordinator := c.bindCycle acquisitionId p.cycleId } p acquisitionId
    record.stockToken record.distributionAmount

/-- A call on the manager or on a token by an account outside the wired system.  Nobody
holds the keys of the three contracts or of the zero address. -/
def foreign (s : System) (w : ClaimManager.World) (tx : ClaimManager.Tx) :
    Except ClaimManager.Error ClaimManager.World :=
  match tx.sender with
  | Option.none => .error .noSuchCall
  | some sender => do
    revertIf (sender ∈ [0,s.coordinator.here,s.vault.here,s.manager.here]) .noSuchCall
    ClaimManager.exec s.manager w tx

/-- What one call of the adapter does: calls of accounts outside the system, each of which
may fail, and at last a report or a revert. -/
structure Behaviour where
  calls : List ClaimManager.Tx
  reported : Option ℕ

def Behaviour.acquireStock (b : Behaviour) (s : System) (timestamp : ℕ) :
    StockVault.Adapter ClaimManager.Storage :=
  fun _ _ _ _ chain => b.reported.map fun reported =>
    let u := Machine.run (foreign s) ⟨timestamp,chain.1,chain.2⟩ b.calls
    (reported,(u.tokens,u.manager))

/-- A transaction at the current time.  The last two are calls on the vault itself, which
only its executor may make. -/
inductive Tx
  | elapse (seconds : ℕ)
  | executeAndRecordAcquisition (sender stockToken : Address)
      (wethAmountIn minStockOut deadline : ℕ) (adapter : Behaviour)
  | fundRecordedAcquisition (sender : Address) (acquisitionId : ℕ) (inputs : PublishInputs)
  | foreign (tx : ClaimManager.Tx)
  | executeAcquisition (sender stockToken : Address) (wethAmountIn minStockOut deadline : ℕ)
      (adapter : Behaviour)
  | releaseToDistributionCoordinator (sender stockToken : Address) (amount : ℕ)

def exec (s : System) (w : World) : Tx → Except Error World
  | .elapse seconds => .ok { w with timestamp := w.timestamp+seconds }
  | .executeAndRecordAcquisition sender stockToken wethAmountIn minStockOut deadline adapter => do
    let (_,w') ← executeAndRecordAcquisition s (adapter.acquireStock s w.timestamp) w sender
      stockToken wethAmountIn minStockOut deadline
    return w'
  | .fundRecordedAcquisition sender acquisitionId inputs =>
    fundRecordedAcquisition s w sender acquisitionId inputs
  | .foreign tx => do
    let u ← (foreign s w.atManager tx).mapError .manager
    return w.afterManager u
  | .executeAcquisition sender stockToken wethAmountIn minStockOut deadline adapter => do
    revertIf (sender = s.coordinator.here) .noSuchCall
    let (_,u) ← (StockVault.executeAcquisition s.vault (adapter.acquireStock s w.timestamp)
      w.atVault sender stockToken wethAmountIn minStockOut deadline).mapError .vault
    return w.afterVault u
  | .releaseToDistributionCoordinator sender stockToken amount => do
    revertIf (sender = s.coordinator.here) .noSuchCall
    let u ← (StockVault.releaseToDistributionCoordinator s.vault w.atVault sender stockToken
      amount).mapError .vault
    return w.afterVault u

/-- The world in which the three contracts were just deployed, the manager owned by the
coordinator; budget and donations may already sit at their addresses. -/
structure Initial (s : System) (w : World) : Prop where
  manager : w.manager = .deployed s.coordinator.here
  stock : w.stock = .deployed
  coordinator : w.coordinator = .deployed
  manager_ne_zero : s.manager.here ≠ 0
  recoveryRecipient_ne_zero : s.manager.recoveryRecipient ≠ 0
  closed : ∀ a ∈ [s.coordinator.here,s.vault.here,s.manager.here], w.tokens.Closed a
  unspent : ∀ asset, (w.tokens asset).outflows s.manager.here = []

abbrev Reachable (s : System) : World → Prop :=
  Machine.Reachable (Initial s) (exec s)

end Coordinator
end BpsProtocol
