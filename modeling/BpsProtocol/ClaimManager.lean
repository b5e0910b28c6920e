import BpsProtocol.Ledger
import BpsProtocol.Lib.Machine
import BpsProtocol.MerkleProof
import BpsProtocol.Ownable

/-! `DistributionClaimManager`: funded, immutable cycles of Merkle claims.
The manager's world is the clock, all tokens and the manager's own storage.  Each entry
point returns the next world or reverts. -/
namespace BpsProtocol
namespace ClaimManager

open Checked Mapping Erc20 Ownable MerkleProof

structure Cycle where
  merkleRoot : Bytes32
  allocationsContentHash : Bytes32
  manifestEnvelopeHash : Bytes32
  claimStart : ℕ
  claimDeadline : ℕ
  published : Bool
  deriving DecidableEq

def Cycle.unset : Cycle := ⟨0,0,0,0,0,false⟩

structure AssetFunding where
  registered : Bool
  funded : ℕ
  claimed : ℕ
  recovered : ℕ
  recoveryClosed : Bool
  deriving DecidableEq

def AssetFunding.unset : AssetFunding := ⟨false,0,0,0,false⟩

structure ClaimRequest where
  asset : Address
  amount : Uint256
  proof : List Bytes32

inductive Event
  | cyclePublished (cycleId : Uint256)
      (merkleRoot allocationsContentHash manifestEnvelopeHash : Bytes32)
      (claimStart claimDeadline assetCount : ℕ)
  | cycleAssetFunded (cycleId : Uint256) (asset : Address) (amount : ℕ)
  | claimed (cycleId : Uint256) (claimant asset : Address) (amount : ℕ)
  | expiredRecovered (cycleId : Uint256) (asset recoveryRecipient : Address) (amount : ℕ)
  deriving DecidableEq

inductive Error
  | cycleAlreadyPublished (cycleId : Uint256)
  | cycleNotFound (cycleId : Uint256)
  | zeroRoot
  | zeroContentHash
  | invalidClaimWindow
  | emptyAssetList
  | arrayLengthMismatch
  | zeroAsset
  | zeroFundingAmount
  | duplicateAsset (asset : Address)
  | fundingAmountMismatch (asset : Address) (declared received : ℕ)
  | assetNotRegistered (cycleId : Uint256) (asset : Address)
  | claimNotStarted
  | claimExpired
  | zeroClaimAmount
  | alreadyClaimed (cycleId : Uint256) (claimant asset : Address)
  | invalidProof
  | insufficientCycleFunding (cycleId : Uint256) (asset : Address)
  | emptyBatch
  | recoveryTooEarly
  | alreadyRecovered (cycleId : Uint256) (asset : Address)
  | panic
  | ownable (e : Ownable.Error)
  | token (e : Erc20.Error)
  | noSuchCall
  deriving DecidableEq

structure Storage where
  ownership : Ownership
  cycles : Uint256 → Cycle
  assetFunding : Uint256 → Address → AssetFunding
  claimed : Uint256 → Address → Address → Bool
  totalOutstanding : Address → ℕ
  events : List Event

/-- The storage after construction. -/
def Storage.deployed (initialOwner : Address) : Storage where
  ownership := ⟨initialOwner,0⟩
  cycles := fun _ => .unset
  assetFunding := fun _ _ => .unset
  claimed := fun _ _ _ => false
  totalOutstanding := fun _ => 0
  events := []

/-- What never changes for one deployed manager: its address, its chain and the hash of
that chain, and where expired funds go. -/
structure Deployment where
  here : Address
  chainId : Uint256
  keccak256 : Hash
  recoveryRecipient : Address

structure World where
  timestamp : ℕ
  tokens : Ledger
  manager : Storage

/-- `_leaf` -/
def leafFor (d : Deployment) (cycleId : Uint256) (claimant asset : Address) (amount : Uint256) :
    Bytes32 :=
  Leaf.hash d.keccak256 ⟨d.chainId,d.here,cycleId,claimant,asset,amount⟩

/-- `_fundAsset` -/
def fundAsset (d : Deployment) (sender : Address) (cycleId : Uint256) (w : World)
    (asset : Address) (amount : ℕ) : Except Error World := do
  revertIf (asset = 0) .zeroAsset
  revertIf (amount = 0) .zeroFundingAmount
  let af := w.manager.assetFunding cycleId asset
  revertIf (af.registered = true) (.duplicateAsset asset)
  let balanceBefore := (w.tokens asset).balanceOf d.here
  let tokens ← (w.tokens.transferFrom asset d.here sender d.here amount).mapError .token
  let received ← sub .panic ((tokens asset).balanceOf d.here) balanceBefore
  revertIf (received ≠ amount) (.fundingAmountMismatch asset amount received)
  let total ← add .panic (w.manager.totalOutstanding asset) amount
  return { w with
    tokens
    manager := { w.manager with
      assetFunding := set₂ w.manager.assetFunding cycleId asset
        { af with registered := true, funded := amount }
      totalOutstanding := set w.manager.totalOutstanding asset total
      events := .cycleAssetFunded cycleId asset amount::w.manager.events } }

def fundAssets (d : Deployment) (sender : Address) (cycleId : Uint256) :
    List (Address × ℕ) → World → Except Error World
  | [], w => .ok w
  | (asset,amount)::rest, w => do
    let w ← fundAsset d sender cycleId w asset amount
    fundAssets d sender cycleId rest w

/-- The arguments of `publishCycle`. -/
structure Publication where
  cycleId : Uint256
  merkleRoot : Bytes32
  allocationsContentHash : Bytes32
  manifestEnvelopeHash : Bytes32
  claimStart : ℕ
  claimDeadline : ℕ
  assets : List Address
  fundedAmounts : List ℕ

def Publication.cycle (p : Publication) : Cycle where
  merkleRoot := p.merkleRoot
  allocationsContentHash := p.allocationsContentHash
  manifestEnvelopeHash := p.manifestEnvelopeHash
  claimStart := p.claimStart
  claimDeadline := p.claimDeadline
  published := true

def publishCycle (d : Deployment) (w : World) (sender : Address) (p : Publication) :
    Except Error World := do
  (checkOwner w.manager.ownership sender).mapError .ownable
  revertIf ((w.manager.cycles p.cycleId).published = true) (.cycleAlreadyPublished p.cycleId)
  revertIf (p.merkleRoot = 0) .zeroRoot
  revertIf (p.allocationsContentHash = 0 ∨ p.manifestEnvelopeHash = 0) .zeroContentHash
  revertIf (p.claimStart ≤ w.timestamp) .invalidClaimWindow
  revertIf (p.claimDeadline ≤ p.claimStart) .invalidClaimWindow
  revertIf (p.assets.length = 0) .emptyAssetList
  revertIf (p.assets.length ≠ p.fundedAmounts.length) .arrayLengthMismatch
  fundAssets d sender p.cycleId (p.assets.zip p.fundedAmounts) { w with
    manager := { w.manager with
      cycles := set w.manager.cycles p.cycleId p.cycle
      events := .cyclePublished p.cycleId p.merkleRoot p.allocationsContentHash
        p.manifestEnvelopeHash p.claimStart p.claimDeadline p.assets.length::w.manager.events } }

/-- `_claim` -/
def claimOne (d : Deployment) (w : World) (cycleId : Uint256) (claimant asset : Address)
    (amount : Uint256) (proof : List Bytes32) : Except Error World := do
  revertIf (amount = 0) .zeroClaimAmount
  let c := w.manager.cycles cycleId
  revertIf (c.published = false) (.cycleNotFound cycleId)
  let af := w.manager.assetFunding cycleId asset
  revertIf (af.registered = false) (.assetNotRegistered cycleId asset)
  revertIf (w.timestamp < c.claimStart) .claimNotStarted
  revertIf (c.claimDeadline < w.timestamp) .claimExpired
  revertIf (w.manager.claimed cycleId claimant asset = true)
    (.alreadyClaimed cycleId claimant asset)
  let leaf := leafFor d cycleId claimant asset amount
  revertIf (verify d.keccak256 proof c.merkleRoot leaf = false) .invalidProof
  let unclaimed ← sub .panic af.funded af.claimed
  let remaining ← sub .panic unclaimed af.recovered
  revertIf (remaining < amount.val) (.insufficientCycleFunding cycleId asset)
  let claimed ← add .panic af.claimed amount.val
  let total ← sub .panic (w.manager.totalOutstanding asset) amount.val
  let tokens ← (w.tokens.transfer asset d.here claimant amount.val).mapError .token
  return { w with
    tokens
    manager := { w.manager with
      claimed := set₃ w.manager.claimed cycleId claimant asset true
      assetFunding := set₂ w.manager.assetFunding cycleId asset { af with claimed }
      totalOutstanding := set w.manager.totalOutstanding asset total
      events := .claimed cycleId claimant asset amount.val::w.manager.events } }

def claim (d : Deployment) (w : World) (sender : Address) (cycleId : Uint256) (asset : Address)
    (amount : Uint256) (proof : List Bytes32) : Except Error World :=
  claimOne d w cycleId sender asset amount proof

def claimAll (d : Deployment) (sender : Address) (cycleId : Uint256) :
    List ClaimRequest → World → Except Error World
  | [], w => .ok w
  | r::rest, w => do
    let w ← claimOne d w cycleId sender r.asset r.amount r.proof
    claimAll d sender cycleId rest w

def claimBatch (d : Deployment) (w : World) (sender : Address) (cycleId : Uint256)
    (claims : List ClaimRequest) : Except Error World := do
  revertIf (claims.length = 0) .emptyBatch
  claimAll d sender cycleId claims w

def recoverExpired (d : Deployment) (w : World) (cycleId : Uint256) (asset : Address) :
    Except Error World := do
  let c := w.manager.cycles cycleId
  revertIf (c.published = false) (.cycleNotFound cycleId)
  let af := w.manager.assetFunding cycleId asset
  revertIf (af.registered = false) (.assetNotRegistered cycleId asset)
  revertIf (w.timestamp ≤ c.claimDeadline) .recoveryTooEarly
  revertIf (af.recoveryClosed = true) (.alreadyRecovered cycleId asset)
  let unclaimed ← sub .panic af.funded af.claimed
  let remainingAmount ← sub .panic unclaimed af.recovered
  let recovered ← add .panic af.recovered remainingAmount
  let total ← sub .panic (w.manager.totalOutstanding asset) remainingAmount
  let tokens ←
    (w.tokens.transferPositive asset d.here d.recoveryRecipient remainingAmount).mapError .token
  return { w with
    tokens
    manager := { w.manager with
      assetFunding := set₂ w.manager.assetFunding cycleId asset
        { af with recovered, recoveryClosed := true }
      totalOutstanding := set w.manager.totalOutstanding asset total
      events := .expiredRecovered cycleId asset d.recoveryRecipient
        remainingAmount::w.manager.events } }

def remaining (w : World) (cycleId : Uint256) (asset : Address) : Except Error ℕ := do
  let af := w.manager.assetFunding cycleId asset
  let unclaimed ← sub .panic af.funded af.claimed
  sub .panic unclaimed af.recovered

/-- A transaction at the current time.  `elapse` lets time pass, `token` is any call of
another account on any token. -/
inductive Tx
  | elapse (seconds : ℕ)
  | publishCycle (sender : Address) (publication : Publication)
  | claim (sender : Address) (cycleId : Uint256) (asset : Address) (amount : Uint256)
      (proof : List Bytes32)
  | claimBatch (sender : Address) (cycleId : Uint256) (claims : List ClaimRequest)
  | recoverExpired (sender : Address) (cycleId : Uint256) (asset : Address)
  | ownership (sender : Address) (call : Ownable.Call)
  | token (asset : Address) (call : Erc20.Call)

/-- `msg.sender`; time passes on its own. -/
def Tx.sender : Tx → Option Address
  | .elapse _ => none
  | .publishCycle sender _ => some sender
  | .claim sender _ _ _ _ => some sender
  | .claimBatch sender _ _ => some sender
  | .recoverExpired sender _ _ => some sender
  | .ownership sender _ => some sender
  | .token _ call => some call.sender

def exec (d : Deployment) (w : World) : Tx → Except Error World
  | .elapse seconds => .ok { w with timestamp := w.timestamp+seconds }
  | .publishCycle sender p => publishCycle d w sender p
  | .claim sender cycleId asset amount proof => claim d w sender cycleId asset amount proof
  | .claimBatch sender cycleId claims => claimBatch d w sender cycleId claims
  | .recoverExpired _ cycleId asset => recoverExpired d w cycleId asset
  | .ownership sender call => do
    let ownership ← (call.exec sender w.manager.ownership).mapError .ownable
    return { w with manager := { w.manager with ownership } }
  | .token asset call => do
    -- the manager's own calls on tokens are those of its functions
    revertIf (call.sender = d.here) .noSuchCall
    let tokens ← (w.tokens.call asset call).mapError .token
    return { w with tokens }

/-- The world in which the manager was just deployed at a fresh address; donations may
already sit there. -/
structure Initial (d : Deployment) (w : World) : Prop where
  here_ne_zero : d.here ≠ 0
  recoveryRecipient_ne_zero : d.recoveryRecipient ≠ 0
  storage : ∃ initialOwner, w.manager = .deployed initialOwner
  closed : w.tokens.Closed d.here
  unspent : ∀ asset, (w.tokens asset).outflows d.here = []

abbrev Reachable (d : Deployment) : World → Prop :=
  Machine.Reachable (Initial d) (exec d)

end ClaimManager
end BpsProtocol
