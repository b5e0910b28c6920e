import BpsProtocol.Ledger

/-! `StockAcquisitionVault`: custody of the acquisition budget and the 80/20 split.
The adapter is a parameter: a call on the tokens and on everything else on the chain that
it can reach, which reports an amount or reverts.  The vault's own storage is out of its
reach, because every entry point of the vault is locked while the adapter runs. -/
namespace BpsProtocol
namespace StockVault

open Checked Mapping Erc20

def splitDenominator : ℕ := 100
def distributionPercent : ℕ := 80

/-- The immutable configuration, with what the constructor checked of it. -/
structure Deployment where
  here : Address
  weth : Address
  acquisitionAdapter : Address
  acquisitionExecutor : Address
  reserveRecipient : Address
  distributionFundingCoordinator : Address
  approvedStockTokens : List Address
  nonzero : 0 ∉ [weth,acquisitionAdapter,acquisitionExecutor,reserveRecipient,
    distributionFundingCoordinator]
  adapter_distinct : acquisitionAdapter ∉ [weth,here]
  reserve_distinct : reserveRecipient ∉ [here,acquisitionAdapter,weth]
  coordinator_distinct : distributionFundingCoordinator ∉
    [here,acquisitionAdapter,weth,reserveRecipient]
  basket_ne_nil : approvedStockTokens ≠ []
  basket_system : ∀ token ∈ approvedStockTokens, token ≠ 0 ∧ token ∉ [weth,acquisitionAdapter,here,
    acquisitionExecutor,reserveRecipient,distributionFundingCoordinator]
  basket_nodup : approvedStockTokens.Nodup

def Deployment.isApprovedStockToken (d : Deployment) (token : Address) : Bool :=
  d.approvedStockTokens.contains token

inductive Event
  | stockAcquired (executor stockToken : Address)
      (wethAmountIn actualStockOut distributionAllocation reserveAllocation : ℕ)
      (adapter : Address)
  | reserveAllocated (stockToken reserveRecipient : Address) (amount : ℕ)
  | distributionReleased (stockToken coordinator : Address) (amount : ℕ)
  deriving DecidableEq

inductive Error
  | notAuthorizedExecutor
  | stockTokenNotApproved (stockToken : Address)
  | zeroAmount
  | zeroMinimumOutput
  | expiredDeadline
  | insufficientWethCustody (requested available : ℕ)
  | wethSpendMismatch (expected actual : ℕ)
  | minimumStockOutNotMet (minimum actual : ℕ)
  | reportedStockMismatch (reported observed : ℕ)
  | reserveDeliveryMismatch (expected received : ℕ)
  | distributionDeliveryMismatch (expected received : ℕ)
  | releaseExceedsAllocation (requested releasable : ℕ)
  | residualWethInAdapter (before afterBalance : ℕ)
  | residualStockInAdapter (before afterBalance : ℕ)
  | panic
  | token (e : Erc20.Error)
  | adapterReverted
  deriving DecidableEq

structure Storage where
  totalWethSpent : ℕ
  totalStockAcquired : Address → ℕ
  distributionAllocated : Address → ℕ
  reserveAllocated : Address → ℕ
  distributionReleased : Address → ℕ
  events : List Event

def Storage.deployed : Storage := ⟨0,fun _ => 0,fun _ => 0,fun _ => 0,fun _ => 0,[]⟩

/-- The tokens and the rest of the chain, with the vault's storage. -/
structure World (γ : Type) where
  timestamp : ℕ
  tokens : Ledger
  others : γ
  stock : Storage

/-- `acquireStock`: the reported amount and what the call did, or a revert. -/
abbrev Adapter (γ : Type) := (stockToken : Address) → (wethAmountIn minStockOut deadline : ℕ) →
  Ledger × γ → Option (ℕ × (Ledger × γ))

variable {γ : Type}

/-- The adapter's conversion with the checks around it: the vault approves exactly the
input, clears the approval, and compares balances, not reports. -/
def convert (d : Deployment) (acquireStock : Adapter γ) (w : World γ) (stockToken : Address)
    (wethAmountIn minStockOut deadline : ℕ) : Except Error (ℕ × (Ledger × γ)) := do
  let wethBefore := (w.tokens d.weth).balanceOf d.here
  revertIf (wethBefore < wethAmountIn) (.insufficientWethCustody wethAmountIn wethBefore)
  let stockBefore := (w.tokens stockToken).balanceOf d.here
  let adapterWethBefore := (w.tokens d.weth).balanceOf d.acquisitionAdapter
  let adapterStockBefore := (w.tokens stockToken).balanceOf d.acquisitionAdapter
  let tokens ←
    (w.tokens.approve d.weth d.here d.acquisitionAdapter wethAmountIn).mapError .token
  let (reported,tokens,others) ← orRevert .adapterReverted
    (acquireStock stockToken wethAmountIn minStockOut deadline (tokens,w.others))
  let tokens ← (tokens.approve d.weth d.here d.acquisitionAdapter 0).mapError .token
  let spent ← sub .panic wethBefore ((tokens d.weth).balanceOf d.here)
  revertIf (spent ≠ wethAmountIn) (.wethSpendMismatch wethAmountIn spent)
  let actualStockOut ← sub .panic ((tokens stockToken).balanceOf d.here) stockBefore
  revertIf (actualStockOut ≠ reported) (.reportedStockMismatch reported actualStockOut)
  revertIf (actualStockOut < minStockOut) (.minimumStockOutNotMet minStockOut actualStockOut)
  let adapterWethAfter := (tokens d.weth).balanceOf d.acquisitionAdapter
  revertIf (adapterWethAfter ≠ adapterWethBefore)
    (.residualWethInAdapter adapterWethBefore adapterWethAfter)
  let adapterStockAfter := (tokens stockToken).balanceOf d.acquisitionAdapter
  revertIf (adapterStockAfter ≠ adapterStockBefore)
    (.residualStockInAdapter adapterStockBefore adapterStockAfter)
  return (actualStockOut,(tokens,others))

/-- A transfer out of the vault, with both sides of it verified. -/
def deliver (d : Deployment) (mismatch : ℕ → ℕ → Error) (tokens : Ledger) (stockToken target : Address)
    (amount : ℕ) : Except Error Ledger := do
  let vaultBefore := (tokens stockToken).balanceOf d.here
  let before := (tokens stockToken).balanceOf target
  let tokens ← (tokens.transfer stockToken d.here target amount).mapError .token
  let vaultSent ← sub .panic vaultBefore ((tokens stockToken).balanceOf d.here)
  let received ← sub .panic ((tokens stockToken).balanceOf target) before
  revertIf (vaultSent ≠ amount) (mismatch amount vaultSent)
  revertIf (received ≠ amount) (mismatch amount received)
  return tokens

/-- The delivery of the reserve part; an empty one moves and announces nothing. -/
def deliverReserve (d : Deployment) (w : World γ) (stockToken : Address) (amount : ℕ) :
    Except Error (World γ) :=
  if 0 < amount then do
    let tokens ← deliver d .reserveDeliveryMismatch w.tokens stockToken d.reserveRecipient amount
    return { w with
      tokens
      stock := { w.stock with
        events := .reserveAllocated stockToken d.reserveRecipient amount::w.stock.events } }
  else .ok w

/-- The acquired amount is returned beside the next world. -/
def executeAcquisition (d : Deployment) (acquireStock : Adapter γ) (w : World γ)
    (sender stockToken : Address) (wethAmountIn minStockOut deadline : ℕ) :
    Except Error (ℕ × World γ) := do
  revertIf (sender ≠ d.acquisitionExecutor) .notAuthorizedExecutor
  revertIf (d.isApprovedStockToken stockToken = false) (.stockTokenNotApproved stockToken)
  revertIf (wethAmountIn = 0) .zeroAmount
  revertIf (minStockOut = 0) .zeroMinimumOutput
  revertIf (deadline < w.timestamp) .expiredDeadline
  let (actualStockOut,tokens,others) ←
    convert d acquireStock w stockToken wethAmountIn minStockOut deadline
  let distributionAllocation ← mulDiv .panic actualStockOut distributionPercent splitDenominator
  let reserveAllocation ← sub .panic actualStockOut distributionAllocation
  let v := w.stock
  let totalWethSpent ← add .panic v.totalWethSpent wethAmountIn
  let acquired ← add .panic (v.totalStockAcquired stockToken) actualStockOut
  let allocated ← add .panic (v.distributionAllocated stockToken) distributionAllocation
  let reserve ← add .panic (v.reserveAllocated stockToken) reserveAllocation
  let w ← deliverReserve d { w with
    tokens
    others
    stock := { v with
      totalWethSpent
      totalStockAcquired := set v.totalStockAcquired stockToken acquired
      distributionAllocated := set v.distributionAllocated stockToken allocated
      reserveAllocated := set v.reserveAllocated stockToken reserve
      events := .stockAcquired sender stockToken wethAmountIn actualStockOut
        distributionAllocation reserveAllocation d.acquisitionAdapter::v.events } }
    stockToken reserveAllocation
  return (actualStockOut,w)

def releaseToDistributionCoordinator (d : Deployment) (w : World γ) (sender stockToken : Address)
    (amount : ℕ) : Except Error (World γ) := do
  revertIf (sender ≠ d.acquisitionExecutor) .notAuthorizedExecutor
  revertIf (d.isApprovedStockToken stockToken = false) (.stockTokenNotApproved stockToken)
  revertIf (amount = 0) .zeroAmount
  let v := w.stock
  let releasable ← sub .panic (v.distributionAllocated stockToken)
    (v.distributionReleased stockToken)
  revertIf (releasable < amount) (.releaseExceedsAllocation amount releasable)
  let released ← add .panic (v.distributionReleased stockToken) amount
  let tokens ← deliver d .distributionDeliveryMismatch w.tokens stockToken
    d.distributionFundingCoordinator amount
  return { w with
    tokens
    stock := { v with
      distributionReleased := set v.distributionReleased stockToken released
      events := .distributionReleased stockToken d.distributionFundingCoordinator
        amount::v.events } }

/-- The distribution part of an acquired amount, rounded down. -/
def distributionShare (acquired : ℕ) : ℕ := acquired*distributionPercent/splitDenominator

theorem distributionShare_le (acquired : ℕ) : distributionShare acquired ≤ acquired := by
  have h : acquired*distributionPercent ≤ splitDenominator*acquired := by
    rw [Nat.mul_comm]
    exact Nat.mul_le_mul_right acquired (by decide)
  exact Nat.div_le_of_le_mul h

variable {d : Deployment} {acquireStock : Adapter γ} {w w' : World γ}
  {sender stockToken target : Address} {wethAmountIn minStockOut deadline amount acquired : ℕ}

/-- What the conversion did: exactly the input left the vault, the reported amount of stock
came in, and the adapter kept nothing. -/
structure Converted (d : Deployment) (acquireStock : Adapter γ) (w : World γ) (stockToken : Address)
    (wethAmountIn minStockOut deadline acquired : ℕ) (tokens : Ledger) (others : γ) : Prop where
  custody : wethAmountIn ≤ (w.tokens d.weth).balanceOf d.here
  minimum : minStockOut ≤ acquired
  called : ∃ approved called,
    w.tokens.approve d.weth d.here d.acquisitionAdapter wethAmountIn = .ok approved ∧
    acquireStock stockToken wethAmountIn minStockOut deadline (approved,w.others) =
      some (acquired,(called,others)) ∧
    called.approve d.weth d.here d.acquisitionAdapter 0 = .ok tokens
  weth : (tokens d.weth).balanceOf d.here+wethAmountIn = (w.tokens d.weth).balanceOf d.here
  stock : (tokens stockToken).balanceOf d.here = (w.tokens stockToken).balanceOf d.here+acquired
  adapterWeth : (tokens d.weth).balanceOf d.acquisitionAdapter =
    (w.tokens d.weth).balanceOf d.acquisitionAdapter
  adapterStock : (tokens stockToken).balanceOf d.acquisitionAdapter =
    (w.tokens stockToken).balanceOf d.acquisitionAdapter

theorem convert_ok {tokens : Ledger} {others : γ}
    (h : convert d acquireStock w stockToken wethAmountIn minStockOut deadline =
      .ok (acquired,(tokens,others))) :
    Converted d acquireStock w stockToken wethAmountIn minStockOut deadline acquired tokens
      others := by
  simp only [convert,bind_eq_ok,revertIf_eq_ok,mapError_eq_ok,sub_eq_ok,orRevert_eq_ok,
    exists_const,pure_eq_ok] at h
  obtain ⟨hcust,l,hl,⟨r,l',o⟩,hcall,l'',hl'',_,⟨hle,rfl⟩,hspent,_,⟨hle',rfl⟩,hrep,hmin,haw,has,
    he⟩ := h
  obtain ⟨rfl,hchain⟩ := Prod.mk.inj he
  obtain ⟨rfl,rfl⟩ := Prod.mk.inj hchain
  have hrep' := not_not.mp hrep
  refine ⟨by omega,by omega,⟨l,l',hl,?_,hl''⟩,by omega,by omega,not_not.mp haw,not_not.mp has⟩
  rw [hrep']
  exact hcall

theorem deliver_ok {mismatch : ℕ → ℕ → Error} {tokens tokens' : Ledger}
    (h : deliver d mismatch tokens stockToken target amount = .ok tokens') :
    tokens.transfer stockToken d.here target amount = .ok tokens' := by
  simp only [deliver,bind_eq_ok,revertIf_eq_ok,mapError_eq_ok,sub_eq_ok,exists_const,
    pure_eq_ok] at h
  obtain ⟨l,hl,_,-,_,-,-,-,rfl⟩ := h
  exact hl

/-- What a successful `executeAcquisition` did. -/
structure Acquired (d : Deployment) (acquireStock : Adapter γ) (w w' : World γ)
    (sender stockToken : Address) (wethAmountIn minStockOut deadline acquired : ℕ) : Prop where
  executor : sender = d.acquisitionExecutor
  approved : d.isApprovedStockToken stockToken = true
  spent_pos : 0 < wethAmountIn
  acquired_pos : 0 < acquired
  timestamp : w'.timestamp = w.timestamp
  converted : ∃ tokens,
    Converted d acquireStock w stockToken wethAmountIn minStockOut deadline acquired tokens
      w'.others ∧
    tokens.transferPositive stockToken d.here d.reserveRecipient
      (acquired-distributionShare acquired) = .ok w'.tokens
  totalWethSpent : w'.stock.totalWethSpent = w.stock.totalWethSpent+wethAmountIn
  totalStockAcquired : w'.stock.totalStockAcquired = set w.stock.totalStockAcquired stockToken
    (w.stock.totalStockAcquired stockToken+acquired)
  distributionAllocated : w'.stock.distributionAllocated = set w.stock.distributionAllocated
    stockToken (w.stock.distributionAllocated stockToken+distributionShare acquired)
  reserveAllocated : w'.stock.reserveAllocated = set w.stock.reserveAllocated stockToken
    (w.stock.reserveAllocated stockToken+(acquired-distributionShare acquired))
  distributionReleased : w'.stock.distributionReleased = w.stock.distributionReleased

theorem executeAcquisition_ok
    (h : executeAcquisition d acquireStock w sender stockToken wethAmountIn minStockOut deadline =
      .ok (acquired,w')) :
    Acquired d acquireStock w w' sender stockToken wethAmountIn minStockOut deadline acquired := by
  simp only [executeAcquisition,bind_eq_ok,revertIf_eq_ok,sub_eq_ok,add_eq_ok,mulDiv_eq_ok,
    exists_const,pure_eq_ok] at h
  obtain ⟨hexec,happ,hweth,hmin,-,⟨a,l,o⟩,hconv,_,⟨-,rfl⟩,_,⟨-,rfl⟩,_,⟨-,rfl⟩,_,⟨-,rfl⟩,_,⟨-,rfl⟩,_,
    ⟨-,rfl⟩,u,hu,he⟩ := h
  obtain ⟨rfl,rfl⟩ := Prod.mk.inj he
  have hc := convert_ok hconv
  have hpos : 0 < a := lt_of_lt_of_le (Nat.pos_of_ne_zero hmin) hc.minimum
  unfold deliverReserve at hu
  split at hu
  · rename_i hr
    simp only [bind_eq_ok,pure_eq_ok] at hu
    obtain ⟨l',hl',rfl⟩ := hu
    refine ⟨not_not.mp hexec,by simpa using happ,Nat.pos_of_ne_zero hweth,hpos,rfl,⟨l,hc,?_⟩,rfl,
      rfl,rfl,rfl,rfl⟩
    exact (if_pos hr).trans (deliver_ok hl')
  · rename_i hr
    cases hu
    exact ⟨not_not.mp hexec,by simpa using happ,Nat.pos_of_ne_zero hweth,hpos,rfl,
      ⟨l,hc,if_neg hr⟩,rfl,rfl,rfl,rfl,rfl⟩

/-- Every acquisition is announced; its reserve part only when it is not empty. -/
theorem executeAcquisition_events
    (h : executeAcquisition d acquireStock w sender stockToken wethAmountIn minStockOut deadline =
      .ok (acquired,w')) :
    w'.stock.events =
      (if 0 < acquired-distributionShare acquired then
        [.reserveAllocated stockToken d.reserveRecipient (acquired-distributionShare acquired)]
      else []) ++
      .stockAcquired sender stockToken wethAmountIn acquired (distributionShare acquired)
        (acquired-distributionShare acquired) d.acquisitionAdapter::w.stock.events := by
  simp only [executeAcquisition,bind_eq_ok,revertIf_eq_ok,sub_eq_ok,add_eq_ok,mulDiv_eq_ok,
    exists_const,pure_eq_ok] at h
  obtain ⟨-,-,-,-,-,⟨a,l,o⟩,-,_,⟨-,rfl⟩,_,⟨-,rfl⟩,_,⟨-,rfl⟩,_,⟨-,rfl⟩,_,⟨-,rfl⟩,_,⟨-,rfl⟩,u,hu,he⟩ := h
  obtain ⟨rfl,rfl⟩ := Prod.mk.inj he
  unfold deliverReserve at hu
  split at hu
  · rename_i hr
    simp only [bind_eq_ok,pure_eq_ok] at hu
    obtain ⟨l',-,rfl⟩ := hu
    rw [if_pos (show 0 < a-distributionShare a from hr)]
    rfl
  · rename_i hr
    cases hu
    rw [if_neg (show ¬0 < a-distributionShare a from hr)]
    rfl

/-- What a successful `releaseToDistributionCoordinator` did. -/
structure Released (d : Deployment) (w w' : World γ) (sender stockToken : Address) (amount : ℕ) :
    Prop where
  executor : sender = d.acquisitionExecutor
  approved : d.isApprovedStockToken stockToken = true
  amount_pos : 0 < amount
  releasable : w.stock.distributionReleased stockToken+amount ≤
    w.stock.distributionAllocated stockToken
  timestamp : w'.timestamp = w.timestamp
  others : w'.others = w.others
  paid : w.tokens.transfer stockToken d.here d.distributionFundingCoordinator amount =
    .ok w'.tokens
  totalWethSpent : w'.stock.totalWethSpent = w.stock.totalWethSpent
  totalStockAcquired : w'.stock.totalStockAcquired = w.stock.totalStockAcquired
  distributionAllocated : w'.stock.distributionAllocated = w.stock.distributionAllocated
  reserveAllocated : w'.stock.reserveAllocated = w.stock.reserveAllocated
  distributionReleased : w'.stock.distributionReleased = set w.stock.distributionReleased
    stockToken (w.stock.distributionReleased stockToken+amount)

theorem releaseToDistributionCoordinator_ok
    (h : releaseToDistributionCoordinator d w sender stockToken amount = .ok w') :
    Released d w w' sender stockToken amount := by
  simp only [releaseToDistributionCoordinator,bind_eq_ok,revertIf_eq_ok,sub_eq_ok,add_eq_ok,
    exists_const,pure_eq_ok] at h
  obtain ⟨hexec,happ,hpos,_,⟨hle,rfl⟩,hrel,_,⟨-,rfl⟩,l,hl,rfl⟩ := h
  exact ⟨not_not.mp hexec,by simpa using happ,Nat.pos_of_ne_zero hpos,by omega,rfl,rfl,
    deliver_ok hl,rfl,rfl,rfl,rfl,rfl⟩

theorem releaseToDistributionCoordinator_events
    (h : releaseToDistributionCoordinator d w sender stockToken amount = .ok w') :
    w'.stock.events = .distributionReleased stockToken d.distributionFundingCoordinator
      amount::w.stock.events := by
  simp only [releaseToDistributionCoordinator,bind_eq_ok,revertIf_eq_ok,sub_eq_ok,add_eq_ok,
    exists_const,pure_eq_ok] at h
  obtain ⟨-,-,-,_,⟨-,rfl⟩,-,_,⟨-,rfl⟩,l,-,rfl⟩ := h
  rfl

end StockVault
end BpsProtocol
