import BpsProtocol.ClaimManagerSafety
import BpsProtocol.ViemVerify

/-! `validateClaimReadiness`: what the application reads before it enables a claim.
The root, the registration, the claim flag and two amounts are compared with the manager's
state.  The window is read and decides nothing.  The funding and the balance of the manager
bound the amount, but not by what is left of the funding, once some of it was paid out while
the manager holds the asset for another cycle. -/
namespace BpsProtocol
namespace ClaimManager

open Checked Mapping Erc20 HexText ViemVerify

/-! ## The checks of a claim -/

/-- What `_claim` checks besides the proof, of an amount of any size. -/
structure ClaimChecks (w : World) (cycleId : Uint256) (claimant asset : Address) (amount : ℤ) :
    Prop where
  amount_pos : 0 < amount
  published : (w.manager.cycles cycleId).published = true
  registered : (w.manager.assetFunding cycleId asset).registered = true
  started : (w.manager.cycles cycleId).claimStart ≤ w.timestamp
  unexpired : w.timestamp ≤ (w.manager.cycles cycleId).claimDeadline
  unclaimed : w.manager.claimed cycleId claimant asset = false
  covered : amount ≤ (w.manager.assetFunding cycleId asset).funded-
    (w.manager.assetFunding cycleId asset).claimed-
    (w.manager.assetFunding cycleId asset).recovered

variable {d : Deployment} {w : World} {c : Uint256} {claimant asset : Address} {amount : Uint256}
  {proof : List Bytes32}

/-- In a solvent state a claim of somebody succeeds exactly where its checks pass and its
proof is accepted. -/
theorem Solvent.claimOne_succeeds_iff (hs : Solvent d w) (hclaimant : claimant ≠ 0) :
    (∃ w', claimOne d w c claimant asset amount proof = .ok w') ↔
      ClaimChecks w c claimant asset amount.val ∧
        MerkleProof.verify d.keccak256 proof (w.manager.cycles c).merkleRoot
          (leafFor d c claimant asset amount) = true := by
  obtain ⟨hcovered,hlt,houtstanding⟩ := hs.entry_bounds c asset
  rw [AssetFunding.outstanding] at houtstanding
  have hbalance := hs.covered asset
  refine ⟨fun h => ?_,fun h => ?_⟩
  · obtain ⟨w',hw⟩ := h
    have hc := claimOne_ok hw
    have hamount := hc.covered
    have hpos := hc.amount_pos
    rw [AssetFunding.outstanding] at hamount
    exact ⟨⟨by omega,hc.published,hc.registered,hc.started,hc.unexpired,hc.unclaimed,by omega⟩,
      hc.verified⟩
  · obtain ⟨hc,hverified⟩ := h
    have hpos := hc.amount_pos
    have hamount := hc.covered
    have hne : amount ≠ 0 := by
      intro hzero
      rw [hzero] at hpos
      exact lt_irrefl _ hpos
    obtain ⟨l,hl⟩ : ∃ l, w.tokens.transfer asset d.here claimant amount.val = .ok l :=
      Ledger.transfer_succeeds hs.here_ne_zero hclaimant (by omega)
    have hstart := hc.started
    have hend := hc.unexpired
    simp only [claimOne,bind_eq_ok,revertIf_eq_ok,mapError_eq_ok,sub_eq_ok,add_eq_ok,exists_const,
      pure_eq_ok]
    exact ⟨_,hne,by simp [hc.published],by simp [hc.registered],by omega,by omega,
      by simp [hc.unclaimed],by simp [hverified],_,⟨by omega,rfl⟩,_,⟨by omega,rfl⟩,by omega,_,
      ⟨by omega,rfl⟩,_,⟨by omega,rfl⟩,_,hl,rfl⟩

/-! ## The readiness of a claim -/

/-- A read that failed, by its name. -/
structure ReadFailedError where
  what : String
  deriving DecidableEq

structure CycleState where
  merkleRoot : Text
  claimStart : ℤ
  claimDeadline : ℤ
  published : Bool
  deriving DecidableEq

structure AssetFundingState where
  registered : Bool
  funded : ℤ
  claimed : ℤ
  deriving DecidableEq

structure Erc20Snapshot where
  balance : ℤ
  decimals : ℤ
  allowance : ℤ
  deriving DecidableEq

/-- The reads of a client; each answers or fails. -/
structure Client where
  readCycle : (manager : Address) → (cycleId : Uint256) → Except ReadFailedError CycleState
  readAssetFunding : (manager : Address) → (cycleId : Uint256) → (asset : Address) →
    Except ReadFailedError AssetFundingState
  readClaimUsed : (manager : Address) → (cycleId : Uint256) → (claimant asset : Address) →
    Except ReadFailedError Bool
  readErc20 : (token owner spender : Address) → Except ReadFailedError Erc20Snapshot
  readClaimRemaining : (manager : Address) → (cycleId : Uint256) → (asset : Address) →
    Except ReadFailedError ℤ

structure ClaimReadinessInput where
  manager : Address
  cycleId : Uint256
  asset : Address
  claimant : Address
  amount : ℤ
  artifactRoot : Text

inductive ClaimReadinessReason
  | cycleNotPublished
  | rootMismatch
  | exceedsPublishedAllocation
  | alreadyClaimed
  | managerBalanceInsufficient
  deriving DecidableEq

structure ClaimReadinessResult where
  ok : Bool
  reason : Option ClaimReadinessReason
  onchainRoot : Option Text
  remaining : Option ℤ
  deriving DecidableEq

def refuse (reason : ClaimReadinessReason) (onchainRoot : Option Text) : ClaimReadinessResult :=
  ⟨false,some reason,onchainRoot,none⟩

def validateClaimReadiness (client : Client) (input : ClaimReadinessInput) :
    Except ReadFailedError ClaimReadinessResult := do
  let cyc ← client.readCycle input.manager input.cycleId
  if !cyc.published then return refuse .cycleNotPublished none
  else if toLowerCase cyc.merkleRoot ≠ toLowerCase input.artifactRoot then
    return refuse .rootMismatch (some cyc.merkleRoot)
  else do
    let af ← client.readAssetFunding input.manager input.cycleId input.asset
    if !af.registered || af.funded < input.amount then
      return refuse .exceedsPublishedAllocation (some cyc.merkleRoot)
    else do
      let used ← client.readClaimUsed input.manager input.cycleId input.claimant input.asset
      if used then return refuse .alreadyClaimed (some cyc.merkleRoot)
      else do
        let snapshot ← client.readErc20 input.asset input.manager input.manager
        if snapshot.balance < input.amount then
          return refuse .managerBalanceInsufficient (some cyc.merkleRoot)
        else do
          let remaining ← client.readClaimRemaining input.manager input.cycleId input.asset
          return ⟨true,none,some cyc.merkleRoot,some remaining⟩

/-- What the client answers of the manager, it answers from one state. -/
structure Answers (d : Deployment) (w : World) (client : Client) : Prop where
  cycle : ∀ c r, client.readCycle d.here c = .ok r →
    r = ⟨wordText (w.manager.cycles c).merkleRoot,(w.manager.cycles c).claimStart,
      (w.manager.cycles c).claimDeadline,(w.manager.cycles c).published⟩
  assetFunding : ∀ c asset r, client.readAssetFunding d.here c asset = .ok r →
    r = ⟨(w.manager.assetFunding c asset).registered,(w.manager.assetFunding c asset).funded,
      (w.manager.assetFunding c asset).claimed⟩
  claimed : ∀ c claimant asset r, client.readClaimUsed d.here c claimant asset = .ok r →
    r = w.manager.claimed c claimant asset
  balance : ∀ asset r, client.readErc20 asset d.here d.here = .ok r →
    r.balance = (w.tokens asset).balanceOf d.here
  remaining : ∀ c asset r, client.readClaimRemaining d.here c asset = .ok r →
    ∃ n : ℕ, remaining w c asset = .ok n ∧ r = n

variable {client : Client} {input : ClaimReadinessInput}

/-- The answer on which the application enables a claim. -/
def Enables (client : Client) (input : ClaimReadinessInput) : Prop :=
  ∃ r, validateClaimReadiness client input = .ok r ∧ r.ok = true

theorem refuse_not_ok {reason : ClaimReadinessReason} {onchainRoot : Option Text} :
    ¬∃ r, (pure (refuse reason onchainRoot) : Except ReadFailedError _) = .ok r ∧ r.ok = true := by
  rintro ⟨r,h,hok⟩
  rw [← Except.ok.inj h] at hok
  cases hok

/-- A positive answer read everything, and each comparison came out. -/
theorem enables_iff : Enables client input ↔ ∃ cyc af snapshot left,
    client.readCycle input.manager input.cycleId = .ok cyc ∧ cyc.published = true ∧
    toLowerCase cyc.merkleRoot = toLowerCase input.artifactRoot ∧
    client.readAssetFunding input.manager input.cycleId input.asset = .ok af ∧
    af.registered = true ∧ input.amount ≤ af.funded ∧
    client.readClaimUsed input.manager input.cycleId input.claimant input.asset = .ok false ∧
    client.readErc20 input.asset input.manager input.manager = .ok snapshot ∧
    input.amount ≤ snapshot.balance ∧
    client.readClaimRemaining input.manager input.cycleId input.asset = .ok left := by
  constructor
  · rintro ⟨r,h,hok⟩
    rw [validateClaimReadiness] at h
    obtain ⟨cyc,hcyc,h⟩ := bind_eq_ok.1 h
    split at h
    · exact (refuse_not_ok ⟨r,h,hok⟩).elim
    next hpublished =>
    split at h
    · exact (refuse_not_ok ⟨r,h,hok⟩).elim
    next hroot =>
    obtain ⟨af,haf,h⟩ := bind_eq_ok.1 h
    split at h
    · exact (refuse_not_ok ⟨r,h,hok⟩).elim
    next hfunded =>
    obtain ⟨used,hused,h⟩ := bind_eq_ok.1 h
    split at h
    · exact (refuse_not_ok ⟨r,h,hok⟩).elim
    next hunused =>
    obtain ⟨snapshot,hsnapshot,h⟩ := bind_eq_ok.1 h
    split at h
    · exact (refuse_not_ok ⟨r,h,hok⟩).elim
    next hbalance =>
    obtain ⟨left,hleft,-⟩ := bind_eq_ok.1 h
    simp only [Bool.or_eq_true,not_or,Bool.not_eq_true',Bool.not_eq_false,decide_eq_true_eq,
      not_lt] at hpublished hfunded hbalance
    rw [Bool.not_eq_true] at hunused
    exact ⟨cyc,af,snapshot,left,hcyc,hpublished,not_not.1 hroot,haf,hfunded.1,hfunded.2,
      hunused ▸ hused,hsnapshot,hbalance,hleft⟩
  · rintro ⟨cyc,af,snapshot,left,hcyc,hpublished,hroot,haf,hregistered,hfunded,hused,hsnapshot,
      hbalance,hleft⟩
    refine ⟨⟨true,none,some cyc.merkleRoot,some left⟩,?_,rfl⟩
    simp only [validateClaimReadiness,hcyc,hpublished,hroot,haf,hregistered,hused,hsnapshot,hleft,
      bind,Except.bind,pure,Except.pure,Bool.not_true,Bool.false_or,not_lt.2 hfunded,
      not_lt.2 hbalance,decide_false,Bool.false_eq_true,not_true_eq_false,ne_eq,if_false]

/-- What a positive answer has found out of the manager's state. -/
theorem Enables.found (hclient : Answers d w client) (hmanager : input.manager = d.here)
    (h : Enables client input) :
    (w.manager.cycles input.cycleId).published = true ∧
      (w.manager.assetFunding input.cycleId input.asset).registered = true ∧
      w.manager.claimed input.cycleId input.claimant input.asset = false ∧
      input.amount ≤ (w.manager.assetFunding input.cycleId input.asset).funded ∧
      input.amount ≤ (w.tokens input.asset).balanceOf d.here := by
  obtain ⟨cyc,af,snapshot,-,hcyc,hpublished,-,haf,hregistered,hfunded,hused,hsnapshot,hbalance,-⟩ :=
    enables_iff.mp h
  rw [hmanager] at hcyc haf hused hsnapshot
  rw [hclient.cycle _ _ hcyc] at hpublished
  rw [hclient.assetFunding _ _ _ haf] at hregistered hfunded
  rw [hclient.balance _ _ hsnapshot] at hbalance
  exact ⟨hpublished,hregistered,(hclient.claimed _ _ _ _ hused).symm,hfunded,hbalance⟩

/-- The same request is enabled for every amount within the funding and the balance. -/
theorem Enables.within (hclient : Answers d w client) (hmanager : input.manager = d.here)
    (h : Enables client input) {amount : ℤ}
    (hfunded : amount ≤ (w.manager.assetFunding input.cycleId input.asset).funded)
    (hbalance : amount ≤ (w.tokens input.asset).balanceOf d.here) :
    Enables client { input with amount := amount } := by
  obtain ⟨cyc,af,snapshot,left,hcyc,hpublished,hroot,haf,hregistered,-,hused,hsnapshot,-,hleft⟩ :=
    enables_iff.mp h
  refine enables_iff.mpr ⟨cyc,af,snapshot,left,hcyc,hpublished,hroot,haf,hregistered,?_,hused,
    hsnapshot,?_,hleft⟩
  · rw [hmanager] at haf
    rw [hclient.assetFunding _ _ _ haf]
    exact hfunded
  · rw [hmanager] at hsnapshot
    rw [hclient.balance _ _ hsnapshot]
    exact hbalance

/-- What the readiness check leaves open of a cycle's asset: the window, and whether its
funding was paid from while the manager holds the asset for something else too. -/
structure Claimable (d : Deployment) (w : World) (cycleId : Uint256) (asset : Address) :
    Prop where
  started : (w.manager.cycles cycleId).claimStart ≤ w.timestamp
  unexpired : w.timestamp ≤ (w.manager.cycles cycleId).claimDeadline
  unshared : ((w.manager.assetFunding cycleId asset).claimed = 0 ∧
      (w.manager.assetFunding cycleId asset).recovered = 0) ∨
    (w.tokens asset).balanceOf d.here ≤ (w.manager.assetFunding cycleId asset).outstanding

/-- Where nothing was left open, the two bounds of a positive answer bound what is left. -/
theorem Enables.claimChecks (hreach : Reachable d w) (hclient : Answers d w client)
    (hmanager : input.manager = d.here) (h : Enables client input) (hpos : 0 < input.amount)
    (hc : Claimable d w input.cycleId input.asset) :
    ClaimChecks w input.cycleId input.claimant input.asset input.amount := by
  obtain ⟨hpublished,hregistered,hunclaimed,hfunded,hbalance⟩ := h.found hclient hmanager
  obtain ⟨hcovered,-,-⟩ := hreach.solvent.entry_bounds input.cycleId input.asset
  refine ⟨hpos,hpublished,hregistered,hc.started,hc.unexpired,hunclaimed,?_⟩
  obtain ⟨hclaimed,hrecovered⟩ | hleft := hc.unshared
  · rw [hclaimed,hrecovered]
    omega
  · rw [AssetFunding.outstanding] at hleft
    omega

/-- A request of a positive amount that is enabled can be claimed, up to its proof, where the
window is open and the cycle's funding is untouched or all that the manager holds.  Elsewhere
the same request is enabled for an amount that the contract refuses. -/
theorem validateClaimReadiness_checks_iff (hreach : Reachable d w) (hclient : Answers d w client)
    (hmanager : input.manager = d.here) (h : Enables client input) :
    (0 < input.amount →
      (Claimable d w input.cycleId input.asset ↔
        ∀ amount : ℤ, 0 < amount → Enables client { input with amount := amount } →
          ClaimChecks w input.cycleId input.claimant input.asset amount)) ∧
    (0 < input.amount → Claimable d w input.cycleId input.asset →
      ClaimChecks w input.cycleId input.claimant input.asset input.amount ∧
      ∀ (amount : Uint256) (proof : List Bytes32), (amount.val : ℤ) = input.amount →
        input.claimant ≠ 0 →
        MerkleProof.verify d.keccak256 proof (w.manager.cycles input.cycleId).merkleRoot
          (leafFor d input.cycleId input.claimant input.asset amount) = true →
        ∃ w', claim d w input.claimant input.cycleId input.asset amount proof = .ok w') ∧
    (input.amount ≤ 0 →
      ¬ClaimChecks w input.cycleId input.claimant input.asset input.amount) := by
  refine ⟨fun hpos => ⟨fun hc amount hamount hready => ?_,fun hall => ?_⟩,fun hpos hc => ?_,
    fun hzero hc => absurd hc.amount_pos (not_lt.mpr hzero)⟩
  · refine Enables.claimChecks hreach hclient ?_ hready hamount hc
    exact hmanager
  · have hself := hall input.amount hpos h
    refine ⟨hself.started,hself.unexpired,?_⟩
    -- the largest amount that is enabled
    obtain ⟨-,-,-,hfunded,hbalance⟩ := h.found hclient hmanager
    have hmost := hall (min (w.manager.assetFunding input.cycleId input.asset).funded
      ((w.tokens input.asset).balanceOf d.here) : ℕ) (by omega)
      (h.within hclient hmanager (by omega) (by omega))
    have hcovered := hmost.covered
    rw [AssetFunding.outstanding]
    omega
  · have hchecks := h.claimChecks hreach hclient hmanager hpos hc
    refine ⟨hchecks,fun amount proof hamount hclaimant hverified => ?_⟩
    rw [claim,hreach.solvent.claimOne_succeeds_iff hclaimant,hamount]
    exact ⟨hchecks,hverified⟩

/-- A client whose reads are all of one state. -/
def pinnedClient (w : World) : Client where
  readCycle _ c := .ok ⟨wordText (w.manager.cycles c).merkleRoot,(w.manager.cycles c).claimStart,
    (w.manager.cycles c).claimDeadline,(w.manager.cycles c).published⟩
  readAssetFunding _ c asset := .ok ⟨(w.manager.assetFunding c asset).registered,
    (w.manager.assetFunding c asset).funded,(w.manager.assetFunding c asset).claimed⟩
  readClaimUsed _ c claimant asset := .ok (w.manager.claimed c claimant asset)
  readErc20 token owner spender := .ok ⟨(w.tokens token).balanceOf owner,18,
    (w.tokens token).allowance owner spender⟩
  readClaimRemaining _ c asset :=
    ((remaining w c asset).mapError fun _ => ⟨"manager.remaining"⟩).map Nat.cast

theorem pinnedClient_answers (d : Deployment) (w : World) : Answers d w (pinnedClient w) where
  cycle _ _ h := (Except.ok.inj h).symm
  assetFunding _ _ _ h := (Except.ok.inj h).symm
  claimed _ _ _ _ h := (Except.ok.inj h).symm
  balance _ _ h := by rw [← Except.ok.inj h]
  remaining c asset r h := by
    simp only [pinnedClient] at h
    cases hr : remaining w c asset with
    | ok n =>
      rw [hr] at h
      exact ⟨n,rfl,(Except.ok.inj h).symm⟩
    | error e =>
      rw [hr] at h
      cases h

/-- A cycle that was published and has not begun. -/
def notBegun : World :=
  Machine.run (exec sample) ⟨0,fun _ => Token.empty,.deployed 9⟩
    [.token 50 (.mint 2 9 200),.token 50 (.approve 9 100 200),.publishCycle 9 (sampleCycle 1 200)]

theorem notBegun_reachable : Reachable sample notBegun :=
  (Machine.Reachable.of_init
    ⟨by decide,by decide,⟨9,rfl⟩,fun _ _ => rfl,fun _ => rfl⟩).run _

def earlyInput : ClaimReadinessInput :=
  ⟨100,1,50,1,200,wordText (sampleCycle 1 200).merkleRoot⟩

theorem earlyInput_ready : Enables (pinnedClient notBegun) earlyInput :=
  ⟨⟨true,none,some (wordText (sampleCycle 1 200).merkleRoot),some 200⟩,by decide +kernel,rfl⟩

/-- The window opens ten seconds later. -/
def begun : World := Machine.run (exec sample) notBegun [.elapse 10]

theorem begun_ready : Enables (pinnedClient begun) earlyInput :=
  ⟨⟨true,none,some (wordText (sampleCycle 1 200).merkleRoot),some 200⟩,by decide +kernel,rfl⟩

theorem begun_claimable : ClaimChecks begun 1 1 50 200 ∧
    ∃ w', claim sample begun 1 1 50 200 [] = .ok w' := by
  obtain ⟨-,hclaim,-⟩ := validateClaimReadiness_checks_iff (notBegun_reachable.run _)
    (pinnedClient_answers sample begun) rfl begun_ready
  obtain ⟨hchecks,hsend⟩ := hclaim (by decide)
    ⟨by decide +kernel,by decide +kernel,.inl (by decide +kernel)⟩
  exact ⟨hchecks,hsend 200 [] rfl (by decide) (by decide +kernel)⟩

/-- It is answered ready, and the contract refuses the claim until the window opens. -/
theorem earlyInput_not_started :
    ¬∀ (d : Deployment) (w : World) (client : Client) (input : ClaimReadinessInput),
      Reachable d w → Answers d w client → input.manager = d.here → Enables client input →
      ClaimChecks w input.cycleId input.claimant input.asset input.amount := by
  intro h
  have hchecks := h sample notBegun _ earlyInput notBegun_reachable
    (pinnedClient_answers sample notBegun) rfl earlyInput_ready
  exact absurd hchecks.started (by decide +kernel)

/-- Two cycles of one asset, the first of them paid out. -/
def paidOut : World :=
  Machine.run (exec sample) ⟨0,fun _ => Token.empty,.deployed 9⟩
    [.token 50 (.mint 2 9 500),.token 50 (.approve 9 100 500),.publishCycle 9 (sampleCycle 1 200),
      .publishCycle 9 (sampleCycle 2 300),.elapse 10,.claim 1 1 50 200 []]

def lateInput : ClaimReadinessInput :=
  ⟨100,1,50,2,200,wordText (sampleCycle 1 200).merkleRoot⟩

/-- Inside the window, the other cycle's funds make an empty one look claimable. -/
theorem lateInput_uncovered : Enables (pinnedClient paidOut) lateInput ∧
    (paidOut.manager.cycles 1).claimStart ≤ paidOut.timestamp ∧
    paidOut.timestamp ≤ (paidOut.manager.cycles 1).claimDeadline ∧
    ¬ClaimChecks paidOut 1 2 50 200 := by
  refine ⟨⟨⟨true,none,some (wordText (sampleCycle 1 200).merkleRoot),some 0⟩,by decide +kernel,rfl⟩,
    by decide +kernel,by decide +kernel,fun hchecks => ?_⟩
  exact absurd hchecks.covered (by decide +kernel)

end ClaimManager
end BpsProtocol
