import BpsProtocol.CanaryExposure
import BpsProtocol.CanaryOperatorSends
import BpsProtocol.RecoveryOperator

/-! The sends of the recovery operator.
Its own methods keep what the methods of the canary operator keep, so the record of its sends is
as good: no step is sent again before the user rejected it, and the steps are sent in order. -/
namespace BpsProtocol
namespace Canary
namespace Recovery

open MerkleProof Async

/-! ## The parts that only look -/

namespace Operator

variable (O : Operator)

theorem looks_checkAnchorCode (anc : Anchor) (rc : Receipt) : Looks (O.checkAnchorCode anc rc) := by
  unfold checkAnchorCode
  split
  · exact .bind (.orFail _) fun _ => Looks.ite trivial (.bind (.req id) fun _ => trivial)
  · trivial

theorem looks_verifyAnchor (anc : Anchor) : Looks (O.verifyAnchor anc) := by
  refine .bind (.req id) fun tx => .bind (.req id) fun rc => ?_
  cases tx with
  | none => trivial
  | some tx =>
    cases rc with
    | none => trivial
    | some rc =>
      dsimp only
      cases O.checkAnchor anc tx rc with
      | error reason => trivial
      | ok u => exact O.looks_checkAnchorCode anc rc

theorem looks_verifyPosition : Looks O.verifyPosition :=
  .bind (O.R.looks_callAddr _ _ _) fun _ => Looks.ite trivial
    (.bind (O.R.looks_callAddr _ _ _) fun _ => Looks.ite trivial
      (.bind (O.R.looks_call _ _ _) fun _ => .bind (.orFail _) fun _ => trivial))

theorem looks_verifyCompletedAnchors : Looks O.verifyCompletedAnchors := by
  refine .bind Runtime.looks_assertChain fun b => ?_
  cases b with
  | false => trivial
  | true =>
    refine .inOrder fun p hp => ?_
    rcases List.mem_append.mp hp with hanchor | hp
    · obtain ⟨anc,-,rfl⟩ := List.mem_map.mp hanchor
      exact O.looks_verifyAnchor anc
    · rw [List.mem_singleton.mp hp]
      exact O.looks_verifyPosition

end Operator

/-! ## What the methods keep -/

section Keeps

variable {O : Operator} {s : Memory} {d : Storage} {l : List SendEvent}

/-- `_halt` of an instance that may be halted on an uncertain send. -/
theorem Keeps.haltAgain {R : Runtime} (h : Coherent R s d l)
    (hs : s.halted = true → s.uncertainSend.isSome = true) (reason : String) :
    Keeps R (fun _ => True) (Canary.halt reason) s d l := by
  have hcov : ∀ k, Outstanding l k → Covered s.journal s.pending k ∨
      ∃ i, s.uncertainSend = some i ∧ i.step = k := by
    intro k ho
    rcases h.blocked k ho with hc | ⟨hhalted,hstep⟩
    · exact .inl hc
    · obtain ⟨i,hi⟩ := Option.isSome_iff_exists.mp (hs hhalted)
      exact .inr ⟨i,hi,hstep i hi⟩
  exact Safe.get_bind (Keeps.persistHalt_bind
    ⟨h.toKept.halt reason h.uncertainWithin hcov (.inl rfl),trivial⟩
    ⟨h.toKept.halt reason h.uncertainWithin hcov (.inr rfl),trivial⟩)

/-- A method of the canary operator whose reply is passed on. -/
theorem Keeps.passed {R : Runtime} {p : Program Outcome}
    (h : Keeps R (fun _ => True) p s d l) :
    Keeps R (fun _ => True) (do
      let o ← p
      return ({ outcome := o } : Reply)) s d l := by
  refine Safe.bind (h.mono ?_)
  rintro r s' d' l' ⟨hco,-⟩
  cases r <;> exact ⟨hco,trivial⟩

theorem Keeps.markConnected (h : Coherent O.R s d l) :
    Keeps O.R (fun _ => True) O.markConnected s d l := by
  refine Safe.get_bind ?_
  split_ifs
  · exact ⟨h,trivial⟩
  · refine Keeps.looks_bind (.req id) h trivial fun chain => ?_
    split_ifs
    · exact ⟨h,trivial⟩
    · refine Keeps.looks_bind (.req id) h trivial fun accts => ?_
      split_ifs
      · exact ⟨h,trivial⟩
      · exact ⟨h,trivial⟩
      · exact ⟨h.setConnected,trivial⟩

theorem Keeps.reconcile (h : Coherent O.R s d l) :
    Keeps O.R (fun _ => True) O.reconcile s d l := by
  refine Safe.get_bind ?_
  split_ifs with hc hu
  · exact ⟨h,trivial⟩
  · exact ⟨h,trivial⟩
  · have hs : s.halted = true → s.uncertainSend.isSome = true := by
      intro hh
      rw [hh,Bool.true_and] at hu
      rwa [← Option.not_isNone,Bool.not_eq_true',Bool.eq_false_iff]
    refine Keeps.looks_bind O.looks_verifyCompletedAnchors h trivial fun anchors => ?_
    cases anchors with
    | error reason => exact Keeps.passed (Keeps.haltAgain h hs _)
    | ok u => exact Keeps.passed (Canary.Keeps.reconcile h)

/-! ## Preconditions -/

/-- What is left of a call once its preconditions are through. -/
def Through (R : Runtime) (s : Memory) (d : Storage) (l : List SendEvent)
    (r : Except Failure (Except Reply Runtime.Ready)) (s' : Memory) (d' : Storage)
    (l' : List SendEvent) : Prop :=
  Coherent R s' d' l' ∧ ∀ ready, r = .ok (.ok ready) → s' = s ∧ d' = d ∧ l' = l

theorem deadlineGate_safe (h : Coherent O.R s d l) (hs : s.halted = false)
    (ready : Runtime.Ready) :
    Safe sends (Restorable O.R) (fun _ _ => True) (Through O.R s d l) (O.deadlineGate ready)
      s d l := by
  have hlook : ∀ {α : Type} (p : Program α), Looks p → ∀ f : α → Program _,
      (∀ a, Safe sends (Restorable O.R) (fun _ _ => True) (Through O.R s d l) (f a) s d l) →
        Safe sends (Restorable O.R) (fun _ _ => True) (Through O.R s d l) (p >>= f) s d l := by
    intro α p hp f hf
    refine Safe.bind ((hp.safe sends_issued sends_answered h.durable).mono ?_)
    rintro r s' d' l' ⟨rfl,rfl,rfl⟩
    cases r with
    | ok a => exact hf a
    | error e => exact ⟨h,nofun⟩
  refine hlook _ (Looks.req (q := .getBlockByNumber) id) _ fun head =>
    hlook _ (.orFail _) _ fun t => hlook _ (.runCheck _) _ fun checked => ?_
  cases checked with
  | ok u => exact ⟨h,fun _ _ => ⟨rfl,rfl,rfl⟩⟩
  | error reason =>
    refine Safe.bind ((Keeps.halt (Q := fun _ => True) h hs reason trivial).mono ?_)
    rintro r s' d' l' ⟨hco,-⟩
    cases r <;> exact ⟨hco,nofun⟩

theorem boundPreconditions_safe (h : Coherent O.R s d l) (now : ℕ) :
    Safe sends (Restorable O.R) (fun _ _ => True) (Through O.R s d l) (O.boundPreconditions now)
      s d l := by
  by_cases hs : s.halted = true
  · refine Safe.bind (Safe.get_bind ?_)
    rw [if_pos hs]
    exact ⟨h,nofun⟩
  · refine Safe.bind ((preconditions_safe h now).mono ?_)
    rintro r s' d' l' ⟨hco,hsame⟩
    cases r with
    | error e => exact ⟨hco,nofun⟩
    | ok pre =>
      cases pre with
      | error o => exact ⟨hco,nofun⟩
      | ok ready =>
        obtain ⟨rfl,rfl,rfl⟩ := hsame ready rfl
        exact deadlineGate_safe hco (Bool.eq_false_iff.mpr hs) ready

theorem recoveryPreconditions_safe (h : Coherent O.R s d l) (now : ℕ) :
    Safe sends (Restorable O.R) (fun _ _ => True) (Through O.R s d l) (O.preconditions now)
      s d l := by
  refine Safe.get_bind ?_
  split_ifs with hgate
  · refine Safe.bind (((Looks.req (q := .accounts) id).safe sends_issued sends_answered
      h.durable).mono ?_)
    rintro r s' d' l' ⟨rfl,rfl,rfl⟩
    cases r with
    | error e => exact ⟨h,nofun⟩
    | ok accts =>
      dsimp only
      split_ifs
      · exact ⟨h,nofun⟩
      · exact boundPreconditions_safe h now
  · exact boundPreconditions_safe h now

theorem Keeps.preconditions (h : Coherent O.R s d l) (now : ℕ) :
    Keeps O.R (fun _ => True) (O.method (.preconditions now)) s d l := by
  refine Safe.bind ((recoveryPreconditions_safe h now).mono ?_)
  rintro r s' d' l' ⟨hco,-⟩
  cases r with
  | error e => exact ⟨hco,trivial⟩
  | ok pre => cases pre <;> exact ⟨hco,trivial⟩

theorem Keeps.sendCurrent (h : Coherent O.R s d l) (now : ℕ) :
    Keeps O.R (fun _ => True) (O.sendCurrent now) s d l := by
  refine Safe.get_bind ?_
  split_ifs with hs hr hp
  · exact ⟨h,trivial⟩
  · exact ⟨h,trivial⟩
  · exact ⟨h,trivial⟩
  · simp only [Bool.or_eq_true,not_or,Bool.not_eq_true] at hs
    simp only [Bool.and_eq_true,Bool.not_eq_true',Bool.not_eq_false] at hr
    have hnone : s.pending = none := by simpa using hp
    refine Safe.bind ((recoveryPreconditions_safe h now).mono ?_)
    rintro r s' d' l' ⟨hco,hsame⟩
    cases r with
    | error e => exact ⟨hco,trivial⟩
    | ok pre =>
      cases pre with
      | error o => exact ⟨hco,trivial⟩
      | ok ready =>
        obtain ⟨rfl,rfl,rfl⟩ := hsame ready rfl
        exact Keeps.passed (Keeps.sendStep hco hs.1 hnone hr.2)

end Keeps

/-! ## Runs -/

theorem recovery_contract (O : Operator) :
    Contract sends O.app (fun _ _ => True) (Restorable O.R) (Coherent O.R) (fun _ _ => True) where
  load _ _ _ hr hs := hr.load hs
  rest _ _ _ h := h.durable
  call m s d l h := by
    cases m with
    | markConnected => exact Keeps.markConnected h
    | preconditions now => exact Keeps.preconditions h now
    | sendCurrent now => exact Keeps.sendCurrent h now
    | verifyAfterHash txHash =>
      exact Keeps.passed ((Keeps.verifyAfterHash h txHash).mono
        fun _ _ _ _ ⟨hco,_⟩ => ⟨hco,trivial⟩)
    | reconcile => exact Keeps.reconcile h
    | resolveUncertainSend txHash => exact Keeps.passed (Keeps.resolveUncertainSend h txHash)

abbrev RecoveryPage := Page Rpc Memory Storage Failure Reply Method SendEvent

/-- A page that some run of loads, calls, crashes and answers leads to, from empty storage. -/
def RecoveryReachable (O : Operator) : RecoveryPage → Prop :=
  Machine.Reachable (τ := Page.Action Rpc Failure Method fun _ _ => True)
    (· = Page.blank Storage.empty) (Page.exec sends O.app)

/-- At most one send of each remaining step that the user did not reject, and each send after the
durable journal entries of all earlier ones. -/
theorem recovery_sends_once (O : Operator) {p : RecoveryPage} (h : RecoveryReachable O p) :
    AtMostOnce p.log ∧ InOrder O.R p.log := by
  have hv := Page.Valid.reachable (recovery_contract O) (Restorable.empty O.R) h
  exact ⟨hv.rest.once,hv.rest.ordered⟩

/-! ## A packet of six steps -/

/-- A chain on which an anchor of the nonce is mined, and a wallet that has the tester
selected. -/
def sampleAnswer (nonce : ℕ) (result : Bytes) : (q : Query) → Except Failure (Answer q)
  | .chainId => .ok 4663
  | .accounts => .ok [8]
  | .getTransactionCount _ _ => .ok 2
  | .getCode _ => .ok (List.replicate 100 0)
  | .getBlockByNumber => .ok ⟨20,1784968500⟩
  | .getBalance _ => .ok (10^18)
  | .call _ => .ok result
  | .estimateGas _ => .ok 90000
  | .price => .ok (some ⟨some 3000000000,some 3000000001,some 10,some 20⟩)
  | .getTransactionByHash _ =>
    .ok (some
      { chainId := some 4663
        source := 7
        target := none
        nonce := nonce
        type := 2
        value := 0
        input := List.replicate 7 0
        gas := 0
        maxFeePerGas := none
        maxPriorityFeePerGas := none
        accessList := []
        blobVersionedHashes := none
        maxFeePerBlobGas := none })
  | .getTransactionReceipt txHash => .ok (some ⟨txHash,1,none,[]⟩)
  | .sleep => .ok ()
  | .sendTransaction _ _ => .ok ['0','x']

def sampleOracle (nonce : ℕ) (result : Bytes) : Oracle Rpc Failure (fun _ _ => True) :=
  ⟨sampleAnswer nonce result,fun _ => trivial⟩

abbrev SampleAction := Page.Action Rpc Failure Method (fun _ _ => True)

def answers (k nonce : ℕ) (result : Bytes) : List SampleAction :=
  List.replicate k (.answer (sampleOracle nonce result) [])

/-- The page connects, verifies the anchors and the position, and sends its first step. -/
def sampleActions : List SampleAction :=
  [.reload,.call .markConnected []] ++ answers 2 0 [] ++ [.call .reconcile []] ++ answers 1 0 [] ++
    (List.range 13).flatMap (fun i => answers 2 (i+3) []) ++
    answers 1 0 (wordBytes 23) ++ answers 1 0 (wordBytes 7) ++
    answers 1 0 (List.replicate 255 0 ++ [1]) ++ [.call (.sendCurrent 500) []] ++ answers 40 0 []

/-- Code of a hundred bytes has the hash of the dependencies. -/
def sampleChain : Env Canonical :=
  { sampleEnv Canonical with
    keccak256 := fun bs => if bs.length = 100 then 3 else Fin.ofNat (2^256) bs.length }

theorem sampleChain_bound :
    bindAndVerifyPacket sampleChain (sampleInputs (15*10^15)) =
      .ok ((sampleInputs (15*10^15)).recoveryAuthorization.runtime sampleChain ['d']) := by
  apply if_pos
  unfold bindChecks buildErrors
  dsimp only
  rw [show authorizationErrors (sampleInputs (15*10^15)).recoveryPacket
      (sampleInputs (15*10^15)).recoveryPolicy = [] from sample_authorized _,
    show decide ((sampleInputs (15*10^15)).recoveryAuthorization.priors = boundPriors) = true
      from decide_eq_true rfl,
    show decide (canonicalObject (sampleInputs (15*10^15)).recoveryPacket
      (sampleInputs (15*10^15)).recoveryPolicy (sampleInputs (15*10^15)).recoverySnapshot =
        (sampleInputs (15*10^15)).recoveryAuthorization) = true from decide_eq_true rfl]
  decide +kernel

def sampleOperator : Operator := boundOperator sampleChain (sampleInputs (15*10^15))

/-- The first step is sent. -/
theorem sampleActions_sends :
    (Machine.run (Page.exec sends sampleOperator.app) (Page.blank Storage.empty)
        sampleActions).log = [.invoked 0 []] ∧
      AtMostOnce (Machine.run (Page.exec sends sampleOperator.app) (Page.blank Storage.empty)
        sampleActions).log ∧
      InOrder sampleOperator.R (Machine.run (Page.exec sends sampleOperator.app)
        (Page.blank Storage.empty) sampleActions).log :=
  ⟨by decide +kernel,recovery_sends_once sampleOperator ⟨_,sampleActions,rfl,rfl⟩⟩

end Recovery
end Canary
end BpsProtocol
