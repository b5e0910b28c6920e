import BpsProtocol.CoordinatorLog

/-! `reconcileCycleAcquisition`: what the events say of a cycle against three contract reads.
The reads are not pinned to a block, so each one may see a later state than the one
before.  The log only grows and each announcement stays true, so no interleaving of
transactions between the reads makes an honest history look inconsistent. -/
namespace BpsProtocol
namespace AcquisitionReconcile

open Coordinator

inductive AcquisitionLinkageStatus
  | authoritativeConfirmed
  | cycleUnused
  | cycleAcquisitionMismatch
  | acquisitionMissing
  | acquisitionCycleMismatch
  | fundingRecordMismatch
  | readFailed
  deriving DecidableEq

structure EventAcquisitionExpectation where
  acquisitionId : ℕ
  wethSpent : Option ℕ
  distributionAmount : Option ℕ
  reserveAmount : Option ℕ
  acquiredStock : Option ℕ
  deriving DecidableEq

structure AcquisitionReconciliation where
  cycleId : Uint256
  expectedAcquisitionId : Option ℕ
  onchainAcquisitionId : Option ℕ
  record : Option AcquisitionRecord
  status : AcquisitionLinkageStatus
  ok : Bool
  detail : Option String
  deriving DecidableEq

/-- The reads of one coordinator; each answers or fails with a message. -/
structure Client where
  readCycleUsed : Uint256 → Except String Bool
  readCycleAcquisitionId : Uint256 → Except String ℕ
  readAcquisition : ℕ → Except String AcquisitionRecord

/-- The number that the contract encodes a status as. -/
def statusNumber : AcquisitionStatus → ℕ
  | .none => 0
  | .recorded => 1
  | .funded => 2

def statusFunded : ℕ := 2

def isEmptyRecord (r : AcquisitionRecord) : Bool :=
  r.stockToken = 0 && r.cycleId = 0 && r.distributionAmount = 0 && r.acquiredStock = 0

/-- A field of the expectation that is there and differs. -/
def differs (expected : Option ℕ) (actual : ℕ) : Bool :=
  expected.any (· ≠ actual)

def disagree (expected : EventAcquisitionExpectation) (record : AcquisitionRecord) : Bool :=
  differs expected.wethSpent record.wethSpent ||
  differs expected.distributionAmount record.distributionAmount ||
  differs expected.reserveAmount record.reserveAmount ||
  differs expected.acquiredStock record.acquiredStock

/-- The verdict on the record that the cycle is bound to. -/
def judgeRecord (withRecord : AcquisitionReconciliation) (cycleId : Uint256) (onchainId : ℕ)
    (record : AcquisitionRecord) (expected : Option EventAcquisitionExpectation) :
    AcquisitionReconciliation :=
  if isEmptyRecord record || statusNumber record.status ≠ statusFunded then
    { withRecord with
      status := .acquisitionMissing
      ok := false
      detail := some ("acquisition " ++ toString onchainId ++ " not funded (status " ++
        toString (statusNumber record.status) ++ ")") }
  else if record.cycleId ≠ cycleId then
    { withRecord with
      status := .acquisitionCycleMismatch
      ok := false
      detail := some ("acquisitions(" ++ toString onchainId ++ ").cycleId=" ++
        toString record.cycleId ++ " != " ++ toString cycleId) }
  else if expected.any (disagree · record) then
    { withRecord with
      status := .fundingRecordMismatch
      ok := false
      detail :=
        some "authoritative funding amounts disagree with the event-derived record" }
  else { withRecord with status := .authoritativeConfirmed, ok := true, detail := none }

/-- The verdict on the acquisition id that a used cycle is bound to. -/
def judgeBinding (client : Client) (base : AcquisitionReconciliation) (cycleId : Uint256)
    (onchainId : ℕ) (expected : Option EventAcquisitionExpectation) :
    AcquisitionReconciliation :=
  let withId := { base with onchainAcquisitionId := some onchainId }
  if onchainId = 0 then
    { withId with
      status := .acquisitionMissing
      ok := false
      detail := some "cycle used but no acquisition id bound" }
  else if expected.any (·.acquisitionId ≠ onchainId) then
    { withId with
      status := .cycleAcquisitionMismatch
      ok := false
      detail := some ("events=" ++ (expected.elim "" fun e => toString e.acquisitionId) ++
        " chain=" ++ toString onchainId) }
  else match client.readAcquisition onchainId with
    | .error message =>
      { withId with
        status := .readFailed
        ok := false
        detail := some ("acquisitions: " ++ message) }
    | .ok record =>
      judgeRecord { withId with record := some record } cycleId onchainId record expected

def reconcileCycleAcquisition (client : Client) (cycleId : Uint256)
    (expected : Option EventAcquisitionExpectation) : AcquisitionReconciliation :=
  let base : AcquisitionReconciliation := {
    cycleId
    expectedAcquisitionId := expected.map (·.acquisitionId)
    onchainAcquisitionId := none
    record := none
    status := .readFailed
    ok := false
    detail := none }
  match client.readCycleUsed cycleId with
  | .error message => { base with detail := some ("cycleUsed: " ++ message) }
  | .ok false =>
    match expected with
    | some e =>
      { base with
        status := .cycleAcquisitionMismatch
        detail := some ("events reference acquisition " ++ toString e.acquisitionId ++
          " but the cycle is unused on-chain") }
    | none => { base with status := .cycleUnused, ok := true }
  | .ok true =>
    match client.readCycleAcquisitionId cycleId with
    | .error message => { base with detail := some ("cycleAcquisitionId: " ++ message) }
    | .ok onchainId => judgeBinding client base cycleId onchainId expected

/-- Reads of the coordinator that do not fail, each at a state of its own. -/
def readsAt (w₁ w₂ w₃ : World) : Client where
  readCycleUsed c := .ok (w₁.coordinator.cycleUsed c)
  readCycleAcquisitionId c := .ok (w₂.coordinator.cycleAcquisitionId c)
  readAcquisition id := .ok (w₃.coordinator.acquisitions id)

/-- An expectation built from the two events of an acquisition; the amounts are optional. -/
structure FromEvents (events : List Event) (cycleId : Uint256)
    (e : EventAcquisitionExpectation) : Prop where
  funded : ∃ token amount root start deadline,
    .acquisitionFunded e.acquisitionId cycleId token amount root start deadline ∈ events
  recorded : ∃ token operator spent acquired distribution reserve,
    .acquisitionRecorded e.acquisitionId token operator spent acquired distribution reserve ∈
      events ∧
    e.wethSpent ∈ [none,some spent] ∧ e.acquiredStock ∈ [none,some acquired] ∧
    e.distributionAmount ∈ [none,some distribution] ∧ e.reserveAmount ∈ [none,some reserve]

variable {s : System} {w w₁ w₂ w₃ : World} {cycleId : Uint256}

theorem differs_of_mem {expected : Option ℕ} {actual : ℕ} (h : expected ∈ [none,some actual]) :
    differs expected actual = false := by
  rcases List.mem_pair.mp h with rfl | rfl <;> simp [differs]

/-- The expectation agrees with its record in every later state. -/
theorem FromEvents.agrees {events : List Event} {e : EventAcquisitionExpectation}
    (hl : Logged w) (hsub : events ⊆ w.coordinator.events) (h : FromEvents events cycleId e) :
    disagree e (w.coordinator.acquisitions e.acquisitionId) = false := by
  obtain ⟨token,operator,spent,acquired,distribution,reserve,hmem,hspent,hacquired,hdist,hres⟩ :=
    h.recorded
  have ha := hl.recorded _ _ _ _ _ _ _ (hsub hmem)
  simp only [disagree,ha.wethSpent,ha.acquiredStock,ha.distributionAmount,ha.reserveAmount,
    differs_of_mem hspent,differs_of_mem hacquired,differs_of_mem hdist,differs_of_mem hres,
    Bool.or_self]

/-- The record of a funded cycle is confirmed, whatever else was reported before. -/
theorem judgeRecord_confirms {events : List Event} {id amount start deadline : ℕ} {token : Address}
    {root : Bytes32} {expected : Option EventAcquisitionExpectation}
    (base : AcquisitionReconciliation) (hl : Logged w) (hsub : events ⊆ w.coordinator.events)
    (hmem : .acquisitionFunded id cycleId token amount root start deadline ∈ events)
    (he : ∀ e ∈ expected, e.acquisitionId = id ∧ FromEvents events cycleId e) :
    judgeRecord base cycleId id (w.coordinator.acquisitions id) expected =
      { base with status := .authoritativeConfirmed, ok := true, detail := none } := by
  have hf := hl.funded _ _ _ _ _ _ _ (hsub hmem)
  have hpos := hl.acquired_pos id (by simp [hf.status])
  have hempty : isEmptyRecord (w.coordinator.acquisitions id) = false := by
    simp only [isEmptyRecord,Bool.and_eq_false_iff,decide_eq_false_iff_not]
    exact Or.inr (by omega)
  have hagree : expected.any (disagree · (w.coordinator.acquisitions id)) = false := by
    cases expected with
    | none => rfl
    | some e =>
      obtain ⟨rfl,hfrom⟩ := he e rfl
      exact hfrom.agrees hl hsub
  rw [judgeRecord,hempty,hf.status,hagree,if_neg (by simp [statusNumber,statusFunded]),
    if_neg (by simp [hf.cycleId]),if_neg (by simp)]

/-- Whatever transactions run between the reads, the reconciliation of a cycle against its
own events confirms it, and without events the cycle is confirmed or unused. -/
theorem reconcile_no_false_alarm (h : Reachable s w) (before between : List Tx)
    (expected : Option EventAcquisitionExpectation)
    (hexpected : ∀ e ∈ expected, FromEvents w.coordinator.events cycleId e) :
    let w₂ := Machine.run (exec s) w before
    let w₃ := Machine.run (exec s) w₂ between
    let r := reconcileCycleAcquisition (readsAt w w₂ w₃) cycleId expected
    r.ok = true ∧ (r.status = .authoritativeConfirmed ∨
      expected = none ∧ r.status = .cycleUnused) := by
  intro w₂ w₃ r
  have h₂ : Reachable s w₂ := h.run before
  have h₃ : Reachable s w₃ := h₂.run between
  have hsub₂ := (h.events_suffix before).subset
  have hsub₃ := List.Subset.trans hsub₂ (h₂.events_suffix between).subset
  cases hused : w.coordinator.cycleUsed cycleId with
  | false =>
    cases expected with
    | none =>
      refine ⟨?_,Or.inr ⟨rfl,?_⟩⟩ <;> simp [r,reconcileCycleAcquisition,readsAt,hused]
    | some e =>
      -- the expectation's event would have bound the cycle
      obtain ⟨_,_,_,_,_,hmem⟩ := (hexpected e rfl).funded
      have := (h.bound_of_funded hmem).1
      simp [hused] at this
  | true =>
    obtain ⟨token,amount,root,start,deadline,hmem⟩ := h.announced_of_used hused
    obtain ⟨-,hid,hne⟩ := h₂.bound_of_funded (hsub₂ hmem)
    have hsame : ∀ e ∈ expected, e.acquisitionId = w.coordinator.cycleAcquisitionId cycleId ∧
        FromEvents w.coordinator.events cycleId e := by
      intro e he
      obtain ⟨_,_,_,_,_,hmem'⟩ := (hexpected e he).funded
      exact ⟨(h.bound_of_funded hmem').2.1.symm,hexpected e he⟩
    have hmatch : ¬expected.any
        (·.acquisitionId ≠ w.coordinator.cycleAcquisitionId cycleId) = true := by
      cases expected with
      | none => exact Bool.false_ne_true
      | some e => simp [(hsame e rfl).1]
    have hconfirm := fun base => judgeRecord_confirms base h₃.logged hsub₃ hmem hsame
    have hr : r.ok = true ∧ r.status = .authoritativeConfirmed := by
      simp only [r,reconcileCycleAcquisition,readsAt,hused,judgeBinding,hid,if_neg hne]
      rw [if_neg hmatch,hconfirm]
      exact ⟨rfl,rfl⟩
    exact ⟨hr.1,Or.inl hr.2⟩

theorem oneFunded_events : oneFunded.coordinator.events =
    [.acquisitionFunded 1 5 50 80 1 10 20,.acquisitionRecorded 1 50 11 1000 100 80 20] := by
  decide +kernel

/-- A funded cycle against its own events, with time passing between the reads. -/
theorem sample_no_false_alarm :
    let w₂ := Machine.run (exec sample) oneFunded [.elapse 1]
    let w₃ := Machine.run (exec sample) w₂ [.elapse 1]
    (reconcileCycleAcquisition (readsAt oneFunded w₂ w₃) 5
      (some ⟨1,some 1000,some 80,none,some 100⟩)).ok = true := by
  refine (reconcile_no_false_alarm oneFunded_reachable [.elapse 1] [.elapse 1] _ ?_).1
  intro e he
  cases he
  rw [oneFunded_events]
  exact ⟨⟨_,_,_,_,_,List.mem_cons_self⟩,⟨_,_,_,_,_,_,List.mem_cons_of_mem _ List.mem_cons_self,
    by simp,by simp,by simp,by simp⟩⟩

end AcquisitionReconcile
end BpsProtocol
