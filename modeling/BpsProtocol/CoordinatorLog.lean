import BpsProtocol.CoordinatorConservation

/-! The coordinator's event log and its records.
Every record is announced once it is recorded and once it is funded, and the log only
grows, so what it says of a record stays true. -/
namespace BpsProtocol
namespace Coordinator

open Checked Mapping Erc20

/-- The WETH that an event reports as spent. -/
def Event.wethSpent : Event → ℕ
  | .acquisitionRecorded _ _ _ wethSpent _ _ _ => wethSpent
  | .acquisitionFunded _ _ _ _ _ _ _ => 0

/-- A record holds the amounts of an `AcquisitionRecorded` event. -/
structure AcquisitionRecord.Announced (r : AcquisitionRecord) (stockToken : Address)
    (wethSpent acquiredStock distributionAmount reserveAmount : ℕ) : Prop where
  recorded : r.status ≠ .none
  stockToken : r.stockToken = stockToken
  wethSpent : r.wethSpent = wethSpent
  acquiredStock : r.acquiredStock = acquiredStock
  distributionAmount : r.distributionAmount = distributionAmount
  reserveAmount : r.reserveAmount = reserveAmount

/-- A record is the one that an `AcquisitionFunded` event announced. -/
structure AcquisitionRecord.Funded (r : AcquisitionRecord) (cycleId : Uint256)
    (stockToken : Address) (amount : ℕ) : Prop where
  status : r.status = .funded
  cycleId : r.cycleId = cycleId
  stockToken : r.stockToken = stockToken
  amount : r.distributionAmount = amount

/-- The log and the records agree. -/
structure Logged (w : World) : Prop where
  recorded : ∀ id token operator spent acquired distribution reserve,
    .acquisitionRecorded id token operator spent acquired distribution reserve ∈
      w.coordinator.events →
    (w.coordinator.acquisitions id).Announced token spent acquired distribution reserve
  funded : ∀ id c token amount root start deadline,
    .acquisitionFunded id c token amount root start deadline ∈ w.coordinator.events →
    (w.coordinator.acquisitions id).Funded c token amount
  recorded_announced : ∀ id, (w.coordinator.acquisitions id).status ≠ .none →
    ∃ token operator spent acquired distribution reserve,
      .acquisitionRecorded id token operator spent acquired distribution reserve ∈
        w.coordinator.events
  funded_announced : ∀ id, (w.coordinator.acquisitions id).status = .funded →
    ∃ c token amount root start deadline,
      .acquisitionFunded id c token amount root start deadline ∈ w.coordinator.events
  acquired_pos : ∀ id, (w.coordinator.acquisitions id).status ≠ .none →
    0 < (w.coordinator.acquisitions id).acquiredStock
  spent : (w.coordinator.events.map Event.wethSpent).sum = w.stock.totalWethSpent

variable {s : System} {w w' : World} {sender stockToken : Address}
  {wethAmountIn minStockOut deadline acquisitionId : ℕ}

theorem deriveRecord_counts {b a : Counters} {record : AcquisitionRecord}
    (h : deriveRecord stockToken wethAmountIn b a = .ok record) :
    b.wethSpent+record.wethSpent = a.wethSpent ∧ 0 < record.acquiredStock := by
  simp only [deriveRecord,bind_eq_ok,revertIf_eq_ok,sub_eq_ok,mulDiv_eq_ok,exists_const,
    pure_eq_ok] at h
  obtain ⟨_,⟨hweth,rfl⟩,_,⟨-,rfl⟩,_,⟨-,rfl⟩,_,⟨-,rfl⟩,-,hzero,_,⟨-,rfl⟩,-,_,⟨-,rfl⟩,-,_,-,-,rfl⟩ := h
  exact ⟨Nat.add_sub_cancel' hweth,Nat.pos_of_ne_zero hzero⟩

/-- The record and the event that a successful acquisition added. -/
structure Entered (w w' : World) (operator : Address) (record : AcquisitionRecord) : Prop where
  status : record.status = .recorded
  acquired_pos : 0 < record.acquiredStock
  acquisitions : w'.coordinator.acquisitions =
    set w.coordinator.acquisitions (w.coordinator.acquisitionCount+1) record
  events : w'.coordinator.events =
    .acquisitionRecorded (w.coordinator.acquisitionCount+1) record.stockToken operator
      record.wethSpent record.acquiredStock record.distributionAmount record.reserveAmount::
    w.coordinator.events
  totalWethSpent : w'.stock.totalWethSpent = w.stock.totalWethSpent+record.wethSpent

theorem executeAndRecordAcquisition_entered {acquireStock : StockVault.Adapter ClaimManager.Storage}
    (h : executeAndRecordAcquisition s acquireStock w sender stockToken wethAmountIn minStockOut
      deadline = .ok (acquisitionId,w')) : ∃ record, Entered w w' sender record := by
  simp only [executeAndRecordAcquisition,bind_eq_ok,revertIf_eq_ok,mapError_eq_ok,add_eq_ok,
    exists_const,pure_eq_ok] at h
  obtain ⟨-,-,-,-,-,⟨acquired,u⟩,-,record,hrecord,_,⟨-,rfl⟩,he⟩ := h
  obtain ⟨-,rfl⟩ := Prod.mk.inj he
  obtain ⟨hstatus,htoken,-⟩ := deriveRecord_ok hrecord
  obtain ⟨hspent,hpos⟩ := deriveRecord_counts hrecord
  refine ⟨record,hstatus,hpos,rfl,?_,hspent.symm⟩
  rw [htoken]

/-- What a successful funding did to the books, and the event that it added. -/
structure FundingLogged (w w' : World) (acquisitionId : ℕ) (p : PublishInputs) : Prop where
  funded : FundedRecord w w' acquisitionId p.cycleId (w.coordinator.acquisitions acquisitionId)
  events : w'.coordinator.events = .acquisitionFunded acquisitionId p.cycleId
      (w.coordinator.acquisitions acquisitionId).stockToken
      (w.coordinator.acquisitions acquisitionId).distributionAmount p.merkleRoot p.claimStart
      p.claimDeadline::w.coordinator.events
  totalWethSpent : w'.stock.totalWethSpent = w.stock.totalWethSpent

theorem fundRecordedAcquisition_logged {p : PublishInputs}
    (h : fundRecordedAcquisition s w sender acquisitionId p = .ok w') :
    FundingLogged w w' acquisitionId p := by
  have hfunded := fundRecordedAcquisition_ok h
  simp only [fundRecordedAcquisition,releaseAndFund,bind_eq_ok,revertIf_eq_ok,exists_const,
    pure_eq_ok] at h
  obtain ⟨-,-,-,w₁,hrelease,w₂,hpublish,rfl⟩ := h
  obtain ⟨u,hu,rfl⟩ := releaseExact_ok hrelease
  obtain ⟨-,hstock,hcoordinator⟩ := publishExact_ok hpublish
  refine ⟨hfunded,?_,?_⟩
  · simp [hcoordinator,World.afterVault,Storage.bindCycle]
  · show w₂.stock.totalWethSpent = _
    rw [hstock]
    exact hu.totalWethSpent

/-- What a successful transaction did to the books and to the log. -/
theorem exec_cases {tx : Tx} (howner : w.manager.ownership = ⟨s.coordinator.here,0⟩)
    (h : exec s w tx = .ok w') :
    (SameFunding w.manager w'.manager ∧ w'.stock = w.stock ∧ w'.coordinator = w.coordinator) ∨
    (∃ operator record, SameFunding w.manager w'.manager ∧ Entered w w' operator record) ∨
    ∃ acquisitionId p, FundingLogged w w' acquisitionId p := by
  cases exec_executed h with
  | elapse seconds => exact Or.inl ⟨.refl _,rfl,rfl⟩
  | @acquired _ _ sender _ _ _ _ _ hu =>
    obtain ⟨record,he⟩ := executeAndRecordAcquisition_entered hu
    exact Or.inr (Or.inl ⟨sender,record,(executeAndRecordAcquisition_ok howner hu).manager,he⟩)
  | funded hu => exact Or.inr (Or.inr ⟨_,_,fundRecordedAcquisition_logged hu⟩)
  | foreign hu => exact Or.inl ⟨foreign_sameFunding howner hu,rfl,rfl⟩

theorem Initial.logged (h : Initial s w) : Logged w := by
  refine ⟨?_,?_,?_,?_,?_,?_⟩ <;>
    simp [h.coordinator,h.stock,Storage.deployed,StockVault.Storage.deployed,
      AcquisitionRecord.unset]

/-- A new record is under an id that no record had before. -/
theorem Entered.kept {record : AcquisitionRecord} (hc : Conserved s w)
    (h : Entered w w' sender record) {id : ℕ} (hid : (w.coordinator.acquisitions id).status ≠ .none) :
    w'.coordinator.acquisitions id = w.coordinator.acquisitions id := by
  have hle := (hc.recorded id).mp hid
  rw [h.acquisitions,set_other _ (by omega)]

theorem Entered.logged {record : AcquisitionRecord} (hc : Conserved s w) (hl : Logged w)
    (h : Entered w w' sender record) : Logged w' := by
  have hkeep : ∀ id, (w.coordinator.acquisitions id).status ≠ .none →
      w'.coordinator.acquisitions id = w.coordinator.acquisitions id := fun _ hid => h.kept hc hid
  have hnew : w'.coordinator.acquisitions (w.coordinator.acquisitionCount+1) = record := by
    rw [h.acquisitions,set_same]
  have hcases : ∀ id, (w'.coordinator.acquisitions id).status ≠ .none →
      id = w.coordinator.acquisitionCount+1 ∨ (w.coordinator.acquisitions id).status ≠ .none := by
    intro id hid
    by_cases he : id = w.coordinator.acquisitionCount+1
    · exact Or.inl he
    · rw [h.acquisitions,set_other _ he] at hid
      exact Or.inr hid
  constructor
  · intro id token operator spent acquired distribution reserve hmem
    rw [h.events,List.mem_cons] at hmem
    rcases hmem with he | hold
    · cases he
      rw [hnew]
      exact ⟨by simp [h.status],rfl,rfl,rfl,rfl,rfl⟩
    · have ha := hl.recorded _ _ _ _ _ _ _ hold
      rw [hkeep id ha.recorded]
      exact ha
  · intro id c token amount root start deadline hmem
    rw [h.events,List.mem_cons] at hmem
    rcases hmem with he | hold
    · cases he
    · have hf := hl.funded _ _ _ _ _ _ _ hold
      rw [hkeep id (by simp [hf.status])]
      exact hf
  · intro id hid
    rw [h.events]
    rcases hcases id hid with rfl | hold
    · exact ⟨_,_,_,_,_,_,List.mem_cons_self⟩
    · obtain ⟨_,_,_,_,_,_,hmem⟩ := hl.recorded_announced id hold
      exact ⟨_,_,_,_,_,_,List.mem_cons_of_mem _ hmem⟩
  · intro id hid
    rw [h.events]
    rcases hcases id (by simp [hid]) with rfl | hold
    · rw [hnew,h.status] at hid
      cases hid
    · rw [hkeep id hold] at hid
      obtain ⟨_,_,_,_,_,_,hmem⟩ := hl.funded_announced id hid
      exact ⟨_,_,_,_,_,_,List.mem_cons_of_mem _ hmem⟩
  · intro id hid
    rcases hcases id hid with rfl | hold
    · rw [hnew]
      exact h.acquired_pos
    · rw [hkeep id hold]
      exact hl.acquired_pos id hold
  · rw [h.events,List.map_cons,List.sum_cons,hl.spent,h.totalWethSpent,Nat.add_comm]
    rfl

/-- Funding changes the state and the cycle of one record, and announces both. -/
theorem FundingLogged.logged {p : PublishInputs} (hl : Logged w)
    (hf : FundingLogged w w' acquisitionId p) : Logged w' := by
  obtain ⟨h,hlog,hspent⟩ := hf
  have hnew := congrFun h.acquisitions acquisitionId
  rw [set_same] at hnew
  have hother : ∀ id, id ≠ acquisitionId →
      w'.coordinator.acquisitions id = w.coordinator.acquisitions id := by
    intro id hid
    rw [h.acquisitions,set_other _ hid]
  have hstatus : (w.coordinator.acquisitions acquisitionId).status ≠ .none := by simp [h.status]
  have hcases : ∀ id, (w'.coordinator.acquisitions id).status ≠ .none →
      (w.coordinator.acquisitions id).status ≠ .none := by
    intro id hid
    by_cases he : id = acquisitionId
    · rw [he]
      exact hstatus
    · rwa [hother id he] at hid
  constructor
  · intro id token operator spent acquired distribution reserve hmem
    rw [hlog,List.mem_cons] at hmem
    rcases hmem with he | hold
    · cases he
    · have ha := hl.recorded _ _ _ _ _ _ _ hold
      by_cases he : id = acquisitionId
      · subst he
        rw [hnew]
        exact ⟨by simp,ha.stockToken,ha.wethSpent,ha.acquiredStock,ha.distributionAmount,
          ha.reserveAmount⟩
      · rw [hother id he]
        exact ha
  · intro id c token amount root start deadline hmem
    rw [hlog,List.mem_cons] at hmem
    rcases hmem with he | hold
    · cases he
      rw [hnew]
      exact ⟨rfl,rfl,rfl,rfl⟩
    · have hf := hl.funded _ _ _ _ _ _ _ hold
      have hne : id ≠ acquisitionId := by
        rintro rfl
        have := h.status
        simp [hf.status] at this
      rw [hother id hne]
      exact hf
  · intro id hid
    rw [hlog]
    obtain ⟨_,_,_,_,_,_,hmem⟩ := hl.recorded_announced id (hcases id hid)
    exact ⟨_,_,_,_,_,_,List.mem_cons_of_mem _ hmem⟩
  · intro id hid
    rw [hlog]
    by_cases he : id = acquisitionId
    · subst he
      exact ⟨_,_,_,_,_,_,List.mem_cons_self⟩
    · rw [hother id he] at hid
      obtain ⟨_,_,_,_,_,_,hmem⟩ := hl.funded_announced id hid
      exact ⟨_,_,_,_,_,_,List.mem_cons_of_mem _ hmem⟩
  · intro id hid
    have hpos := hl.acquired_pos id (hcases id hid)
    by_cases he : id = acquisitionId
    · subst he
      rw [hnew]
      exact hpos
    · rw [hother id he]
      exact hpos
  · rw [hlog,hspent,List.map_cons,List.sum_cons,hl.spent]
    exact Nat.zero_add _

theorem Logged.of_eq (hl : Logged w) (hc : w'.coordinator = w.coordinator)
    (hs : w'.stock = w.stock) : Logged w' := by
  refine ⟨?_,?_,?_,?_,?_,?_⟩ <;> rw [hc]
  · exact hl.recorded
  · exact hl.funded
  · exact hl.recorded_announced
  · exact hl.funded_announced
  · exact hl.acquired_pos
  · rw [hs]
    exact hl.spent

/-- One transaction keeps the log true, and only adds to it. -/
theorem exec_logged {tx : Tx} (hc : Conserved s w) (hl : Logged w) (h : exec s w tx = .ok w') :
    Logged w' ∧ w.coordinator.events <:+ w'.coordinator.events := by
  rcases exec_cases hc.ownership h with ⟨-,hstock,hsame⟩ | ⟨_,_,-,he⟩ | ⟨_,_,hf⟩
  · refine ⟨hl.of_eq hsame hstock,?_⟩
    rw [hsame]
  · refine ⟨he.logged hc hl,?_⟩
    rw [he.events]
    exact List.suffix_cons _ _
  · refine ⟨hf.logged hl,?_⟩
    rw [hf.events]
    exact List.suffix_cons _ _

theorem Reachable.logged (h : Reachable s w) : Logged w :=
  (Machine.Reachable.invariant (I := fun u => Conserved s u ∧ Logged u)
    (fun _ hi => ⟨hi.conserved,hi.logged⟩)
    (fun _ _ _ hs hx => ⟨exec_conserved hs.1 hx,(exec_logged hs.1 hs.2 hx).1⟩) h).2

theorem Reachable.events_suffix (h : Reachable s w) (txs : List Tx) :
    w.coordinator.events <:+ (Machine.run (exec s) w txs).coordinator.events :=
  Machine.run_related (I := fun u => Conserved s u ∧ Logged u)
    (R := fun u v => u.coordinator.events <:+ v.coordinator.events)
    (fun _ => List.suffix_rfl) (fun _ _ _ h h' => h.trans h')
    (fun _ _ _ hs hx =>
      ⟨⟨exec_conserved hs.1 hx,(exec_logged hs.1 hs.2 hx).1⟩,(exec_logged hs.1 hs.2 hx).2⟩)
    ⟨h.conserved,h.logged⟩ txs

/-- What the manager was funded with comes from a funded record. -/
def Sourced (w : World) : Prop :=
  ∀ c token, (w.manager.assetFunding c token).funded ≠ 0 →
    ∃ id, (w.coordinator.acquisitions id).Funded c token (w.manager.assetFunding c token).funded

theorem Sourced.kept (hs : Sourced w) (hm : SameFunding w.manager w'.manager)
    (hkeep : ∀ id, (w.coordinator.acquisitions id).status = .funded →
      w'.coordinator.acquisitions id = w.coordinator.acquisitions id) : Sourced w' := by
  intro c token hne
  rw [hm.funded] at hne ⊢
  obtain ⟨id,hid⟩ := hs c token hne
  refine ⟨id,?_⟩
  rw [hkeep id hid.status]
  exact hid

theorem FundingLogged.sourced {p : PublishInputs} (hs : Sourced w)
    (hf : FundingLogged w w' acquisitionId p) : Sourced w' := by
  have h := hf.funded
  obtain ⟨f,hamount,hfunding⟩ := h.manager.assetFunding
  intro c token hne
  rw [hfunding,set₂_apply] at hne ⊢
  by_cases hk : c = p.cycleId ∧ token = (w.coordinator.acquisitions acquisitionId).stockToken
  · refine ⟨acquisitionId,?_⟩
    rw [if_pos hk,h.acquisitions,set_same]
    exact ⟨rfl,hk.1.symm,hk.2.symm,hamount.symm⟩
  · rw [if_neg hk] at hne ⊢
    obtain ⟨id,hid⟩ := hs c token hne
    have hother : id ≠ acquisitionId := by
      rintro rfl
      have := h.status
      simp [hid.status] at this
    refine ⟨id,?_⟩
    rw [h.acquisitions,set_other _ hother]
    exact hid

theorem exec_sourced {tx : Tx} (hc : Conserved s w) (hs : Sourced w) (h : exec s w tx = .ok w') :
    Sourced w' := by
  rcases exec_cases hc.ownership h with ⟨hm,-,hsame⟩ | ⟨_,_,hm,he⟩ | ⟨_,_,hf⟩
  · exact hs.kept hm fun id _ => by rw [hsame]
  · exact hs.kept hm fun id hid => he.kept hc (by simp [hid])
  · exact hf.sourced hs

theorem Reachable.sourced (h : Reachable s w) : Sourced w := by
  refine (Machine.Reachable.invariant (I := fun u => Conserved s u ∧ Sourced u)
    (fun u hi => ⟨hi.conserved,fun c token hne => ?_⟩)
    (fun _ _ _ hs hx => ⟨exec_conserved hs.1 hx,exec_sourced hs.1 hs.2 hx⟩) h).2
  rw [hi.manager] at hne
  exact absurd rfl hne

/-- The cycle of an `AcquisitionFunded` event is bound to its acquisition. -/
theorem Reachable.bound_of_funded (h : Reachable s w) {id amount start deadline : ℕ} {c : Uint256}
    {token : Address} {root : Bytes32}
    (hmem : .acquisitionFunded id c token amount root start deadline ∈ w.coordinator.events) :
    w.coordinator.cycleUsed c = true ∧ w.coordinator.cycleAcquisitionId c = id ∧ id ≠ 0 := by
  have hf := h.logged.funded _ _ _ _ _ _ _ hmem
  obtain ⟨hused,hid⟩ := h.conserved.unique id hf.status
  rw [hf.cycleId] at hused hid
  have hone := (h.conserved.recorded id).mp (by simp [hf.status])
  exact ⟨hused,hid,by omega⟩

/-- A used cycle has been announced with the acquisition it is bound to. -/
theorem Reachable.announced_of_used (h : Reachable s w) {c : Uint256}
    (hused : w.coordinator.cycleUsed c = true) : ∃ token amount root start deadline,
    .acquisitionFunded (w.coordinator.cycleAcquisitionId c) c token amount root start deadline ∈
      w.coordinator.events := by
  obtain ⟨hstatus,hcycle⟩ := h.conserved.bound c hused
  obtain ⟨x,_,_,_,_,_,hmem⟩ := h.logged.funded_announced _ hstatus
  have hx := (h.logged.funded _ _ _ _ _ _ _ hmem).cycleId
  rw [hcycle] at hx
  subst hx
  exact ⟨_,_,_,_,_,hmem⟩

end Coordinator
end BpsProtocol
