import BpsProtocol.CoordinatorConservation

/-! The wired system as the claim manager sees it.
Each transaction of the system is a run of the manager: calls on tokens, calls of accounts
outside the system, and the publications of the coordinator that owns it. -/
namespace BpsProtocol
namespace Coordinator

open Checked Mapping Erc20

variable {s : System} {w w' : World} {u u' : ClaimManager.World} {tokens tokens' : Ledger}
  {sender asset target stockToken : Address} {value amount acquisitionId : ℕ}

abbrev ManagerRuns (s : System) : ClaimManager.World → ClaimManager.World → Prop :=
  Machine.Runs (ClaimManager.exec s.manager)

theorem System.coordinator_ne_manager (s : System) : s.coordinator.here ≠ s.manager.here := by
  have h := s.coordinator.manager_deployed
  rw [s.manager_here] at h
  exact h.symm

theorem System.vault_ne_manager (s : System) : s.vault.here ≠ s.manager.here := by
  have h := s.coordinator.vault_distinct
  rw [s.vault_here,s.manager_here] at h
  intro he
  simp [he] at h

/-- A token call of the others is a transaction of the manager. -/
theorem exec_token (call : Erc20.Call) (hsender : call.sender ≠ s.manager.here)
    (h : u.tokens.call asset call = .ok tokens) :
    ClaimManager.exec s.manager u (.token asset call) = .ok { u with tokens } := by
  simp [ClaimManager.exec,revertIf,hsender,h,Except.mapError,bind,Except.bind,pure,Except.pure]

theorem managerRuns_transfer (hsender : sender ≠ s.manager.here)
    (h : u.tokens.transfer asset sender target value = .ok tokens) :
    ManagerRuns s u { u with tokens } :=
  .of_exec _ (exec_token (.transfer sender target value) hsender h)

theorem managerRuns_approve (hsender : sender ≠ s.manager.here)
    (h : u.tokens.approve asset sender target value = .ok tokens) :
    ManagerRuns s u { u with tokens } :=
  .of_exec _ (exec_token (.approve sender target value) hsender h)

theorem managerRuns_transferPositive (hsender : sender ≠ s.manager.here)
    (h : u.tokens.transferPositive asset sender target value = .ok tokens) :
    ManagerRuns s u { u with tokens } := by
  rcases Ledger.transferPositive_ok h with ⟨-,hpaid⟩ | ⟨-,rfl⟩
  · exact managerRuns_transfer hsender hpaid
  · exact .refl _

/-- A call from outside the system takes no time. -/
theorem foreign_ok {tx : ClaimManager.Tx} (h : foreign s u tx = .ok u') :
    ClaimManager.exec s.manager u tx = .ok u' ∧ u'.timestamp = u.timestamp := by
  unfold foreign at h
  split at h
  · cases h
  rename_i sender hsender
  simp only [bind_eq_ok,revertIf_eq_ok,exists_const] at h
  obtain ⟨-,h⟩ := h
  refine ⟨h,?_⟩
  rcases ClaimManager.exec_cases h with ⟨_,rfl,-⟩ | ⟨_,p,-,hp⟩ | ⟨_,_,_,_,_,-,hc⟩ | ⟨_,_,_,-,hb⟩ |
    ⟨_,_,_,-,hr⟩ | ⟨_,_,_,-,-,rfl⟩ | ⟨_,_,_,-,-,-,rfl⟩
  · cases hsender
  · exact hp.timestamp
  · exact hc.timestamp
  · exact ClaimManager.claimAll_preserves (I := fun v => v.timestamp = u.timestamp)
      (fun _ _ _ _ _ hv hc => hc.timestamp.trans hv) rfl hb
  · exact hr.timestamp
  · rfl
  · rfl

/-- What the adapter does is a run of the manager at the time of the call. -/
theorem acquireStock_runs {b : Behaviour} {wethAmountIn minStockOut deadline reported : ℕ}
    {m : ClaimManager.Storage}
    (h : b.acquireStock s u.timestamp stockToken wethAmountIn minStockOut deadline
      (u.tokens,u.manager) = some (reported,(tokens,m))) :
    ManagerRuns s u ⟨u.timestamp,tokens,m⟩ := by
  simp only [Behaviour.acquireStock,Option.map_eq_some_iff,Prod.mk.injEq] at h
  obtain ⟨_,-,-,rfl,rfl⟩ := h
  have htime : (Machine.run (foreign s) u b.calls).timestamp = u.timestamp :=
    Machine.run_preserves (I := fun v => v.timestamp = u.timestamp)
      (fun _ _ _ hv hx => (foreign_ok hx).2.trans hv) rfl b.calls
  have hruns : ManagerRuns s u (Machine.run (foreign s) u b.calls) :=
    Machine.run_simulated (I := fun _ => True) id
      (fun _ _ _ _ hx => ⟨trivial,.of_exec _ (foreign_ok hx).1⟩) trivial b.calls
  have hview : Machine.run (foreign s) u b.calls =
      ⟨u.timestamp,(Machine.run (foreign s) u b.calls).tokens,
        (Machine.run (foreign s) u b.calls).manager⟩ := by
    rw [← htime]
  rw [hview] at hruns
  exact hruns

/-- An acquisition is the approvals of the vault around the run of the adapter, and the
delivery of the reserve. -/
theorem executeAcquisition_runs {b : Behaviour} {wethAmountIn minStockOut deadline acquired : ℕ}
    {v : StockVault.World ClaimManager.Storage}
    (h : StockVault.executeAcquisition s.vault (b.acquireStock s w.timestamp) w.atVault sender
      stockToken wethAmountIn minStockOut deadline = .ok (acquired,v)) :
    ManagerRuns s w.atManager (w.afterVault v).atManager := by
  obtain ⟨delivered,hc,hreserve⟩ := (StockVault.executeAcquisition_ok h).converted
  obtain ⟨approved,called,happrove,hcall,hclear⟩ := hc.called
  have happroved := managerRuns_approve (u := w.atManager) s.vault_ne_manager happrove
  have hcalled := acquireStock_runs (u := { w.atManager with tokens := approved }) hcall
  have hcleared := managerRuns_approve (u := ⟨w.timestamp,called,v.others⟩) s.vault_ne_manager hclear
  have hdelivered := managerRuns_transferPositive (u := ⟨w.timestamp,delivered,v.others⟩)
    s.vault_ne_manager hreserve
  exact ((happroved.trans hcalled).trans hcleared).trans hdelivered

/-- A release is one transfer of the vault. -/
theorem released_runs {v : StockVault.World ClaimManager.Storage}
    (h : StockVault.Released s.vault w.atVault v sender stockToken amount) :
    ManagerRuns s w.atManager ⟨w.timestamp,v.tokens,v.others⟩ := by
  have hothers : v.others = w.manager := h.others
  rw [hothers]
  exact managerRuns_transfer (u := w.atManager) s.vault_ne_manager h.paid

/-- A funding releases the recorded amount, publishes a cycle of exactly that amount, and
clears the approval. -/
theorem fundRecordedAcquisition_runs {inputs : PublishInputs}
    (h : fundRecordedAcquisition s w sender acquisitionId inputs = .ok w') :
    ∃ u u', ManagerRuns s w.atManager u ∧
      ClaimManager.publishCycle s.manager u s.coordinator.here (inputs.publication
        (w.coordinator.acquisitions acquisitionId).stockToken
        (w.coordinator.acquisitions acquisitionId).distributionAmount) = .ok u' ∧
      ClaimManager.exec s.manager u' (.token (w.coordinator.acquisitions acquisitionId).stockToken
        (.approve s.coordinator.here s.manager.here 0)) = .ok w'.atManager := by
  simp only [fundRecordedAcquisition,releaseAndFund,publishExact,bind_eq_ok,revertIf_eq_ok,
    mapError_eq_ok,sub_eq_ok,exists_const,pure_eq_ok] at h
  obtain ⟨-,-,-,w₁,hrelease,w₂,⟨l,happrove,u',hpublish,l',hclear,-,_,-,-,-,rfl⟩,rfl⟩ := h
  obtain ⟨v,hr,rfl⟩ := releaseExact_ok hrelease
  have hreleased := released_runs (w := w) hr
  have happroved := managerRuns_approve (u := ⟨w.timestamp,v.tokens,v.others⟩)
    s.coordinator_ne_manager happrove
  have hcleared := exec_token (u := u')
    (.approve s.coordinator.here s.manager.here 0) s.coordinator_ne_manager hclear
  have htime : u'.timestamp = w.timestamp := (ClaimManager.publishCycle_ok hpublish).timestamp
  refine ⟨_,u',hreleased.trans happroved,hpublish,?_⟩
  rw [htime] at hcleared
  exact hcleared

/-- Each transaction of the system is a run of the manager. -/
theorem exec_runs {tx : Tx} (h : exec s w tx = .ok w') : ManagerRuns s w.atManager w'.atManager := by
  cases tx with
  | elapse seconds =>
    cases h
    exact .of_exec (.elapse seconds) rfl
  | executeAndRecordAcquisition sender stockToken wethAmountIn minStockOut deadline adapter =>
    simp only [exec,executeAndRecordAcquisition,bind_eq_ok,revertIf_eq_ok,mapError_eq_ok,add_eq_ok,
      exists_const,pure_eq_ok] at h
    obtain ⟨_,⟨-,-,-,-,-,⟨acquired,v⟩,hv,record,-,_,-,rfl⟩,rfl⟩ := h
    exact executeAcquisition_runs hv
  | fundRecordedAcquisition sender acquisitionId inputs =>
    obtain ⟨u,u',hbefore,hpublish,hafter⟩ := fundRecordedAcquisition_runs h
    exact (hbefore.trans (.of_exec (.publishCycle _ _) hpublish)).trans (.of_exec _ hafter)
  | foreign tx =>
    simp only [exec,bind_eq_ok,mapError_eq_ok,pure_eq_ok] at h
    obtain ⟨u,hu,rfl⟩ := h
    obtain ⟨hx,htime⟩ := foreign_ok hu
    have hview : u = (w.afterManager u).atManager := by
      cases u
      cases htime
      rfl
    rw [← hview]
    exact .of_exec _ hx
  | executeAcquisition sender stockToken wethAmountIn minStockOut deadline adapter =>
    simp only [exec,bind_eq_ok,revertIf_eq_ok,mapError_eq_ok,exists_const,pure_eq_ok] at h
    obtain ⟨-,⟨acquired,v⟩,hv,rfl⟩ := h
    exact executeAcquisition_runs hv
  | releaseToDistributionCoordinator sender stockToken amount =>
    simp only [exec,bind_eq_ok,revertIf_eq_ok,mapError_eq_ok,exists_const,pure_eq_ok] at h
    obtain ⟨-,v,hv,rfl⟩ := h
    exact released_runs (StockVault.releaseToDistributionCoordinator_ok hv)

theorem Initial.manager_initial (h : Initial s w) : ClaimManager.Initial s.manager w.atManager :=
  ⟨h.manager_ne_zero,h.recoveryRecipient_ne_zero,⟨_,h.manager⟩,h.closed _ (by simp),h.unspent⟩

/-- The wired system refines the claim manager on its own. -/
theorem Reachable.manager (h : Reachable s w) : ClaimManager.Reachable s.manager w.atManager := by
  obtain ⟨w₀,txs,hinit,rfl⟩ := h
  exact (Machine.Reachable.of_init hinit.manager_initial).runs (Machine.run_simulated
    (I := fun _ => True) World.atManager (fun _ _ _ _ hx => ⟨trivial,exec_runs hx⟩) trivial txs)

end Coordinator
end BpsProtocol
