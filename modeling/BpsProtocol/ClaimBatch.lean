import BpsProtocol.ClaimManagerSafety

/-! A batch of claims is its claims one after another.
Each claim of a batch finds the state that the claims before it left, so the batch succeeds
exactly if they succeed as transactions of their own, and ends where they end.  A claim
marks its asset for the claimant, so no batch claims one asset twice. -/
namespace BpsProtocol
namespace ClaimManager

open Checked Mapping Erc20 MerkleProof

/-- A request of a batch as a transaction of its own. -/
def ClaimRequest.tx (sender : Address) (cycleId : Uint256) (r : ClaimRequest) : Tx :=
  .claim sender cycleId r.asset r.amount r.proof

variable {d : Deployment} {w w' : World} {sender claimant asset : Address} {c : Uint256}
  {requests : List ClaimRequest}

theorem exec_tx (d : Deployment) (w : World) (sender : Address) (c : Uint256) (r : ClaimRequest) :
    exec d w (r.tx sender c) = claimOne d w c sender r.asset r.amount r.proof := rfl

/-- The loop of a batch runs its requests as transactions. -/
theorem claimAll_eq_ok : claimAll d sender c requests w = .ok w' ↔
    Machine.AllSucceed (exec d) w (requests.map (ClaimRequest.tx sender c)) ∧
      Machine.run (exec d) w (requests.map (ClaimRequest.tx sender c)) = w' := by
  induction requests generalizing w with
  | nil => simp [claimAll]
  | cons r rest ih =>
    rw [claimAll,List.map_cons,Machine.run_cons]
    cases hr : claimOne d w c sender r.asset r.amount r.proof with
    | error e =>
      have hfail : ¬Machine.AllSucceed (exec d) w
          (r.tx sender c::rest.map (ClaimRequest.tx sender c)) :=
        Machine.allSucceed_error ((exec_tx d w sender c r).trans hr)
      simp [hfail,bind,Except.bind]
    | ok u =>
      have hx := (exec_tx d w sender c r).trans hr
      rw [ok_bind,ih,Machine.allSucceed_ok hx,Machine.commit_ok hx]

/-- A claim marks its own entry and keeps every mark. -/
theorem Claimed.marks {amount : Uint256} {proof : List Bytes32}
    (h : Claimed d w w' c claimant asset amount proof) (x : Address) :
    w'.manager.claimed c claimant x = true ↔
      x = asset ∨ w.manager.claimed c claimant x = true := by
  rw [h.claimed,set₃_apply]
  by_cases hx : x = asset <;> simp [hx]

/-- No request of a successful loop asks for a claimed asset, and no two for the same. -/
theorem claimAll_distinct (h : claimAll d sender c requests w = .ok w') :
    (requests.map ClaimRequest.asset).Nodup ∧
    ∀ r ∈ requests, w.manager.claimed c sender r.asset = false := by
  induction requests generalizing w with
  | nil => simp
  | cons r rest ih =>
    simp only [claimAll,bind_eq_ok] at h
    obtain ⟨u,hu,hrest⟩ := h
    have hclaimed := claimOne_ok hu
    obtain ⟨hnodup,hfresh⟩ := ih hrest
    -- a later request finds the mark of this one
    have hunmarked : ∀ x ∈ rest, x.asset ≠ r.asset ∧ w.manager.claimed c sender x.asset = false := by
      intro x hx
      have hnot := hfresh x hx
      rw [← Bool.not_eq_true,hclaimed.marks] at hnot
      simpa using hnot
    rw [List.map_cons,List.nodup_cons,List.forall_mem_cons]
    refine ⟨⟨?_,hnodup⟩,hclaimed.unclaimed,fun x hx => (hunmarked x hx).2⟩
    intro hmem
    obtain ⟨x,hx,heq⟩ := List.mem_map.1 hmem
    exact (hunmarked x hx).1 heq

/-- A batch that is not empty succeeds exactly if its claims succeed one after another, and
then ends in the same state; otherwise it changes nothing, so in particular when it names an
asset twice. -/
theorem claimBatch_eq_claims (d : Deployment) (w : World) (sender : Address) (c : Uint256)
    (requests : List ClaimRequest) (hne : requests ≠ []) :
    (∀ w', claimBatch d w sender c requests = .ok w' ↔
      Machine.AllSucceed (exec d) w (requests.map (ClaimRequest.tx sender c)) ∧
        Machine.run (exec d) w (requests.map (ClaimRequest.tx sender c)) = w') ∧
    (¬Machine.AllSucceed (exec d) w (requests.map (ClaimRequest.tx sender c)) →
      Machine.commit (exec d) w (.claimBatch sender c requests) = w) ∧
    (¬(requests.map ClaimRequest.asset).Nodup →
      ¬Machine.AllSucceed (exec d) w (requests.map (ClaimRequest.tx sender c)) ∧
        Machine.commit (exec d) w (.claimBatch sender c requests) = w) := by
  have hlength : ¬requests.length = 0 := fun h0 => hne (List.length_eq_zero_iff.1 h0)
  have hbatch : claimBatch d w sender c requests = claimAll d sender c requests w := by
    rw [claimBatch,revertIf_of_not hlength,ok_bind]
  have hfails : ¬Machine.AllSucceed (exec d) w (requests.map (ClaimRequest.tx sender c)) →
      Machine.commit (exec d) w (.claimBatch sender c requests) = w := by
    intro hnot
    cases hx : exec d w (.claimBatch sender c requests) with
    | error e => exact Machine.commit_error hx
    | ok u =>
      rw [exec,hbatch,claimAll_eq_ok] at hx
      exact absurd hx.1 hnot
  refine ⟨fun w' => hbatch ▸ claimAll_eq_ok,hfails,fun hrepeat => ?_⟩
  have hnot : ¬Machine.AllSucceed (exec d) w (requests.map (ClaimRequest.tx sender c)) :=
    fun hall => hrepeat (claimAll_distinct (claimAll_eq_ok.2 ⟨hall,rfl⟩)).1
  exact ⟨hnot,hfails hnot⟩

/-- One cycle with a leaf for each of two assets. -/
def pairCycle : Publication where
  cycleId := 1
  merkleRoot := commutativeKeccak256 toyHash (leafFor sample 1 1 50 200) (leafFor sample 1 1 51 300)
  allocationsContentHash := 1
  manifestEnvelopeHash := 1
  claimStart := 10
  claimDeadline := 20
  assets := [50,51]
  fundedAmounts := [200,300]

def pairStart : World :=
  Machine.run (exec sample) ⟨0,fun _ => Token.empty,.deployed 9⟩
    [.token 50 (.mint 2 9 200),.token 50 (.approve 9 100 200),.token 51 (.mint 2 9 300),
      .token 51 (.approve 9 100 300),.publishCycle 9 pairCycle,.elapse 10]

def pairRequests : List ClaimRequest :=
  [⟨51,300,[leafFor sample 1 1 50 200]⟩,⟨50,200,[leafFor sample 1 1 51 300]⟩]

theorem pairRequests_batch : (∃ w', claimBatch sample pairStart 1 1 pairRequests = .ok w' ∧
      Machine.AllSucceed (exec sample) pairStart (pairRequests.map (ClaimRequest.tx 1 1)) ∧
      Machine.run (exec sample) pairStart (pairRequests.map (ClaimRequest.tx 1 1)) = w') ∧
    Machine.commit (exec sample) pairStart (.claimBatch 1 1 (pairRequests ++ pairRequests)) =
      pairStart := by
  have hok : (claimBatch sample pairStart 1 1 pairRequests).isOk = true := by decide +kernel
  obtain ⟨w',hw⟩ := exists_eq_ok hok
  have hrepeat : ¬((pairRequests ++ pairRequests).map ClaimRequest.asset).Nodup := by decide
  exact ⟨⟨w',hw,((claimBatch_eq_claims sample pairStart 1 1 pairRequests
      (by simp [pairRequests])).1 w').1 hw⟩,
    ((claimBatch_eq_claims sample pairStart 1 1 (pairRequests ++ pairRequests)
      (by simp [pairRequests])).2.2 hrepeat).2⟩

end ClaimManager
end BpsProtocol
