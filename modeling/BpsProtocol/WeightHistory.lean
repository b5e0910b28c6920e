import BpsProtocol.LockingVaultSolvency

/-! The weight history of the locking vault is append-only.
A transaction stamps what it writes with its own time, so a query strictly before that
time reads what it read before. -/
namespace BpsProtocol
namespace LockingVault

open Mapping

variable {here : Address} {w w' : World} {t : ℕ}

/-- The lock, withdraw and emergency-exit transactions; the others touch no position. -/
def Tx.onPositions : Tx → Bool
  | .createLock _ _ _ => true
  | .withdraw _ _ => true
  | .enableEmergencyExit _ => true
  | _ => false

/-- The timestamps of the successful position transactions of a run, oldest first. -/
def txTimes (here : Address) : World → List Tx → List ℕ
  | _, [] => []
  | w, tx::txs =>
    match exec here w tx with
    | .ok w' => (if tx.onPositions then [w.block.timestamp] else []) ++ txTimes here w' txs
    | .error _ => txTimes here w txs

/-- Equal positions and equal emergency fields have equal weights. -/
theorem positionWeightAt_congr {v v' : Storage} {a : Address} {id : ℕ}
    (hp : v'.positions a id = v.positions a id)
    (he : v'.emergencyExitEnabled = v.emergencyExitEnabled)
    (ht : v'.emergencyExitEnabledAt = v.emergencyExitEnabledAt) :
    positionWeightAt v' a id t = positionWeightAt v a id t := by
  simp only [positionWeightAt,hp,he,ht]

/-- A new position weighs nothing before its block, as the empty slot did. -/
theorem Locked.weight_before {sender : Address} {lockId amount duration : ℕ} (hs : Solvent here w)
    (h : Locked here w w' sender lockId amount duration) (ht : t < w.block.timestamp)
    (a : Address) (id : ℕ) :
    positionWeightAt w'.vault a id t = positionWeightAt w.vault a id t := by
  obtain ⟨m,-,hr⟩ := h.recorded
  by_cases hk : a = sender ∧ id = lockId
  · obtain ⟨rfl,rfl⟩ := hk
    have hfresh : (w.vault.positions a id).exists_ = false := by
      have hx := hs.exists_iff a id
      have hid := h.lockId_eq
      cases he : (w.vault.positions a id).exists_
      · rfl
      · exact absurd (hx.mp he) (by omega)
    rw [positionWeightAt_unset hfresh]
    simp [positionWeightAt,hr.positions,set₂_apply,LockPosition.created,ht]
  · apply positionWeightAt_congr _ hr.emergencyExitEnabled hr.emergencyExitEnabledAt
    rw [hr.positions,set₂_apply,if_neg hk]

/-- A withdrawal takes effect at its own timestamp. -/
theorem Withdrew.weight_before {sender : Address} {lockId : ℕ}
    (h : Withdrew here w w' sender lockId) (ht : t < w.block.timestamp) (a : Address) (id : ℕ) :
    positionWeightAt w'.vault a id t = positionWeightAt w.vault a id t := by
  by_cases hk : a = sender ∧ id = lockId
  · obtain ⟨rfl,rfl⟩ := hk
    simp [positionWeightAt,h.positions,set₂_apply,h.exists_,h.unwithdrawn,
      h.emergencyExitEnabled,h.emergencyExitEnabledAt,Nat.not_le.mpr ht]
  · apply positionWeightAt_congr _ h.emergencyExitEnabled h.emergencyExitEnabledAt
    rw [h.positions,set₂_apply,if_neg hk]

/-- So does the emergency exit. -/
theorem emergency_weight_before {v : Storage} {logs : List Log} {now : ℕ}
    (hd : v.emergencyExitEnabled = false) (ht : t < now) (a : Address) (id : ℕ) :
    positionWeightAt { v with
      emergencyExitEnabled := true, emergencyExitEnabledAt := now, logs := logs } a id t =
    positionWeightAt v a id t := by
  simp [positionWeightAt,hd,Nat.not_le.mpr ht]

/-- One successful transaction leaves the weights before its timestamp alone. -/
theorem exec_weight_before {tx : Tx} (hs : Solvent here w) (h : exec here w tx = .ok w')
    (ht : tx.onPositions = true → t < w.block.timestamp) (a : Address) (id : ℕ) :
    positionWeightAt w'.vault a id t = positionWeightAt w.vault a id t := by
  rcases exec_cases h with ⟨_,-,rfl⟩ | ⟨_,_,_,rfl,hl⟩ | ⟨_,_,rfl,hw⟩ | ⟨_,rfl,hd,rfl⟩ |
    ⟨_,_,_,-,rfl⟩ | ⟨_,_,-,-,-,rfl⟩
  · rfl
  · exact hl.weight_before hs (ht rfl) a id
  · exact hw.weight_before (ht rfl) a id
  · exact emergency_weight_before hd (ht rfl) a id
  · rfl
  · rfl

theorem run_weight_before (hs : Solvent here w) (txs : List Tx)
    (ht : ∀ τ ∈ txTimes here w txs, t < τ) (a : Address) (id : ℕ) :
    positionWeightAt (Machine.run (exec here) w txs).vault a id t =
      positionWeightAt w.vault a id t := by
  induction txs generalizing w with
  | nil => rfl
  | cons tx txs ih =>
    rw [Machine.run_cons]
    unfold txTimes at ht
    cases hx : exec here w tx with
    | error e =>
      simp only [hx] at ht
      rw [Machine.commit_error hx]
      exact ih hs ht
    | ok u =>
      simp only [hx,List.mem_append] at ht
      rw [Machine.commit_ok hx]
      have hstep := exec_weight_before (t := t) hs hx
        (fun hp => ht _ (Or.inl (by simp [hp]))) a id
      exact (ih (exec_solvent hs hx) (fun τ hτ => ht τ (Or.inr hτ))).trans hstep

/-- Later transactions cannot rewrite the weights of an earlier time. -/
theorem positionWeightAt_append_only (h : Reachable here w) (txs : List Tx)
    (ht : ∀ τ ∈ txTimes here w txs, t < τ) (a : Address) (id : ℕ) :
    positionWeightAt (Machine.run (exec here) w txs).vault a id t =
      positionWeightAt w.vault a id t :=
  run_weight_before h.solvent txs ht a id

/-- A week's lock keeps its bonus at its start whatever happens a day later. -/
theorem oneLock_weight_kept :
    positionWeightAt (Machine.run (exec 100) (oneLock 86400)
      [.enableEmergencyExit 9,.withdraw 1 0]).vault 1 0 0 =
    positionWeightAt (oneLock 86400).vault 1 0 0 :=
  positionWeightAt_append_only (oneLock_reachable 86400) _ (by decide) 1 0

end LockingVault
end BpsProtocol
