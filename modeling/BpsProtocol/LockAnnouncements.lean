import BpsProtocol.LockingVaultSolvency

/-! Every position of the locking vault is announced.
Ids are dense, and creating a lock logs its account and id at its block.  No log is removed,
so in every history the log covers the positions of all accounts, from the block of the
deployment to the current one. -/
namespace BpsProtocol
namespace LockingVault

open Checked Mapping Erc20

/-- The vault was deployed in the block of `w₀` and ran to `w`. -/
structure History (here : Address) (w₀ w : World) : Prop where
  initial : Initial here w₀
  runs : Machine.Runs (exec here) w₀ w

/-- `LockCreated` of this account and id. -/
def Event.creates (account : Address) (lockId : ℕ) : Event → Prop
  | .lockCreated a id _ _ _ _ _ _ => a = account ∧ id = lockId
  | _ => False

/-- The log holds a `LockCreated` of each id below the account's count. -/
structure Announced (first : ℕ) (w : World) : Prop where
  first_le : first ≤ w.block.number
  within : ∀ l ∈ w.vault.logs, first ≤ l.blockNumber ∧ l.blockNumber ≤ w.block.number
  created : ∀ a id, id < w.vault.lockCount a → ∃ l ∈ w.vault.logs, l.event.creates a id

variable {here : Address} {w₀ w w' : World} {first : ℕ}

theorem Initial.announced (h : Initial here w) : Announced w.block.number w := by
  obtain ⟨o,ho⟩ := h.storage
  refine ⟨le_rfl,?_,?_⟩
  · simp [ho,Storage.deployed]
  · simp [ho,Storage.deployed]

/-- A transaction that adds at most one log of its block, and no lock, keeps the log complete. -/
theorem Announced.of_logs (hs : Announced first w) (hblock : w'.block = w.block)
    (hcount : w'.vault.lockCount = w.vault.lockCount)
    (hlogs : w'.vault.logs = w.vault.logs ∨
      ∃ event, w'.vault.logs = ⟨w.block.number,event⟩::w.vault.logs) : Announced first w' := by
  have hold : ∀ l ∈ w.vault.logs, l ∈ w'.vault.logs := by
    intro l hl
    rcases hlogs with he | ⟨event,he⟩
    · exact he ▸ hl
    · exact he ▸ List.mem_cons_of_mem _ hl
  refine ⟨hblock ▸ hs.first_le,?_,?_⟩
  · intro l hl
    rw [hblock]
    rcases hlogs with he | ⟨event,he⟩
    · exact hs.within l (he ▸ hl)
    · rw [he,List.mem_cons] at hl
      rcases hl with rfl | hl
      · exact ⟨hs.first_le,le_rfl⟩
      · exact hs.within l hl
  · intro a id hid
    rw [hcount] at hid
    obtain ⟨l,hl,he⟩ := hs.created a id hid
    exact ⟨l,hold l hl,he⟩

theorem Locked.announced {sender : Address} {lockId amount duration : ℕ}
    (hs : Announced first w) (h : Locked here w w' sender lockId amount duration) :
    Announced first w' := by
  obtain ⟨m,-,hr⟩ := h.recorded
  refine ⟨h.block ▸ hs.first_le,?_,?_⟩
  · intro l hl
    rw [h.block]
    rw [hr.logs,List.mem_cons] at hl
    rcases hl with rfl | hl
    · exact ⟨hs.first_le,le_rfl⟩
    · exact hs.within l hl
  · intro a id hid
    rw [hr.lockCount,set_apply] at hid
    rw [hr.logs]
    by_cases hnew : a = sender ∧ id = lockId
    · obtain ⟨rfl,rfl⟩ := hnew
      exact ⟨_,List.mem_cons_self,rfl,rfl⟩
    · have hlt : id < w.vault.lockCount a := by
        have hlockId := h.lockId_eq
        split at hid
        · rename_i ha
          subst ha
          have hne : id ≠ lockId := fun e => hnew ⟨rfl,e⟩
          omega
        · exact hid
      obtain ⟨l,hl,he⟩ := hs.created a id hlt
      exact ⟨l,List.mem_cons_of_mem _ hl,he⟩

theorem exec_announced {tx : Tx} (hs : Announced first w) (h : exec here w tx = .ok w') :
    Announced first w' := by
  rcases exec_cases h with ⟨elapsed,-,rfl⟩ | ⟨_,_,_,-,hl⟩ | ⟨_,_,-,hw⟩ | ⟨_,-,-,rfl⟩ | ⟨_,_,_,-,rfl⟩ |
    ⟨_,_,-,-,-,rfl⟩
  · have hle := hs.first_le
    refine ⟨by dsimp only; omega,fun l hl => ?_,hs.created⟩
    have hwithin := hs.within l hl
    dsimp only
    omega
  · exact hl.announced hs
  · exact hs.of_logs hw.block hw.lockCount (Or.inr ⟨_,hw.logs⟩)
  · exact hs.of_logs rfl rfl (Or.inr ⟨_,rfl⟩)
  · exact hs.of_logs rfl rfl (Or.inl rfl)
  · exact hs.of_logs rfl rfl (Or.inl rfl)

theorem History.announced (h : History here w₀ w) : Announced w₀.block.number w := by
  obtain ⟨txs,rfl⟩ := h.runs
  exact Machine.run_preserves (fun _ _ _ hs hx => exec_announced hs hx) h.initial.announced txs

theorem History.solvent (h : History here w₀ w) : Solvent here w :=
  Reachable.solvent ((Machine.Reachable.of_init h.initial).runs h.runs)

/-- The weight of a position at a time, where the vault can answer it. -/
def weightAt (v : Storage) (account : Address) (lockId timestamp : ℕ) : ℕ :=
  (positionWeightAt v account lockId timestamp).toOption.getD 0

/-- The weight of all positions of an account. -/
def accountWeightAt (v : Storage) (account : Address) (timestamp : ℕ) : ℕ :=
  ∑ id ∈ Finset.range (v.lockCount account), weightAt v account id timestamp

/-- An account of nonzero weight has a lock, which the log announces. -/
theorem Announced.of_weight {a : Address} {timestamp : ℕ} (hs : Announced first w)
    (h : accountWeightAt w.vault a timestamp ≠ 0) :
    ∃ id, ∃ l ∈ w.vault.logs, l.event.creates a id := by
  have hpos : 0 < w.vault.lockCount a := by
    apply Nat.pos_of_ne_zero
    intro hzero
    simp [accountWeightAt,hzero] at h
  exact ⟨0,hs.created a 0 hpos⟩

end LockingVault
end BpsProtocol
