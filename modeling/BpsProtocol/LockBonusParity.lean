import BpsProtocol.LockingVaultSolvency
import BpsProtocol.TwabDefinition

/-! The lock bonus on chain and in the time-weighted balances.
A position of the vault is a lock record of the same tier, times and withdrawal.  Both sides
count the bonus over the same seconds, except that the vault also ends it when the emergency
exit is enabled, of which a lock record knows nothing. -/
namespace BpsProtocol
namespace LockingVault

open Checked Mapping Shared HexText CycleFixture Twab

/-- The multiplier that `positionWeightAt` applies, or none where the weight is zero. -/
def multiplierAt (v : Storage) (account : Address) (lockId timestamp : ℕ) : Option ℕ :=
  let p := v.positions account lockId
  if p.exists_ = false then none
  else if timestamp < p.startTime then none
  else if p.withdrawn = true ∧ p.withdrawnAt ≤ timestamp then none
  else if timestamp < p.unlockTime ∧
      ¬(v.emergencyExitEnabled = true ∧ v.emergencyExitEnabledAt ≤ timestamp) then
    some p.multiplierBps
  else some multiplierUnlockedBps

theorem positionWeightAt_eq (v : Storage) (account : Address) (lockId timestamp : ℕ) :
    positionWeightAt v account lockId timestamp =
      (multiplierAt v account lockId timestamp).elim (.ok 0) (fun multiplierBps =>
        mulDiv .panic (v.positions account lockId).principal multiplierBps bpsDenominator) := by
  simp only [positionWeightAt,multiplierAt]
  split_ifs <;> rfl

/-- The tier that has a duration. -/
def durationTier (duration : ℕ) : Option LockTier :=
  SUPPORTED_LOCK_TIERS.find? (fun tier => (TIER_SPECS tier).durationSeconds = duration)

/-- A position as a row of a fixture. -/
def rawLock (account : Address) (p : LockPosition) (tier : LockTier) : RawLockRecord where
  wallet := addressText account
  rawPrincipal := toString10 p.principal
  tier := tier.text
  startTimestamp := toString10 p.startTime
  unlockTimestamp := toString10 p.unlockTime
  withdrawalTimestamp := if p.withdrawn then some (toString10 p.withdrawnAt) else none

/-- A position as a lock record, field by field. -/
def lockRecord (account : Address) (p : LockPosition) (tier : LockTier) : LockRecord where
  wallet := addressText account
  rawPrincipal := p.principal
  tier := tier
  startTimestamp := p.startTime
  unlockTimestamp := p.unlockTime
  withdrawalTimestamp := if p.withdrawn then some (p.withdrawnAt : ℤ) else none

/-! ## Positions of reachable states -/

/-- A position follows the policy: one of the four tiers, its unlock a full duration after
its start, a withdrawal not before its start. -/
structure Policed (now : ℕ) (p : LockPosition) : Prop where
  tier : ∃ tier, durationTier p.duration = some tier ∧
    (TIER_SPECS tier).multiplierBps = p.multiplierBps
  unlockTime : p.unlockTime = p.startTime+p.duration
  started : p.startTime ≤ now
  withdrawnAt : p.withdrawn = true → p.startTime ≤ p.withdrawnAt

def AllPoliced (w : World) : Prop :=
  ∀ a id, (w.vault.positions a id).exists_ = true →
    Policed w.block.timestamp (w.vault.positions a id)

theorem policyMultiplierBps_tier {duration m : ℕ} (h0 : duration ≠ 0)
    (h : policyMultiplierBps duration = .ok m) :
    ∃ tier, durationTier duration = some tier ∧ (TIER_SPECS tier).multiplierBps = m := by
  unfold policyMultiplierBps at h
  split_ifs at h with h7 h14 h21 h30
  · exact absurd h7 h0
  · obtain rfl := Except.ok.inj h
    exact ⟨.lock7D,by rw [h14]; rfl,rfl⟩
  · obtain rfl := Except.ok.inj h
    exact ⟨.lock14D,by rw [h21]; rfl,rfl⟩
  · obtain rfl := Except.ok.inj h
    exact ⟨.lock21D,by rw [h30]; rfl,rfl⟩
  · rename_i h30'
    obtain rfl := Except.ok.inj h
    exact ⟨.lock30D,by rw [h30']; rfl,rfl⟩

theorem createLock_duration {here : Address} {w : World} {sender : Address}
    {amount duration : ℕ} {r : ℕ × World} (h : createLock here w sender amount duration = .ok r) :
    duration ≠ 0 := by
  simp only [createLock,bind_eq_ok,revertIf_eq_ok,exists_const] at h
  exact h.2.2.1

variable {here : Address} {w w' : World} {a : Address} {id t : ℕ}

theorem Initial.allPoliced (h : Initial here w) : AllPoliced w := by
  obtain ⟨o,ho⟩ := h.storage
  intro a id hexists
  simp [ho,Storage.deployed,LockPosition.unset] at hexists

theorem Policed.later {p : LockPosition} {now now' : ℕ} (h : Policed now p) (hle : now ≤ now') :
    Policed now' p :=
  { h with started := h.started.trans hle }

/-- A new lock starts at its block and runs for one of the four durations. -/
theorem Locked.allPoliced {sender : Address} {lockId amount duration : ℕ}
    (h : Locked here w w' sender lockId amount duration) (h0 : duration ≠ 0)
    (hall : AllPoliced w) : AllPoliced w' := by
  obtain ⟨m,hm,hr⟩ := h.recorded
  intro a id hexists
  rw [h.block]
  rw [hr.positions,set₂_apply] at hexists ⊢
  by_cases hk : a = sender ∧ id = lockId
  · rw [if_pos hk]
    exact
      { tier := policyMultiplierBps_tier h0 hm
        unlockTime := rfl
        started := Nat.le_refl _
        withdrawnAt := fun hw => by cases hw }
  · rw [if_neg hk] at hexists ⊢
    exact hall a id hexists

/-- A withdrawal changes only the withdrawal of its position. -/
theorem Withdrew.allPoliced {sender : Address} {lockId : ℕ}
    (h : Withdrew here w w' sender lockId) (hall : AllPoliced w) : AllPoliced w' := by
  intro a id hexists
  rw [h.block]
  rw [h.positions,set₂_apply] at hexists ⊢
  by_cases hk : a = sender ∧ id = lockId
  · rw [if_pos hk]
    have hp := hall sender lockId h.exists_
    exact { hp with withdrawnAt := fun _ => hp.started }
  · rw [if_neg hk] at hexists ⊢
    exact hall a id hexists

theorem exec_allPoliced {tx : Tx} (hall : AllPoliced w) (h : exec here w tx = .ok w') :
    AllPoliced w' := by
  rcases exec_cases h with ⟨elapsed,-,rfl⟩ | ⟨_,_,_,rfl,hl⟩ | ⟨_,_,-,hw⟩ | ⟨_,-,-,rfl⟩ |
    ⟨_,_,_,-,rfl⟩ | ⟨_,_,-,-,-,rfl⟩
  · exact fun a id hexists => (hall a id hexists).later (Nat.le_add_right _ _)
  · simp only [exec,bind_eq_ok] at h
    obtain ⟨_,hlock,-⟩ := h
    exact hl.allPoliced (createLock_duration hlock) hall
  · exact hw.allPoliced hall
  · exact hall
  · exact hall
  · exact hall

theorem Reachable.allPoliced (h : Reachable here w) : AllPoliced w :=
  Machine.Reachable.invariant (fun _ hi => hi.allPoliced)
    (fun _ _ _ hall hx => exec_allPoliced hall hx) h

/-! ## Parity -/

section Records

variable {p : LockPosition} {tier : LockTier} {now : ℕ}

theorem durationTier_duration {duration : ℕ} (h : durationTier duration = some tier) :
    (TIER_SPECS tier).durationSeconds = duration := by
  simpa using List.find?_some h

theorem tierOf_text (tier : LockTier) : tierOf tier.text = some tier := by
  cases tier <;> decide

/-- A position that follows the policy loads as its lock record. -/
theorem Policed.normalizeLock (h : Policed now p) (htier : durationTier p.duration = some tier)
    (account : Address) :
    normalizeLock (rawLock account p tier) = .ok (lockRecord account p tier) := by
  have hduration : ¬((p.unlockTime : ℤ)-p.startTime ≠ (TIER_SPECS tier).durationSeconds) := by
    rw [durationTier_duration htier,h.unlockTime]
    push_cast
    omega
  have hwithdrawal : ¬∃ withdrawal ∈ (lockRecord account p tier).withdrawalTimestamp,
      withdrawal < (p.startTime : ℤ) := by
    cases hw : p.withdrawn with
    | false => simp [lockRecord,hw]
    | true =>
      have hle := h.withdrawnAt hw
      simp [lockRecord,hw,hle]
  have hmap : (rawLock account p tier).withdrawalTimestamp.map bigInt =
      (lockRecord account p tier).withdrawalTimestamp := by
    cases hw : p.withdrawn <;> simp [rawLock,lockRecord,hw]
  have hwallet : normalize (rawLock account p tier).wallet "lock.wallet" =
      .ok (addressText account) :=
    normalizeAddress_eq_ok.2 ⟨account,addressOf_addressText account,rfl⟩
  simp only [CycleFixture.normalizeLock,hmap,hwallet]
  simp only [rawLock,tierOf_text,orRevert,bigInt_toString10 (Int.natCast_nonneg _),ok_bind,
    revertIf_of_not hduration,revertIf_of_not hwithdrawal]
  rfl

/-- The time-weighted balances count a record where it is active. -/
theorem activeLockedByTier_single (l : LockRecord) (t : ℤ) :
    activeLockedByTier [l] t l.tier = if ActiveAt l t then l.rawPrincipal else 0 := by
  simp only [activeLockedByTier,List.foldl_cons,List.foldl_nil,activeAt_iff]
  split_ifs <;> simp

end Records

/-- The vault grants the bonus of the tier exactly if the time-weighted balances count the
position. -/
def Parity (v : Storage) (account : Address) (lockId : ℕ) (tier : LockTier) (t : ℕ) : Prop :=
  (∃ multiplierBps, multiplierAt v account lockId t = some multiplierBps ∧
    (multiplierBps : ℤ) = (TIER_SPECS tier).multiplierBps) ↔
  activeLockedByTier [lockRecord account (v.positions account lockId) tier] t tier =
    (v.positions account lockId).principal

/-- The emergency exit ended the bonus of a position within its term. -/
structure Demoted (v : Storage) (account : Address) (lockId t : ℕ) : Prop where
  enabled : v.emergencyExitEnabled = true
  since : v.emergencyExitEnabledAt ≤ t
  started : (v.positions account lockId).startTime ≤ t
  locked : t < (v.positions account lockId).unlockTime
  held : (v.positions account lockId).withdrawn = true →
    t < (v.positions account lockId).withdrawnAt

/-- The seconds of a record, in the fields of its position. -/
theorem activeAt_lockRecord {p : LockPosition} {tier : LockTier} :
    ActiveAt (lockRecord a p tier) t ↔ p.startTime ≤ t ∧ t < p.unlockTime ∧
      (p.withdrawn = true → t < p.withdrawnAt) := by
  simp only [ActiveAt,lockRecord,Nat.cast_le,Nat.cast_lt]
  cases p.withdrawn <;> simp

/-- The vault grants the bonus of a tier over the same seconds, up to the emergency exit. -/
theorem multiplierAt_bonus {v : Storage} {tier : LockTier}
    (hexists : (v.positions a id).exists_ = true)
    (htier : (TIER_SPECS tier).multiplierBps = (v.positions a id).multiplierBps) :
    (∃ m, multiplierAt v a id t = some m ∧ (m : ℤ) = (TIER_SPECS tier).multiplierBps) ↔
      ActiveAt (lockRecord a (v.positions a id) tier) t ∧
      ¬(v.emergencyExitEnabled = true ∧ v.emergencyExitEnabledAt ≤ t) := by
  have hbonus : (multiplierUnlockedBps : ℤ) ≠ (v.positions a id).multiplierBps := by
    rw [← htier]
    cases tier <;> decide
  rw [activeAt_lockRecord,htier]
  simp only [multiplierAt,hexists,Bool.true_eq_false,if_false]
  split_ifs with hbefore hgone hactive
  · simp only [false_and,exists_false,false_iff]
    omega
  · simp only [false_and,exists_false,false_iff]
    rintro ⟨⟨-,-,hheld⟩,-⟩
    exact absurd (hheld hgone.1) (Nat.not_lt.2 hgone.2)
  · have hheld : (v.positions a id).withdrawn = true → t < (v.positions a id).withdrawnAt :=
      fun hw => Nat.lt_of_not_le fun hle => hgone ⟨hw,hle⟩
    simp only [Option.some.injEq,exists_eq_left',true_iff]
    exact ⟨⟨Nat.le_of_not_lt hbefore,hactive.1,hheld⟩,hactive.2⟩
  · simp only [Option.some.injEq,exists_eq_left',hbonus,false_iff]
    rintro ⟨⟨-,hlocked,-⟩,hquiet⟩
    exact hactive ⟨hlocked,hquiet⟩

/-- In every reachable state a position is a lock record that loads, and at each second the
two sides agree on its bonus unless the emergency exit has ended it within its term. -/
theorem bonus_parity_iff (h : Reachable here w)
    (hexists : (w.vault.positions a id).exists_ = true) :
    ∃ tier, durationTier (w.vault.positions a id).duration = some tier ∧
      normalizeLock (rawLock a (w.vault.positions a id) tier) =
        .ok (lockRecord a (w.vault.positions a id) tier) ∧
      ∀ t, Parity w.vault a id tier t ↔ ¬Demoted w.vault a id t := by
  have hp := h.allPoliced a id hexists
  obtain ⟨tier,htier,hm⟩ := hp.tier
  refine ⟨tier,htier,hp.normalizeLock htier a,fun t => ?_⟩
  have hpos := (h.solvent.principal_pos a id hexists).2
  have hcounted : activeLockedByTier [lockRecord a (w.vault.positions a id) tier] t tier =
      (w.vault.positions a id).principal ↔
      ActiveAt (lockRecord a (w.vault.positions a id) tier) t := by
    have hsingle := activeLockedByTier_single (lockRecord a (w.vault.positions a id) tier) t
    rw [show (lockRecord a (w.vault.positions a id) tier).tier = tier from rfl] at hsingle
    rw [hsingle]
    split_ifs with hactive
    · simp only [hactive,iff_true]
      rfl
    · simp only [hactive,iff_false]
      omega
  have hdemoted : Demoted w.vault a id t ↔
      ActiveAt (lockRecord a (w.vault.positions a id) tier) t ∧
      w.vault.emergencyExitEnabled = true ∧ w.vault.emergencyExitEnabledAt ≤ t := by
    rw [activeAt_lockRecord]
    constructor
    · exact fun hd => ⟨⟨hd.started,hd.locked,hd.held⟩,hd.enabled,hd.since⟩
    · rintro ⟨⟨hstarted,hlocked,hheld⟩,henabled,hsince⟩
      exact ⟨henabled,hsince,hstarted,hlocked,hheld⟩
  rw [Parity,multiplierAt_bonus hexists hm,hcounted,hdemoted]
  by_cases hactive : ActiveAt (lockRecord a (w.vault.positions a id) tier) t <;> simp [hactive]

/-- A lock of a week, the emergency exit after a day, and an early withdrawal a day later. -/
def demotedLock : World :=
  Machine.run (exec 100) (oneLock 86400)
    [.enableEmergencyExit 9,.newBlock 86400,.withdraw 1 0]

theorem demotedLock_reachable : Reachable 100 demotedLock := (oneLock_reachable 86400).run _

theorem demotedLock_parity_iff :
    (demotedLock.vault.positions 1 0).exists_ = true ∧
    ∃ tier, durationTier (demotedLock.vault.positions 1 0).duration = some tier ∧
      normalizeLock (rawLock 1 (demotedLock.vault.positions 1 0) tier) =
        .ok (lockRecord 1 (demotedLock.vault.positions 1 0) tier) ∧
      ∀ t, Parity demotedLock.vault 1 0 tier t ↔ ¬Demoted demotedLock.vault 1 0 t :=
  ⟨by decide,bonus_parity_iff demotedLock_reachable (by decide)⟩

/-- After the emergency exit and before the withdrawal only the time-weighted balances count
the bonus. -/
theorem demotedLock_no_parity :
    ¬∀ (here : Address) (w : World) (a : Address) (id : ℕ) (tier : LockTier) (t : ℕ),
      Reachable here w → (w.vault.positions a id).exists_ = true →
      durationTier (w.vault.positions a id).duration = some tier → t ≤ w.block.timestamp →
      Parity w.vault a id tier t := by
  intro h
  have hparity := h 100 demotedLock 1 0 .lock7D 100000 demotedLock_reachable (by decide)
    (by decide) (by decide)
  have hcounted : activeLockedByTier [lockRecord 1 (demotedLock.vault.positions 1 0) .lock7D]
      100000 .lock7D = (demotedLock.vault.positions 1 0).principal := by decide +kernel
  obtain ⟨m,hm,hbonus⟩ := hparity.2 hcounted
  have hbase : multiplierAt demotedLock.vault 1 0 100000 = some multiplierUnlockedBps := by
    decide +kernel
  rw [hbase] at hm
  obtain rfl := Option.some.inj hm
  exact absurd hbonus (by decide)

end LockingVault
end BpsProtocol
