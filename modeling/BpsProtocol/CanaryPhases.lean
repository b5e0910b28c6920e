import BpsProtocol.CanaryOperatorSends
import BpsProtocol.Lib.Overlap

/-! What the overlapping calls on one instance of the canary operator keep.
While a send is in progress its step, the intent that it wrote and whether it asked the wallet are
not in the memory of the instance; they are the phase that the invariant is about.  The other calls
change the journal, the halt and the pending record in between, but every outstanding step stays
accounted for. -/
namespace BpsProtocol
namespace Canary

open Async

/-! ## The invariant -/

/-- How far a send has come: its step, the intent that it wrote, and whether it asked the wallet. -/
structure Sending where
  step : ℕ
  intent : Option Intent
  asked : Bool

/-- The uncertain send of the stored halt. -/
def Storage.uncertain (d : Storage) : Option Intent := d.halt.bind Halt.uncertainSend

/-- The stored halt or, if it names no send, the stored intent is on the step. -/
def Flagged (d : Storage) (k : ℕ) : Prop :=
  (∃ u, d.uncertain = some u ∧ u.step = k) ∨
    (d.uncertain = none ∧ ∃ x, d.intent = some x ∧ x.step = k)

/-- What holds of the records between any two steps of any instance that is not overtaken. -/
structure Recoverable (R : Runtime) (d : Storage) (l : List SendEvent) : Prop where
  once : AtMostOnce l
  journal : WellKept R d.journal
  within : Within d d.journal.length
  stored : ∀ k, Outstanding l k → Covered d.journal d.pending k ∨ Flagged d k

/-- Unless it is halted, the instance stands at the end of its journal. -/
def Memory.AtEnd (s : Memory) : Prop := s.halted = false → s.current = s.journal.length

/-- How an instance stands to the records. -/
structure Standing (R : Runtime) (s : Memory) (d : Storage) : Prop where
  journal : WellKept R s.journal
  stored : WellKept R d.journal
  length : s.journal.length ≤ d.journal.length
  within : Within d s.journal.length
  uncertainWithin : ∀ u, s.uncertainSend = some u → u.step ≤ s.journal.length
  pendingStored : ∀ p, s.pending = some p → d.pending = some p
  uncertainStored : s.uncertainSend = none → d.uncertain = none
  uncertainHalted : s.halted = false → s.uncertainSend = none
  current_le : s.current ≤ s.journal.length
  atEnd : s.reconciled = true → s.AtEnd

/-- The instance at rest accounts for the step. -/
def Accounted (s : Memory) (d : Storage) (k : ℕ) : Prop :=
  Covered s.journal s.pending k ∨ ∃ u, s.uncertainSend = some u ∧ u.step = k ∧ Flagged d k

/-- The instance while a send is in progress.  The step that is sent may be journaled by another
call meanwhile; as long as it is not, the stored intent is on it. -/
structure InFlight (p : Sending) (s : Memory) (d : Storage) (l : List SendEvent) : Prop where
  pending : s.pending = none
  certain : s.uncertainSend = none
  current : s.current = s.journal.length
  le : p.step ≤ s.journal.length
  written : p.asked = true → ∃ x, p.intent = some x
  within : ∀ x, p.intent = some x → x.step ≤ s.journal.length
  recorded : ∀ x, p.intent = some x → p.step = s.journal.length →
    x.step = p.step ∧ d.intent = some x
  outstanding : ∀ k, Outstanding l k → k < p.step ∨ (p.asked = true ∧ k = p.step)

/-- The invariant of an instance, in each phase of its send. -/
structure Together (R : Runtime) (g : Option Sending) (s : Memory) (d : Storage)
    (l : List SendEvent) : Prop where
  once : AtMostOnce l
  standing : Standing R s d
  rest : g = none → ∀ k, Outstanding l k → Accounted s d k
  flight : ∀ p, g = some p → InFlight p s d l

/-- A resolution of the uncertain send may go on: it is still uncertain, or journaled. -/
def Resolvable (s : Memory) (u : Intent) : Prop :=
  s.uncertainSend = some u ∨ (s.uncertainSend = none ∧ u.step < s.journal.length)

/-- What no call but a send undoes. -/
structure Moves (s s' : Memory) : Prop where
  grows : s.journal.length ≤ s'.journal.length
  atEnd : s.AtEnd → s'.AtEnd
  resolvable : ∀ u, Resolvable s u → Resolvable s' u

section Invariant

variable {R : Runtime} {g : Option Sending} {s s' : Memory} {d d' : Storage} {l : List SendEvent}

theorem Moves.refl (s : Memory) : Moves s s := ⟨le_rfl,id,fun _ => id⟩

theorem Standing.accounted_le (h : Standing R s d) {k : ℕ} (hk : Accounted s d k) :
    k ≤ s.journal.length := by
  rcases hk with (hk | ⟨p,hp,rfl⟩) | ⟨u,hu,rfl,-⟩
  · exact hk.le
  · exact h.within.pending p (h.pendingStored p hp)
  · exact h.uncertainWithin u hu

/-- No outstanding step is beyond the journal. -/
theorem Together.outstanding_le (h : Together R g s d l) {k : ℕ} (ho : Outstanding l k) :
    k ≤ s.journal.length := by
  cases g with
  | none => exact h.standing.accounted_le (h.rest rfl k ho)
  | some p =>
    have hf := h.flight p rfl
    rcases hf.outstanding k ho with hk | ⟨-,rfl⟩
    · exact hk.le.trans hf.le
    · exact hf.le

/-- The records alone account for every outstanding step. -/
theorem Together.recoverable (h : Together R g s d l) : Recoverable R d l where
  once := h.once
  journal := h.standing.stored
  within := h.standing.within.mono h.standing.length
  stored k ho := by
    have hlt : k < s.journal.length → k < d.journal.length := fun hk =>
      hk.trans_le h.standing.length
    cases g with
    | none =>
      rcases h.rest rfl k ho with (hk | ⟨p,hp,hk⟩) | ⟨-,-,-,hflag⟩
      · exact .inl (.inl (hlt hk))
      · exact .inl (.inr ⟨p,h.standing.pendingStored p hp,hk⟩)
      · exact .inr hflag
    | some p =>
      have hf := h.flight p rfl
      rcases hf.outstanding k ho with hk | ⟨hasked,rfl⟩
      · exact .inl (.inl (hlt (hk.trans_le hf.le)))
      · rcases hf.le.lt_or_eq with hk | hk
        · exact .inl (.inl (hlt hk))
        · obtain ⟨x,hx⟩ := hf.written hasked
          obtain ⟨hstep,hintent⟩ := hf.recorded x hx hk
          exact .inr (.inr ⟨h.standing.uncertainStored hf.certain,x,hintent,hstep⟩)

/-- The instance that a reload builds. -/
theorem Recoverable.load (h : Recoverable R d l) (hs : construct d = .ok s) :
    Together R none s d l := by
  obtain ⟨hj,hp,hc,hr⟩ := construct_records hs
  have hcases := construct_cases hs
  have hstanding : Standing R s d :=
    { journal := hj ▸ h.journal
      stored := h.journal
      length := by rw [hj]
      within := hj ▸ h.within
      uncertainWithin := fun u hu => hj ▸ construct_uncertainWithin hs h.within hu
      pendingStored := fun p hp' => hp ▸ hp'
      uncertainStored := fun hu => by
        rcases hcases with ⟨rfl,-⟩ | ⟨i,-,-,hui,-⟩
        · exact hu
        · rw [hu] at hui
          cases hui
      uncertainHalted := fun hh => (construct_running hs hh).2
      current_le := by rw [hc]; exact Nat.zero_le _
      atEnd := fun h => by rw [hr] at h; cases h }
  refine ⟨h.once,hstanding,fun _ k ho => ?_,nofun⟩
  rw [Accounted,hj,hp]
  rcases h.stored k ho with hk | ⟨u,hu,hk⟩ | ⟨hnone,x,hx,hk⟩
  · exact .inl hk
  · rcases hcases with ⟨rfl,-⟩ | ⟨-,-,-,-,hnone⟩
    · exact .inr ⟨u,hu,hk,.inl ⟨u,hu,hk⟩⟩
    · cases hnone.symm.trans hu
  · rcases hcases with ⟨-,hcov⟩ | ⟨i,hi,-,hui,-⟩
    · rcases hcov x hx hnone with hjour | ⟨p,hp',hps⟩
      · exact .inl (.inl (hk ▸ lt_length_of_journaled h.journal hjour))
      · exact .inl (.inr ⟨p,hp',hps.trans hk⟩)
    · cases hi.symm.trans hx
      exact .inr ⟨x,hui,hk,.inr ⟨hnone,x,hx,hk⟩⟩

end Invariant

/-! ## What a call that sends nothing changes -/

section Changes

variable {R : Runtime} {g : Option Sending} {s : Memory} {d d' : Storage} {l : List SendEvent}

/-- A halt keeps the uncertain send, whether it is stored or not. -/
theorem Together.halt (h : Together R g s d l) (reason : String)
    (hd : d' = { d with halt := some ⟨reason,s.uncertainSend⟩ } ∨ d' = d) :
    Together R g
        { s with halted := true,haltReason := some reason,uncertainSend := s.uncertainSend } d' l ∧
      Moves s
        { s with halted := true,haltReason := some reason,uncertainSend := s.uncertainSend } := by
  have hs := h.standing
  refine ⟨⟨h.once,?_,fun hg k ho => ?_,fun p hp => ?_⟩,⟨le_rfl,fun _ => nofun,fun _ => id⟩⟩
  · rcases hd with rfl | rfl
    · exact
        { hs with
          within := ⟨hs.within.pending,hs.within.intent,fun x u hx hu => by
            cases hx
            exact hs.uncertainWithin u hu⟩
          uncertainStored := id
          uncertainHalted := nofun
          atEnd := fun _ => nofun }
    · exact
        { hs with
          uncertainHalted := nofun
          atEnd := fun _ => nofun }
  · rcases h.rest hg k ho with hc | ⟨u,hu,hk,hflag⟩
    · exact .inl hc
    · refine .inr ⟨u,hu,hk,?_⟩
      rcases hd with rfl | rfl
      · exact .inl ⟨u,hu,hk⟩
      · exact hflag
  · have hf := h.flight p hp
    rcases hd with rfl | rfl
    · exact { hf with }
    · exact { hf with }

theorem Together.setConnected (h : Together R g s d l) :
    Together R g { s with connected := true } d l :=
  ⟨h.once,{ h.standing with },h.rest,fun p hp => { h.flight p hp with }⟩

theorem Together.setIntent (h : Together R g s d l) (i : Option Intent) :
    Together R g { s with intent := i } d l :=
  ⟨h.once,{ h.standing with },h.rest,fun p hp => { h.flight p hp with }⟩

theorem Together.unreconcile (h : Together R g s d l) :
    Together R g { s with reconciled := false } d l :=
  ⟨h.once,{ h.standing with atEnd := nofun },h.rest,fun p hp => { h.flight p hp with }⟩

theorem Together.reconcile (h : Together R g s d l) (hs : s.AtEnd) :
    Together R g { s with reconciled := true } d l :=
  ⟨h.once,{ h.standing with atEnd := fun _ => hs },h.rest,fun p hp => { h.flight p hp with }⟩

/-- The instance moves to the end of its journal. -/
theorem Together.toEnd (h : Together R g s d l) :
    Together R g { s with current := s.journal.length,reconciled := true } d l ∧
      Moves s { s with current := s.journal.length,reconciled := true } := by
  refine ⟨⟨h.once,?_,h.rest,fun p hp => ?_⟩,⟨le_rfl,fun _ _ => rfl,fun _ => id⟩⟩
  · exact { h.standing with
      current_le := le_rfl
      atEnd := fun _ _ => rfl }
  · exact { h.flight p hp with current := rfl }

/-- A stale pending record is dropped, whatever becomes of the write. -/
theorem Together.dropPending (h : Together R g s d l)
    (hstale : ∀ p, s.pending = some p → p.step < s.journal.length)
    (hd : d' = { d with pending := none } ∨ d' = d) :
    Together R g { s with pending := none } d' l ∧ Moves s { s with pending := none } := by
  have hs := h.standing
  refine ⟨⟨h.once,?_,fun hg k ho => ?_,fun p hp => ?_⟩,⟨le_rfl,id,fun _ => id⟩⟩
  · rcases hd with rfl | rfl
    · exact
        { hs with
          within := ⟨nofun,hs.within.intent,hs.within.halt⟩
          pendingStored := nofun }
    · exact { hs with pendingStored := nofun }
  · rcases h.rest hg k ho with (hk | ⟨p,hp,rfl⟩) | ⟨u,hu,hk,hflag⟩
    · exact .inl (.inl hk)
    · exact .inl (.inl (hstale p hp))
    · refine .inr ⟨u,hu,hk,?_⟩
      rcases hd with rfl | rfl
      · exact hflag
      · exact hflag
  · have hf := h.flight p hp
    rcases hd with rfl | rfl
    · exact { hf with pending := rfl }
    · exact { hf with pending := rfl }

/-- The journal write of a verified step took effect but was not read back. -/
theorem Together.journalStored (h : Together R g s d l) {i : ℕ} (hi : i ≤ s.journal.length)
    (txHash : Text) :
    Together R g s { d with journal := s.journal ++ [some (R.entryOf i txHash)] } l :=
  ⟨h.once,
    { h.standing with
      stored := h.standing.journal.concat hi txHash
      length := by simp
      within := ⟨h.standing.within.pending,h.standing.within.intent,h.standing.within.halt⟩ },
    h.rest,fun p hp => { h.flight p hp with }⟩

/-- A step is journaled, and the records that it supersedes are cleared or not: the journal covers
every outstanding step. -/
theorem Together.advanced (h : Together R g s d l) {i : ℕ} (hi : i ≤ s.journal.length)
    {txHash : Text} (hj : d'.journal = s.journal ++ [some (R.entryOf i txHash)])
    (hh : d'.halt = d.halt) (hp : d'.pending = none ∨ d'.pending = d.pending)
    (hx : d'.intent = none ∨ d'.intent = d.intent) :
    Together R g
        { s with
          journal := s.journal ++ [some (R.entryOf i txHash)]
          pending := none
          intent := none
          current := s.current+1 } d' l ∧
      Moves s
        { s with
          journal := s.journal ++ [some (R.entryOf i txHash)]
          pending := none
          intent := none
          current := s.current+1 } := by
  have hs := h.standing
  have hlen : (s.journal ++ [some (R.entryOf i txHash)]).length = s.journal.length+1 := by simp
  have hle := Nat.le_succ s.journal.length
  have hkept := hs.journal.concat hi txHash
  have hpending : ∀ p, d'.pending = some p → p.step ≤ s.journal.length := fun p hp' => by
    rcases hp with hp | hp
    · rw [hp] at hp'
      cases hp'
    · exact hs.within.pending p (hp ▸ hp')
  have hintent : ∀ x, d'.intent = some x → x.step ≤ s.journal.length := fun x hx' => by
    rcases hx with hx | hx
    · rw [hx] at hx'
      cases hx'
    · exact hs.within.intent x (hx ▸ hx')
  have hw : Within d' s.journal.length :=
    ⟨hpending,hintent,fun x u hxx => hs.within.halt x u (hh ▸ hxx)⟩
  have hend : s.AtEnd → s.halted = false → s.current+1 = s.journal.length+1 := fun hs hh =>
    congrArg Nat.succ (hs hh)
  refine ⟨⟨h.once,?_,fun _ k ho => ?_,fun p hp => ?_⟩,⟨?_,?_,fun u hu => ?_⟩⟩
  · exact
      { journal := hkept
        stored := hj ▸ hkept
        length := by rw [hj]
        within := hw.mono (hlen ▸ hle)
        uncertainWithin := fun u hu => (hs.uncertainWithin u hu).trans (hlen ▸ hle)
        pendingStored := nofun
        uncertainStored := fun hu => by
          rw [Storage.uncertain,hh]
          exact hs.uncertainStored hu
        uncertainHalted := hs.uncertainHalted
        current_le := by rw [hlen]; exact Nat.succ_le_succ hs.current_le
        atEnd := fun hr hh => by rw [hlen]; exact hend (hs.atEnd hr) hh }
  · exact .inl (.inl (by rw [hlen]; exact Nat.lt_succ_of_le (h.outstanding_le ho)))
  · have hf := h.flight p hp
    exact
      { hf with
        pending := rfl
        current := by rw [hlen,hf.current]
        le := hf.le.trans (hlen ▸ hle)
        within := fun x hx => (hf.within x hx).trans (hlen ▸ hle)
        recorded := fun x _ hn => by
          -- the journal has passed the step that is sent
          have hle := hf.le
          rw [hlen] at hn
          omega }
  · exact hlen ▸ hle
  · exact fun hs hh => by rw [hlen]; exact hend hs hh
  · exact hu.imp_right fun hu => ⟨hu.1,hu.2.trans_le (hlen ▸ hle)⟩

/-! A resolution journals the step of an uncertain send. -/

theorem Together.resolvable_le (h : Together R g s d l) {u : Intent} (hu : Resolvable s u) :
    u.step ≤ s.journal.length := by
  rcases hu with hu | ⟨-,hu⟩
  · exact h.standing.uncertainWithin u hu
  · exact hu.le

theorem Together.covered_resolved (h : Together R none s d l) {u : Intent} (hu : Resolvable s u)
    (txHash : Text) {k : ℕ} (ho : Outstanding l k) :
    Covered (R.resolved s u.step txHash) s.pending k := by
  obtain ⟨hle,hlt⟩ := Runtime.setEntry_length (h.resolvable_le hu) (R.entryOf u.step txHash)
  rcases h.rest rfl k ho with (hk | hp) | ⟨v,hv,rfl,-⟩
  · exact .inl (hk.trans_le hle)
  · exact .inr hp
  · rcases hu with hu | ⟨hu,-⟩
    · cases hv.symm.trans hu
      exact .inl hlt
    · cases hv.symm.trans hu

theorem setEntry_length_of_lt {J : List (Option Entry)} {step : ℕ} (h : step < J.length)
    (e : Entry) : (Runtime.setEntry J step e).length = J.length := by
  rw [Runtime.setEntry,if_pos h,List.length_set]

/-- The journal write of a resolution took effect but was not read back. -/
theorem Together.resolvedStored (h : Together R none s d l) {u : Intent} (hu : Resolvable s u)
    (txHash : Text) :
    Together R none s { d with journal := R.resolved s u.step txHash } l :=
  ⟨h.once,
    { h.standing with
      stored := h.standing.journal.setEntry (h.resolvable_le hu) txHash
      length := (Runtime.setEntry_length (h.resolvable_le hu) _).1
      within := ⟨h.standing.within.pending,h.standing.within.intent,h.standing.within.halt⟩ },
    h.rest,nofun⟩

/-- The instance takes the new journal, and its halt is not seen to be cleared. -/
theorem Together.resolvedHalted (h : Together R none s d l) {u : Intent} (hu : Resolvable s u)
    {txHash : Text} (hd : ResolvedTo (R.resolved s u.step txHash) d d') :
    Together R none { s with journal := R.resolved s u.step txHash } d' l ∧
      Moves s { s with journal := R.resolved s u.step txHash } := by
  have hs := h.standing
  have hle := (Runtime.setEntry_length (h.resolvable_le hu) (R.entryOf u.step txHash)).1
  have hkept := hs.journal.setEntry (h.resolvable_le hu) txHash
  -- unless it is halted the step was journaled before
  have hend : s.AtEnd → s.halted = false →
      s.current = (R.resolved s u.step txHash).length := fun hend hh => by
    rcases hu with hu | ⟨-,hlt⟩
    · cases (hs.uncertainHalted hh).symm.trans hu
    · exact (hend hh).trans (setEntry_length_of_lt hlt _).symm
  refine ⟨⟨h.once,?_,fun _ k ho => .inl (h.covered_resolved hu txHash ho),nofun⟩,
    ⟨hle,hend,fun v => Or.imp_right fun hv => ⟨hv.1,hv.2.trans_le hle⟩⟩⟩
  exact
    { journal := hkept
      stored := by rw [hd.journal]; exact hkept
      length := by rw [hd.journal]
      within := (hd.within hs.within).mono hle
      uncertainWithin := fun v hv => (hs.uncertainWithin v hv).trans hle
      pendingStored := fun p hp => hd.pending.trans (hs.pendingStored p hp)
      uncertainStored := fun hv => by
        rcases hd.halt with hh | hh
        · rw [Storage.uncertain,hh]
          rfl
        · rw [Storage.uncertain,hh]
          exact hs.uncertainStored hv
      uncertainHalted := hs.uncertainHalted
      current_le := hs.current_le.trans hle
      atEnd := fun hr => hend (hs.atEnd hr) }

/-- Both records are seen to be cleared, and the halt ends. -/
theorem Together.resolvedCleared (h : Together R none s d l) {u : Intent} (hu : Resolvable s u)
    {txHash : Text} (hd : ResolvedTo (R.resolved s u.step txHash) d d') (hh : d'.halt = none) :
    Together R none
        { s with
          journal := R.resolved s u.step txHash
          uncertainSend := none
          intent := none
          halted := false
          haltReason := none
          current := (R.resolved s u.step txHash).length } d' l ∧
      Moves s
        { s with
          journal := R.resolved s u.step txHash
          uncertainSend := none
          intent := none
          halted := false
          haltReason := none
          current := (R.resolved s u.step txHash).length } := by
  obtain ⟨hle,hlt⟩ := Runtime.setEntry_length (h.resolvable_le hu) (R.entryOf u.step txHash)
  have hhalted := (h.resolvedHalted hu hd).1.standing
  refine ⟨⟨h.once,?_,fun _ k ho => .inl (h.covered_resolved hu txHash ho),nofun⟩,
    ⟨hle,fun _ _ => rfl,fun v hv => ?_⟩⟩
  · exact
      { hhalted with
        uncertainWithin := nofun
        uncertainStored := fun _ => by rw [Storage.uncertain,hh]; rfl
        uncertainHalted := fun _ => rfl
        current_le := le_rfl
        atEnd := fun _ _ => rfl }
  · -- an uncertain send is the one that is resolved
    refine .inr ⟨rfl,?_⟩
    rcases hv with hv | ⟨-,hv⟩
    · rcases hu with hu | ⟨hu,-⟩
      · cases hu.symm.trans hv
        exact hlt
      · cases hu.symm.trans hv
    · exact hv.trans_le hle

end Changes

/-! ## What a send changes -/

section Sends

variable {R : Runtime} {p : Sending} {s : Memory} {d d' : Storage} {l : List SendEvent}

/-- A send begins where nothing but the journal accounts for the earlier ones. -/
theorem Together.begin (h : Together R none s d l) (hs : s.halted = false)
    (hu : s.uncertainSend = none) (hp : s.pending = none) (hr : s.reconciled = true) :
    Together R (some ⟨s.journal.length,none,false⟩) s d l := by
  refine ⟨h.once,h.standing,nofun,fun p hp' => ?_⟩
  cases hp'
  refine ⟨hp,hu,h.standing.atEnd hr hs,le_rfl,nofun,nofun,nofun,fun k ho => .inl ?_⟩
  rcases h.rest rfl k ho with (hk | ⟨q,hq,-⟩) | ⟨u,hu',-⟩
  · exact hk
  · cases hp.symm.trans hq
  · cases hu.symm.trans hu'

/-- A send that did not ask the wallet may end. -/
theorem Together.end (h : Together R (some p) s d l) (hp : p.asked = false) :
    Together R none s d l := by
  refine ⟨h.once,h.standing,fun _ k ho => ?_,nofun⟩
  have hf := h.flight p rfl
  rcases hf.outstanding k ho with hk | ⟨hasked,-⟩
  · exact .inl (.inl (hk.trans_le hf.le))
  · rw [hp] at hasked
    cases hasked

/-- The step is read again after an await. -/
theorem Together.choose (h : Together R (some p) s d l) (hp : p.asked = false) :
    Together R (some ⟨s.current,none,false⟩) s d l := by
  have hf := h.flight p rfl
  refine ⟨h.once,h.standing,nofun,fun q hq => ?_⟩
  cases hq
  refine { hf with
    le := hf.current.le
    written := nofun
    within := nofun
    recorded := nofun
    outstanding := fun k ho => .inl ?_ }
  rw [hf.current]
  rcases hf.outstanding k ho with hk | ⟨hasked,-⟩
  · exact hk.trans_le hf.le
  · rw [hp] at hasked
    cases hasked

/-- An intent is written or cleared, perhaps unseen, and the wallet is not asked. -/
theorem Together.writeIntent (h : Together R (some p) s d l) (hp : p.asked = false)
    {i : Option Intent} (hi : ∀ x, i = some x → x.step ≤ s.journal.length) :
    Together R (some ⟨p.step,none,false⟩) s { d with intent := i } l := by
  have hf := h.flight p rfl
  refine ⟨h.once,{ h.standing with
    within := ⟨h.standing.within.pending,hi,h.standing.within.halt⟩ },nofun,fun q hq => ?_⟩
  cases hq
  exact { hf with
    written := nofun
    within := nofun
    recorded := nofun
    outstanding := fun k ho => by
      have := hf.outstanding k ho
      rw [hp] at this
      exact this }

/-- The intent of the step at the end of the journal is recorded. -/
theorem Together.recordIntent (h : Together R (some p) s d l) (hp : p.asked = false) {x : Intent}
    (hx : x.step = s.current) :
    Together R (some ⟨p.step,some x,false⟩) s { d with intent := some x } l := by
  have hf := h.flight p rfl
  have hle : x.step ≤ s.journal.length := (hx.trans hf.current).le
  have hwritten := h.writeIntent hp (i := some x) fun y hy => by
    cases hy
    exact hle
  refine ⟨h.once,hwritten.standing,nofun,fun q hq => ?_⟩
  cases hq
  exact { hwritten.flight _ rfl with
    written := nofun
    within := fun y hy => by
      cases hy
      exact hle
    recorded := fun y hy hn => by
      cases hy
      exact ⟨(hx.trans hf.current).trans hn.symm,rfl⟩ }

/-- The wallet is asked, for a step that was not sent before. -/
theorem Together.ask {i : ℕ} {x : Intent} (h : Together R (some ⟨i,some x,false⟩) s d l)
    (J : List (Option Entry)) :
    Together R (some ⟨i,some x,true⟩) s d (l ++ [.invoked i J]) := by
  have hf := h.flight _ rfl
  have hlt : ∀ k, Outstanding l k → k < i := fun k ho =>
    (hf.outstanding k ho).resolve_right fun h => nomatch h.1
  refine ⟨h.once.concat fun k J' hk ho => ?_,h.standing,nofun,fun q hq => ?_⟩
  · cases hk
    exact absurd (hlt _ ho) (Nat.lt_irrefl _)
  · cases hq
    exact { hf with
      written := fun _ => ⟨x,rfl⟩
      outstanding := fun k ho => by
        rcases ho.of_concat with ⟨J',hJ⟩ | ⟨ho,-⟩
        · cases hJ
          exact .inr ⟨rfl,rfl⟩
        · exact .inl (hlt k ho) }

/-- The user rejected: the step is outstanding no more. -/
theorem Together.rejected {i : ℕ} {x : Intent} (h : Together R (some ⟨i,some x,true⟩) s d l) :
    Together R (some ⟨i,some x,false⟩) s d (l ++ [.rejected i]) := by
  have hf := h.flight _ rfl
  refine ⟨h.once.concat nofun,h.standing,nofun,fun q hq => ?_⟩
  cases hq
  exact { hf with
    written := nofun
    outstanding := fun k ho => by
      rcases ho.of_concat with ⟨J,hJ⟩ | ⟨ho,hne⟩
      · cases hJ
      · refine .inl ((hf.outstanding k ho).resolve_right fun h => hne ?_)
        rw [h.2] }

/-- The returned hash is recorded for the step at the end of the journal, and perhaps read back. -/
theorem Together.recordPending {i : ℕ} {x : Intent} (h : Together R (some ⟨i,some x,true⟩) s d l)
    {q : Pending} (hq : q.step = s.current) :
    Together R (some ⟨i,some x,true⟩) s { d with pending := some q } l ∧
      Together R none { s with pending := some q } { d with pending := some q } l := by
  have hf := h.flight _ rfl
  have hn : q.step = s.journal.length := hq.trans hf.current
  have hs : Within { d with pending := some q } s.journal.length :=
    ⟨fun q' hq' => by cases hq'; exact hn.le,h.standing.within.intent,h.standing.within.halt⟩
  refine ⟨⟨h.once,{ h.standing with
      within := hs
      pendingStored := fun q' hq' => by cases hf.pending.symm.trans hq' },nofun,fun q' hq' => ?_⟩,
    ⟨h.once,{ h.standing with
      within := hs
      pendingStored := fun q' hq' => hq' },fun _ k ho => .inl ?_,nofun⟩⟩
  · cases hq'
    exact { hf with }
  · rcases (h.outstanding_le ho).lt_or_eq with hk | hk
    · exact .inl hk
    · exact .inr ⟨q,rfl,hn.trans hk.symm⟩

/-- The send ends uncertain, and the instance is halted on its intent. -/
theorem Together.uncertain (h : Together R (some p) s d l) (reason : String) {x : Intent}
    (hx : x.step ≤ s.journal.length) (hp : p.asked = true → p.intent = some x)
    (hd : d' = { d with halt := some ⟨reason,some x⟩ } ∨ d' = d) :
    Together R none { s with halted := true,haltReason := some reason,uncertainSend := some x }
      d' l := by
  have hs := h.standing
  have hf := h.flight p rfl
  have hw : ∀ u, some x = some u → u.step ≤ s.journal.length := fun u hu => by
    cases hu
    exact hx
  have hflag : ∀ k, x.step = k → d.intent = some x → Flagged d' k := fun k hk hi => by
    rcases hd with rfl | rfl
    · exact .inl ⟨x,rfl,hk⟩
    · exact .inr ⟨hs.uncertainStored hf.certain,x,hi,hk⟩
  refine ⟨h.once,?_,fun _ k ho => ?_,nofun⟩
  · rcases hd with rfl | rfl
    · exact
        { hs with
          within := ⟨hs.within.pending,hs.within.intent,fun y u hy hu => by
            cases hy
            exact hw u hu⟩
          uncertainWithin := hw
          uncertainStored := nofun
          uncertainHalted := nofun
          atEnd := fun _ => nofun }
    · exact
        { hs with
          uncertainWithin := hw
          uncertainStored := nofun
          uncertainHalted := nofun
          atEnd := fun _ => nofun }
  · rcases hf.outstanding k ho with hk | ⟨hasked,rfl⟩
    · exact .inl (.inl (hk.trans_le hf.le))
    · rcases hf.le.lt_or_eq with hk | hk
      · exact .inl (.inl hk)
      · obtain ⟨hstep,hi⟩ := hf.recorded x (hp hasked) hk
        exact .inr ⟨x,rfl,hstep,hflag _ hstep hi⟩

end Sends
end Canary
end BpsProtocol
