import BpsProtocol.CanaryQuiet

/-! What the canary operator keeps between its calls and across a reload.
A send is outstanding until the user is seen to reject it.  Every outstanding step is
blocked: its entry is journaled, its hash is pending, or the instance is halted on it.  The
four durable records alone say so of the instance that a reload would build. -/
namespace BpsProtocol
namespace Canary

open Async

/-! ## The record of sends -/

/-- Between two sends of one step the user rejected the first of them. -/
def AtMostOnce (log : List SendEvent) : Prop :=
  ∀ k J J' l₁ l₂ l₃, log = l₁ ++ .invoked k J::l₂ ++ .invoked k J'::l₃ → .rejected k ∈ l₂

/-- Every send finds its earlier steps journaled as verified. -/
def InOrder (R : Runtime) (log : List SendEvent) : Prop :=
  ∀ k J, .invoked k J ∈ log → ∀ j < k, ∃ e : Entry, J[j]? = some (some e) ∧ e.step = j ∧
    e.digest = R.execDigest ∧ e.verified = true

/-- The step was sent and not rejected since. -/
def Outstanding (log : List SendEvent) (k : ℕ) : Prop :=
  ∃ J l₁ l₂, log = l₁ ++ .invoked k J::l₂ ∧ .rejected k ∉ l₂

theorem not_outstanding_nil (k : ℕ) : ¬ Outstanding [] k := by
  rintro ⟨J,l₁,l₂,h,-⟩
  simp at h

/-- One event more: the send of a step, or the rejection of it. -/
theorem Outstanding.of_concat {l : List SendEvent} {x : SendEvent} {k : ℕ}
    (h : Outstanding (l ++ [x]) k) :
    (∃ J, x = .invoked k J) ∨ Outstanding l k ∧ x ≠ .rejected k := by
  obtain ⟨J,l₁,l₂,heq,hrej⟩ := h
  rcases List.eq_nil_or_concat l₂ with rfl | ⟨l₂,y,rfl⟩
  · exact .inl ⟨J,(List.append_inj' heq rfl).2 |> List.cons.inj |>.1⟩
  · rw [List.concat_eq_append,← List.cons_append,← List.append_assoc] at heq
    obtain ⟨hl,hx⟩ := List.append_inj' heq rfl
    cases hx
    rw [List.concat_eq_append] at hrej
    refine .inr ⟨⟨J,l₁,l₂,hl,fun h => hrej (List.mem_append_left _ h)⟩,fun hx => hrej ?_⟩
    rw [hx]
    exact List.mem_append_right _ (List.mem_singleton_self _)

theorem AtMostOnce.nil : AtMostOnce [] := by
  intro k J J' l₁ l₂ l₃ h
  simp at h

theorem AtMostOnce.concat {l : List SendEvent} {x : SendEvent} (h : AtMostOnce l)
    (hx : ∀ k J, x = .invoked k J → ¬ Outstanding l k) : AtMostOnce (l ++ [x]) := by
  intro k J J' l₁ l₂ l₃ heq
  rcases List.eq_nil_or_concat l₃ with rfl | ⟨l₃,y,rfl⟩
  · obtain ⟨hl,hlast⟩ := List.append_inj' heq rfl
    by_contra hrej
    exact hx k J' (List.cons.inj hlast).1 ⟨J,l₁,l₂,hl,hrej⟩
  · rw [List.concat_eq_append,← List.cons_append,← List.append_assoc] at heq
    exact h k J J' l₁ l₂ l₃ (List.append_inj' heq rfl).1

theorem InOrder.nil (R : Runtime) : InOrder R [] := fun _ _ h => absurd h List.not_mem_nil

theorem InOrder.concat {R : Runtime} {l : List SendEvent} {x : SendEvent} (h : InOrder R l)
    (hx : ∀ k J, x = .invoked k J → ∀ j < k, ∃ e : Entry, J[j]? = some (some e) ∧ e.step = j ∧
      e.digest = R.execDigest ∧ e.verified = true) : InOrder R (l ++ [x]) := by
  intro k J hmem
  rcases List.mem_append.mp hmem with hl | hlast
  · exact h k J hl
  · exact hx k J (List.mem_singleton.mp hlast).symm

/-! ## Journals -/

/-- The journal holds verified entries of this packet, none before the place of its step. -/
def WellKept (R : Runtime) (J : List (Option Entry)) : Prop :=
  ∀ (j : ℕ) (e : Entry), J[j]? = some (some e) → e.digest = R.execDigest ∧ e.verified = true ∧ e.step ≤ j

/-- The entry of step `j` stands at its place. -/
def Holds (J : List (Option Entry)) (j : ℕ) : Prop := ∃ e, J[j]? = some (some e) ∧ e.step = j

theorem WellKept.concat {R : Runtime} {J : List (Option Entry)} (h : WellKept R J) {i : ℕ}
    (hi : i ≤ J.length) (txHash : Text) : WellKept R (J ++ [some (R.entryOf i txHash)]) := by
  intro j e he
  rcases lt_trichotomy j J.length with hj | rfl | hj
  · rw [List.getElem?_append_left hj] at he
    exact h j e he
  · rw [List.getElem?_concat_length] at he
    cases he
    exact ⟨rfl,rfl,hi⟩
  · rw [List.getElem?_eq_none (by rw [List.length_append,List.length_singleton]; omega)] at he
    cases he

theorem Holds.concat {J : List (Option Entry)} {j : ℕ} (h : Holds J j) (x : Option Entry) :
    Holds (J ++ [x]) j := by
  obtain ⟨e,he,hs⟩ := h
  have hj : j < J.length := by
    by_contra hj
    rw [List.getElem?_eq_none (Nat.not_lt.mp hj)] at he
    cases he
  exact ⟨e,by rw [List.getElem?_append_left hj,he],hs⟩

theorem Runtime.holds_concat_self (R : Runtime) (J : List (Option Entry)) (txHash : Text) :
    Holds (J ++ [some (R.entryOf J.length txHash)]) J.length :=
  ⟨_,List.getElem?_concat_length,rfl⟩

namespace Runtime

theorem setEntry_length {J : List (Option Entry)} {step : ℕ} (h : step ≤ J.length) (e : Entry) :
    J.length ≤ (setEntry J step e).length ∧ step < (setEntry J step e).length := by
  unfold setEntry
  split
  · rw [List.length_set]
    exact ⟨le_rfl,‹_›⟩
  · simp only [List.length_append,List.length_replicate,List.length_singleton]
    omega

/-- The assignment of an index within the journal or at its end. -/
theorem setEntry_getElem? {J : List (Option Entry)} {step : ℕ} (h : step ≤ J.length) (e : Entry)
    (j : ℕ) : (setEntry J step e)[j]? = if j = step then some (some e) else J[j]? := by
  unfold setEntry
  split
  · rename_i hlt
    by_cases hj : j = step
    · rw [if_pos hj,hj,List.getElem?_set_self hlt]
    · rw [if_neg hj,List.getElem?_set_ne (Ne.symm hj)]
  · rename_i hlt
    obtain rfl : step = J.length := by omega
    rw [Nat.sub_self,List.replicate_zero,List.append_nil]
    by_cases hj : j = J.length
    · rw [if_pos hj,hj,List.getElem?_concat_length]
    · rw [if_neg hj]
      by_cases hlt' : j < J.length
      · rw [List.getElem?_append_left hlt']
      · rw [List.getElem?_eq_none,List.getElem?_eq_none (by omega)]
        rw [List.length_append,List.length_singleton]
        omega

end Runtime

theorem WellKept.setEntry {R : Runtime} {J : List (Option Entry)} (h : WellKept R J) {step : ℕ}
    (hs : step ≤ J.length) (txHash : Text) :
    WellKept R (Runtime.setEntry J step (R.entryOf step txHash)) := by
  intro j e he
  rw [Runtime.setEntry_getElem? hs] at he
  by_cases hj : j = step
  · rw [if_pos hj] at he
    cases he
    exact ⟨rfl,rfl,hj.ge⟩
  · rw [if_neg hj] at he
    exact h j e he

theorem Holds.setEntry {R : Runtime} {J : List (Option Entry)} {step j : ℕ} (h : Holds J j)
    (hs : step ≤ J.length) (txHash : Text) :
    Holds (Runtime.setEntry J step (R.entryOf step txHash)) j := by
  by_cases hj : j = step
  · exact ⟨_,by rw [Runtime.setEntry_getElem? hs,if_pos hj],hj.symm⟩
  · obtain ⟨e,he,hst⟩ := h
    exact ⟨e,by rw [Runtime.setEntry_getElem? hs,if_neg hj,he],hst⟩

/-- An entry that is found has its step, and a well kept journal reaches past it. -/
theorem lt_length_of_journaled {R : Runtime} {J : List (Option Entry)} (h : WellKept R J) {k : ℕ}
    (hj : journaled J k = .ok true) : k < J.length := by
  have hfind : ∀ J' : List (Option Entry), journaled J' k = .ok true →
      ∃ (j : ℕ) (e : Entry), J'[j]? = some (some e) ∧ e.step = k := fun J' hj => by
    induction J' with
    | nil => simp [journaled,Runtime.findEntry] at hj
    | cons x J' ih =>
      cases x with
      | none => simp [journaled,Runtime.findEntry] at hj
      | some e =>
        by_cases he : e.step = k
        · exact ⟨0,e,rfl,he⟩
        · simp only [journaled,Runtime.findEntry,if_neg he] at hj
          obtain ⟨j,e',he',hk⟩ := ih hj
          exact ⟨j+1,e',he',hk⟩
  obtain ⟨j,e,he,rfl⟩ := hfind J hj
  have hle := (h j e he).2.2
  have hlt : j < J.length := by
    by_contra hlt
    rw [List.getElem?_eq_none (Nat.not_lt.mp hlt)] at he
    cases he
  omega

/-! ## What blocks a step -/

/-- The step is journaled, or its hash is pending. -/
def Covered (J : List (Option Entry)) (p : Option Pending) (k : ℕ) : Prop :=
  k < J.length ∨ ∃ q, p = some q ∧ q.step = k

/-- The instance cannot send the step: it is covered, or the instance is halted on it. -/
def Blocked (s : Memory) (k : ℕ) : Prop :=
  Covered s.journal s.pending k ∨
    (s.halted = true ∧ ∀ u, s.uncertainSend = some u → u.step = k)

/-- Every step that the records name is at most `n`. -/
structure Within (d : Storage) (n : ℕ) : Prop where
  pending : ∀ p, d.pending = some p → p.step ≤ n
  intent : ∀ i, d.intent = some i → i.step ≤ n
  halt : ∀ h u, d.halt = some h → h.uncertainSend = some u → u.step ≤ n

theorem Within.mono {d : Storage} {n m : ℕ} (h : Within d n) (hnm : n ≤ m) : Within d m where
  pending p hp := (h.pending p hp).trans hnm
  intent i hi := (h.intent i hi).trans hnm
  halt u v hu hv := (h.halt u v hu hv).trans hnm

/-- The constructor reads the journal and the pending record as they are stored. -/
theorem construct_records {d : Storage} {s : Memory} (h : construct d = .ok s) :
    s.journal = d.journal ∧ s.pending = d.pending ∧ s.current = 0 ∧ s.reconciled = false := by
  unfold construct at h
  split at h
  · obtain ⟨b,-,h⟩ := Checked.bind_eq_ok.mp h
    split at h <;> (cases h; exact ⟨rfl,rfl,rfl,rfl⟩)
  · cases h
    exact ⟨rfl,rfl,rfl,rfl⟩

/-- How a built instance is halted: by the stored halt, or on the stored intent. -/
theorem construct_cases {d : Storage} {s : Memory} (h : construct d = .ok s) :
    s = loaded d ∧ (∀ i, d.intent = some i → (loaded d).uncertainSend = none →
        journaled d.journal i.step = .ok true ∨ ∃ p, d.pending = some p ∧ p.step = i.step) ∨
      ∃ i, d.intent = some i ∧ s.halted = true ∧ s.uncertainSend = some i ∧
        (loaded d).uncertainSend = none := by
  unfold construct at h
  split at h
  · rename_i i hi hu
    obtain ⟨b,hb,h⟩ := Checked.bind_eq_ok.mp h
    by_cases hc : (b || d.pending.any (·.step = i.step)) = true
    · rw [if_pos hc] at h
      cases h
      refine .inl ⟨rfl,fun i' hi' _ => ?_⟩
      cases hi.symm.trans hi'
      rcases Bool.or_eq_true _ _ ▸ hc with rfl | hp
      · exact .inl hb
      · obtain ⟨p,hp,hs⟩ := Option.any_eq_true _ _ |>.mp hp
        exact .inr ⟨p,hp,of_decide_eq_true hs⟩
    · rw [if_neg hc] at h
      cases h
      exact .inr ⟨i,hi,rfl,rfl,hu⟩
  · rename_i hne
    cases h
    exact .inl ⟨rfl,fun i hi hu => (hne i hi hu).elim⟩

/-- A built instance is uncertain of a stored send. -/
theorem construct_uncertainWithin {d : Storage} {s : Memory} {n : ℕ} {u : Intent}
    (hs : construct d = .ok s) (h : Within d n) (hu : s.uncertainSend = some u) : u.step ≤ n := by
  rcases construct_cases hs with ⟨rfl,-⟩ | ⟨i,hi,-,hui,-⟩
  · obtain ⟨x,hx,hxu⟩ := Option.bind_eq_some_iff.mp hu
    exact h.halt x u hx hxu
  · cases hui.symm.trans hu
    exact h.intent _ hi

/-- Unless it is halted, no halt is stored, and nothing is uncertain. -/
theorem construct_running {d : Storage} {s : Memory} (hs : construct d = .ok s)
    (hh : s.halted = false) : d.halt = none ∧ s.uncertainSend = none := by
  rcases construct_cases hs with ⟨rfl,-⟩ | ⟨-,-,hhalt,-⟩
  · have hnone : d.halt = none := by simpa [loaded] using hh
    exact ⟨hnone,by simp [loaded,hnone]⟩
  · rw [hh] at hhalt
    cases hhalt

/-- What holds of the durable records wherever the page may crash. -/
structure Restorable (R : Runtime) (d : Storage) (l : List SendEvent) : Prop where
  once : AtMostOnce l
  ordered : InOrder R l
  journal : WellKept R d.journal
  within : Within d d.journal.length
  blocked : ∀ s k, construct d = .ok s → Outstanding l k → Blocked s k

theorem Restorable.empty (R : Runtime) : Restorable R Storage.empty [] where
  once := .nil
  ordered := .nil R
  journal _ _ he := by cases he
  within := ⟨nofun,nofun,nofun⟩
  blocked _ k _ ho := absurd ho (not_outstanding_nil k)

/-- Where the stored journal and pending record cover every outstanding step, the other
records do not matter. -/
theorem Restorable.of_covered {R : Runtime} {d : Storage} {l : List SendEvent}
    (once : AtMostOnce l) (ordered : InOrder R l) (journal : WellKept R d.journal)
    (within : Within d d.journal.length)
    (covered : ∀ k, Outstanding l k → Covered d.journal d.pending k) : Restorable R d l where
  once := once
  ordered := ordered
  journal := journal
  within := within
  blocked s k hs ho := by
    obtain ⟨hj,hp,-,-⟩ := construct_records hs
    rw [Blocked,hj,hp]
    exact .inl (covered k ho)

/-- The intent blocks its own step, where no halt is stored. -/
theorem blocked_of_intent {R : Runtime} {d : Storage} {s : Memory} {i : Intent}
    (hj : WellKept R d.journal) (hh : d.halt = none) (hi : d.intent = some i)
    (hs : construct d = .ok s) : Blocked s i.step := by
  obtain ⟨hsj,hsp,-,-⟩ := construct_records hs
  rw [Blocked,hsj,hsp]
  rcases construct_cases hs with ⟨-,h⟩ | ⟨i',hi',hhalt,hu,-⟩
  · rcases h i hi (by simp [loaded,hh]) with h | ⟨p,hp,hk⟩
    · exact .inl (.inl (lt_length_of_journaled hj h))
    · exact .inl (.inr ⟨p,hp,hk⟩)
  · cases hi.symm.trans hi'
    refine .inr ⟨hhalt,fun u hu' => ?_⟩
    cases hu.symm.trans hu'
    rfl

/-- A stored halt on an intent blocks the step of the intent. -/
theorem blocked_of_halt {d : Storage} {s : Memory} {h : Halt} {u : Intent}
    (hh : d.halt = some h) (hu : h.uncertainSend = some u) (hs : construct d = .ok s) :
    Blocked s u.step := by
  have hload : (loaded d).uncertainSend = some u := by simp [loaded,hh,hu]
  have hs' : s = loaded d := by
    unfold construct at hs
    rw [hload] at hs
    split at hs
    · rename_i heq
      cases heq
    · cases hs
      rfl
  rw [hs']
  refine .inr ⟨by simp [loaded,hh],fun v hv => ?_⟩
  cases hload.symm.trans hv
  rfl

/-! ## Between the calls -/

/-- How an instance agrees with the records. -/
structure Kept (R : Runtime) (s : Memory) (d : Storage) (l : List SendEvent) : Prop where
  durable : Restorable R d l
  journal : WellKept R s.journal
  length : s.journal.length ≤ d.journal.length
  places : ∀ j < s.journal.length, Holds s.journal j → Holds d.journal j
  within : Within d s.journal.length
  uncertainWithin : ∀ u, s.uncertainSend = some u → u.step ≤ s.journal.length
  pendingStored : ∀ p, s.pending = some p → d.pending = some p
  haltStored : s.halted = false → d.halt = none
  uncertainHalted : s.halted = false → s.uncertainSend = none
  current_le : s.current ≤ s.journal.length
  reconciled : s.reconciled = true → ∀ j < s.journal.length, Holds s.journal j
  atEnd : s.reconciled = true → s.halted = false → s.current = s.journal.length

/-- What holds between the calls. -/
structure Coherent (R : Runtime) (s : Memory) (d : Storage) (l : List SendEvent) : Prop extends
    Kept R s d l where
  blocked : ∀ k, Outstanding l k → Blocked s k

/-- The instance that a reload builds. -/
theorem Restorable.load {R : Runtime} {d : Storage} {l : List SendEvent} {s : Memory}
    (h : Restorable R d l) (hs : construct d = .ok s) : Coherent R s d l := by
  obtain ⟨hj,hp,hc,hr⟩ := construct_records hs
  exact
    { durable := h
      journal := hj ▸ h.journal
      length := by rw [hj]
      places := fun j _ => hj ▸ id
      within := hj ▸ h.within
      uncertainWithin := fun u hu => hj ▸ construct_uncertainWithin hs h.within hu
      pendingStored := fun p => hp ▸ id
      haltStored := fun hh => (construct_running hs hh).1
      uncertainHalted := fun hh => (construct_running hs hh).2
      current_le := by rw [hc]; exact Nat.zero_le _
      reconciled := fun h => by rw [hr] at h; cases h
      atEnd := fun h => by rw [hr] at h; cases h
      blocked := fun k => h.blocked s k hs }

/-- An instance that is not halted covers every outstanding step. -/
theorem Coherent.covered {R : Runtime} {s : Memory} {d : Storage} {l : List SendEvent}
    (h : Coherent R s d l) (hs : s.halted = false) {k : ℕ} (ho : Outstanding l k) :
    Covered s.journal s.pending k := by
  rcases h.blocked k ho with hc | ⟨hh,-⟩
  · exact hc
  · rw [hs] at hh
    cases hh

/-- What the instance covers, the records cover. -/
theorem Kept.covered_stored {R : Runtime} {s : Memory} {d : Storage} {l : List SendEvent}
    (h : Kept R s d l) {k : ℕ} (hc : Covered s.journal s.pending k) :
    Covered d.journal d.pending k := by
  rcases hc with hk | ⟨p,hp,hk⟩
  · exact .inl (hk.trans_le h.length)
  · exact .inr ⟨p,h.pendingStored p hp,hk⟩

end Canary
end BpsProtocol
