import BpsProtocol.CanaryPhases

/-! Overlapping calls of the canary operator.
`sendCurrent` tests the pending record and the halt before its awaits and never again, so
two calls that overlap, on one instance or in two tabs over one storage, both reach the
wallet.  Each step is sent at most once where `sendCurrent` starts on an instance only while neither
it nor a resolution runs there, and an instance is left alone once another one has written to the
storage or asked the wallet.  All other overlap is allowed. -/
namespace BpsProtocol
namespace Canary

open Async

/-! ## What the calls rely on -/

/-- One send at a time runs on an instance, and none starts while an uncertain one is resolved. -/
def overlap : Discipline Rpc Method where
  silent := Silent
  isLocal
    | .markConnected => true
    | _ => false
  sole
    | .sendCurrent _ => true
    | _ => false
  bars
    | .resolveUncertainSend _ => true
    | _ => false

/-- What the other calls leave of the instance while one awaits. -/
structure Rely (m : Method) (s s' : Memory) : Prop where
  grows : s.journal.length ≤ s'.journal.length
  atEnd : s.AtEnd → s'.AtEnd
  resolvable : overlap.bars m = true → ∀ u, Resolvable s u → Resolvable s' u

def Runtime.phases (R : Runtime) : Phases Memory Storage Method SendEvent (Option Sending) where
  rest := none
  inv := Together R
  rely := Rely

theorem Runtime.phases_lawful (R : Runtime) : Lawful sends overlap R.phases where
  issued := sends_issued
  answered := sends_answered
  refl _ _ := ⟨le_rfl,id,fun _ _ => id⟩
  trans _ _ _ _ h h' := ⟨h.grows.trans h'.grows,h'.atEnd ∘ h.atEnd,fun hm u =>
    h'.resolvable hm u ∘ h.resolvable hm u⟩

theorem Moves.rely {m : Method} {s s' : Memory} (h : Moves s s') : Rely m s s' :=
  ⟨h.grows,h.atEnd,fun _ => h.resolvable⟩

section Programs

variable {R : Runtime} {α β : Type} {m : Method}

/-- The program keeps what the other calls on its instance rely on, and ends where `Q` holds. -/
abbrev Stays (R : Runtime) (m : Method)
    (Q : Except Failure α → Option Sending → Memory → Storage → List SendEvent → Prop)
    (g₀ : Option Sending) (s₀ : Memory) (p : Program α) (s : Memory) (d : Storage)
    (l : List SendEvent) : Prop :=
  Shares sends (fun _ _ => True) overlap R.phases m Q g₀ s₀ p s d l

abbrev Comes (R : Runtime) (m : Method) (g₀ : Option Sending) (s₀ : Memory) (g : Option Sending)
    (s : Memory) (d : Storage) (l : List SendEvent) : Prop :=
  R.phases.Comes overlap m g₀ s₀ g s d l

abbrev Onward (R : Runtime) (m : Method) (g : Option Sending) (s : Memory) (r : Except Failure α)
    (g' : Option Sending) (s' : Memory) (d : Storage) (l : List SendEvent) : Prop :=
  R.phases.Onward overlap m g s r g' s' d l

variable {Q : Except Failure α → Option Sending → Memory → Storage → List SendEvent → Prop}
  {g₀ g : Option Sending} {s₀ s s' : Memory} {d d' : Storage} {l l' : List SendEvent}

theorem Comes.move (h : Comes R m g₀ s₀ g s d l) (hinv : Together R g s' d' l')
    (hmoves : Moves s s') : Comes R m g₀ s₀ g s' d' l' :=
  h.after R.phases_lawful ⟨hinv,fun _ _ => hmoves.rely,fun _ => rfl⟩

theorem Stays.onward {g' : Option Sending} {p : Program α}
    (h : Stays R m (Onward R m g' s') g' s' p s' d l) (hrely : Rely m s s')
    (hmoved : R.phases.Moved overlap m g g') : Stays R m (Onward R m g s) g' s' p s' d l :=
  h.mono fun _ _ _ _ _ _ hon => .trans R.phases_lawful ⟨hrely,hmoved⟩ hon

theorem Stays.looks_bind {p : Program β} {f : β → Program α} (hp : Looks p)
    (hc : Comes R m g₀ s₀ g s d l) (ha : R.phases.Awaits overlap m g)
    (hnext : ∀ r g' s' d' l', Together R g' s' d' l' → Rely m s s' →
      R.phases.Moved overlap m g g' → Stays R m Q g' s' (Prog.following f r) s' d' l') :
    Stays R m Q g₀ s₀ (p >>= f) s d l :=
  .onward_bind R.phases_lawful ((Shares.quiet R.phases_lawful hp
    (Yields.of_forall fun _ => trivial) hc ha).mono fun _ _ _ _ _ _ h => h.2) hnext

/-! ## Calls that send nothing -/

theorem onward_moves {r : Except Failure α} (ha : R.phases.Awaits overlap m g)
    (h : Moves s s') : Onward R m g s r g s' d l := ⟨h.rely,ha.stays⟩

theorem Stays.halt (hc : Comes R m g₀ s₀ g s d l) (ha : R.phases.Awaits overlap m g)
    (reason : String) : Stays R m (Onward R m g s) g₀ s₀ (Canary.halt reason) s d l := by
  have hstored := Together.halt hc.inv reason (.inl rfl)
  have hlost := Together.halt hc.inv reason (.inr rfl)
  refine Shares.get_bind fun w => ?_
  cases w with
  | confirmed => exact ⟨g,hc.move hstored.1 hstored.2,onward_moves ha hstored.2⟩
  | unconfirmed => exact ⟨g,hc.move hstored.1 hstored.2,onward_moves ha hstored.2⟩
  | lost => exact ⟨g,hc.move hlost.1 hlost.2,onward_moves ha hlost.2⟩

theorem Stays.preconditions (hc : Comes R m g₀ s₀ g s d l) (ha : R.phases.Awaits overlap m g)
    (now : ℕ) : Stays R m (Onward R m g s) g₀ s₀ (R.preconditions now) s d l := by
  have hstay : ∀ r : Except Failure (Except Outcome Runtime.Ready), Onward R m g s r g s d l :=
    fun _ => onward_moves ha (.refl s)
  refine Shares.get_bind ?_
  split_ifs
  · exact ⟨g,hc,hstay _⟩
  · exact ⟨g,hc,hstay _⟩
  · exact ⟨g,hc,hstay _⟩
  · exact ⟨g,hc,hstay _⟩
  · exact ⟨g,hc,hstay _⟩
  · cases R.steps[s.current]? with
    | none => exact ⟨g,hc,hstay _⟩
    | some t =>
      refine Stays.looks_bind (R.looks_gates s.current t now) hc ha
        fun r g' s' d' l' hinv hrely hmoved => ?_
      have hc' : Comes R m g' s' g' s' d' l' := .start R.phases_lawful hinv
      cases r with
      | error e => exact ⟨g',hc',hrely,hmoved⟩
      | ok v =>
        obtain ⟨gs,exposure⟩ := v
        rw [Prog.following_ok]
        dsimp only
        split_ifs
        · exact ⟨g',hc',hrely,hmoved⟩
        · refine .onward_bind R.phases_lawful (Stays.halt hc' (hmoved.awaits ha) _)
            fun r g'' s'' d'' l'' hinv' hrely' hmoved' => ?_
          have hon : ∀ r : Except Failure (Except Outcome Runtime.Ready),
              Onward R m g s r g'' s'' d'' l'' := fun _ =>
            .trans R.phases_lawful ⟨hrely,hmoved⟩ ⟨hrely',hmoved'⟩
          cases r with
          | ok o => exact ⟨g'',.start R.phases_lawful hinv',hon _⟩
          | error e => exact ⟨g'',.start R.phases_lawful hinv',hon _⟩

theorem Stays.journalStep (hc : Comes R m g₀ s₀ g s d l) (ha : R.phases.Awaits overlap m g) {i : ℕ}
    (hi : i ≤ s.journal.length) (txHash : Text) (found : Finding) :
    Stays R m (Onward R m g s) g₀ s₀ (R.journalStep i txHash found) s d l := by
  have hinv : Together R g s d l := hc.inv
  have hdone : ∀ {r : Except Failure Outcome} {d' : Storage},
      d'.journal = s.journal ++ [some (R.entryOf i txHash)] → d'.halt = d.halt →
      (d'.pending = none ∨ d'.pending = d.pending) → (d'.intent = none ∨ d'.intent = d.intent) →
      Stays R m (Onward R m g s) g₀ s₀ (.ret r)
        { s with
          journal := s.journal ++ [some (R.entryOf i txHash)]
          pending := none
          intent := none
          current := s.current+1 } d' l := fun hj hh hp hx =>
    have hadvanced := hinv.advanced hi hj hh hp hx
    ⟨g,hc.move hadvanced.1 hadvanced.2,onward_moves ha hadvanced.2⟩
  refine Shares.get_bind (Shares.write_bind ?_
    ⟨g,hc.move (hinv.journalStored hi txHash) (.refl s),onward_moves ha (.refl s)⟩
    ⟨g,hc,onward_moves ha (.refl s)⟩)
  refine Shares.modify_bind (Shares.write_bind ?_ ?_ ?_)
  all_goals refine Shares.modify_bind (Shares.write_bind ?_ ?_ ?_)
  · exact hdone rfl rfl (.inl rfl) (.inl rfl)
  · exact hdone rfl rfl (.inl rfl) (.inl rfl)
  · exact hdone rfl rfl (.inl rfl) (.inr rfl)
  · exact hdone rfl rfl (.inl rfl) (.inl rfl)
  · exact hdone rfl rfl (.inl rfl) (.inl rfl)
  · exact hdone rfl rfl (.inl rfl) (.inr rfl)
  · exact hdone rfl rfl (.inr rfl) (.inl rfl)
  · exact hdone rfl rfl (.inr rfl) (.inl rfl)
  · exact hdone rfl rfl (.inr rfl) (.inr rfl)

/-- A check that fails halts the instance, and one that holds lets the call go on. -/
theorem Stays.checked_bind {p : Program (Except String β)} {f : Except String β → Program Outcome}
    (hp : Looks p) (hc : Comes R m g₀ s₀ g s d l) (ha : R.phases.Awaits overlap m g)
    (hfails : ∀ reason, ∃ text, f (.error reason) = Canary.halt text)
    (hnext : ∀ v g' s' d' l', Comes R m g' s' g' s' d' l' → R.phases.Awaits overlap m g' →
      Rely m s s' → Stays R m (Onward R m g' s') g' s' (f (.ok v)) s' d' l') :
    Stays R m (Onward R m g s) g₀ s₀ (p >>= f) s d l := by
  refine Stays.looks_bind hp hc ha fun r g' s' d' l' hinv hrely hmoved => ?_
  have hc' : Comes R m g' s' g' s' d' l' := .start R.phases_lawful hinv
  have ha' := hmoved.awaits ha
  cases r with
  | error e => exact ⟨g',hc',hrely,hmoved⟩
  | ok v =>
    cases v with
    | error reason =>
      obtain ⟨text,htext⟩ := hfails reason
      rw [Prog.following_ok,htext]
      exact (Stays.halt hc' ha' text).onward hrely hmoved
    | ok v => exact (hnext v g' s' d' l' hc' ha' hrely).onward hrely hmoved

theorem Stays.verifyPending (hc : Comes R m g₀ s₀ g s d l) (ha : R.phases.Awaits overlap m g)
    {i : ℕ} (hi : i ≤ s.journal.length) (txHash : Text) :
    Stays R m (Onward R m g s) g₀ s₀ (R.verifyPending i txHash) s d l := by
  refine Stays.checked_bind (R.looks_verifyStep _ _ _ _) hc ha (fun _ => ⟨_,rfl⟩)
    fun v g' s' d' l' hc' ha' hrely => ?_
  refine Stays.checked_bind (R.looks_cumulativeCheckpoint _ _) hc' ha' (fun _ => ⟨_,rfl⟩)
    fun _ g'' s'' d'' l'' hc'' ha'' hrely' => ?_
  exact Stays.journalStep hc'' ha'' (hi.trans (hrely.grows.trans hrely'.grows)) txHash v.1

theorem Stays.verifyAfterHash (hc : Comes R m g₀ s₀ g s d l) (ha : R.phases.Awaits overlap m g)
    (txHash : Text) : Stays R m (Onward R m g s) g₀ s₀ (R.verifyAfterHash txHash) s d l := by
  refine Shares.get_bind ?_
  split_ifs
  · exact ⟨g,hc,onward_moves ha (.refl s)⟩
  · cases s.pending with
    | none => exact Stays.halt hc ha _
    | some p =>
      dsimp only
      split_ifs
      · exact Stays.verifyPending hc ha (Together.standing hc.inv).current_le txHash
      · exact Stays.halt hc ha _

theorem looks_verifyJournal (k left : ℕ) : Looks (R.verifyJournal k left) := by
  induction left generalizing k with
  | zero =>
    rw [Runtime.verifyJournal]
    refine .get_bind fun s => ?_
    split
    · trivial
    · trivial
    · exact .ite trivial trivial
  | succ left ih =>
    rw [Runtime.verifyJournal]
    refine .get_bind fun s => ?_
    split
    · trivial
    · trivial
    · refine .ite (.bind (R.looks_verifyStep _ _ _ _) fun v => ?_) trivial
      cases v with
      | error reason => trivial
      | ok v => exact ih (k+1)

theorem Stays.resumePending (hc : Comes R m g₀ s₀ g s d l) (ha : R.phases.Awaits overlap m g)
    (hs : s.AtEnd) : Stays R m (Onward R m g s) g₀ s₀ R.resumePending s d l := by
  refine Shares.get_bind ?_
  cases s.pending with
  | none => exact ⟨g,hc,onward_moves ha (.refl s)⟩
  | some p =>
    refine Stays.looks_bind (.req id) hc ha fun r g' s' d' l' hinv hrely hmoved => ?_
    have hc' : Comes R m g' s' g' s' d' l' := .start R.phases_lawful hinv
    have ha' := hmoved.awaits ha
    cases r with
    | error e => exact ⟨g',hc',hrely,hmoved⟩
    | ok otx =>
      cases otx with
      | none =>
        have hmoves : Moves s' { s' with reconciled := false } := ⟨le_rfl,id,fun _ => id⟩
        exact ⟨g',hc'.move hinv.unreconcile hmoves,
          .trans R.phases_lawful ⟨hrely,hmoved⟩ (onward_moves ha' hmoves)⟩
      | some otx =>
        refine Stays.onward (Shares.get_bind ?_) hrely hmoved
        cases s'.pending with
        | none => exact ⟨g',hc',onward_moves ha' (.refl s')⟩
        | some p =>
          refine .onward_bind R.phases_lawful (Stays.verifyAfterHash hc' ha' p.txHash)
            fun r g'' s'' d'' l'' hinv' hrely' hmoved' => ?_
          have hc'' : Comes R m g'' s'' g'' s'' d'' l'' := .start R.phases_lawful hinv'
          cases r with
          | error e => exact ⟨g'',hc'',hrely',hmoved'⟩
          | ok v =>
            rw [Prog.following_ok]
            split_ifs
            · have hend := hrely'.atEnd (hrely.atEnd hs)
              have hmoves : Moves s'' { s'' with reconciled := true } := ⟨le_rfl,id,fun _ => id⟩
              exact ⟨g'',hc''.move (hinv'.reconcile hend) hmoves,.trans R.phases_lawful
                ⟨hrely',hmoved'⟩ (onward_moves (hmoved'.awaits ha') hmoves)⟩
            · exact ⟨g'',hc'',hrely',hmoved'⟩

theorem Stays.dropStalePending (hc : Comes R m g₀ s₀ g s d l)
    (ha : R.phases.Awaits overlap m g) :
    Stays R m (Onward R m g s) g₀ s₀ Runtime.dropStalePending s d l := by
  refine Shares.get_bind ?_
  split_ifs with hstale
  · have hlt : ∀ p, s.pending = some p → p.step < s.journal.length := fun p hp => by
      simpa [hp] using hstale
    have hstored := Together.dropPending hc.inv hlt (.inl rfl)
    have hlost := Together.dropPending hc.inv hlt (.inr rfl)
    refine Shares.write_bind ?_ ?_ ?_
    · exact ⟨g,hc.move hstored.1 hstored.2,onward_moves ha hstored.2⟩
    · exact ⟨g,hc.move hstored.1 hstored.2,onward_moves ha hstored.2⟩
    · exact ⟨g,hc.move hlost.1 hlost.2,onward_moves ha hlost.2⟩
  · exact ⟨g,hc,onward_moves ha (.refl s)⟩

theorem Stays.finishReconcile (hc : Comes R m g₀ s₀ g s d l) (ha : R.phases.Awaits overlap m g) :
    Stays R m (Onward R m g s) g₀ s₀ R.finishReconcile s d l := by
  obtain ⟨hat,hmoves⟩ := Together.toEnd hc.inv
  refine Shares.modify_bind (.onward_bind R.phases_lawful
    (Stays.dropStalePending (hc.move hat hmoves) ha) fun r g' s' d' l' hinv hrely hmoved => ?_)
  have hon : Rely m s s' := R.phases_lawful.trans m _ _ _ hmoves.rely hrely
  have hc' : Comes R m g' s' g' s' d' l' := .start R.phases_lawful hinv
  cases r with
  | error e => exact ⟨g',hc',hon,hmoved⟩
  | ok _ =>
    exact (Stays.resumePending hc' (hmoved.awaits ha) (hrely.atEnd fun _ => rfl)).onward hon hmoved

theorem Stays.reconcile (hc : Comes R m g₀ s₀ g s d l) (ha : R.phases.Awaits overlap m g) :
    Stays R m (Onward R m g s) g₀ s₀ R.reconcile s d l := by
  refine Shares.get_bind ?_
  split_ifs
  · exact ⟨g,hc,onward_moves ha (.refl s)⟩
  · exact ⟨g,hc,onward_moves ha (.refl s)⟩
  · exact ⟨g,hc,onward_moves ha (.refl s)⟩
  · refine Stays.checked_bind (looks_verifyJournal 0 R.steps.length) hc ha (fun _ => ⟨_,rfl⟩)
      fun _ g' s' d' l' hc' ha' _ => ?_
    refine Stays.checked_bind R.looks_restartCheckpoint hc' ha' (fun _ => ⟨_,rfl⟩)
      fun _ g'' s'' d'' l'' hc'' ha'' _ => ?_
    exact Stays.finishReconcile hc'' ha''

theorem Stays.journalResolved {Q : Except Failure Outcome → Option Sending → Memory → Storage →
    List SendEvent → Prop} (hc : Comes R m g₀ s₀ none s d l) {u : Intent} (hu : Resolvable s u)
    (hQ : ∀ r s d l, Q r none s d l) (txHash : Text) :
    Stays R m Q g₀ s₀ (R.journalResolved u.step txHash) s d l := by
  have hinv : Together R none s d l := hc.inv
  have hhalted : ∀ {r : Except Failure Outcome} {d'},
      ResolvedTo (R.resolved s u.step txHash) d d' →
      Stays R m Q g₀ s₀ (.ret r) { s with journal := R.resolved s u.step txHash } d' l := fun hd =>
    have h := hinv.resolvedHalted hu hd
    ⟨none,hc.move h.1 h.2,hQ _ _ _ _⟩
  have hcleared : ∀ {r : Except Failure Outcome} {d'},
      ResolvedTo (R.resolved s u.step txHash) d d' → d'.halt = none →
      Stays R m Q g₀ s₀ (.ret r)
        { s with
          journal := R.resolved s u.step txHash
          uncertainSend := none
          intent := none
          halted := false
          haltReason := none
          current := (R.resolved s u.step txHash).length } d' l := fun hd hh =>
    have h := hinv.resolvedCleared hu hd hh
    ⟨none,hc.move h.1 h.2,hQ _ _ _ _⟩
  refine Shares.get_bind (Shares.write_bind ?_
    ⟨none,hc.move (hinv.resolvedStored hu txHash) (.refl s),hQ _ _ _ _⟩
    ⟨none,hc,hQ _ _ _ _⟩)
  refine Shares.modify_bind (Shares.write_bind ?_ ?_ ?_)
  · refine Shares.write_bind ?_ ?_ ?_
    · exact hcleared ⟨rfl,rfl,.inl rfl,.inl rfl⟩ rfl
    · exact hhalted ⟨rfl,rfl,.inl rfl,.inl rfl⟩
    · exact hhalted ⟨rfl,rfl,.inl rfl,.inr rfl⟩
  · refine Shares.write_bind ?_ ?_ ?_
    · exact hhalted ⟨rfl,rfl,.inl rfl,.inl rfl⟩
    · exact hhalted ⟨rfl,rfl,.inl rfl,.inl rfl⟩
    · exact hhalted ⟨rfl,rfl,.inl rfl,.inr rfl⟩
  · refine Shares.write_bind ?_ ?_ ?_
    · exact hhalted ⟨rfl,rfl,.inr rfl,.inl rfl⟩
    · exact hhalted ⟨rfl,rfl,.inr rfl,.inl rfl⟩
    · exact hhalted ⟨rfl,rfl,.inr rfl,.inr rfl⟩

/-- A resolution finds nothing uncertain while a send is in progress, and none starts during it. -/
theorem Stays.resolveUncertainSend (h : Together R g s d l) (txHash : Text) :
    Stays R (.resolveUncertainSend txHash) (R.phases.Ends overlap (.resolveUncertainSend txHash))
      g s (R.resolveUncertainSend txHash) s d l := by
  have hc : Comes R (.resolveUncertainSend txHash) g s g s d l := .start R.phases_lawful h
  refine Shares.get_bind ?_
  cases hu : s.uncertainSend with
  | none => exact ⟨g,hc,nofun⟩
  | some u =>
    have hrest : g = none := by
      cases g with
      | none => rfl
      | some p => cases (h.flight p rfl).certain.symm.trans hu
    refine Stays.looks_bind (R.looks_verifyStep _ _ _ _) hc ⟨nofun,fun _ => hrest⟩
      fun r g' s' d' l' hinv hrely hmoved => ?_
    obtain rfl : g' = none := hmoved.bars rfl
    have hc' : Comes R (.resolveUncertainSend txHash) none s' none s' d' l' :=
      .start R.phases_lawful hinv
    cases r with
    | error e => exact ⟨none,hc',nofun⟩
    | ok v =>
      cases v with
      | error reason => exact ⟨none,hc',nofun⟩
      | ok v =>
        exact Stays.journalResolved hc' (hrely.resolvable rfl u (.inl hu)) (fun _ _ _ _ => nofun)
          txHash

theorem Stays.markConnected (hc : Comes R m g₀ s₀ g s d l) (ha : R.phases.Awaits overlap m g) :
    Stays R m (Onward R m g s) g₀ s₀ Runtime.markConnected s d l := by
  refine Shares.get_bind ?_
  split_ifs
  · exact ⟨g,hc,onward_moves ha (.refl s)⟩
  · refine Stays.looks_bind (.req id) hc ha fun r g' s' d' l' hinv hrely hmoved => ?_
    have hc' : Comes R m g' s' g' s' d' l' := .start R.phases_lawful hinv
    have ha' := hmoved.awaits ha
    cases r with
    | error e => exact ⟨g',hc',hrely,hmoved⟩
    | ok chain =>
      rw [Prog.following_ok]
      split_ifs
      · exact ⟨g',hc',hrely,hmoved⟩
      · refine Stays.onward (Stays.looks_bind (.req id) hc' ha'
          fun r g'' s'' d'' l'' hinv' hrely' hmoved' => ?_) hrely hmoved
        have hc'' : Comes R m g'' s'' g'' s'' d'' l'' := .start R.phases_lawful hinv'
        cases r with
        | error e => exact ⟨g'',hc'',hrely',hmoved'⟩
        | ok accts =>
          rw [Prog.following_ok]
          split_ifs
          · exact ⟨g'',hc'',hrely',hmoved'⟩
          · have hmoves : Moves s'' { s'' with connected := true } := ⟨le_rfl,id,fun _ => id⟩
            exact ⟨g'',hc''.move (Together.setConnected hinv') hmoves,.trans R.phases_lawful
              ⟨hrely',hmoved'⟩ (onward_moves (hmoved'.awaits ha') hmoves)⟩

end Programs

/-! ## Sends -/

section Sends

variable {R : Runtime} {now : ℕ} {g₀ g : Option Sending} {s₀ s s' : Memory} {d d' : Storage}
  {l l' : List SendEvent} {p : Sending} {x : Intent} {i : ℕ}

/-- A part of a send that leaves the journal as it is. -/
theorem Comes.send {g' : Option Sending} (h : Comes R (.sendCurrent now) g₀ s₀ g s d l)
    (hinv : Together R g' s' d' l') (hjournal : s'.journal = s.journal)
    (hend : s.AtEnd → s'.AtEnd) : Comes R (.sendCurrent now) g₀ s₀ g' s' d' l' :=
  h.after R.phases_lawful ⟨hinv,fun m hm => ⟨by rw [hjournal],hend,fun hbars => by
    rw [(hm rfl).2] at hbars
    cases hbars⟩,nofun⟩

/-- The program is the rest of a send: it ends at rest. -/
abbrev Finishes {α : Type} (R : Runtime) (now : ℕ) (g₀ : Option Sending) (s₀ : Memory)
    (q : Program α) (s : Memory) (d : Storage) (l : List SendEvent) : Prop :=
  Stays R (.sendCurrent now) (R.phases.Ends overlap (.sendCurrent now)) g₀ s₀ q s d l

theorem sole_awaits : R.phases.Awaits overlap (.sendCurrent now) (some p) := ⟨fun _ => nofun,nofun⟩

theorem Finishes.unasked {α : Type} {r : Except Failure α}
    (hc : Comes R (.sendCurrent now) g₀ s₀ (some p) s d l) (hp : p.asked = false) :
    Finishes R now g₀ s₀ (.ret r) s d l :=
  ⟨none,hc.send (Together.end hc.inv hp) rfl id,fun _ => rfl⟩

theorem Finishes.uncertain (hc : Comes R (.sendCurrent now) g₀ s₀ (some p) s d l)
    (reason : String) (txHash : Option Text) (hx : x.step ≤ s.journal.length)
    (hp : p.asked = true → p.intent = some x) :
    Finishes R now g₀ s₀ (Runtime.uncertain reason x txHash) s d l := by
  have hstored := Together.uncertain hc.inv reason hx hp (.inl rfl)
  have hlost := Together.uncertain hc.inv reason hx hp (.inr rfl)
  intro w
  cases w with
  | confirmed => exact ⟨none,hc.send hstored rfl fun _ => nofun,fun _ => rfl⟩
  | unconfirmed => exact ⟨none,hc.send hstored rfl fun _ => nofun,fun _ => rfl⟩
  | lost => exact ⟨none,hc.send hlost rfl fun _ => nofun,fun _ => rfl⟩

theorem Finishes.clearRejected
    (hc : Comes R (.sendCurrent now) g₀ s₀ (some ⟨i,some x,false⟩) s d l) :
    Finishes R now g₀ s₀ (Runtime.clearRejected x) s d l := by
  have hinv : Together R (some ⟨i,some x,false⟩) s d l := hc.inv
  have hx : x.step ≤ s.journal.length := (hinv.flight _ rfl).within x rfl
  have hclear := hinv.writeIntent rfl (i := none) nofun
  refine Shares.write_bind ?_ ?_ ?_
  · exact Finishes.unasked (hc.send (hclear.setIntent none) rfl id) rfl
  · exact Finishes.uncertain (hc.send hclear rfl id) _ none hx nofun
  · exact Finishes.uncertain hc _ none hx nofun

theorem Finishes.recordPending
    (hc : Comes R (.sendCurrent now) g₀ s₀ (some ⟨i,some x,true⟩) s d l) (txHash : Text) :
    Finishes R now g₀ s₀ (R.recordPending x txHash) s d l := by
  have hinv : Together R (some ⟨i,some x,true⟩) s d l := hc.inv
  have hx : x.step ≤ s.journal.length := (hinv.flight _ rfl).within x rfl
  have hrecord := hinv.recordPending (q := ⟨R.execDigest,s.current,txHash⟩) rfl
  refine Shares.get_bind (Shares.write_bind ?_ ?_ ?_)
  · exact ⟨none,hc.send hrecord.2 rfl id,fun _ => rfl⟩
  · exact Finishes.uncertain (hc.send hrecord.1 rfl id) _ _ hx fun _ => rfl
  · exact Finishes.uncertain hc _ _ hx fun _ => rfl

/-- The chain check does not fail, so it may stand where the wallet was asked. -/
theorem boundaryHolds_yields (t : Step) :
    Yields (fun _ _ => True) (fun r : Except Failure Bool => ∃ b, r = .ok b)
      (Runtime.boundaryHolds t) := by
  unfold Runtime.boundaryHolds
  split
  · rintro (e | c) -
    · exact ⟨_,rfl⟩
    · exact ⟨_,rfl⟩
  · exact ⟨_,rfl⟩

theorem Finishes.boundary_bind {t : Step} {f : Bool → Program Outcome}
    (hc : Comes R (.sendCurrent now) g₀ s₀ (some p) s d l)
    (hnext : ∀ b s' d' l', Together R (some p) s' d' l' →
      Finishes R now (some p) s' (f b) s' d' l') :
    Finishes R now g₀ s₀ (Runtime.boundaryHolds t >>= f) s d l := by
  refine .bind R.phases_lawful ((Shares.quiet R.phases_lawful (Runtime.looks_boundaryHolds t)
    (boundaryHolds_yields t) hc sole_awaits).mono ?_)
  rintro r g' s' d' l' hinv ⟨⟨b,rfl⟩,-,hmoved⟩
  obtain rfl : g' = some p := hmoved.sole rfl
  exact hnext b s' d' l' hinv

/-- The wallet is asked, and each of its answers leaves the step accounted for or rejected. -/
theorem Finishes.invokeWallet {t : Step}
    (hc : Comes R (.sendCurrent now) g₀ s₀ (some ⟨i,some x,false⟩) s d l) :
    Finishes R now g₀ s₀ (R.invokeWallet i t x) s d l := by
  have hask := Together.ask hc.inv d.journal
  refine Shares.attempt_bind (I := Rpc) (q := .sendTransaction i (Runtime.buildSendTx t))
    (hc.send hask rfl id) sole_awaits fun r g' s' d' l' hinv hrely hmoved => ?_
  obtain rfl : g' = some ⟨i,some x,true⟩ := hmoved.sole rfl
  have hx : x.step ≤ s'.journal.length := (Together.flight hinv _ rfl).within x rfl
  have hc' : Comes R (.sendCurrent now) (some ⟨i,some x,true⟩) s' (some ⟨i,some x,true⟩) s' d' l' :=
    .start R.phases_lawful hinv
  cases r with
  | error e =>
    by_cases hrej : e.isUserRejected = true
    · simp only [sends,if_pos hrej]
      exact Finishes.clearRejected (hc'.send (Together.rejected hinv) rfl id)
    · simp only [sends,if_neg hrej,List.append_nil]
      exact Finishes.uncertain hc' _ none hx fun _ => rfl
  | ok txHash =>
    simp only [sends,List.append_nil]
    refine Finishes.boundary_bind hc' fun holds s'' d'' l'' hinv' => ?_
    have hc'' : Comes R (.sendCurrent now) (some ⟨i,some x,true⟩) s'' (some ⟨i,some x,true⟩)
      s'' d'' l'' := .start R.phases_lawful hinv'
    cases holds with
    | true => exact Finishes.recordPending hc'' txHash
    | false =>
      exact Finishes.uncertain hc'' _ _ ((hinv'.flight _ rfl).within x rfl) fun _ => rfl

theorem Finishes.sendStep (hc : Comes R (.sendCurrent now) g₀ s₀ (some p) s d l)
    (hp : p.asked = false) : Finishes R now g₀ s₀ R.sendStep s d l := by
  refine Shares.get_bind ?_
  cases R.steps[s.current]? with
  | none => exact Finishes.unasked hc hp
  | some t =>
    refine Finishes.boundary_bind (hc.send (Together.choose hc.inv hp) rfl id)
      fun holds s' d' l' hinv => ?_
    have hc' : Comes R (.sendCurrent now) (some ⟨s.current,none,false⟩) s'
      (some ⟨s.current,none,false⟩) s' d' l' := .start R.phases_lawful hinv
    cases holds with
    | false => exact Finishes.unasked hc' rfl
    | true =>
      have hrecord := hinv.recordIntent rfl (x := R.intentOf s'.current t) rfl
      refine Shares.get_bind (Shares.write_bind ?_ ?_ ?_)
      · refine Shares.modify_bind (Finishes.boundary_bind
          (hc'.send (hrecord.setIntent (some (R.intentOf s'.current t))) rfl id)
          fun holds s'' d'' l'' hinv' => ?_)
        have hc'' : Comes R (.sendCurrent now) (some ⟨s.current,some (R.intentOf s'.current t),false⟩)
          s'' (some ⟨s.current,some (R.intentOf s'.current t),false⟩) s'' d'' l'' :=
            .start R.phases_lawful hinv'
        cases holds with
        | true => exact Finishes.invokeWallet hc''
        | false =>
          have hclear := (hinv'.writeIntent rfl (i := none) nofun).setIntent none
          refine Shares.write_bind ?_ ?_ ?_
          · exact Finishes.unasked (hc''.send hclear rfl id) rfl
          · exact Finishes.unasked (hc''.send hclear rfl id) rfl
          · exact Finishes.unasked (hc''.send (hinv'.setIntent none) rfl id) rfl
      · refine Finishes.unasked (hc'.send (hinv.writeIntent rfl fun y hy => ?_) rfl id) rfl
        cases hy
        exact ((hinv.flight _ rfl).current).le
      · exact Finishes.unasked hc' rfl

theorem Finishes.sendCurrent (h : Together R none s d l) :
    Finishes R now none s (R.sendCurrent now) s d l := by
  have hc : Comes R (.sendCurrent now) none s none s d l := .start R.phases_lawful h
  refine Shares.get_bind ?_
  split_ifs with hs hr hp
  · exact ⟨none,hc,fun _ => rfl⟩
  · exact ⟨none,hc,fun _ => rfl⟩
  · exact ⟨none,hc,fun _ => rfl⟩
  · simp only [Bool.or_eq_true,not_or,Bool.not_eq_true] at hs
    simp only [Bool.and_eq_true,Bool.not_eq_true',Bool.not_eq_false] at hr
    have hbegin := h.begin hs.1 (by simpa using hs.2) (by simpa using hp) hr.2
    refine .onward_bind R.phases_lawful (Stays.preconditions (hc.send hbegin rfl id) sole_awaits now)
      fun r g' s' d' l' hinv hrely hmoved => ?_
    obtain rfl : g' = some ⟨s.journal.length,none,false⟩ := hmoved.sole rfl
    have hc' : Comes R (.sendCurrent now) (some ⟨s.journal.length,none,false⟩) s'
      (some ⟨s.journal.length,none,false⟩) s' d' l' := .start R.phases_lawful hinv
    cases r with
    | error e => exact Finishes.unasked hc' rfl
    | ok pre =>
      cases pre with
      | error o => exact Finishes.unasked hc' rfl
      | ok ready => exact Finishes.sendStep hc' rfl

end Sends

/-! ## Runs -/

theorem Recoverable.empty (R : Runtime) : Recoverable R Storage.empty [] where
  once := .nil
  journal _ _ he := by cases he
  within := ⟨nofun,nofun,nofun⟩
  stored k ho := absurd ho (not_outstanding_nil k)

theorem local_markConnected : Local Silent Runtime.markConnected := by
  refine Local.get_bind fun s => ?_
  split_ifs
  · trivial
  · refine Local.bind ⟨id,fun r => by cases r <;> trivial⟩ fun chain => ?_
    split_ifs
    · trivial
    · refine Local.bind ⟨id,fun r => by cases r <;> trivial⟩ fun accts => ?_
      split_ifs <;> trivial

/-- What every method keeps for the others. -/
theorem operator_sharing (R : Runtime) :
    Sharing sends R.app (fun _ _ => True) overlap R.phases (Recoverable R) where
  toLawful := R.phases_lawful
  load _ _ _ hr hs := hr.load hs
  restores _ _ _ _ h := Together.recoverable h
  isLocal m hm := by
    cases m with
    | markConnected => exact local_markConnected
    | _ => cases hm
  call m g s d l h hrest := by
    have hc : Comes R m g s g s d l := .start R.phases_lawful h
    cases m with
    | markConnected =>
      exact (Stays.markConnected hc ⟨nofun,nofun⟩).mono fun _ _ _ _ _ _ _ => nofun
    | preconditions now =>
      refine .onward_bind R.phases_lawful (Stays.preconditions hc ⟨nofun,nofun⟩ now)
        fun r g' s' d' l' hinv hrely hmoved => ?_
      have hc' : Comes R (.preconditions now) g' s' g' s' d' l' := .start R.phases_lawful hinv
      cases r with
      | error e => exact ⟨g',hc',nofun⟩
      | ok pre => cases pre <;> exact ⟨g',hc',nofun⟩
    | sendCurrent now =>
      obtain rfl : g = none := hrest rfl
      exact Finishes.sendCurrent h
    | verifyAfterHash txHash =>
      exact (Stays.verifyAfterHash hc ⟨nofun,nofun⟩ txHash).mono fun _ _ _ _ _ _ _ => nofun
    | reconcile => exact (Stays.reconcile hc ⟨nofun,nofun⟩).mono fun _ _ _ _ _ _ _ => nofun
    | resolveUncertainSend txHash => exact Stays.resolveUncertainSend h txHash

abbrev OperatorBrowser := Browser Rpc Memory Storage Failure Outcome Method SendEvent

abbrev BrowserAction := Browser.Action Rpc Failure Method (fun _ _ => True)

/-- The browser after a run from empty storage. -/
def Runtime.browse (R : Runtime) (acts : List BrowserAction) : OperatorBrowser :=
  Machine.run (Browser.exec sends R.app) (Browser.blank Storage.empty) acts

/-- The run from empty storage keeps the discipline. -/
def Runtime.Orderly (R : Runtime) (D : Discipline Rpc Method) (acts : List BrowserAction) : Prop :=
  Browser.OrderlyRun D sends R.app (fun _ => False) (Browser.blank Storage.empty) acts

theorem Runtime.Orderly.recoverable {R : Runtime} {acts : List BrowserAction}
    (h : R.Orderly overlap acts) : Recoverable R (R.browse acts).durable (R.browse acts).log :=
  Browser.Shared.run (operator_sharing R) (.blank (.empty R)) h

/-- In every orderly run each step is sent at most once. -/
theorem orderly_sends_at_most_once (R : Runtime) (acts : List BrowserAction)
    (h : R.Orderly overlap acts) : AtMostOnce (R.browse acts).log :=
  h.recoverable.once

/-! ## Sample runs -/

theorem Runtime.orderly_of_isOrderlyRun {R : Runtime} {D : Discipline Rpc Method}
    [DecidablePred D.silent] {acts : List BrowserAction} {N : ℕ}
    (h : Browser.isOrderlyRun D sends R.app N [] (Browser.blank Storage.empty) acts = true) :
    R.Orderly D acts := by
  have hrun := Browser.orderlyRun_of_isOrderlyRun (fun _ _ => rfl) h
  unfold Runtime.Orderly
  simpa only [List.not_mem_nil] using hrun

instance : DecidablePred overlap.silent := inferInstanceAs (DecidablePred Silent)

/-- `k` answers to a job, by the chain on which `n` steps are mined. -/
def jobAnswers (n job k : ℕ) : List BrowserAction :=
  List.replicate k (.answer job (sampleOracle n) [])

/-- An instance is connected and reconciles the `n` steps that are mined. -/
def prepared (n tab : ℕ) : List BrowserAction :=
  [.call tab tab .markConnected []] ++ jobAnswers n tab 2 ++
    [.call tab tab .reconcile []] ++ jobAnswers n tab (5*n)

/-- A call of `sendCurrent` up to its wallet prompt. -/
def prompted (n tab job : ℕ) : List BrowserAction :=
  [.call tab job (.sendCurrent 500) []] ++ jobAnswers n job 16

/-- Two tabs are ready, and both check the first step before the older one sends it.  While its
prompt is open, it is checked and reconciled and the other tab is connected again.  A third tab
verifies the step and sends the next one. -/
def sharedRun : List BrowserAction :=
  [.load,.load] ++ prepared 0 0 ++ prepared 0 1 ++
    [.call 0 2 (.preconditions 500) [],.call 1 3 (.preconditions 500) []] ++ jobAnswers 0 2 3 ++
    jobAnswers 0 3 16 ++ prompted 0 0 0 ++
    jobAnswers 0 2 13 ++ [.call 0 4 .reconcile []] ++ jobAnswers 0 4 5 ++
    [.call 1 5 .markConnected []] ++ jobAnswers 0 0 1 ++ jobAnswers 0 5 2 ++
    [.load] ++ prepared 1 2 ++ prompted 1 2 2

theorem sharedRun_at_most_once :
    (sampleRuntime.browse sharedRun).log =
        [.invoked 0 [],.invoked 1 [some (sampleRuntime.entryOf 0 (sampleHashOf 0))]] ∧
      AtMostOnce (sampleRuntime.browse sharedRun).log :=
  ⟨by decide +kernel,orderly_sends_at_most_once sampleRuntime sharedRun
    (Runtime.orderly_of_isOrderlyRun (N := 6) (by decide +kernel))⟩

theorem not_atMostOnce_again (l : List SendEvent) (k : ℕ) (J J' : List (Option Entry)) :
    ¬AtMostOnce (l ++ [.invoked k J,.invoked k J']) := fun h =>
  absurd (h k J J' l [] [] (by simp)) List.not_mem_nil

/-- The first step is sent from the first tab. -/
def firstPrompt : List BrowserAction := [.load] ++ prepared 0 0 ++ prompted 0 0 0

/-- A second call on the instance while the prompt of the first is open. -/
def overlappingCalls : List BrowserAction := firstPrompt ++ prompted 0 0 1

/-- A second tab that is loaded before the first one sends. -/
def twoTabs : List BrowserAction :=
  [.load,.load] ++ prepared 0 0 ++ prepared 0 1 ++ prompted 0 0 0 ++ prompted 0 1 1

theorem overlappingCalls_log :
    (sampleRuntime.browse overlappingCalls).log = [.invoked 0 [],.invoked 0 []] := by
  decide +kernel

theorem twoTabs_log : (sampleRuntime.browse twoTabs).log = [.invoked 0 [],.invoked 0 []] := by
  decide +kernel

/-- Both kinds of overlap send the first step twice, and no rejection was reported. -/
theorem overlap_sends_twice :
    ¬AtMostOnce (sampleRuntime.browse overlappingCalls).log ∧
      ¬AtMostOnce (sampleRuntime.browse twoTabs).log := by
  rw [overlappingCalls_log,twoTabs_log]
  exact ⟨not_atMostOnce_again [] 0 [] [],not_atMostOnce_again [] 0 [] []⟩

end Canary
end BpsProtocol
