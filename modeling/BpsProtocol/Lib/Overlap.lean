import BpsProtocol.Lib.Discipline

/-! Calls that overlap, on one instance and on several over one store.
The calls on one instance rely on each other: what each of them leaves at its awaits, the others
find.  What they keep so, every orderly run keeps. -/
namespace BpsProtocol
namespace Async

variable {I : Interface} {σ δ ε α β M E G : Type}

/-! ## Programs that change their instance only -/

/-- The program writes nothing to the store and asks only silent queries. -/
def Local (silent : I.Query → Prop) : Prog I σ δ ε α → Prop
  | .ret _ => True
  | .read k => ∀ s, Local silent (k s)
  | .assign _ next => Local silent next
  | .store _ _ => False
  | .request q k => silent q ∧ ∀ r, Local silent (k r)

theorem Local.bind {silent : I.Query → Prop} {p : Prog I σ δ ε α} {f : α → Prog I σ δ ε β}
    (hp : Local silent p) (hf : ∀ a, Local silent (f a)) : Local silent (p >>= f) := by
  induction p with
  | ret r =>
    cases r with
    | ok a => exact hf a
    | error e => trivial
  | read k ih => exact fun s => ih s (hp s)
  | assign g next ih => exact ih hp
  | store g k ih => exact hp.elim
  | request q k ih => exact ⟨hp.1,fun r => ih r (hp.2 r)⟩

theorem Local.get_bind {silent : I.Query → Prop} {f : σ → Prog I σ δ ε α}
    (h : ∀ s, Local silent (f s)) : Local silent (Prog.get >>= f) := h

/-- A local program run to its next await. -/
theorem Local.advance {silent : I.Query → Prop} {p : Prog I σ δ ε α} {s : σ} {d : δ}
    (h : Local silent p) (writes : List Write) :
    match advance writes p s d with
    | (.finished _,_,d') => d' = d
    | (.waiting w,_,d') => d' = d ∧ silent w.query ∧ ∀ r, Local silent (w.resume r) := by
  induction p generalizing s writes with
  | ret r => rfl
  | read k ih => exact ih s (h s) writes
  | assign f next ih => exact ih h writes
  | store f k ih => exact h.elim
  | request q k ih => exact ⟨rfl,h⟩

/-! ## What the calls on one instance keep -/

/-- The invariant of an instance in each phase of its sole call, at rest where none runs, and what
a waiting call may rely on. -/
structure Phases (σ δ M E G : Type) where
  rest : G
  inv : G → σ → δ → List E → Prop
  rely : M → σ → σ → Prop

section Shares

variable (mon : Monitor I δ ε E) (honest : (q : I.Query) → Except ε (I.Answer q) → Prop)
  (D : Discipline I M) (P : Phases σ δ M E G)

/-- A step of the method leaves the other calls on the instance what they rely on. -/
def Leaves (m : M) (s s' : σ) : Prop :=
  ∀ m', (D.sole m = true → D.sole m' = false ∧ D.bars m' = false) → P.rely m' s s'

/-- What another call may do to a phase between two steps of the method. -/
structure Phases.Moved (m : M) (g g' : G) : Prop where
  sole : D.sole m = true → g' = g
  bars : D.bars m = true → g' = P.rest

/-- The phases in which the method awaits. -/
structure Phases.Awaits (m : M) (g : G) : Prop where
  sole : D.sole m = true → g ≠ P.rest
  bars : D.bars m = true → g = P.rest

/-- What a step that began in phase `g₀` and memory `s₀` has come to.  Only the sole call changes
the phase. -/
structure Phases.Comes (m : M) (g₀ : G) (s₀ : σ) (g : G) (s : σ) (d : δ) (l : List E) : Prop where
  inv : P.inv g s d l
  leaves : Leaves D P m s₀ s
  keeps : D.sole m = false → g = g₀

/-- From memory `s`, store `d` and record `l`, inside of a step that began in phase `g₀` and memory
`s₀`, the program keeps the invariant at each await and at its end, whatever the other calls and
the environment do in between, and ends only where `Q` holds. -/
def Shares (m : M) (Q : Except ε α → G → σ → δ → List E → Prop) :
    G → σ → Prog I σ δ ε α → σ → δ → List E → Prop
  | g₀, s₀, .ret r, s, d, l => ∃ g, P.Comes D m g₀ s₀ g s d l ∧ Q r g s d l
  | g₀, s₀, .read k, s, d, l => Shares m Q g₀ s₀ (k s) s d l
  | g₀, s₀, .assign f next, s, d, l => Shares m Q g₀ s₀ next (f s) d l
  | g₀, s₀, .store f k, s, d, l => ∀ w : Write, Shares m Q g₀ s₀ (k w.readBack) s (w.apply f d) l
  | g₀, s₀, .request q k, s, d, l =>
    ∃ g, P.Comes D m g₀ s₀ g s d (l ++ mon.issued q d) ∧ P.Awaits D m g ∧
      ∀ r, honest q r → ∀ g' s' d' l', P.inv g' s' d' l' → P.rely m s s' → P.Moved D m g g' →
        Shares m Q g' s' (k r) s' d' (l' ++ mon.answered q r)

/-- The sole call ends at rest. -/
def Phases.Ends (m : M) (_ : Except ε α) (g : G) (_ : σ) (_ : δ) (_ : List E) : Prop :=
  D.sole m = true → g = P.rest

end Shares

/-- Silent queries leave no record, and a call may rely on nothing happening and on one thing after
the other. -/
structure Lawful (mon : Monitor I δ ε E) (D : Discipline I M) (P : Phases σ δ M E G) : Prop where
  issued : ∀ q d, D.silent q → mon.issued q d = []
  answered : ∀ q r, D.silent q → mon.answered q r = []
  refl : ∀ m s, P.rely m s s
  trans : ∀ m s s' s'', P.rely m s s' → P.rely m s' s'' → P.rely m s s''

/-- What every method of the application keeps for the others. -/
structure Sharing (mon : Monitor I δ ε E) (app : App I σ δ ε α M)
    (honest : (q : I.Query) → Except ε (I.Answer q) → Prop) (D : Discipline I M)
    (P : Phases σ δ M E G) (crash : δ → List E → Prop) : Prop extends Lawful mon D P where
  load : ∀ s d l, crash d l → app.construct d = .ok s → P.inv P.rest s d l
  restores : ∀ g s d l, P.inv g s d l → crash d l
  isLocal : ∀ m, D.isLocal m = true → Local D.silent (app.method m)
  call : ∀ m g s d l, P.inv g s d l → (D.sole m = true → g = P.rest) →
    Shares mon honest D P m (P.Ends D m) g s (app.method m) s d l

section Logic

variable {mon : Monitor I δ ε E} {honest : (q : I.Query) → Except ε (I.Answer q) → Prop}
  {D : Discipline I M} {P : Phases σ δ M E G}

theorem Leaves.trans (C : Lawful mon D P) {m : M} {s s' s'' : σ}
    (h : Leaves D P m s s') (h' : Leaves D P m s' s'') : Leaves D P m s s'' :=
  fun m' hm => C.trans m' s s' s'' (h m' hm) (h' m' hm)

theorem Phases.Moved.awaits {m : M} {g g' : G} (h : P.Moved D m g g') (hg : P.Awaits D m g) :
    P.Awaits D m g' :=
  ⟨fun hm => h.sole hm ▸ hg.sole hm,h.bars⟩

theorem Phases.Moved.trans {m : M} {g g' g'' : G} (h : P.Moved D m g g')
    (h' : P.Moved D m g' g'') : P.Moved D m g g'' :=
  ⟨fun hm => (h'.sole hm).trans (h.sole hm),h'.bars⟩

theorem Phases.Awaits.stays {m : M} {g : G} (h : P.Awaits D m g) : P.Moved D m g g :=
  ⟨fun _ => rfl,h.bars⟩

/-- A step begins. -/
theorem Phases.Comes.start (C : Lawful mon D P) {m : M} {g : G} {s : σ} {d : δ}
    {l : List E} (h : P.inv g s d l) : P.Comes D m g s g s d l :=
  ⟨h,fun m' _ => C.refl m' s,fun _ => rfl⟩

/-- One step may be taken for the rest of another one. -/
theorem Phases.Comes.after (C : Lawful mon D P) {m : M} {g₀ g₁ g : G}
    {s₀ s₁ s : σ} {d₁ d : δ} {l₁ l : List E} (h₁ : P.Comes D m g₀ s₀ g₁ s₁ d₁ l₁)
    (h : P.Comes D m g₁ s₁ g s d l) : P.Comes D m g₀ s₀ g s d l :=
  ⟨h.inv,h₁.leaves.trans C h.leaves,fun hm => (h.keeps hm).trans (h₁.keeps hm)⟩

variable {m : M} {Q : Except ε α → G → σ → δ → List E → Prop} {g₀ g : G} {s₀ s : σ} {d : δ}
  {l : List E}

theorem Shares.rebase (C : Lawful mon D P) {g₁ : G} {s₁ : σ} {d₁ : δ}
    {l₁ : List E} {p : Prog I σ δ ε α} (h : Shares mon honest D P m Q g₁ s₁ p s d l)
    (h₁ : P.Comes D m g₀ s₀ g₁ s₁ d₁ l₁) : Shares mon honest D P m Q g₀ s₀ p s d l := by
  induction p generalizing s d with
  | ret r =>
    obtain ⟨g,hcomes,hQ⟩ := h
    exact ⟨g,h₁.after C hcomes,hQ⟩
  | read k ih => exact ih s h
  | assign f next ih => exact ih h
  | store f k ih => exact fun w => ih _ (h w)
  | request q k ih =>
    obtain ⟨g,hcomes,hnext⟩ := h
    exact ⟨g,h₁.after C hcomes,hnext⟩

theorem Shares.mono {Q' : Except ε α → G → σ → δ → List E → Prop} {p : Prog I σ δ ε α}
    (h : Shares mon honest D P m Q g₀ s₀ p s d l)
    (hQ : ∀ r g s d l, P.inv g s d l → Q r g s d l → Q' r g s d l) :
    Shares mon honest D P m Q' g₀ s₀ p s d l := by
  induction p generalizing g₀ s₀ s d l with
  | ret r =>
    obtain ⟨g,hcomes,h⟩ := h
    exact ⟨g,hcomes,hQ r g s d l hcomes.inv h⟩
  | read k ih => exact ih s h
  | assign f next ih => exact ih h
  | store f k ih => exact fun w => ih _ (h w)
  | request q k ih =>
    obtain ⟨g,hcomes,hawaits,hnext⟩ := h
    exact ⟨g,hcomes,hawaits,fun r hr g' s' d' l' hinv hrely hmoved =>
      ih r (hnext r hr g' s' d' l' hinv hrely hmoved)⟩

/-- The rest of a program after a part with this result. -/
def Prog.following (f : β → Prog I σ δ ε α) : Except ε β → Prog I σ δ ε α
  | .ok a => f a
  | .error e => .ret (.error e)

@[simp] theorem Prog.following_ok (f : β → Prog I σ δ ε α) (a : β) :
    Prog.following f (.ok a) = f a := rfl

/-- The sequencing rule. -/
theorem Shares.bind (C : Lawful mon D P) {p : Prog I σ δ ε β} {f : β → Prog I σ δ ε α}
    (h : Shares mon honest D P m
      (fun r g s d l => Shares mon honest D P m Q g s (Prog.following f r) s d l) g₀ s₀ p s d l) :
    Shares mon honest D P m Q g₀ s₀ (p >>= f) s d l := by
  induction p generalizing g₀ s₀ s d l with
  | ret r =>
    obtain ⟨g,hcomes,h⟩ := h
    cases r with
    | ok a => exact Shares.rebase C h hcomes
    | error e => exact Shares.rebase C h hcomes
  | read k ih => exact ih s h
  | assign f next ih => exact ih h
  | store f k ih => exact fun w => ih _ (h w)
  | request q k ih =>
    obtain ⟨g,hcomes,hawaits,hnext⟩ := h
    exact ⟨g,hcomes,hawaits,fun r hr g' s' d' l' hinv hrely hmoved =>
      ih r (hnext r hr g' s' d' l' hinv hrely hmoved)⟩

/-- Where a part of a call comes out that leaves it in its phase. -/
def Phases.Onward (D : Discipline I M) (P : Phases σ δ M E G) (m : M) (g : G) (s : σ)
    (_ : Except ε α) (g' : G) (s' : σ) (_ : δ) (_ : List E) : Prop :=
  P.rely m s s' ∧ P.Moved D m g g'

theorem Phases.Onward.trans (C : Lawful mon D P) {g' g'' : G} {s' s'' : σ} {r : Except ε α}
    (h : P.rely m s s' ∧ P.Moved D m g g') (h' : P.Onward D m g' s' r g'' s'' d l) :
    P.Onward D m g s r g'' s'' d l :=
  ⟨C.trans m s s' s'' h.1 h'.1,h.2.trans h'.2⟩

/-- A program that only looks comes out in whatever the other calls leave. -/
theorem Shares.quiet (C : Lawful mon D P) {p : Prog I σ δ ε α} {F : Except ε α → Prop}
    (hp : Quiet D.silent p) (hF : Yields honest F p) (hcomes : P.Comes D m g₀ s₀ g s d l)
    (hawaits : P.Awaits D m g) :
    Shares mon honest D P m (fun r g' s' d' l' => F r ∧ P.Onward D m g s r g' s' d' l')
      g₀ s₀ p s d l := by
  induction p generalizing g₀ s₀ g s d l with
  | ret r => exact ⟨g,hcomes,hF,C.refl m s,hawaits.stays⟩
  | read k ih => exact ih s (hp s) (hF s) hcomes hawaits
  | assign h next ih => exact hp.elim
  | store h k ih => exact hp.elim
  | request q k ih =>
    refine ⟨g,?_,hawaits,fun r hr g' s' d' l' hinv hrely hmoved => ?_⟩
    · rwa [C.issued q d hp.1,List.append_nil]
    · rw [C.answered q r hp.1,List.append_nil]
      refine (ih r (hp.2 r) (hF r hr) (.start C hinv) (hmoved.awaits hawaits)).mono ?_
      exact fun r' g'' s'' d'' l'' _ h => ⟨h.1,.trans C ⟨hrely,hmoved⟩ h.2⟩

/-- A part that comes out somewhere in its phase, before the rest. -/
theorem Shares.onward_bind (C : Lawful mon D P) {p : Prog I σ δ ε β} {f : β → Prog I σ δ ε α}
    (h : Shares mon honest D P m (P.Onward D m g s) g₀ s₀ p s d l)
    (hnext : ∀ r g' s' d' l', P.inv g' s' d' l' → P.rely m s s' → P.Moved D m g g' →
      Shares mon honest D P m Q g' s' (Prog.following f r) s' d' l') :
    Shares mon honest D P m Q g₀ s₀ (p >>= f) s d l :=
  .bind C (h.mono fun r g' s' d' l' hinv hon => hnext r g' s' d' l' hinv hon.1 hon.2)

theorem Shares.attempt_bind {q : I.Query} {f : Except ε (I.Answer q) → Prog I σ δ ε α}
    (hcomes : P.Comes D m g₀ s₀ g s d (l ++ mon.issued q d)) (hawaits : P.Awaits D m g)
    (hnext : ∀ r g' s' d' l', P.inv g' s' d' l' → P.rely m s s' → P.Moved D m g g' →
      Shares mon honest D P m Q g' s' (f r) s' d' (l' ++ mon.answered q r)) :
    Shares mon honest D P m Q g₀ s₀ (Prog.attempt q >>= f) s d l :=
  ⟨g,hcomes,hawaits,fun r _ => hnext r⟩

theorem Shares.get_bind {f : σ → Prog I σ δ ε α}
    (h : Shares mon honest D P m Q g₀ s₀ (f s) s d l) :
    Shares mon honest D P m Q g₀ s₀ (Prog.get >>= f) s d l := h

theorem Shares.modify_bind {h : σ → σ} {f : Unit → Prog I σ δ ε α}
    (hnext : Shares mon honest D P m Q g₀ s₀ (f ()) (h s) d l) :
    Shares mon honest D P m Q g₀ s₀ (Prog.modify h >>= f) s d l := hnext

theorem Shares.write_bind {h : δ → δ} {f : Bool → Prog I σ δ ε α}
    (hok : Shares mon honest D P m Q g₀ s₀ (f true) s (h d) l)
    (hseen : Shares mon honest D P m Q g₀ s₀ (f false) s (h d) l)
    (hlost : Shares mon honest D P m Q g₀ s₀ (f false) s d l) :
    Shares mon honest D P m Q g₀ s₀ (Prog.write h >>= f) s d l := by
  intro w
  cases w with
  | confirmed => exact hok
  | unconfirmed => exact hseen
  | lost => exact hlost

/-- A program run to its next await. -/
theorem Shares.advance {p : Prog I σ δ ε α} (h : Shares mon honest D P m Q g₀ s₀ p s d l)
    (writes : List Write) :
    match advance writes p s d with
    | (.finished r,s',d') => Shares mon honest D P m Q g₀ s₀ (.ret r) s' d' l
    | (.waiting w,s',d') => Shares mon honest D P m Q g₀ s₀ (.request w.query w.resume) s' d' l := by
  induction p generalizing s d writes with
  | ret r => exact h
  | read k ih => exact ih s h writes
  | assign f next ih => exact ih h writes
  | store f k ih => exact ih _ (h _) writes.tail
  | request q k ih => exact h

end Logic

/-! ## Browsers -/

namespace Browser

section Rules

variable {mon : Monitor I δ ε E} {app : App I σ δ ε α M}
  {honest : (q : I.Query) → Except ε (I.Answer q) → Prop} {D : Discipline I M}
  {P : Phases σ δ M E G} {crash : δ → List E → Prop}

/-- A waiting call goes on, whatever the other calls on its instance do in between. -/
structure Waits (mon : Monitor I δ ε E) (honest : (q : I.Query) → Except ε (I.Answer q) → Prop)
    (D : Discipline I M) (P : Phases σ δ M E G) (t : Task I σ δ ε α M) (g : G) (s : σ) : Prop where
  awaits : P.Awaits D t.method g
  resumes : ∀ r, honest t.wait.query r → ∀ g' s' d' l', P.inv g' s' d' l' →
    P.rely t.method s s' → P.Moved D t.method g g' →
    Shares mon honest D P t.method (P.Ends D t.method) g' s' (t.wait.resume r) s' d'
      (l' ++ mon.answered t.wait.query r)

theorem Waits.left (C : Sharing mon app honest D P crash) {t : Task I σ δ ε α M} {g g' : G}
    {s s' : σ} (h : Waits mon honest D P t g s) (hrely : P.rely t.method s s')
    (hmoved : P.Moved D t.method g g') : Waits mon honest D P t g' s' where
  awaits := hmoved.awaits h.awaits
  resumes r hr g'' s'' d l hinv hrely' hmoved' :=
    h.resumes r hr g'' s'' d l hinv (C.trans _ s s' s'' hrely hrely') (hmoved.trans hmoved')

/-- The calls on an instance that is not overtaken. -/
structure Held (mon : Monitor I δ ε E) (honest : (q : I.Query) → Except ε (I.Answer q) → Prop)
    (D : Discipline I M) (P : Phases σ δ M E G) (b : Browser I σ δ ε α M E) (tab : ℕ) (s : σ)
    (g : G) : Prop where
  inv : P.inv g s b.durable b.log
  waits : ∀ n j, b.jobs n = some j → j.tab = tab → Waits mon honest D P j.task g s
  single : ∀ n j n' j', b.jobs n = some j → b.jobs n' = some j' → j.tab = tab → j'.tab = tab →
    D.sole j.task.method = true → D.sole j'.task.method = true → n = n'
  busy : g ≠ P.rest → ∃ n j, b.jobs n = some j ∧ j.tab = tab ∧ D.sole j.task.method = true

structure Shared (mon : Monitor I δ ε E) (honest : (q : I.Query) → Except ε (I.Answer q) → Prop)
    (D : Discipline I M) (P : Phases σ δ M E G) (crash : δ → List E → Prop) (stale : ℕ → Prop)
    (b : Browser I σ δ ε α M E) : Prop where
  restores : crash b.durable b.log
  bounded : ∀ n j, b.jobs n = some j → j.tab < b.tabs.length
  known : ∀ t, stale t → t < b.tabs.length
  isLocal : ∀ n j, b.jobs n = some j → D.isLocal j.task.method = true →
    D.silent j.task.wait.query ∧ ∀ r, Local D.silent (j.task.wait.resume r)
  held : ∀ tab s, b.tabs[tab]? = some s → ¬stale tab → ∃ g, Held mon honest D P b tab s g

theorem Shared.blank {d : δ} (h : crash d []) :
    Shared mon honest D P crash (fun _ => False) (Browser.blank d : Browser I σ δ ε α M E) where
  restores := h
  bounded := nofun
  known := nofun
  isLocal := nofun
  held := nofun

/-- What a call runs on its instance, up to its next await. -/
structure Turn (D : Discipline I M) (b : Browser I σ δ ε α M E) (tab job : ℕ) (m : M)
    (prog : Prog I σ δ ε α) (s : σ) (l : List E) : Prop where
  found : b.tabs[tab]? = some s
  mine : ∀ j, b.jobs job = some j → j.tab = tab ∧ j.task.method = m
  logged : ¬b.Loud D job → l = b.log
  isLocal : D.isLocal m = true → Local D.silent prog

/-- The browser after a turn. -/
abbrev after (mon : Monitor I δ ε E) (b : Browser I σ δ ε α M E) (tab job : ℕ) (m : M)
    (prog : Prog I σ δ ε α) (s : σ) (l : List E) (writes : List Write) :
    Browser I σ δ ε α M E :=
  settle mon { b with log := l } tab job m (advance writes prog s b.durable)

section Turns

variable {stale : ℕ → Prop} {b : Browser I σ δ ε α M E} {tab job : ℕ} {m : M}
  {prog : Prog I σ δ ε α} {s : σ} {l : List E} {writes : List Write}

/-- The jobs after a turn: those of before, but for the one that ran. -/
theorem Turn.job_cases {n : ℕ} {j : Job I σ δ ε α M}
    (h : (after mon b tab job m prog s l writes).jobs n = some j) :
    n ≠ job ∧ b.jobs n = some j ∨ n = job ∧ j.tab = tab ∧ j.task.method = m := by
  by_cases hn : n = job
  · subst hn
    refine .inr ⟨rfl,?_⟩
    unfold after at h
    generalize advance writes prog s b.durable = outcome at h
    obtain ⟨pause,s',d'⟩ := outcome
    cases pause with
    | finished r =>
      rw [settle_job_finished] at h
      cases h
    | waiting w =>
      rw [settle_job_waiting] at h
      cases h
      exact ⟨rfl,rfl⟩
  · rw [after,settle_job_of_ne hn] at h
    exact .inl ⟨hn,h⟩

/-- On the other instances the same calls wait. -/
theorem Turn.elsewhere (h : Turn D b tab job m prog s l) {n : ℕ} {j : Job I σ δ ε α M}
    (hj : j.tab ≠ tab) :
    (after mon b tab job m prog s l writes).jobs n = some j ↔ b.jobs n = some j := by
  constructor
  · intro hn
    rcases Turn.job_cases hn with ⟨-,hn⟩ | ⟨-,htab,-⟩
    · exact hn
    · exact absurd htab hj
  · intro hn
    rw [after,settle_job_of_ne]
    · exact hn
    · rintro rfl
      exact hj (h.mine j hn).1

/-- A turn that overtakes nobody leaves store and record as they are. -/
theorem Turn.unseen (C : Sharing mon app honest D P crash) (h : Turn D b tab job m prog s l)
    (hover : ¬b.Overtakes D (after mon b tab job m prog s l writes) job) :
    (after mon b tab job m prog s l writes).durable = b.durable ∧
      (after mon b tab job m prog s l writes).log = b.log := by
  rw [Overtakes,not_or,not_or,not_not] at hover
  obtain ⟨hdurable,hbefore,hafter⟩ := hover
  refine ⟨hdurable,?_⟩
  have hl := h.logged hbefore
  unfold after at hafter hdurable ⊢
  generalize advance writes prog s b.durable = outcome at hafter hdurable ⊢
  obtain ⟨pause,s',d'⟩ := outcome
  cases pause with
  | finished r => exact hl
  | waiting w =>
    have hsilent : D.silent w.query := by
      by_contra hn
      exact hafter ⟨_,settle_job_waiting,hn⟩
    change l ++ mon.issued w.query d' = b.log
    rw [C.issued _ _ hsilent,List.append_nil,hl]

/-- A local call waits for a silent answer, and goes on locally. -/
theorem Turn.stays_local (ht : Turn D b tab job m prog s l) (hm : D.isLocal m = true)
    {j : Job I σ δ ε α M} (hj : (after mon b tab job m prog s l writes).jobs job = some j) :
    D.silent j.task.wait.query ∧ ∀ r, Local D.silent (j.task.wait.resume r) := by
  have hadvance := (ht.isLocal hm).advance (s := s) (d := b.durable) writes
  unfold after at hj
  generalize advance writes prog s b.durable = outcome at hadvance hj
  obtain ⟨pause,s',d'⟩ := outcome
  cases pause with
  | finished r =>
    rw [settle_job_finished] at hj
    cases hj
  | waiting w =>
    rw [settle_job_waiting] at hj
    cases hj
    exact hadvance.2

/-- A local turn overtakes nobody. -/
theorem Turn.not_overtakes (ht : Turn D b tab job m prog s l) (hm : D.isLocal m = true)
    (hquiet : ¬b.Loud D job) :
    ¬b.Overtakes D (after mon b tab job m prog s l writes) job := by
  rintro (hdurable | hbefore | ⟨j,hj,hloud⟩)
  · have hadvance := (ht.isLocal hm).advance (s := s) (d := b.durable) writes
    refine hdurable ?_
    rw [after,settle_durable]
    generalize advance writes prog s b.durable = outcome at hadvance ⊢
    obtain ⟨pause,s',d'⟩ := outcome
    cases pause with
    | finished r => exact hadvance
    | waiting w => exact hadvance.1
  · exact hquiet hbefore
  · exact hloud (ht.stays_local hm hj).1

/-- Beside a sole call no sole and no barring one runs on its instance. -/
def Beside (D : Discipline I M) (b : Browser I σ δ ε α M E) (tab job : ℕ) (m : M) : Prop :=
  D.sole m = true → ∀ n j, n ≠ job → b.jobs n = some j → j.tab = tab →
    D.sole j.task.method = false ∧ D.bars j.task.method = false

/-- The other calls of the instance find what they rely on. -/
theorem Held.others (C : Sharing mon app honest D P crash) {g g' : G} {s' : σ}
    (hheld : Held mon honest D P b tab s g) (hbeside : Beside D b tab job m)
    (hleaves : Leaves D P m s s') (hkeeps : D.sole m = false → g' = g) {n : ℕ}
    {j : Job I σ δ ε α M} (hn : n ≠ job) (hj : b.jobs n = some j) (htab : j.tab = tab) :
    Waits mon honest D P j.task g' s' := by
  have hold := hheld.waits n j hj htab
  refine hold.left C (hleaves _ fun hm => hbeside hm n j hn hj htab) ⟨fun hsole => hkeeps ?_,
    fun hbars => (hkeeps ?_).trans (hold.awaits.bars hbars)⟩
  · by_contra hm
    rw [(hbeside (Bool.not_eq_false _ ▸ hm) n j hn hj htab).1] at hsole
    cases hsole
  · by_contra hm
    rw [(hbeside (Bool.not_eq_false _ ▸ hm) n j hn hj htab).2] at hbars
    cases hbars

/-- At most one sole call runs on the instance after a turn. -/
theorem Held.single_after {g : G} (hheld : Held mon honest D P b tab s g)
    (hbeside : Beside D b tab job m) {n n' : ℕ} {j j' : Job I σ δ ε α M}
    (hj : (after mon b tab job m prog s l writes).jobs n = some j)
    (hj' : (after mon b tab job m prog s l writes).jobs n' = some j') (htab : j.tab = tab)
    (htab' : j'.tab = tab) (hsole : D.sole j.task.method = true)
    (hsole' : D.sole j'.task.method = true) : n = n' := by
  rcases Turn.job_cases hj with ⟨hn,hj⟩ | ⟨hn,-,hm⟩
  · rcases Turn.job_cases hj' with ⟨-,hj'⟩ | ⟨-,-,hm'⟩
    · exact hheld.single n j n' j' hj hj' htab htab' hsole hsole'
    · rw [(hbeside (hm' ▸ hsole') n j hn hj htab).1] at hsole
      cases hsole
  · rcases Turn.job_cases hj' with ⟨hn',hj'⟩ | ⟨hn',-,-⟩
    · rw [(hbeside (hm ▸ hsole) n' j' hn' hj' htab').1] at hsole'
      cases hsole'
    · exact hn.trans hn'.symm

/-- The sole call that is on its way goes on beside the turn of another one. -/
theorem Held.busy_after {g : G} (hheld : Held mon honest D P b tab s g)
    (ht : Turn D b tab job m prog s l) (hm : D.sole m = false) (hne : g ≠ P.rest) :
    ∃ n j, (after mon b tab job m prog s l writes).jobs n = some j ∧ j.tab = tab ∧
      D.sole j.task.method = true := by
  obtain ⟨n,j,hj,htab,hsole⟩ := hheld.busy hne
  refine ⟨n,j,?_,htab,hsole⟩
  rw [after,settle_job_of_ne]
  · exact hj
  · rintro rfl
    rw [(ht.mine j hj).2,hm] at hsole
    cases hsole

/-- The own instance after a turn, if it was not overtaken before. -/
theorem Held.turn (C : Sharing mon app honest D P crash) {g : G}
    (hheld : Held mon honest D P b tab s g) (ht : Turn D b tab job m prog s l)
    (hbeside : Beside D b tab job m)
    (hprog : Shares mon honest D P m (P.Ends D m) g s prog s b.durable l) :
    ∃ g', Held mon honest D P (after mon b tab job m prog s l writes) tab
      (advance writes prog s b.durable).2.1 g' := by
  have hsingle : ∀ n j n' j', (after mon b tab job m prog s l writes).jobs n = some j →
      (after mon b tab job m prog s l writes).jobs n' = some j' → j.tab = tab → j'.tab = tab →
      D.sole j.task.method = true → D.sole j'.task.method = true → n = n' := fun n j n' j' =>
    hheld.single_after hbeside
  have hbusy : D.sole m = false → g ≠ P.rest →
      ∃ n j, (after mon b tab job m prog s l writes).jobs n = some j ∧ j.tab = tab ∧
        D.sole j.task.method = true := hheld.busy_after ht
  have hadvance := hprog.advance writes
  have hcases := fun n j => @Turn.job_cases I σ δ ε α M E mon b tab job m prog s l writes n j
  unfold after at hsingle hbusy hcases ⊢
  generalize advance writes prog s b.durable = outcome at hadvance hsingle hbusy hcases ⊢
  obtain ⟨pause,s',d'⟩ := outcome
  cases pause with
  | finished r =>
    obtain ⟨g',⟨hinv,hleaves,hkeeps⟩,hend⟩ := hadvance
    refine ⟨g',hinv,fun n j hj htab => ?_,hsingle,fun hne => ?_⟩
    · rcases hcases n j hj with ⟨hn,hj⟩ | ⟨rfl,-⟩
      · exact hheld.others C hbeside hleaves hkeeps hn hj htab
      · rw [settle_job_finished] at hj
        cases hj
    · by_cases hm : D.sole m = true
      · exact absurd (hend hm) hne
      · rw [Bool.not_eq_true] at hm
        exact hbusy hm (hkeeps hm ▸ hne)
  | waiting w =>
    obtain ⟨g',⟨hinv,hleaves,hkeeps⟩,hawaits,hnext⟩ := hadvance
    refine ⟨g',hinv,fun n j hj htab => ?_,hsingle,fun hne => ?_⟩
    · rcases hcases n j hj with ⟨hn,hj⟩ | ⟨rfl,-⟩
      · exact hheld.others C hbeside hleaves hkeeps hn hj htab
      · rw [settle_job_waiting] at hj
        cases hj
        exact ⟨hawaits,hnext⟩
    · by_cases hm : D.sole m = true
      · exact ⟨job,_,settle_job_waiting,rfl,hm⟩
      · rw [Bool.not_eq_true] at hm
        exact hbusy hm (hkeeps hm ▸ hne)

/-- Another instance after a turn that does not overtake it. -/
theorem Held.elsewhere (C : Sharing mon app honest D P crash) {g : G} {t : ℕ} {s' : σ}
    (hheld : Held mon honest D P b t s' g) (ht : Turn D b tab job m prog s l) (hne : t ≠ tab)
    (hover : ¬b.Overtakes D (after mon b tab job m prog s l writes) job) :
    Held mon honest D P (after mon b tab job m prog s l writes) t s' g := by
  obtain ⟨hd,hl⟩ := ht.unseen C hover
  have hjobs : ∀ n j, j.tab = t → ((after mon b tab job m prog s l writes).jobs n = some j ↔
      b.jobs n = some j) := fun n j hj => ht.elsewhere (hj ▸ hne)
  refine ⟨by rw [hd,hl]; exact hheld.inv,fun n j hj hjt => ?_,
    fun n j n' j' hj hj' hjt hjt' => ?_,fun hbusy => ?_⟩
  · exact hheld.waits n j ((hjobs n j hjt).1 hj) hjt
  · exact hheld.single n j n' j' ((hjobs n j hjt).1 hj) ((hjobs n' j' hjt').1 hj') hjt hjt'
  · obtain ⟨n,j,hj,hjt,hsole⟩ := hheld.busy hbusy
    exact ⟨n,j,(hjobs n j hjt).2 hj,hjt,hsole⟩

/-- The instances after a turn. -/
theorem Shared.turn (C : Sharing mon app honest D P crash)
    (hv : Shared mon honest D P crash stale b) (ht : Turn D b tab job m prog s l)
    (hover : stale tab → D.isLocal m = true ∧ ¬b.Loud D job)
    (hprog : ∀ g, Held mon honest D P b tab s g → Beside D b tab job m ∧
      Shares mon honest D P m (P.Ends D m) g s prog s b.durable l) :
    Shared mon honest D P crash (fun t => stale t ∨ (t ≠ tab ∧ t < b.tabs.length ∧
      b.Overtakes D (after mon b tab job m prog s l writes) job))
      (after mon b tab job m prog s l writes) := by
  have htab : tab < b.tabs.length := (List.getElem?_eq_some_iff.1 ht.found).1
  have hlength : (after mon b tab job m prog s l writes).tabs.length = b.tabs.length := by
    rw [after,settle_tabs,List.length_set]
  have hself : (after mon b tab job m prog s l writes).tabs[tab]? =
      some (advance writes prog s b.durable).2.1 := by
    rw [after,settle_tabs,List.getElem?_set_self htab]
  have hlive : ¬stale tab → ∃ g', Held mon honest D P (after mon b tab job m prog s l writes) tab
      (advance writes prog s b.durable).2.1 g' := by
    intro hn
    obtain ⟨g,hheld⟩ := hv.held tab s ht.found hn
    obtain ⟨hbeside,hshares⟩ := hprog g hheld
    exact hheld.turn C ht hbeside hshares
  refine ⟨?_,fun n j hj => ?_,fun t h => ?_,fun n j hj hm => ?_,fun t s' hs' hn => ?_⟩
  · by_cases hn : stale tab
    · obtain ⟨hlocal,hquiet⟩ := hover hn
      have hnot : ¬b.Overtakes D (after mon b tab job m prog s l writes) job :=
        ht.not_overtakes hlocal hquiet
      obtain ⟨hd,hl⟩ := ht.unseen C hnot
      rw [hd,hl]
      exact hv.restores
    · obtain ⟨g,hheld⟩ := hlive hn
      exact C.restores _ _ _ _ hheld.inv
  · rw [hlength]
    rcases Turn.job_cases hj with ⟨-,hj⟩ | ⟨-,rfl,-⟩
    · exact hv.bounded n j hj
    · exact htab
  · rw [hlength]
    rcases h with h | ⟨-,h,-⟩
    · exact hv.known t h
    · exact h
  · rcases Turn.job_cases hj with ⟨-,hj⟩ | ⟨rfl,-,hmethod⟩
    · exact hv.isLocal n j hj hm
    · exact ht.stays_local (hmethod ▸ hm) hj
  · by_cases hne : t = tab
    · subst hne
      cases hself.symm.trans hs'
      exact hlive fun h => hn (.inl h)
    · have ht' : t < b.tabs.length := hlength ▸ (List.getElem?_eq_some_iff.1 hs').1
      rw [after,settle_tabs,List.getElem?_set_ne (Ne.symm hne)] at hs'
      obtain ⟨g,hheld⟩ := hv.held t s' hs' fun h => hn (.inl h)
      exact ⟨g,hheld.elsewhere C ht hne fun h => hn (.inr ⟨hne,ht',h⟩)⟩

theorem Turn.call (C : Sharing mon app honest D P crash) (hs : b.tabs[tab]? = some s)
    (hj : b.jobs job = none) : Turn D b tab job m (app.method m) s b.log where
  found := hs
  mine j hj' := by
    rw [hj] at hj'
    cases hj'
  logged _ := rfl
  isLocal := C.isLocal m

theorem Turn.answer (C : Sharing mon app honest D P crash)
    (hv : Shared mon honest D P crash stale b) {j : Job I σ δ ε α M} (hj : b.jobs job = some j)
    (hs : b.tabs[j.tab]? = some s) (r : Except ε (I.Answer j.task.wait.query)) :
    Turn D b j.tab job j.task.method (j.task.wait.resume r) s
      (b.log ++ mon.answered j.task.wait.query r) where
  found := hs
  mine j' hj' := by
    cases hj.symm.trans hj'
    exact ⟨rfl,rfl⟩
  logged hquiet := by
    have hsilent : D.silent j.task.wait.query := by
      by_contra hn
      exact hquiet ⟨j,hj,hn⟩
    rw [C.answered _ _ hsilent,List.append_nil]
  isLocal hm := (hv.isLocal job j hj hm).2 r

/-- A call that goes on has its place among the others. -/
theorem Held.beside {g : G} {j : Job I σ δ ε α M} (hj : b.jobs job = some j)
    (hheld : Held mon honest D P b j.tab s g) : Beside D b j.tab job j.task.method := by
  refine fun hm n j' hn hj' htab => ⟨?_,?_⟩
  · by_contra hsole
    exact hn (hheld.single n j' job j hj' hj htab rfl (Bool.not_eq_false _ ▸ hsole) hm)
  · by_contra hbars
    exact (hheld.waits job j hj rfl).awaits.sole hm
      ((hheld.waits n j' hj' htab).awaits.bars (Bool.not_eq_false _ ▸ hbars))

theorem Shared.load (C : Sharing mon app honest D P crash)
    (hv : Shared mon honest D P crash stale b) (hs : app.construct b.durable = .ok s) :
    Shared mon honest D P crash stale { b with tabs := b.tabs ++ [s] } := by
  refine ⟨hv.restores,fun n j hj => ?_,fun t ht => ?_,hv.isLocal,fun t s' hs' hn => ?_⟩
  · rw [List.length_append]
    exact Nat.lt_add_right _ (hv.bounded n j hj)
  · rw [List.length_append]
    exact Nat.lt_add_right _ (hv.known t ht)
  · by_cases ht : t < b.tabs.length
    · rw [List.getElem?_append_left ht] at hs'
      obtain ⟨g,hheld⟩ := hv.held t s' hs' hn
      exact ⟨g,hheld.inv,hheld.waits,hheld.single,hheld.busy⟩
    · have hlt := (List.getElem?_eq_some_iff.1 hs').1
      rw [List.length_append,List.length_singleton] at hlt
      obtain rfl : t = b.tabs.length := by omega
      rw [List.getElem?_concat_length] at hs'
      cases hs'
      -- no call runs on the new instance
      have hnone : ∀ n j, b.jobs n = some j → j.tab ≠ b.tabs.length := fun n j hj =>
        Nat.ne_of_lt (hv.bounded n j hj)
      exact ⟨P.rest,C.load _ _ _ hv.restores hs,fun n j hj ht => absurd ht (hnone n j hj),
        fun n j _ _ hj _ ht => absurd ht (hnone n j hj),fun hne => absurd rfl hne⟩

end Turns

theorem Shared.exec (C : Sharing mon app honest D P crash) {stale : ℕ → Prop}
    {b b' : Browser I σ δ ε α M E} {a : Action I ε M honest}
    (hv : Shared mon honest D P crash stale b) (ha : b.Orderly D stale a)
    (h : exec mon app b a = .ok b') : Shared mon honest D P crash (overtaken D stale b b' a) b' := by
  cases a with
  | load =>
    simp only [Browser.exec] at h
    split at h
    · rename_i s hs
      cases h
      exact hv.load C hs
    · cases h
  | call tab job m writes =>
    simp only [Browser.exec] at h
    split at h
    · rename_i s hs hj
      cases h
      have hquiet : ¬b.Loud D job := by
        rintro ⟨j,hj',-⟩
        rw [hj] at hj'
        cases hj'
      refine hv.turn C (.call C hs hj) (fun hstale => ⟨ha.1 hstale,hquiet⟩) fun g hheld =>
        ⟨fun hm n j _ hj htab => ha.2 hm n j hj htab,?_⟩
      refine C.call m g s _ _ hheld.inv fun hm => ?_
      by_contra hne
      obtain ⟨n,j,hj',htab,hsole⟩ := hheld.busy hne
      rw [(ha.2 hm n j hj' htab).1] at hsole
      cases hsole
    · cases h
  | answer job o writes =>
    simp only [Browser.exec] at h
    split at h
    · cases h
    · rename_i j hj
      split at h
      · cases h
      · rename_i s hs
        cases h
        rw [overtaken_answer hj]
        refine hv.turn C (.answer C hv hj hs _) (fun hstale => ?_) fun g hheld =>
          ⟨hheld.beside hj,?_⟩
        · have hm := ha j hj hstale
          refine ⟨hm,?_⟩
          rintro ⟨j',hj',hloud⟩
          cases hj.symm.trans hj'
          exact hloud (hv.isLocal job j hj hm).1
        · have hown := hheld.waits job j hj rfl
          exact hown.resumes _ (o.isHonest _) g s _ _ hheld.inv (C.refl _ s) hown.awaits.stays

/-- What the calls keep for each other, every orderly run keeps. -/
theorem Shared.run (C : Sharing mon app honest D P crash) {stale : ℕ → Prop}
    {b : Browser I σ δ ε α M E} (hv : Shared mon honest D P crash stale b)
    {as : List (Action I ε M honest)} (h : OrderlyRun D mon app stale b as) :
    crash (Machine.run (Browser.exec mon app) b as).durable
      (Machine.run (Browser.exec mon app) b as).log := by
  induction as generalizing b stale with
  | nil => exact hv.restores
  | cons a as ih =>
    rw [Machine.run_cons]
    rw [OrderlyRun] at h
    cases hb : Browser.exec mon app b a with
    | ok b' =>
      rw [hb] at h
      rw [Machine.commit_ok hb]
      exact ih (hv.exec C h.1 hb) h.2
    | error e =>
      rw [hb] at h
      rw [Machine.commit_error hb]
      exact ih hv h

end Rules
end Browser
end Async
end BpsProtocol
