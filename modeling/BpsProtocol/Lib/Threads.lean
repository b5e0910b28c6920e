import BpsProtocol.Lib.Tabs

/-! Calls over one memory.
Calls of one asynchronous program share a memory and interleave at their awaits.  A call
upholds an invariant of the memory and the record if it restores it before each await,
whatever the others do meanwhile that keeps it.  What every call upholds holds in every
state of every run. -/
namespace BpsProtocol
namespace Async

/-- A running call and what it was started with. -/
structure Call (I : Interface) (σ ε α T : Type) where
  tag : T
  wait : Waiting I σ Unit ε α

structure Threads (I : Interface) (σ ε α T E : Type) where
  memory : σ
  calls : ℕ → Option (Call I σ ε α T)
  log : List E

variable {I : Interface} {σ ε α β T E : Type}
  {honest : (q : I.Query) → Except ε (I.Answer q) → Prop}

/-! ## Two properties of a program -/

section Programs

variable (record : (q : I.Query) → Except ε (I.Answer q) → List E)
  (honest : (q : I.Query) → Except ε (I.Answer q) → Prop) (Inv : σ → List E → Prop)

/-- The invariant holds at every await and at the end, if it holds whenever the program
is resumed; the record only grows in between. -/
def Upholds : Prog I σ Unit ε α → σ → List E → Prop
  | .ret _, s, l => Inv s l
  | .read k, s, l => Upholds (k s) s l
  | .assign f next, s, l => Upholds next (f s) l
  | .store _ k, s, l => ∀ b, Upholds (k b) s l
  | .request q k, s, l =>
    Inv s l ∧ ∀ s' l', Inv s' l' → l <+: l' →
      ∀ r, honest q r → Upholds (k r) s' (l' ++ record q r)

end Programs

section Rules

variable {record : (q : I.Query) → Except ε (I.Answer q) → List E} {Inv : σ → List E → Prop}
  {p : Prog I σ Unit ε α} {s : σ} {l : List E}

theorem Upholds.request_mono {q : I.Query} {k : Except ε (I.Answer q) → Prog I σ Unit ε α}
    {s' : σ} {l' : List E} (h : Upholds record honest Inv (.request q k) s l) (hs : Inv s' l')
    (hl : l <+: l') : Upholds record honest Inv (.request q k) s' l' :=
  ⟨hs,fun s₂ l₂ h₂ hl₂ => h.2 s₂ l₂ h₂ (hl.trans hl₂)⟩

/-- An awaited request leaves one obligation for its answer and one for its failure. -/
theorem Upholds.await_bind {q : I.Query} {f : I.Answer q → Prog I σ Unit ε β} (hs : Inv s l)
    (hok : ∀ s' l' a, Inv s' l' → l <+: l' → honest q (.ok a) →
      Upholds record honest Inv (f a) s' (l' ++ record q (.ok a)))
    (herror : ∀ s' l' e, Inv s' l' → honest q (.error e) → Inv s' (l' ++ record q (.error e))) :
    Upholds record honest Inv (Prog.await q >>= f) s l := by
  refine ⟨hs,fun s' l' hs' hl' r hr => ?_⟩
  cases r with
  | ok a => exact hok s' l' a hs' hl' hr
  | error e => exact herror s' l' e hs' hr

theorem Upholds.modify_bind {g : σ → σ} {f : Unit → Prog I σ Unit ε β}
    (h : Upholds record honest Inv (f ()) (g s) l) :
    Upholds record honest Inv (Prog.modify g >>= f) s l := h

/-- What the program has done when it stops at its next await. -/
theorem Upholds.advance (h : Upholds record honest Inv p s l) (writes : List Write) (d : Unit) :
    match advance writes p s d with
    | (.finished _,s',_) => Inv s' l
    | (.waiting w,s',_) => Upholds record honest Inv (.request w.query w.resume) s' l := by
  induction p generalizing s d writes with
  | ret r => exact h
  | read k ih => exact ih s h writes d
  | assign f next ih => exact ih h writes d
  | store f k ih => exact ih _ (h _) writes.tail _
  | request q k ih => exact h

theorem Asks.advance {P : I.Query → Prop} (h : Asks P p) (writes : List Write) (s : σ)
    (d : Unit) :
    match advance writes p s d with
    | (.finished _,_,_) => True
    | (.waiting w,_,_) => Asks P (.request w.query w.resume : Prog I σ Unit ε α) := by
  induction p generalizing s d writes with
  | ret r => trivial
  | read k ih => exact ih s (h s) writes s d
  | assign f next ih => exact ih h writes (f s) d
  | store f k ih => exact ih _ (h _) writes.tail s _
  | request q k ih => exact h

end Rules

/-! ## Runs -/

namespace Threads

def start (s : σ) : Threads I σ ε α T E :=
  { memory := s
    calls := fun _ => none
    log := [] }

/-- A call is given a free number, under which its answers arrive. -/
inductive Action (I : Interface) (ε T : Type)
    (honest : (q : I.Query) → Except ε (I.Answer q) → Prop)
  | call (job : ℕ) (tag : T)
  | answer (job : ℕ) (o : Oracle I ε honest)

def settle (t : Threads I σ ε α T E) (job : ℕ) (tag : T) :
    Pause I σ Unit ε α × σ × Unit → Threads I σ ε α T E
  | (.finished _,s,_) => { t with memory := s,calls := Function.update t.calls job none }
  | (.waiting w,s,_) =>
    { t with memory := s,calls := Function.update t.calls job (some ⟨tag,w⟩) }

def exec (record : (q : I.Query) → Except ε (I.Answer q) → List E)
    (program : T → Prog I σ Unit ε α) (t : Threads I σ ε α T E) :
    Action I ε T honest → Except Refused (Threads I σ ε α T E)
  | .call job tag =>
    match t.calls job with
    | none => .ok (settle t job tag (advance [] (program tag) t.memory ()))
    | some _ => .error .refused
  | .answer job o =>
    match t.calls job with
    | none => .error .refused
    | some c =>
      .ok (settle { t with log := t.log ++ record c.wait.query (o.answer c.wait.query) } job c.tag
        (advance [] (c.wait.resume (o.answer c.wait.query)) t.memory ()))

variable {record : (q : I.Query) → Except ε (I.Answer q) → List E} {Inv : σ → List E → Prop}
  {program : T → Prog I σ Unit ε α} {t t' : Threads I σ ε α T E} {P : T → I.Query → Prop}

/-- A call that runs after one has stopped is that one, or ran before. -/
theorem settle_calls {job : ℕ} {tag : T} {outcome : Pause I σ Unit ε α × σ × Unit} {n : ℕ}
    {c : Call I σ ε α T} (h : (settle t job tag outcome).calls n = some c) :
    (∃ w, outcome.1 = .waiting w ∧ c = ⟨tag,w⟩) ∨ t.calls n = some c := by
  obtain ⟨pause,s,u⟩ := outcome
  by_cases hn : n = job
  · subst hn
    cases pause with
    | finished r =>
      have hc : Function.update t.calls n none n = some c := h
      rw [Function.update_self] at hc
      cases hc
    | waiting w =>
      have hc : Function.update t.calls n (some ⟨tag,w⟩) n = some c := h
      rw [Function.update_self] at hc
      exact .inl ⟨w,rfl,(Option.some.inj hc).symm⟩
  · cases pause <;> exact .inr ((Function.update_of_ne hn _ _).symm.trans h)

@[simp] theorem settle_log (job : ℕ) (tag : T) (outcome : Pause I σ Unit ε α × σ × Unit) :
    (settle t job tag outcome).log = t.log := by
  obtain ⟨pause,s,u⟩ := outcome
  cases pause <;> rfl

@[simp] theorem settle_memory (job : ℕ) (tag : T) (outcome : Pause I σ Unit ε α × σ × Unit) :
    (settle t job tag outcome).memory = outcome.2.1 := by
  obtain ⟨pause,s,u⟩ := outcome
  cases pause <;> rfl

/-- The invariant holds, every running call upholds it, and asks for what it may ask for. -/
structure Valid (record : (q : I.Query) → Except ε (I.Answer q) → List E)
    (honest : (q : I.Query) → Except ε (I.Answer q) → Prop) (Inv : σ → List E → Prop)
    (P : T → I.Query → Prop) (t : Threads I σ ε α T E) : Prop where
  holds : Inv t.memory t.log
  upholds : ∀ job c, t.calls job = some c →
    Upholds record honest Inv (.request c.wait.query c.wait.resume : Prog I σ Unit ε α)
      t.memory t.log
  asks : ∀ job c, t.calls job = some c →
    Asks (P c.tag) (.request c.wait.query c.wait.resume : Prog I σ Unit ε α)

theorem Valid.start {s : σ} (h : Inv s []) :
    Valid record honest Inv P (Threads.start s : Threads I σ ε α T E) where
  holds := h
  upholds _ _ hc := by cases hc
  asks _ _ hc := by cases hc

/-- One call runs to its next await; the others wait on. -/
theorem Valid.settle (hv : Valid record honest Inv P t) {l : List E} (hl : t.log <+: l)
    {p : Prog I σ Unit ε α} (hp : Upholds record honest Inv p t.memory l) {job : ℕ} {tag : T}
    (hask : Asks (P tag) p) :
    Valid record honest Inv P
      (settle { t with log := l } job tag (Async.advance [] p t.memory ())) := by
  have hstop := hp.advance [] ()
  have hnext := hask.advance [] t.memory ()
  generalize Async.advance [] p t.memory () = outcome at hstop hnext
  obtain ⟨pause,s,u⟩ := outcome
  have hinv : Inv s l := by
    cases pause with
    | finished r => exact hstop
    | waiting w => exact hstop.1
  refine
    { holds := by simpa using hinv
      upholds := fun n c hc => ?_
      asks := fun n c hc => ?_ }
  · rw [settle_memory,settle_log]
    cases settle_calls hc with
    | inl hw =>
      obtain ⟨w,rfl,rfl⟩ := hw
      exact hstop
    | inr hold => exact (hv.upholds n c hold).request_mono hinv hl
  · cases settle_calls hc with
    | inl hw =>
      obtain ⟨w,rfl,rfl⟩ := hw
      exact hnext
    | inr hold => exact hv.asks n c hold

/-- What every program upholds when it is started, every action keeps. -/
theorem Valid.exec (hprogram : ∀ tag s l, Inv s l → Upholds record honest Inv (program tag) s l)
    (hasks : ∀ tag, Asks (P tag) (program tag)) (hv : Valid record honest Inv P t)
    {a : Action I ε T honest} (h : exec record program t a = .ok t') :
    Valid record honest Inv P t' := by
  cases a with
  | call job tag =>
    simp only [Threads.exec] at h
    split at h
    · cases h
      exact hv.settle (l := t.log) (List.prefix_refl _) (hprogram tag _ _ hv.holds) (hasks tag)
    · cases h
  | answer job o =>
    simp only [Threads.exec] at h
    split at h
    · cases h
    · rename_i c hc
      cases h
      exact hv.settle (List.prefix_append _ _)
        ((hv.upholds job c hc).2 _ _ hv.holds (List.prefix_refl _) _ (o.isHonest _))
        ((hv.asks job c hc).2 _)

/-- A call that runs after an action was started by it, or its tag ran before. -/
theorem exec_calls {a : Action I ε T honest} (h : exec record program t a = .ok t') {n : ℕ}
    {c : Call I σ ε α T} (hc : t'.calls n = some c) :
    (∃ job, a = .call job c.tag) ∨ ∃ m c', t.calls m = some c' ∧ c'.tag = c.tag := by
  cases a with
  | call job tag =>
    simp only [Threads.exec] at h
    split at h
    · cases h
      cases settle_calls hc with
      | inl hw =>
        obtain ⟨w,-,rfl⟩ := hw
        exact .inl ⟨job,rfl⟩
      | inr hold => exact .inr ⟨n,c,hold,rfl⟩
    · cases h
  | answer job o =>
    simp only [Threads.exec] at h
    split at h
    · cases h
    · rename_i c' hc'
      cases h
      cases settle_calls hc with
      | inl hw =>
        obtain ⟨w,-,rfl⟩ := hw
        exact .inr ⟨job,c',hc',rfl⟩
      | inr hold => exact .inr ⟨n,c,hold,rfl⟩

/-- The record grows by what the answered call records. -/
theorem exec_log {a : Action I ε T honest} (h : exec record program t a = .ok t') :
    t'.log = t.log ∨ ∃ job c r, t.calls job = some c ∧ honest c.wait.query r ∧
      t'.log = t.log ++ record c.wait.query r := by
  cases a with
  | call job tag =>
    simp only [Threads.exec] at h
    split at h
    · cases h
      exact .inl (settle_log job tag _)
    · cases h
  | answer job o =>
    simp only [Threads.exec] at h
    split at h
    · cases h
    · rename_i c hc
      cases h
      exact .inr ⟨job,c,_,hc,o.isHonest _,settle_log job c.tag _⟩

theorem exec_prefix {a : Action I ε T honest} (h : exec record program t a = .ok t') :
    t.log <+: t'.log := by
  cases exec_log h with
  | inl hlog => exact hlog ▸ List.prefix_refl _
  | inr hanswer =>
    obtain ⟨job,c,r,-,-,hlog⟩ := hanswer
    rw [hlog]
    exact List.prefix_append _ _

end Threads
end Async
end BpsProtocol
