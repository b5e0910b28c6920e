import Mathlib.Data.List.Basic
import Mathlib.Tactic.Common

/-! Asynchronous programs over a memory and a durable store.
A program runs until it awaits an answer of its environment.  Each write to the store may
take effect and be read back, take effect unnoticed, or be lost.  The program logic is a
recursion over the program: one obligation at every await, one for the result. -/
namespace BpsProtocol
namespace Async

/-- What a program can ask its environment, and what it is answered. -/
structure Interface where
  Query : Type
  Answer : Query → Type

inductive Prog (I : Interface) (σ δ ε α : Type) : Type where
  | ret (r : Except ε α)
  | read (k : σ → Prog I σ δ ε α)
  | assign (f : σ → σ) (next : Prog I σ δ ε α)
  | store (f : δ → δ) (k : Bool → Prog I σ δ ε α)
  | request (q : I.Query) (k : Except ε (I.Answer q) → Prog I σ δ ε α)

variable {I : Interface} {σ δ ε α β : Type}

namespace Prog

def bind : Prog I σ δ ε α → (α → Prog I σ δ ε β) → Prog I σ δ ε β
  | .ret (.ok a), f => f a
  | .ret (.error e), _ => .ret (.error e)
  | .read k, f => .read fun s => bind (k s) f
  | .assign g next, f => .assign g (bind next f)
  | .store g k, f => .store g fun b => bind (k b) f
  | .request q k, f => .request q fun r => bind (k r) f

instance : Monad (Prog I σ δ ε) where
  pure a := .ret (.ok a)
  bind := bind

/-- An exception that nothing catches. -/
def throw (e : ε) : Prog I σ δ ε α := .ret (.error e)

def get : Prog I σ δ ε σ := .read fun s => .ret (.ok s)

def modify (f : σ → σ) : Prog I σ δ ε Unit := .assign f (.ret (.ok ()))

/-- A write with read-back: the answer says whether the value was there. -/
def write (f : δ → δ) : Prog I σ δ ε Bool := .store f fun b => .ret (.ok b)

/-- An awaited request; its failure is thrown. -/
def await (q : I.Query) : Prog I σ δ ε (I.Answer q) := .request q .ret

/-- An awaited request whose failure is caught. -/
def attempt (q : I.Query) : Prog I σ δ ε (Except ε (I.Answer q)) := .request q fun r => .ret (.ok r)

def ofExcept (r : Except ε α) : Prog I σ δ ε α := .ret r

variable (f : α → Prog I σ δ ε β)

@[simp] theorem pure_bind (a : α) : (pure a : Prog I σ δ ε α) >>= f = f a := rfl

@[simp] theorem throw_bind (e : ε) : (throw e : Prog I σ δ ε α) >>= f = throw e := rfl

@[simp] theorem ofExcept_ok (a : α) : (ofExcept (.ok a) : Prog I σ δ ε α) = pure a := rfl

@[simp] theorem ofExcept_error (e : ε) : (ofExcept (.error e) : Prog I σ δ ε α) = throw e := rfl

end Prog

/-! ## Storage faults -/

inductive Write
  | confirmed
  | unconfirmed
  | lost
  deriving DecidableEq

namespace Write

def readBack : Write → Bool
  | confirmed => true
  | _ => false

def apply (f : δ → δ) (d : δ) : Write → δ
  | lost => d
  | _ => f d

@[simp] theorem readBack_confirmed : readBack confirmed = true := rfl
@[simp] theorem readBack_unconfirmed : readBack unconfirmed = false := rfl
@[simp] theorem readBack_lost : readBack lost = false := rfl

@[simp] theorem apply_confirmed (f : δ → δ) (d : δ) : apply f d confirmed = f d := rfl
@[simp] theorem apply_unconfirmed (f : δ → δ) (d : δ) : apply f d unconfirmed = f d := rfl
@[simp] theorem apply_lost (f : δ → δ) (d : δ) : apply f d lost = d := rfl

end Write

/-! ## Running to the next await -/

/-- A call that awaits the answer to a query. -/
structure Waiting (I : Interface) (σ δ ε α : Type) where
  query : I.Query
  resume : Except ε (I.Answer query) → Prog I σ δ ε α

inductive Pause (I : Interface) (σ δ ε α : Type)
  | finished (r : Except ε α)
  | waiting (w : Waiting I σ δ ε α)

/-- The program up to its next await.  `writes` tells how the store treats each write;
when it is used up, the writes are confirmed. -/
def advance (writes : List Write) :
    Prog I σ δ ε α → σ → δ → Pause I σ δ ε α × σ × δ
  | .ret r, s, d => (.finished r,s,d)
  | .read k, s, d => advance writes (k s) s d
  | .assign f next, s, d => advance writes next (f s) d
  | .store f k, s, d =>
    advance writes.tail (k (writes.headD .confirmed).readBack) s
      ((writes.headD .confirmed).apply f d)
  | .request q k, s, d => (.waiting ⟨q,k⟩,s,d)

/-! ## Program logic -/

/-- The events that an observer records of a request and of its answer. -/
structure Monitor (I : Interface) (δ ε E : Type) where
  issued : I.Query → δ → List E
  answered : (q : I.Query) → Except ε (I.Answer q) → List E

variable {E : Type} (mon : Monitor I δ ε E) (crash : δ → List E → Prop)
  (honest : (q : I.Query) → Except ε (I.Answer q) → Prop)

/-- From memory `s`, store `d` and record `l` the program awaits only where `crash` holds,
and, as long as the answers are honest, ends only where `Post` holds. -/
def Safe (Post : Except ε α → σ → δ → List E → Prop) :
    Prog I σ δ ε α → σ → δ → List E → Prop
  | .ret r, s, d, l => Post r s d l
  | .read k, s, d, l => Safe Post (k s) s d l
  | .assign f next, s, d, l => Safe Post next (f s) d l
  | .store f k, s, d, l => ∀ w : Write, Safe Post (k w.readBack) s (w.apply f d) l
  | .request q k, s, d, l =>
    crash d (l ++ mon.issued q d) ∧
      ∀ r, honest q r → Safe Post (k r) s d (l ++ mon.issued q d ++ mon.answered q r)

section Logic

variable {mon crash honest}
variable {Post : Except ε β → σ → δ → List E → Prop} {s : σ} {d : δ} {l : List E}
  {f : α → Prog I σ δ ε β}

theorem Safe.mono {P Q : Except ε α → σ → δ → List E → Prop} {p : Prog I σ δ ε α}
    (h : Safe mon crash honest P p s d l) (hPQ : ∀ r s d l, P r s d l → Q r s d l) :
    Safe mon crash honest Q p s d l := by
  induction p generalizing s d l with
  | ret r => exact hPQ _ _ _ _ h
  | read k ih => exact ih s h
  | assign f next ih => exact ih h
  | store f k ih => exact fun w => ih _ (h w)
  | request q k ih => exact ⟨h.1,fun r hr => ih r (h.2 r hr)⟩

/-- Two facts about the ends of one program hold together. -/
theorem Safe.and {P Q : Except ε α → σ → δ → List E → Prop} {p : Prog I σ δ ε α} {s : σ} {d : δ}
    {l : List E} (hP : Safe mon crash honest P p s d l) (hQ : Safe mon crash honest Q p s d l) :
    Safe mon crash honest (fun r s d l => P r s d l ∧ Q r s d l) p s d l := by
  induction p generalizing s d l with
  | ret r => exact ⟨hP,hQ⟩
  | read k ih => exact ih s hP hQ
  | assign f next ih => exact ih hP hQ
  | store f k ih => exact fun w => ih _ (hP w) (hQ w)
  | request q k ih => exact ⟨hP.1,fun r hr => ih r (hP.2 r hr) (hQ.2 r hr)⟩

/-- The sequencing rule. -/
theorem Safe.bind {p : Prog I σ δ ε α}
    (h : Safe mon crash honest (fun r s d l => match r with
      | .ok a => Safe mon crash honest Post (f a) s d l
      | .error e => Post (.error e) s d l) p s d l) :
    Safe mon crash honest Post (p >>= f) s d l := by
  induction p generalizing s d l with
  | ret r =>
    cases r with
    | ok a => exact h
    | error e => exact h
  | read k ih => exact ih s h
  | assign g next ih => exact ih h
  | store g k ih => exact fun w => ih _ (h w)
  | request q k ih => exact ⟨h.1,fun r hr => ih r (h.2 r hr)⟩

theorem Safe.get_bind {f : σ → Prog I σ δ ε β} (h : Safe mon crash honest Post (f s) s d l) :
    Safe mon crash honest Post (Prog.get >>= f) s d l := h

theorem Safe.modify_bind {g : σ → σ} {f : Unit → Prog I σ δ ε β}
    (h : Safe mon crash honest Post (f ()) (g s) d l) :
    Safe mon crash honest Post (Prog.modify g >>= f) s d l := h

/-- A write leaves one obligation for each thing that the store may do with it. -/
theorem Safe.write_bind {g : δ → δ} {f : Bool → Prog I σ δ ε β}
    (hok : Safe mon crash honest Post (f true) s (g d) l)
    (hseen : Safe mon crash honest Post (f false) s (g d) l)
    (hlost : Safe mon crash honest Post (f false) s d l) :
    Safe mon crash honest Post (Prog.write g >>= f) s d l := by
  intro w
  cases w with
  | confirmed => exact hok
  | unconfirmed => exact hseen
  | lost => exact hlost

theorem Safe.attempt_bind {q : I.Query} {f : Except ε (I.Answer q) → Prog I σ δ ε β}
    (hcrash : crash d (l ++ mon.issued q d))
    (h : ∀ r, honest q r →
      Safe mon crash honest Post (f r) s d (l ++ mon.issued q d ++ mon.answered q r)) :
    Safe mon crash honest Post (Prog.attempt q >>= f) s d l := ⟨hcrash,h⟩

theorem Safe.await_bind {q : I.Query} {f : I.Answer q → Prog I σ δ ε β}
    (hcrash : crash d (l ++ mon.issued q d))
    (herror : ∀ e, honest q (.error e) →
      Post (.error e) s d (l ++ mon.issued q d ++ mon.answered q (.error e)))
    (hok : ∀ a, honest q (.ok a) →
      Safe mon crash honest Post (f a) s d (l ++ mon.issued q d ++ mon.answered q (.ok a))) :
    Safe mon crash honest Post (Prog.await q >>= f) s d l := by
  refine ⟨hcrash,fun r hr => ?_⟩
  cases r with
  | error e => exact herror e hr
  | ok a => exact hok a hr

end Logic

/-! ## Programs that only look -/

/-- The program changes neither memory nor store and asks only silent queries. -/
def Quiet (silent : I.Query → Prop) : Prog I σ δ ε α → Prop
  | .ret _ => True
  | .read k => ∀ s, Quiet silent (k s)
  | .assign _ _ => False
  | .store _ _ => False
  | .request q k => silent q ∧ ∀ r, Quiet silent (k r)

namespace Quiet

variable {silent : I.Query → Prop}

@[simp] theorem ret (r : Except ε α) : Quiet silent (.ret r : Prog I σ δ ε α) := trivial

@[simp] theorem pure (a : α) : Quiet silent (Pure.pure a : Prog I σ δ ε α) := trivial

@[simp] theorem throw (e : ε) : Quiet silent (Prog.throw e : Prog I σ δ ε α) := trivial

@[simp] theorem ofExcept (r : Except ε α) : Quiet silent (Prog.ofExcept r : Prog I σ δ ε α) :=
  trivial

@[simp] theorem get : Quiet silent (Prog.get : Prog I σ δ ε σ) := fun _ => trivial

@[simp] theorem await {q : I.Query} :
    Quiet silent (Prog.await q : Prog I σ δ ε (I.Answer q)) ↔ silent q :=
  ⟨And.left,fun h => ⟨h,fun _ => trivial⟩⟩

@[simp] theorem attempt {q : I.Query} :
    Quiet silent (Prog.attempt q : Prog I σ δ ε (Except ε (I.Answer q))) ↔ silent q :=
  ⟨And.left,fun h => ⟨h,fun _ => trivial⟩⟩

theorem bind {p : Prog I σ δ ε α} {f : α → Prog I σ δ ε β} (hp : Quiet silent p)
    (hf : ∀ a, Quiet silent (f a)) : Quiet silent (p >>= f) := by
  induction p with
  | ret r =>
    cases r with
    | ok a => exact hf a
    | error e => trivial
  | read k ih => exact fun s => ih s (hp s)
  | assign g next ih => exact hp.elim
  | store g k ih => exact hp.elim
  | request q k ih => exact ⟨hp.1,fun r => ih r (hp.2 r)⟩

theorem ite {c : Prop} [Decidable c] {p p' : Prog I σ δ ε α} (h : Quiet silent p)
    (h' : Quiet silent p') : Quiet silent (if c then p else p') := by
  split
  · exact h
  · exact h'

variable {mon crash honest}

/-- A quiet program leaves memory, store and record as they are. -/
theorem safe {p : Prog I σ δ ε α} (hp : Quiet silent p)
    (hissued : ∀ q d, silent q → mon.issued q d = [])
    (hanswered : ∀ q r, silent q → mon.answered q r = [])
    {s : σ} {d : δ} {l : List E} (hcrash : crash d l) :
    Safe mon crash honest (fun _ s' d' l' => s' = s ∧ d' = d ∧ l' = l) p s d l := by
  induction p with
  | ret r => exact ⟨rfl,rfl,rfl⟩
  | read k ih => exact ih s (hp s)
  | assign g next ih => exact hp.elim
  | store g k ih => exact hp.elim
  | request q k ih =>
    refine ⟨?_,fun r _ => ?_⟩
    · rwa [hissued q d hp.1,List.append_nil]
    · rw [hissued q d hp.1,hanswered q r hp.1,List.append_nil,List.append_nil]
      exact ih r (hp.2 r)

end Quiet

/-! ## Results of honest answers -/

/-- Every result of the program is in `P`, whatever the memory and the store, as long as the
answers are honest. -/
def Yields (honest : (q : I.Query) → Except ε (I.Answer q) → Prop) (P : Except ε α → Prop) :
    Prog I σ δ ε α → Prop
  | .ret r => P r
  | .read k => ∀ s, Yields honest P (k s)
  | .assign _ next => Yields honest P next
  | .store _ k => ∀ b, Yields honest P (k b)
  | .request q k => ∀ r, honest q r → Yields honest P (k r)

namespace Yields

variable {honest : (q : I.Query) → Except ε (I.Answer q) → Prop}

theorem bind {p : Prog I σ δ ε α} {f : α → Prog I σ δ ε β} {P : Except ε β → Prop}
    (h : Yields honest (fun r => match r with
      | .ok a => Yields honest P (f a)
      | .error e => P (.error e)) p) : Yields honest P (p >>= f) := by
  induction p with
  | ret r =>
    cases r with
    | ok a => exact h
    | error e => exact h
  | read k ih => exact fun s => ih s (h s)
  | assign g next ih => exact ih h
  | store g k ih => exact fun b => ih b (h b)
  | request q k ih => exact fun r hr => ih r (h r hr)

theorem mono {p : Prog I σ δ ε α} {P Q : Except ε α → Prop} (h : Yields honest P p)
    (hPQ : ∀ r, P r → Q r) : Yields honest Q p := by
  induction p with
  | ret r => exact hPQ r h
  | read k ih => exact fun s => ih s (h s)
  | assign g next ih => exact ih h
  | store g k ih => exact fun b => ih b (h b)
  | request q k ih => exact fun r hr => ih r (h r hr)

/-- A property of all results. -/
theorem of_forall {p : Prog I σ δ ε α} {P : Except ε α → Prop} (h : ∀ r, P r) :
    Yields honest P p := by
  induction p with
  | ret r => exact h r
  | read k ih => exact fun s => ih s
  | assign g next ih => exact ih
  | store g k ih => exact fun b => ih b
  | request q k ih => exact fun r _ => ih r

end Yields

/-! ## Programs that respect a relation of memory and store -/

/-- Every field update and every write of the program keeps the relation. -/
def Respects (J : σ → δ → Prop) : Prog I σ δ ε α → Prop
  | .ret _ => True
  | .read k => ∀ s, Respects J (k s)
  | .assign f next => (∀ s d, J s d → J (f s) d) ∧ Respects J next
  | .store f k => (∀ s d, J s d → J s (f d)) ∧ ∀ b, Respects J (k b)
  | .request _ k => ∀ r, Respects J (k r)

namespace Respects

variable {J : σ → δ → Prop}

theorem bind {p : Prog I σ δ ε α} {f : α → Prog I σ δ ε β} (hp : Respects J p)
    (hf : ∀ a, Respects J (f a)) : Respects J (p >>= f) := by
  induction p with
  | ret r =>
    cases r with
    | ok a => exact hf a
    | error e => trivial
  | read k ih => exact fun s => ih s (hp s)
  | assign g next ih => exact ⟨hp.1,ih hp.2⟩
  | store g k ih => exact ⟨hp.1,fun b => ih b (hp.2 b)⟩
  | request q k ih => exact fun r => ih r (hp r)

theorem of_quiet {silent : I.Query → Prop} {p : Prog I σ δ ε α} (hp : Quiet silent p) :
    Respects J p := by
  induction p with
  | ret r => trivial
  | read k ih => exact fun s => ih s (hp s)
  | assign g next ih => exact hp.elim
  | store g k ih => exact hp.elim
  | request q k ih => exact fun r => ih r (hp.2 r)

theorem ite {c : Prop} [Decidable c] {p p' : Prog I σ δ ε α} (h : Respects J p)
    (h' : Respects J p') : Respects J (if c then p else p') := by
  split
  · exact h
  · exact h'

/-- The relation holds at every await and at the end. -/
theorem safe {mon : Monitor I δ ε E} {crash : δ → List E → Prop}
    {honest : (q : I.Query) → Except ε (I.Answer q) → Prop}
    (hcrash : ∀ s d l, J s d → crash d l) {p : Prog I σ δ ε α} (hp : Respects J p) {s : σ} {d : δ}
    {l : List E} (h : J s d) : Safe mon crash honest (fun _ s d _ => J s d) p s d l := by
  induction p generalizing s d l with
  | ret r => exact h
  | read k ih => exact ih s (hp s) h
  | assign f next ih => exact ih hp.2 (hp.1 s d h)
  | store f k ih =>
    intro w
    refine ih _ (hp.2 _) ?_
    cases w with
    | confirmed => exact hp.1 s d h
    | unconfirmed => exact hp.1 s d h
    | lost => exact h
  | request q k ih => exact ⟨hcrash s d _ h,fun r _ => ih r (hp r) h⟩

end Respects

/-! ## Programs that ask allowed queries only -/

/-- Whatever the program does to memory and store, it asks no other query. -/
def Asks (allowed : I.Query → Prop) : Prog I σ δ ε α → Prop
  | .ret _ => True
  | .read k => ∀ s, Asks allowed (k s)
  | .assign _ next => Asks allowed next
  | .store _ k => ∀ b, Asks allowed (k b)
  | .request q k => allowed q ∧ ∀ r, Asks allowed (k r)

namespace Asks

variable {allowed : I.Query → Prop}

theorem bind {p : Prog I σ δ ε α} {f : α → Prog I σ δ ε β} (hp : Asks allowed p)
    (hf : ∀ a, Asks allowed (f a)) : Asks allowed (p >>= f) := by
  induction p with
  | ret r =>
    cases r with
    | ok a => exact hf a
    | error e => trivial
  | read k ih => exact fun s => ih s (hp s)
  | assign g next ih => exact ih hp
  | store g k ih => exact fun b => ih b (hp b)
  | request q k ih => exact ⟨hp.1,fun r => ih r (hp.2 r)⟩

theorem of_quiet {p : Prog I σ δ ε α} (hp : Quiet allowed p) : Asks allowed p := by
  induction p with
  | ret r => trivial
  | read k ih => exact fun s => ih s (hp s)
  | assign g next ih => exact hp.elim
  | store g k ih => exact hp.elim
  | request q k ih => exact ⟨hp.1,fun r => ih r (hp.2 r)⟩

theorem ite {c : Prop} [Decidable c] {p p' : Prog I σ δ ε α} (h : Asks allowed p)
    (h' : Asks allowed p') : Asks allowed (if c then p else p') := by
  split
  · exact h
  · exact h'

/-- A property of the record that the allowed queries keep is kept by the program. -/
theorem safe {mon : Monitor I δ ε E} {J : List E → Prop}
    {honest : (q : I.Query) → Except ε (I.Answer q) → Prop}
    (hissued : ∀ q d l, allowed q → J l → J (l ++ mon.issued q d))
    (hanswered : ∀ q r l, allowed q → J l → J (l ++ mon.answered q r)) {p : Prog I σ δ ε α}
    (hp : Asks allowed p) {s : σ} {d : δ} {l : List E} (h : J l) :
    Safe mon (fun _ l => J l) honest (fun _ _ _ l => J l) p s d l := by
  induction p generalizing s d l with
  | ret r => exact h
  | read k ih => exact ih s (hp s) h
  | assign g next ih => exact ih hp h
  | store g k ih => exact fun w => ih _ (hp _) h
  | request q k ih =>
    have hq := hissued q d l hp.1 h
    exact ⟨hq,fun r _ => ih r (hp.2 r) (hanswered q r _ hp.1 hq)⟩

end Asks

/-- What a program that only looks finds out, wherever the page may crash. -/
theorem Quiet.safe_and {silent : I.Query → Prop} {mon : Monitor I δ ε E}
    {crash : δ → List E → Prop} {honest : (q : I.Query) → Except ε (I.Answer q) → Prop}
    {P : Except ε α → Prop} {p : Prog I σ δ ε α} (hp : Quiet silent p)
    (hissued : ∀ q d, silent q → mon.issued q d = [])
    (hanswered : ∀ q r, silent q → mon.answered q r = []) {s : σ} {d : δ} {l : List E}
    (hcrash : crash d l) (hfound : Yields honest P p) :
    Safe mon crash honest (fun r s' d' l' => P r ∧ s' = s ∧ d' = d ∧ l' = l) p s d l := by
  induction p with
  | ret r => exact ⟨hfound,rfl,rfl,rfl⟩
  | read k ih => exact ih s (hp s) (hfound s)
  | assign g next ih => exact hp.elim
  | store g k ih => exact hp.elim
  | request q k ih =>
    refine ⟨?_,fun r hr => ?_⟩
    · rwa [hissued q d hp.1,List.append_nil]
    · rw [hissued q d hp.1,hanswered q r hp.1,List.append_nil,List.append_nil]
      exact ih r (hp.2 r) (hfound r hr)

/-- A safe program run to its next await. -/
theorem Safe.advance {mon : Monitor I δ ε E} {crash : δ → List E → Prop}
    {honest : (q : I.Query) → Except ε (I.Answer q) → Prop}
    {Post : Except ε α → σ → δ → List E → Prop} {p : Prog I σ δ ε α} {s : σ} {d : δ}
    {l : List E} (h : Safe mon crash honest Post p s d l) (writes : List Write) :
    match advance writes p s d with
    | (.finished r,s',d') => Post r s' d' l
    | (.waiting w,s',d') => Safe mon crash honest Post (.request w.query w.resume) s' d' l := by
  induction p generalizing s d writes with
  | ret r => exact h
  | read k ih => exact ih s h writes
  | assign f next ih => exact ih h writes
  | store f k ih => exact ih _ (h _) writes.tail
  | request q k ih => exact h

/-! ## Runs to the end -/

/-- How a run ends. -/
structure Outcome (σ δ ε E α : Type) where
  result : Except ε α
  memory : σ
  store : δ
  record : List E

/-- The run against an environment that may look at the record so far. -/
def run (mon : Monitor I δ ε E) (writes : List E → Write)
    (answers : List E → (q : I.Query) → Except ε (I.Answer q)) :
    Prog I σ δ ε α → σ → δ → List E → Outcome σ δ ε E α
  | .ret r, s, d, l => ⟨r,s,d,l⟩
  | .read k, s, d, l => run mon writes answers (k s) s d l
  | .assign f next, s, d, l => run mon writes answers next (f s) d l
  | .store f k, s, d, l =>
    run mon writes answers (k (writes l).readBack) s ((writes l).apply f d) l
  | .request q k, s, d, l =>
    run mon writes answers (k (answers (l ++ mon.issued q d) q)) s d
      (l ++ mon.issued q d ++ mon.answered q (answers (l ++ mon.issued q d) q))

theorem Safe.run {mon : Monitor I δ ε E} {crash : δ → List E → Prop}
    {honest : (q : I.Query) → Except ε (I.Answer q) → Prop}
    {Post : Except ε α → σ → δ → List E → Prop} {writes : List E → Write}
    {answers : List E → (q : I.Query) → Except ε (I.Answer q)}
    (hanswers : ∀ l q, honest q (answers l q)) {p : Prog I σ δ ε α} {s : σ} {d : δ} {l : List E}
    (h : Safe mon crash honest Post p s d l) :
    Post (run mon writes answers p s d l).result (run mon writes answers p s d l).memory
      (run mon writes answers p s d l).store (run mon writes answers p s d l).record := by
  induction p generalizing s d l with
  | ret r => exact h
  | read k ih => exact ih s h
  | assign f next ih => exact ih h
  | store f k ih => exact ih _ (h (writes l))
  | request q k ih => exact ih _ (h.2 _ (hanswers _ q))

end Async
end BpsProtocol
