import BpsProtocol.Lib.Async
import BpsProtocol.Lib.Machine
import Mathlib.Logic.Function.Basic

/-! Pages that run asynchronous programs.
An application builds the memory of an instance from the durable store and offers methods.
A page has one instance, whose calls follow one another, and may be reloaded at any await.
A browser has any number of instances over one store, whose calls interleave at their
awaits.  What each call keeps, every run of a page keeps. -/
namespace BpsProtocol
namespace Async

structure App (I : Interface) (σ δ ε α M : Type) where
  construct : δ → Except ε σ
  method : M → Prog I σ δ ε α

/-- Answers for every query, all of them honest. -/
structure Oracle (I : Interface) (ε : Type)
    (honest : (q : I.Query) → Except ε (I.Answer q) → Prop) where
  answer : (q : I.Query) → Except ε (I.Answer q)
  isHonest : ∀ q, honest q (answer q)

/-- A call of a method that awaits an answer. -/
structure Task (I : Interface) (σ δ ε α M : Type) where
  method : M
  wait : Waiting I σ δ ε α

structure Page (I : Interface) (σ δ ε α M E : Type) where
  memory : Option σ
  task : Option (Task I σ δ ε α M)
  durable : δ
  log : List E
  returned : Option (M × Except ε α)

/-- Nothing to do: the instance is missing, busy or idle. -/
inductive Refused
  | refused
  deriving DecidableEq

variable {I : Interface} {σ δ ε α M E : Type}
  {honest : (q : I.Query) → Except ε (I.Answer q) → Prop}

/-! ## Pages -/

namespace Page

/-- The page before its first load. -/
def blank (d : δ) : Page I σ δ ε α M E :=
  { memory := none
    task := none
    durable := d
    log := []
    returned := none }

inductive Action (I : Interface) (ε M : Type)
    (honest : (q : I.Query) → Except ε (I.Answer q) → Prop)
  | reload
  | call (m : M) (writes : List Write)
  | answer (o : Oracle I ε honest) (writes : List Write)

def settle (mon : Monitor I δ ε E) (p : Page I σ δ ε α M E) (m : M) :
    Pause I σ δ ε α × σ × δ → Page I σ δ ε α M E
  | (.finished r,s,d) =>
    { p with memory := some s,task := none,durable := d,returned := some (m,r) }
  | (.waiting w,s,d) =>
    { p with
      memory := some s
      task := some ⟨m,w⟩
      durable := d
      log := p.log ++ mon.issued w.query d }

def exec (mon : Monitor I δ ε E) (app : App I σ δ ε α M) (p : Page I σ δ ε α M E) :
    Action I ε M honest → Except Refused (Page I σ δ ε α M E)
  | .reload => .ok { p with memory := (app.construct p.durable).toOption,task := none }
  | .call m writes =>
    match p.memory, p.task with
    | some s, none => .ok (settle mon p m (advance writes (app.method m) s p.durable))
    | _, _ => .error .refused
  | .answer o writes =>
    match p.memory, p.task with
    | some s, some t =>
      .ok (settle mon { p with log := p.log ++ mon.answered t.wait.query (o.answer t.wait.query) }
        t.method (advance writes (t.wait.resume (o.answer t.wait.query)) s p.durable))
    | _, _ => .error .refused

end Page

/-! ## Browsers -/

/-- A running call and the instance that it runs on. -/
structure Job (I : Interface) (σ δ ε α M : Type) where
  tab : ℕ
  task : Task I σ δ ε α M

structure Browser (I : Interface) (σ δ ε α M E : Type) where
  tabs : List σ
  jobs : ℕ → Option (Job I σ δ ε α M)
  durable : δ
  log : List E

namespace Browser

def blank (d : δ) : Browser I σ δ ε α M E :=
  { tabs := []
    jobs := fun _ => none
    durable := d
    log := [] }

/-- A call is given a free job number, under which its answers arrive. -/
inductive Action (I : Interface) (ε M : Type)
    (honest : (q : I.Query) → Except ε (I.Answer q) → Prop)
  | load
  | call (tab job : ℕ) (m : M) (writes : List Write)
  | answer (job : ℕ) (o : Oracle I ε honest) (writes : List Write)

def settle (mon : Monitor I δ ε E) (b : Browser I σ δ ε α M E) (tab job : ℕ) (m : M) :
    Pause I σ δ ε α × σ × δ → Browser I σ δ ε α M E
  | (.finished _,s,d) =>
    { b with
      tabs := b.tabs.set tab s
      jobs := Function.update b.jobs job none
      durable := d }
  | (.waiting w,s,d) =>
    { tabs := b.tabs.set tab s
      jobs := Function.update b.jobs job (some ⟨tab,⟨m,w⟩⟩)
      durable := d
      log := b.log ++ mon.issued w.query d }

def exec (mon : Monitor I δ ε E) (app : App I σ δ ε α M) (b : Browser I σ δ ε α M E) :
    Action I ε M honest → Except Refused (Browser I σ δ ε α M E)
  | .load =>
    match app.construct b.durable with
    | .ok s => .ok { b with tabs := b.tabs ++ [s] }
    | .error _ => .error .refused
  | .call tab job m writes =>
    match b.tabs[tab]?, b.jobs job with
    | some s, none => .ok (settle mon b tab job m (advance writes (app.method m) s b.durable))
    | _, _ => .error .refused
  | .answer job o writes =>
    match b.jobs job with
    | none => .error .refused
    | some j =>
      match b.tabs[j.tab]? with
      | none => .error .refused
      | some s =>
        .ok (settle mon
          { b with log := b.log ++ mon.answered j.task.wait.query (o.answer j.task.wait.query) }
          j.tab job j.task.method
          (advance writes (j.task.wait.resume (o.answer j.task.wait.query)) s b.durable))

end Browser

/-! ## What every call keeps -/

/-- `crash` holds at every await, `Inv` between the calls, and `Res` of every result. -/
structure Contract (mon : Monitor I δ ε E) (app : App I σ δ ε α M)
    (honest : (q : I.Query) → Except ε (I.Answer q) → Prop)
    (crash : δ → List E → Prop) (Inv : σ → δ → List E → Prop)
    (Res : M → Except ε α → Prop) : Prop where
  load : ∀ s d l, crash d l → app.construct d = .ok s → Inv s d l
  rest : ∀ s d l, Inv s d l → crash d l
  call : ∀ m s d l, Inv s d l →
    Safe mon crash honest (fun r s d l => Inv s d l ∧ Res m r) (app.method m) s d l

section Rules

variable {mon : Monitor I δ ε E} {app : App I σ δ ε α M} {crash : δ → List E → Prop}
  {Inv : σ → δ → List E → Prop} {Res : M → Except ε α → Prop}

/-- A waiting call resumes safely, whatever honest answer it is given. -/
def Resumes (mon : Monitor I δ ε E) (honest : (q : I.Query) → Except ε (I.Answer q) → Prop)
    (crash : δ → List E → Prop) (Inv : σ → δ → List E → Prop) (Res : M → Except ε α → Prop)
    (t : Task I σ δ ε α M) (s : σ) (d : δ) (l : List E) : Prop :=
  ∀ r, honest t.wait.query r →
    Safe mon crash honest (fun r s d l => Inv s d l ∧ Res t.method r) (t.wait.resume r) s d
      (l ++ mon.answered t.wait.query r)

namespace Page

structure Valid (mon : Monitor I δ ε E) (honest : (q : I.Query) → Except ε (I.Answer q) → Prop)
    (crash : δ → List E → Prop) (Inv : σ → δ → List E → Prop) (Res : M → Except ε α → Prop)
    (p : Page I σ δ ε α M E) : Prop where
  rest : crash p.durable p.log
  idle : ∀ s, p.memory = some s → p.task = none → Inv s p.durable p.log
  busy : ∀ s t, p.memory = some s → p.task = some t →
    Resumes mon honest crash Inv Res t s p.durable p.log
  returned : ∀ m r, p.returned = some (m,r) → Res m r

theorem Valid.blank {d : δ} (h : crash d []) :
    Valid mon honest crash Inv Res (Page.blank d) where
  rest := h
  idle := nofun
  busy := nofun
  returned := nofun

theorem Valid.settle (C : Contract mon app honest crash Inv Res) {p : Page I σ δ ε α M E} {m : M}
    {prog : Prog I σ δ ε α} {s : σ} (hret : ∀ m r, p.returned = some (m,r) → Res m r)
    (h : Safe mon crash honest (fun r s d l => Inv s d l ∧ Res m r) prog s p.durable p.log)
    (writes : List Write) :
    Valid mon honest crash Inv Res (settle mon p m (advance writes prog s p.durable)) := by
  have hs := h.advance writes
  generalize advance writes prog s p.durable = outcome at hs
  cases outcome with
  | mk pause rest =>
    obtain ⟨s',d'⟩ := rest
    cases pause with
    | finished r =>
      exact
        { rest := C.rest _ _ _ hs.1
          idle := fun _ heq _ => Option.some.inj heq ▸ hs.1
          busy := nofun
          returned := fun m' r' heq => by
            obtain ⟨rfl,rfl⟩ := Prod.mk.inj (Option.some.inj heq)
            exact hs.2 }
    | waiting w =>
      exact
        { rest := hs.1
          idle := nofun
          busy := fun _ _ heq htask => by
            cases heq
            cases htask
            exact hs.2
          returned := hret }

theorem Valid.exec (C : Contract mon app honest crash Inv Res) {p p' : Page I σ δ ε α M E}
    {a : Action I ε M honest} (hv : Valid mon honest crash Inv Res p)
    (h : exec mon app p a = .ok p') : Valid mon honest crash Inv Res p' := by
  cases a with
  | reload =>
    cases h
    exact
      { rest := hv.rest
        idle := fun s hs _ => by
          apply C.load _ _ _ hv.rest
          simp only at hs
          generalize app.construct p.durable = built at hs ⊢
          cases built with
          | ok s' => exact congrArg Except.ok (Option.some.inj hs)
          | error e => cases hs
        busy := nofun
        returned := hv.returned }
  | call m writes =>
    simp only [Page.exec] at h
    split at h
    · rename_i s hs ht
      cases h
      exact .settle C hv.returned (C.call m s _ _ (hv.idle s hs ht)) writes
    · cases h
  | answer o writes =>
    simp only [Page.exec] at h
    split at h
    · rename_i s t hs ht
      cases h
      exact Valid.settle C
        (p := { p with log := p.log ++ mon.answered t.wait.query (o.answer t.wait.query) })
        hv.returned (hv.busy s t hs ht _ (o.isHonest _)) writes
    · cases h

/-- Every page reached from a store that may be loaded is valid. -/
theorem Valid.reachable (C : Contract mon app honest crash Inv Res) {d : δ} (hd : crash d [])
    {p : Page I σ δ ε α M E}
    (h : Machine.Reachable (τ := Page.Action I ε M honest) (· = Page.blank d)
      (Page.exec mon app) p) :
    Valid mon honest crash Inv Res p :=
  h.invariant (fun s hs => by rw [show s = _ from hs]; exact .blank hd)
    (fun _ _ _ hv hexec => hv.exec C hexec)

end Page

end Rules
end Async
end BpsProtocol
