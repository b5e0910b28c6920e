import Mathlib.Data.Set.Basic

/-! Code that may throw and keeps what it wrote.
A program goes from a state to a result and a state, and a handler goes on from the state in
which the body threw.  A block is a program that ends, or not, whatever the state, and leaves
a state clean exactly where its own part passes. -/
namespace BpsProtocol
namespace Guarded

variable {ε σ α β : Type}

structure Program (ε σ α : Type) where
  run : σ → Except ε α × σ

/-- What follows a program that has ended. -/
def andThen (f : α → σ → Except ε β × σ) : Except ε α × σ → Except ε β × σ
  | (.ok a,s) => f a s
  | (.error e,s) => (.error e,s)

/-- What follows a program that has thrown. -/
def orElse (f : ε → σ → Except ε α × σ) : Except ε α × σ → Except ε α × σ
  | (.ok a,s) => (.ok a,s)
  | (.error e,s) => f e s

instance : Monad (Program ε σ) where
  pure a := ⟨fun s => (.ok a,s)⟩
  bind x f := ⟨fun s => andThen (fun a => (f a).run) (x.run s)⟩

instance : MonadExcept ε (Program ε σ) where
  throw e := ⟨fun s => (.error e,s)⟩
  tryCatch x handle := ⟨fun s => orElse (fun e => (handle e).run) (x.run s)⟩

def get : Program ε σ σ := ⟨fun s => (.ok s,s)⟩

def modify (f : σ → σ) : Program ε σ Unit := ⟨fun s => (.ok (),f s)⟩

/-- An awaited answer, which may be thrown. -/
def awaited (r : Except ε α) : Program ε σ α := ⟨fun s => (r,s)⟩

section Run

variable (x : Program ε σ α) (f : α → Program ε σ β) (handle : ε → Program ε σ α) (s : σ)

@[simp] theorem andThen_ok (f : α → σ → Except ε β × σ) (a : α) (s : σ) :
    andThen f (.ok a,s) = f a s := rfl

@[simp] theorem andThen_error (f : α → σ → Except ε β × σ) (e : ε) (s : σ) :
    andThen f (.error e,s) = (.error e,s) := rfl

@[simp] theorem orElse_ok (f : ε → σ → Except ε α × σ) (a : α) (s : σ) :
    orElse f (.ok a,s) = (.ok a,s) := rfl

@[simp] theorem orElse_error (f : ε → σ → Except ε α × σ) (e : ε) (s : σ) :
    orElse f (.error e,s) = f e s := rfl

@[simp] theorem pure_run (a : α) : (pure a : Program ε σ α).run s = (.ok a,s) := rfl

@[simp] theorem bind_run :
    (x >>= f).run s = andThen (fun a => (f a).run) (x.run s) := rfl

@[simp] theorem tryCatch_run :
    (tryCatch x handle).run s = orElse (fun e => (handle e).run) (x.run s) := rfl

@[simp] theorem get_run : (get : Program ε σ σ).run s = (.ok s,s) := rfl

@[simp] theorem modify_run (g : σ → σ) : (modify g : Program ε σ Unit).run s = (.ok (),g s) := rfl

@[simp] theorem awaited_run (r : Except ε α) : (awaited r : Program ε σ α).run s = (r,s) := rfl

@[simp] theorem awaited_ok_bind (a : α) : (awaited (.ok a) : Program ε σ α) >>= f = f a := rfl

@[simp] theorem awaited_error_bind (e : ε) :
    (awaited (.error e) : Program ε σ α) >>= f = throw e := rfl

@[simp] theorem throw_run (e : ε) : (throw e : Program ε σ α).run s = (.error e,s) := rfl

theorem bind_assoc {γ : Type} (g : β → Program ε σ γ) :
    (x >>= f) >>= g = x >>= fun a => f a >>= g := by
  have hrun : ∀ s, ((x >>= f) >>= g).run s = (x >>= fun a => f a >>= g).run s := by
    intro s
    rw [bind_run,bind_run,bind_run]
    cases hx : x.run s with
    | mk r s₁ =>
      cases r with
      | ok a => rfl
      | error e => rfl
  exact congrArg Program.mk (funext hrun)

/-- A sequence ends where its first part ends in a state from which the rest does. -/
theorem bind_run_ok {b : β} {s' : σ} :
    (x >>= f).run s = (.ok b,s') ↔ ∃ a s₁, x.run s = (.ok a,s₁) ∧ (f a).run s₁ = (.ok b,s') := by
  rw [bind_run]
  cases hx : x.run s with
  | mk r s₁ =>
    cases r with
    | ok a =>
      constructor
      · intro h
        exact ⟨a,s₁,rfl,h⟩
      · rintro ⟨a',s₂,h,hf⟩
        cases h
        exact hf
    | error e => simp

end Run

/-- From every state the program throws the same. -/
def Throws (x : Program ε σ α) (e : ε) : Prop := ∀ s, ∃ s', x.run s = (.error e,s')

theorem throws_awaited (e : ε) (f : α → Program ε σ β) : Throws (awaited (.error e) >>= f) e :=
  fun s => ⟨s,rfl⟩

theorem Throws.after_modify {x : Program ε σ α} {e : ε} (h : Throws x e) (f : σ → σ) :
    Throws (modify f >>= fun _ => x) e := fun s => h (f s)

/-! ## Blocks -/

/-- From every state the program ends where `ends` holds.  It leaves a clean state clean where
`passes` holds, and leads to a failed one where it does not, or from a failed one. -/
structure Block (Clean Failed : σ → Prop) (x : Program ε σ Unit) (ends passes : Prop) : Prop where
  ends_iff : ∀ s, (∃ s', x.run s = (.ok (),s')) ↔ ends
  clean : ∀ s s', x.run s = (.ok (),s') → Clean s → passes → Clean s'
  failed : ∀ s s', x.run s = (.ok (),s') → Failed s ∨ ¬passes → Failed s'

namespace Block

variable {Clean Failed : σ → Prop} {x y body : Program ε σ Unit} {e : ε}
  {ends ends' passes passes' : Prop} {handle : ε → Program ε σ Unit}

theorem of_ends (hends : ends) (hrun : ∀ s, ∃ s', x.run s = (.ok (),s') ∧
    (Clean s → passes → Clean s') ∧ (Failed s ∨ ¬passes → Failed s')) :
    Block Clean Failed x ends passes where
  ends_iff s := by
    obtain ⟨s',hs,-⟩ := hrun s
    exact iff_of_true ⟨s',hs⟩ hends
  clean s s' hs := by
    obtain ⟨s'',hs',hclean,-⟩ := hrun s
    rw [hs'] at hs
    rwa [← (Prod.mk.inj hs).2]
  failed s s' hs := by
    obtain ⟨s'',hs',-,hfailed⟩ := hrun s
    rw [hs'] at hs
    rwa [← (Prod.mk.inj hs).2]

theorem of_throws (hends : ¬ends) (hrun : Throws x e) : Block Clean Failed x ends passes := by
  have hne : ∀ s s', x.run s ≠ (.ok (),s') := by
    intro s s' hs
    obtain ⟨s'',hs'⟩ := hrun s
    rw [hs'] at hs
    cases (Prod.mk.inj hs).1
  have hnone : ∀ s, ¬∃ s', x.run s = (.ok (),s') := by
    rintro s ⟨s',hs⟩
    exact hne s s' hs
  exact
    { ends_iff := fun s => iff_of_false (hnone s) hends
      clean := fun s s' hs => absurd hs (hne s s')
      failed := fun s s' hs => absurd hs (hne s s') }

theorem congr (h : Block Clean Failed x ends passes) (hends : ends ↔ ends')
    (hpasses : passes ↔ passes') : Block Clean Failed x ends' passes' := by
  rwa [← propext hends,← propext hpasses]

theorem pure : Block Clean Failed (Pure.pure () : Program ε σ Unit) True True :=
  of_ends trivial fun s => ⟨s,rfl,fun h _ => h,fun h => h.resolve_right fun hn => hn trivial⟩

/-- The rule for a block after a block. -/
theorem seq (hx : Block Clean Failed x ends passes) (hy : Block Clean Failed y ends' passes') :
    Block Clean Failed (x >>= fun _ => y) (ends ∧ ends') (passes ∧ passes') where
  ends_iff s := by
    simp only [bind_run_ok]
    constructor
    · rintro ⟨s'',a,s',hs',hs''⟩
      exact ⟨(hx.ends_iff s).1 ⟨s',hs'⟩,(hy.ends_iff s').1 ⟨s'',hs''⟩⟩
    · rintro ⟨hends,hends'⟩
      obtain ⟨s',hs'⟩ := (hx.ends_iff s).2 hends
      obtain ⟨s'',hs''⟩ := (hy.ends_iff s').2 hends'
      exact ⟨s'',(),s',hs',hs''⟩
  clean s s'' hs hclean hp := by
    obtain ⟨a,s',hs',hs''⟩ := (bind_run_ok ..).1 hs
    exact hy.clean s' s'' hs'' (hx.clean s s' hs' hclean hp.1) hp.2
  failed s s'' hs hfailed := by
    obtain ⟨a,s',hs',hs''⟩ := (bind_run_ok ..).1 hs
    by_cases hp : passes'
    · refine hy.failed s' s'' hs'' (Or.inl (hx.failed s s' hs' ?_))
      exact hfailed.imp_right fun hn h => hn ⟨h,hp⟩
    · exact hy.failed s' s'' hs'' (Or.inr hp)

/-- The rule for a block that follows the second of two programs. -/
theorem seq_pair {z : Program ε σ Unit} (hxy : Block Clean Failed (x >>= fun _ => y) ends passes)
    (hz : Block Clean Failed z ends' passes') :
    Block Clean Failed (x >>= fun _ => y >>= fun _ => z) (ends ∧ ends') (passes ∧ passes') := by
  rw [← bind_assoc]
  exact hxy.seq hz

/-- The rule for a program that checks again what the block before it has found out. -/
theorem recheck (Found : σ → Prop) (hx : Block Clean Failed x ends passes)
    (hfound : ∀ s s', x.run s = (.ok (),s') → passes → Found s')
    (hy : ∀ s, ∃ s', y.run s = (.ok (),s') ∧ (Clean s → Found s → Clean s') ∧
      (Failed s → Failed s')) :
    Block Clean Failed (x >>= fun _ => y) ends passes where
  ends_iff s := by
    simp only [bind_run_ok]
    constructor
    · rintro ⟨s'',a,s',hs',-⟩
      exact (hx.ends_iff s).1 ⟨s',hs'⟩
    · intro hends
      obtain ⟨s',hs'⟩ := (hx.ends_iff s).2 hends
      obtain ⟨s'',hs'',-⟩ := hy s'
      exact ⟨s'',(),s',hs',hs''⟩
  clean s s'' hs hclean hp := by
    obtain ⟨a,s',hs',hs''⟩ := (bind_run_ok ..).1 hs
    obtain ⟨t,ht,hyclean,-⟩ := hy s'
    rw [ht] at hs''
    rw [← (Prod.mk.inj hs'').2]
    exact hyclean (hx.clean s s' hs' hclean hp) (hfound s s' hs' hp)
  failed s s'' hs hfailed := by
    obtain ⟨a,s',hs',hs''⟩ := (bind_run_ok ..).1 hs
    obtain ⟨t,ht,-,hyfailed⟩ := hy s'
    rw [ht] at hs''
    rw [← (Prod.mk.inj hs'').2]
    exact hyfailed (hx.failed s s' hs' hfailed)

/-- A body that ends does not need its handler. -/
theorem ended (h : Block Clean Failed body True passes) (hends : ends) :
    Block Clean Failed (tryCatch body handle) ends passes := by
  refine of_ends hends fun s => ?_
  obtain ⟨s',hs⟩ := (h.ends_iff s).2 trivial
  exact ⟨s',by rw [tryCatch_run,hs,orElse_ok],h.clean s s' hs,h.failed s s' hs⟩

/-- A body that throws is as good as its handler. -/
theorem caught (hbody : Throws body e) (hhandle : Block Clean Failed (handle e) ends False)
    (hpasses : ¬passes) : Block Clean Failed (tryCatch body handle) ends passes where
  ends_iff s := by
    obtain ⟨s',hs⟩ := hbody s
    rw [tryCatch_run,hs,orElse_error]
    exact hhandle.ends_iff s'
  clean s s'' hs hclean hp := absurd hp hpasses
  failed s s'' hs hfailed := by
    obtain ⟨s',hs'⟩ := hbody s
    rw [tryCatch_run,hs',orElse_error] at hs
    exact hhandle.failed s' s'' hs (Or.inr id)

end Block

end Guarded
end BpsProtocol
