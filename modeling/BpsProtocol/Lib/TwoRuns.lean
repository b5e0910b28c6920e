import BpsProtocol.Lib.Checked

/-! Two runs side by side.
They both throw, and what they throw is related, or they both end, in related results. -/
namespace BpsProtocol
namespace TwoRuns

variable {ε ε' α β γ δ : Type}

def Alike (E : ε → ε' → Prop) (R : α → β → Prop) : Except ε α → Except ε' β → Prop
  | .ok a, .ok b => R a b
  | .error e, .error e' => E e e'
  | _, _ => False

section Rules

variable {E : ε → ε' → Prop} {R : α → β → Prop} {S : γ → δ → Prop}

theorem ok {a : α} {b : β} (h : R a b) : Alike E R (.ok a) (.ok b) := h

theorem orRevert {o : Option α} {o' : Option β} {e : ε} {e' : ε'} (h : Option.Rel R o o')
    (he : E e e') : Alike E R (Checked.orRevert e o) (Checked.orRevert e' o') := by
  cases h with
  | some hab => exact hab
  | none => exact he

theorem Alike.mono {E' : ε → ε' → Prop} {R' : α → β → Prop} {x : Except ε α} {y : Except ε' β}
    (h : Alike E R x y) (hE : ∀ e e', E e e' → E' e e') (hR : ∀ a b, R a b → R' a b) :
    Alike E' R' x y := by
  match x, y, h with
  | .ok a, .ok b, hab => exact hR a b hab
  | .error e, .error e', he => exact hE e e' he

/-- The rule for two sequences. -/
theorem bind {x : Except ε α} {y : Except ε' β} {f : α → Except ε γ} {g : β → Except ε' δ}
    (hxy : Alike E R x y) (hfg : ∀ a b, x = .ok a → y = .ok b → R a b → Alike E S (f a) (g b)) :
    Alike E S (x >>= f) (y >>= g) := by
  match x, y, hxy with
  | .ok a, .ok b, hab => exact hfg a b rfl rfl hab
  | .error e, .error e', he => exact he

/-- Two sequences that begin with the same. -/
theorem bind_same {F : ε → ε → Prop} {x : Except ε α} {f : α → Except ε γ} {g : α → Except ε δ}
    (hF : ∀ e, F e e) (hfg : ∀ a, x = .ok a → Alike F S (f a) (g a)) :
    Alike F S (x >>= f) (x >>= g) := by
  cases x with
  | ok a => exact hfg a rfl
  | error e => exact hF e

/-- The rule for the end of two runs. -/
theorem Alike.elim {x : Except ε α} {y : Except ε' β} (h : Alike E R x y) :
    (∃ e e', x = .error e ∧ y = .error e' ∧ E e e') ∨ ∃ a b, x = .ok a ∧ y = .ok b ∧ R a b := by
  match x, y, h with
  | .ok a, .ok b, hab => exact .inr ⟨a,b,rfl,rfl,hab⟩
  | .error e, .error e', he => exact .inl ⟨e,e',rfl,rfl,he⟩

end Rules

end TwoRuns
end BpsProtocol
