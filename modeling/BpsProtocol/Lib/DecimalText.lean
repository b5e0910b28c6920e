import BpsProtocol.Lib.HexText

/-! Integers in base ten with a sign where they are negative. -/
namespace BpsProtocol
namespace DecimalText

theorem isDigit_toDigits {n : ℕ} : ∀ c ∈ Nat.toDigits 10 n, c.isDigit = true :=
  fun _ hc => Nat.isDigit_of_mem_toDigits (by decide) (by decide) hc

theorem toDigits_injective : Function.Injective (Nat.toDigits 10) := fun a b h => by
  rw [← @Nat.ofDigitChars_ten_toDigits a,h,Nat.ofDigitChars_ten_toDigits]

def signed (n : ℤ) : Text :=
  if n < 0 then '-' :: Nat.toDigits 10 n.natAbs else Nat.toDigits 10 n.natAbs

theorem signed_ne_nil (n : ℤ) : signed n ≠ [] := by
  unfold signed
  split
  · exact List.cons_ne_nil _ _
  · exact Nat.toDigits_ne_nil

theorem signed_chars (n : ℤ) : ∀ c ∈ signed n, c.isDigit = true ∨ c = '-' := by
  have hdigits : ∀ c ∈ Nat.toDigits 10 n.natAbs, c.isDigit = true ∨ c = '-' :=
    fun c hc => Or.inl (isDigit_toDigits c hc)
  unfold signed
  split
  · rw [List.forall_mem_cons]
    exact ⟨Or.inr rfl,hdigits⟩
  · exact hdigits

theorem minus_cons_ne_toDigits (n : ℕ) (t : Text) : '-' :: t ≠ Nat.toDigits 10 n := fun h =>
  absurd (isDigit_toDigits '-' (h ▸ List.mem_cons_self)) (by decide)

/-- A minus sign is no digit, so signed decimals are told apart. -/
theorem signed_injective : Function.Injective signed := by
  intro a b h
  unfold signed at h
  split at h <;> split at h
  · have habs := toDigits_injective (List.cons.inj h).2
    omega
  · exact absurd h (minus_cons_ne_toDigits _ _)
  · exact absurd h.symm (minus_cons_ne_toDigits _ _)
  · have habs := toDigits_injective h
    omega

end DecimalText
end BpsProtocol
