import BpsProtocol.Lib.Bytes
import BpsProtocol.Lib.HexText
import Mathlib.Tactic.Ring

/-! Hexadecimal text as bytes.
A text of an odd number of digits reads as if a zero stood before it. -/
namespace BpsProtocol
namespace HexText

def byteOf (high low : Char) : UInt8 := UInt8.ofNat (16*digitValue high+digitValue low)

/-- The bytes of an even number of digits. -/
def bytePairs : Text → Option Bytes
  | [] => some []
  | [_] => none
  | high::low::rest =>
    if isDigit high && isDigit low then (bytePairs rest).map (fun bytes => byteOf high low::bytes)
    else none

/-- The bytes of `0x` and its digits. -/
def hexToBytes (hex : Text) : Option Bytes :=
  let digits := hex.drop 2
  bytePairs (if digits.length%2 = 1 then '0' :: digits else digits)

theorem value_append_text (xs ys : Text) : value (xs ++ ys) = value xs*16^ys.length+value ys := by
  induction ys using List.reverseRecOn with
  | nil => simp [value]
  | append_singleton ys c ih =>
    rw [← List.append_assoc,value_append,ih,value_append,List.length_append,List.length_singleton,
      Nat.pow_succ]
    ring

theorem value_cons (c : Char) (ds : Text) : value (c::ds) = digitValue c*16^ds.length+value ds := by
  rw [← List.singleton_append,value_append_text]
  simp [value]

theorem bigEndian_append (a b : ℕ) {x y : ℕ} (hy : y < 256^b) :
    Bytes.bigEndian (a+b) (x*256^b+y) = Bytes.bigEndian a x ++ Bytes.bigEndian b y := by
  induction b generalizing y with
  | zero =>
    have : y = 0 := by simpa using hy
    simp [this,Bytes.bigEndian]
  | succ b ih =>
    have hdiv : y/256 < 256^b := Nat.div_lt_of_lt_mul (by rwa [Nat.pow_succ,Nat.mul_comm] at hy)
    have hquot : (x*256^(b+1)+y)/256 = x*256^b+y/256 := by
      rw [Nat.pow_succ,← Nat.mul_assoc,Nat.add_comm,Nat.add_mul_div_right _ _ (by decide),
        Nat.add_comm]
    have hrem : (x*256^(b+1)+y)%256 = y%256 := by
      rw [Nat.pow_succ,← Nat.mul_assoc,Nat.add_comm,Nat.add_mul_mod_self_right]
    rw [← Nat.add_assoc,Bytes.bigEndian,hquot,hrem,ih hdiv,Bytes.bigEndian,List.append_assoc]

/-- An even number of digits spells the bytes of its value. -/
theorem bytePairs_eq_some : ∀ {ds : Text} {bytes : Bytes}, ds.length%2 = 0 →
    (bytePairs ds = some bytes ↔
      (∀ c ∈ ds, isDigit c = true) ∧ bytes = Bytes.bigEndian (ds.length/2) (value ds))
  | [], bytes, _ => by
    rw [bytePairs,Option.some.injEq]
    exact ⟨fun h => ⟨fun _ hc => absurd hc List.not_mem_nil,h.symm⟩,fun h => h.2.symm⟩
  | [c], bytes, heven => by simp at heven
  | high::low::rest, bytes, heven => by
    have heven' : rest.length%2 = 0 := by
      rw [List.length_cons,List.length_cons] at heven
      omega
    have hlen : (high::low::rest).length/2 = 1+rest.length/2 := by
      rw [List.length_cons,List.length_cons]
      omega
    have hpow : 16^rest.length = 256^(rest.length/2) := by
      rw [show (256 : ℕ) = 16^2 by decide,← pow_mul,
        Nat.mul_div_cancel' (Nat.dvd_of_mod_eq_zero heven')]
    have hvalue : value (high::low::rest) =
        (16*digitValue high+digitValue low)*256^(rest.length/2)+value rest := by
      rw [value_cons,value_cons,List.length_cons,Nat.pow_succ,hpow]
      ring
    by_cases hdigits : isDigit high = true ∧ isDigit low = true
    · have hhigh := digitValue_lt hdigits.1
      have hlow := digitValue_lt hdigits.2
      rw [bytePairs,if_pos (by simpa using hdigits),Option.map_eq_some_iff]
      have hrest : (∃ bytes', bytePairs rest = some bytes' ∧ byteOf high low::bytes' = bytes) ↔
          (∀ c ∈ rest, isDigit c = true) ∧
            bytes = byteOf high low::Bytes.bigEndian (rest.length/2) (value rest) := by
        constructor
        · rintro ⟨bytes',h,rfl⟩
          have h' := (bytePairs_eq_some heven').1 h
          exact ⟨h'.1,by rw [h'.2]⟩
        · rintro ⟨hall,rfl⟩
          exact ⟨_,(bytePairs_eq_some heven').2 ⟨hall,rfl⟩,rfl⟩
      rw [hrest,hlen,hvalue]
      have hsplit : (∀ c ∈ rest, isDigit c = true) →
          Bytes.bigEndian (1+rest.length/2)
            ((16*digitValue high+digitValue low)*256^(rest.length/2)+value rest) =
          byteOf high low::Bytes.bigEndian (rest.length/2) (value rest) := by
        intro hall
        rw [bigEndian_append 1 (rest.length/2) (hpow ▸ value_lt hall)]
        simp only [Bytes.bigEndian,List.nil_append,List.singleton_append]
        rw [Nat.mod_eq_of_lt (by omega)]
        rfl
      constructor
      · rintro ⟨hall,rfl⟩
        exact ⟨by simpa [hdigits] using hall,(hsplit hall).symm⟩
      · rintro ⟨hall,rfl⟩
        have hall' : ∀ c ∈ rest, isDigit c = true := fun c hc => hall c (by simp [hc])
        exact ⟨hall',hsplit hall'⟩
    · rw [bytePairs,if_neg (by simpa using hdigits)]
      constructor
      · intro h
        cases h
      · intro h
        exact absurd ⟨h.1 high (by simp),h.1 low (by simp)⟩ hdigits

/-- A text of digits spells the bytes of its value. -/
theorem hexToBytes_eq_some {ds : Text} {bytes : Bytes} :
    hexToBytes ('0' :: 'x' :: ds) = some bytes ↔
      (∀ c ∈ ds, isDigit c = true) ∧ bytes = Bytes.bigEndian ((ds.length+1)/2) (value ds) := by
  rw [hexToBytes,List.drop_succ_cons,List.drop_succ_cons,List.drop_zero]
  by_cases hodd : ds.length%2 = 1
  · have heven : ('0' :: ds).length%2 = 0 := by
      rw [List.length_cons]
      omega
    have hvalue : value ('0' :: ds) = value ds := by
      rw [value_cons,show digitValue '0' = 0 from rfl,Nat.zero_mul,Nat.zero_add]
    rw [if_pos hodd,bytePairs_eq_some heven,hvalue,List.length_cons,List.forall_mem_cons]
    simp [show isDigit '0' = true from rfl]
  · rw [if_neg hodd,bytePairs_eq_some (by omega),show ds.length/2 = (ds.length+1)/2 by omega]

end HexText
end BpsProtocol
