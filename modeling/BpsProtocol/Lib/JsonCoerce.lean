import BpsProtocol.Lib.IntegerText
import BpsProtocol.Lib.JsonEvaluate
import Mathlib.Data.Nat.Cast.Order.Ring

/-! What a script makes of a parsed value.
Strings of digits are turned into integers as `BigInt` turns them, and every value has a text
unless an own member stands in the way. -/
namespace BpsProtocol
namespace JsonParse
open Utf16 JsonText JsonTree JsonSyntax Binary64 JsonValue

/-! ## Strings of digits -/

/-- `/^[0-9]+$/` -/
def isDigits (s : JsString) : Bool := !s.isEmpty && s.all isDigit

/-- `BigInt(s)` of a string; nothing where it throws. -/
def bigIntOfString (s : JsString) : Option ℤ :=
  IntegerText.toBigInt ((codePoints s).map Char.ofNat)

section Digits

variable {ds : Digits} {s : JsString}

def chars (ds : Digits) : Text := ds.map (fun d : Fin 10 => Nat.digitChar d.val)

theorem digits_text (ds : Digits) : ds.text = ofText (chars ds) := by
  induction ds with
  | nil => rfl
  | cons d ds ih =>
    have hd : encodePoint (Nat.digitChar d.val).toNat = [unit (Nat.digitChar d.val)] := by
      revert d
      decide
    simp only [Digits.text,chars,ofText,List.map_cons,List.flatMap_cons] at ih ⊢
    rw [hd,ih,List.singleton_append]

theorem codePoints_digits (ds : Digits) : (codePoints ds.text).map Char.ofNat = chars ds := by
  rw [digits_text,codePoints_ofText,List.map_map]
  conv_rhs => rw [← List.map_id (chars ds)]
  exact List.map_congr_left fun c _ => Char.ofNat_toNat c

theorem isRadixDigit_chars (ds : Digits) :
    ∀ c ∈ chars ds, IntegerText.isRadixDigit 10 c = true := by
  have hall : ∀ d : Fin 10, IntegerText.isRadixDigit 10 (Nat.digitChar d.val) = true := by decide
  intro c hc
  obtain ⟨d,-,rfl⟩ := List.mem_map.1 hc
  exact hall d

theorem radixValue_chars (ds : Digits) : IntegerText.radixValue 10 (chars ds) = ds.value := by
  have hvalue : ∀ d : Fin 10, HexText.digitValue (Nat.digitChar d.val) = d.val := by decide
  simp only [IntegerText.radixValue,chars,Digits.value,List.foldl_map,hvalue]

/-- Digits are read as the number they are, with or without leading zeros. -/
theorem bigIntOfString_digits (h : ds ≠ []) : bigIntOfString ds.text = some (ds.value : ℤ) := by
  rw [bigIntOfString,codePoints_digits,← radixValue_chars]
  exact IntegerText.toBigInt_radixValue (by simpa [chars] using h) (isRadixDigit_chars ds)

theorem isDigits_text (h : ds ≠ []) : isDigits ds.text = true := by
  have hall : ∀ d : Fin 10, isDigit (unit (Nat.digitChar d.val)) = true := by decide
  cases ds with
  | nil => exact absurd rfl h
  | cons d ds => simp [isDigits,Digits.text,hall]

theorem exists_digits_of_all (h : s.all isDigit = true) : ∃ ds : Digits, s = ds.text := by
  induction s with
  | nil => exact ⟨[],rfl⟩
  | cons u s ih =>
    rw [List.all_cons,Bool.and_eq_true] at h
    obtain ⟨d,hd⟩ := Option.isSome_iff_exists.1 h.1
    obtain ⟨ds,rfl⟩ := ih h.2
    exact ⟨d::ds,by rw [← unit_digitOf hd]; rfl⟩

theorem isDigits_iff : isDigits s = true ↔ ∃ ds : Digits, ds ≠ [] ∧ s = ds.text := by
  constructor
  · intro h
    rw [isDigits,Bool.and_eq_true] at h
    obtain ⟨ds,rfl⟩ := exists_digits_of_all h.2
    refine ⟨ds,?_,rfl⟩
    rintro rfl
    exact absurd h.1 (by decide)
  · rintro ⟨ds,hne,rfl⟩
    exact isDigits_text hne

theorem text_injective : Function.Injective Digits.text := by
  intro ds es h
  have hd := readDigits_complete ds (r := []) (fun u hu => by cases hu)
  have he := readDigits_complete es (r := []) (fun u hu => by cases hu)
  rw [h,he] at hd
  exact (congrArg Prod.fst hd).symm

end Digits

/-! ## Values -/

/-- An object or an array. -/
def isObject : Value → Bool
  | .leaf _ => false
  | _ => true

/-- Neither undefined nor null. -/
def isPresent : Option Value → Bool
  | none => false
  | some (.leaf .null) => false
  | _ => true

/-- The own members of a value, those of an array by their indices. -/
def entries : Value → List (JsString × Value)
  | .leaf _ => []
  | .arr items => items.zipIdx.map fun (v,i) => (lit (toString i),v)
  | .obj members => ownKeys.act members

def isNull : Value → Bool
  | .leaf .null => true
  | _ => false

mutual

/-- `String(v)`; nothing where an own member hides the method and it throws. -/
def stringOf : Value → Option JsString
  | .leaf .null => some (lit "null")
  | .leaf (.bool b) => some (lit (if b then "true" else "false"))
  | .leaf (.num x) => some (ofText (NumberText.toText x))
  | .leaf (.str s) => some s
  | .arr items => (itemTexts items).map fun texts => (texts.intersperse (lit ",")).flatten
  | .obj members =>
    if (member (lit "toString") members).isSome then none else some (lit "[object Object]")

/-- The items of an array as they are joined; null is left out. -/
def itemTexts : List Value → Option (List JsString)
  | [] => some []
  | v::vs => do
    let text ← if isNull v then some [] else stringOf v
    let texts ← itemTexts vs
    return text::texts

end

end JsonParse
end BpsProtocol
