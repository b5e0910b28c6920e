import BpsProtocol.Lib.NumberText
import BpsProtocol.Lib.Utf16

/-! JSON values of a script, and `JSON.stringify`.
Strings are lists of code units and numbers are doubles.  A number that is not finite is
printed as null; the members of an object are listed with the names that are array indices
first. -/
namespace BpsProtocol
namespace JsonValue

open Utf16 JsonText Binary64 JsonTree

abbrev Value := JsonTree JsString (Leaf JsString Number)

/-! ## Printing -/

/-- A leaf as it is printed. -/
def shown : Leaf JsString Number → Leaf JsString Double
  | .null => .null
  | .bool b => .bool b
  | .num (.finite x) => .num x
  | .num _ => .null
  | .str s => .str s

def isFinite : Leaf JsString Number → Bool
  | .num (.finite _) => true
  | .num _ => false
  | _ => true

def unshown : Leaf JsString Double → Leaf JsString Number
  | .null => .null
  | .bool b => .bool b
  | .num x => .num (.finite x)
  | .str s => .str s

/-- Two spaces for each level. -/
def newline (indent : ℕ) : Text := '\x0a' :: List.replicate indent ' '

def pretty : Style JsString (Leaf JsString Double) := style quote NumberText.text newline [':',' ']

def compact : Style JsString (Leaf JsString Double) :=
  style quote NumberText.text (fun _ => []) [':']

theorem unshown_shown {a : Leaf JsString Number} (h : isFinite a = true) : unshown (shown a) = a := by
  rcases a with _ | b | x | s
  · rfl
  · rfl
  · cases x with
    | finite x => rfl
    | nan => cases h
    | infinite negative => cases h
  · rfl

theorem text_ne_nil (x : Double) : NumberText.text x ≠ [] := by
  intro hnil
  obtain ⟨⟨c,hc,-⟩,-⟩ := NumberText.text_chars x
  rw [hnil] at hc
  cases hc

theorem lexemes : Lexemes quote NumberText.text NumberText.isNumeric where
  quoted_head := fun _ => ⟨_,rfl⟩
  quoted_inj := quote_inj
  number_ne_nil := text_ne_nil
  number_chars := fun x => (NumberText.text_chars x).2
  number_injective := fun _ _ h => NumberText.text_injective h
  not_numeric := by simp [others,NumberText.isNumeric,Char.isDigit]

theorem pretty_lawful : pretty.Lawful := lexemes.lawful fun _ => Or.inr ⟨_,rfl⟩

theorem compact_lawful : compact.Lawful := lexemes.lawful fun _ => Or.inl rfl

/-! ## The order of names -/

/-- `Object.keys(…).sort()` compares code unit by code unit. -/
def sortKeys : Rule JsString := Rule.sort (fun a b => List.le a b)

def digits (s : JsString) : ℕ := s.foldl (fun acc u => 10*acc+(u.val-48)) 0

def isDigit (u : CodeUnit) : Bool := 48 ≤ u.val && u.val ≤ 57

/-- A decimal without leading zeros below `2^32-1`. -/
def arrayIndex (s : JsString) : Option ℕ :=
  if !s.isEmpty && s.all isDigit && (s.length = 1 || s.head?.any (·.val ≠ 48)) &&
    digits s < 4294967295
  then some (digits s) else none

/-- Where a name stands: indices by their number, and behind them all other names. -/
def rank (s : JsString) : ℕ := (arrayIndex s).getD 4294967295

/-- The own keys of an object whose names were set in the order of the list.  The sort is
stable: names that are no index stay in the order in which they were set. -/
def ownKeys : Rule JsString := Rule.sort (fun a b => rank a ≤ rank b)

instance : Std.Total (fun a b : JsString => List.le a b) := ⟨fun a b => List.le_total a b⟩

instance : IsTrans JsString (fun a b => List.le a b) := ⟨fun _ _ _ hab hbc => List.le_trans hab hbc⟩

theorem arranges_sortKeys : sortKeys.Arranges :=
  Rule.arranges_sort _ fun _ _ hab hba => List.le_antisymm hab hba

theorem arranges_ownKeys_sortKeys : (sortKeys.andThen ownKeys).Arranges :=
  arranges_sortKeys.andThen fun ms => List.perm_insertionSort _ ms

/-! ## `JSON.stringify` -/

/-- `JSON.stringify(value, null, 2)` -/
def stringify (v : Value) : Text := (pretty.comap shown).print 0 (v.arrange ownKeys)

end JsonValue
end BpsProtocol
