import BpsProtocol.Lib.DecimalText
import BpsProtocol.Lib.Json
import BpsProtocol.Lib.JsonText

/-! The text of a JSON value over texts and integers determines the value, and its canonical
text determines each of its members. -/
namespace BpsProtocol
namespace Json

open JsonText

/-! ## Lexemes -/

def isNumeric (c : Char) : Bool := c.isDigit || c = '-'

theorem decimal_injective : Function.Injective decimal := fun _ _ h =>
  DecimalText.signed_injective h

theorem quote_eq (s : Text) : quote s = quotePoints (s.map Char.toNat) := by
  have hescape : Json.escape = fun c => JsonText.escape c.toNat := by
    funext c
    have hchar : ∀ d : Char, (c = d) = (c.toNat = d.toNat) := fun d => propext Char.toNat_inj.symm
    have hsurrogate : isSurrogate c.toNat = false := by
      have hvalid : c.toNat < 55296 ∨ 57343 < c.toNat ∧ c.toNat < 1114112 := c.valid
      simp only [isSurrogate,Bool.and_eq_false_iff,decide_eq_false_iff_not]
      omega
    unfold Json.escape JsonText.escape
    rw [hsurrogate,Char.ofNat_toNat]
    simp only [hchar]
    rfl
  rw [quote,quotePoints,List.flatMap_map,hescape]

theorem lexemes : Lexemes quote decimal isNumeric where
  quoted_head := fun _ => ⟨_,rfl⟩
  quoted_inj := fun {s s' r r'} h => by
    rw [quote_eq,quote_eq] at h
    have hlt : ∀ s : Text, ∀ p ∈ s.map Char.toNat, p < 1114112 := by
      intro s p hp
      obtain ⟨c,-,rfl⟩ := List.mem_map.1 hp
      have hvalid : c.toNat < 55296 ∨ 57343 < c.toNat ∧ c.toNat < 1114112 := c.valid
      omega
    obtain ⟨hpoints,hrest⟩ := quotePoints_inj (hlt s) (hlt s') h
    exact ⟨List.map_injective_iff.2 (fun c d h => Char.toNat_inj.1 h) hpoints,hrest⟩
  number_ne_nil := DecimalText.signed_ne_nil
  number_chars := fun n c hc => by
    rw [isNumeric,Bool.or_eq_true,decide_eq_true_eq]
    exact DecimalText.signed_chars n c hc
  number_injective := decimal_injective
  not_numeric := by simp [others,isNumeric,Char.isDigit]

/-! ## Values as trees -/

def lined : Style Text (Leaf Text ℤ) := style quote decimal newline [':',' ']

theorem lined_lawful : lined.Lawful := lexemes.lawful fun _ => Or.inr ⟨_,rfl⟩

mutual

def toTree : Json → JsonTree Text (Leaf Text ℤ)
  | .null => .leaf .null
  | .bool b => .leaf (.bool b)
  | .num n => .leaf (.num n)
  | .str s => .leaf (.str s)
  | .arr items => .arr (toTreeItems items)
  | .obj members => .obj (toTreeMembers members)

def toTreeItems : List Json → List (JsonTree Text (Leaf Text ℤ))
  | [] => []
  | v::vs => toTree v::toTreeItems vs

def toTreeMembers : Members → List (Text × JsonTree Text (Leaf Text ℤ))
  | [] => []
  | (k,v)::ms => (k,toTree v)::toTreeMembers ms

end

mutual

theorem stringify_eq : ∀ (v : Json) (n : ℕ), stringify n v = lined.print n (toTree v)
  | .null, _ => rfl
  | .bool _, _ => rfl
  | .num _, _ => rfl
  | .str _, _ => rfl
  | .arr [], _ => rfl
  | .arr (v::vs), n => by
    rw [stringify,stringify_eq v (n+2),stringifyItems_eq vs (n+2)]
    rfl
  | .obj [], _ => rfl
  | .obj ((k,v)::ms), n => by
    rw [stringify,stringify_eq v (n+2),stringifyMembers_eq ms (n+2)]
    rfl

theorem stringifyItems_eq : ∀ (vs : List Json) (n : ℕ),
    stringifyItems n vs = lined.printItems n (toTreeItems vs)
  | [], _ => rfl
  | v::vs, n => by
    rw [stringifyItems,stringify_eq v n,stringifyItems_eq vs n]
    rfl

theorem stringifyMembers_eq : ∀ (ms : Members) (n : ℕ),
    stringifyMembers n ms = lined.printMembers n (toTreeMembers ms)
  | [], _ => rfl
  | (k,v)::ms, n => by
    rw [stringifyMembers,stringify_eq v n,stringifyMembers_eq ms n]
    rfl

end

mutual

def ofTree : JsonTree Text (Leaf Text ℤ) → Json
  | .leaf .null => .null
  | .leaf (.bool b) => .bool b
  | .leaf (.num n) => .num n
  | .leaf (.str s) => .str s
  | .arr items => .arr (ofTreeItems items)
  | .obj members => .obj (ofTreeMembers members)

def ofTreeItems : List (JsonTree Text (Leaf Text ℤ)) → List Json
  | [] => []
  | t::ts => ofTree t::ofTreeItems ts

def ofTreeMembers : List (Text × JsonTree Text (Leaf Text ℤ)) → Members
  | [] => []
  | (k,t)::ms => (k,ofTree t)::ofTreeMembers ms

end

mutual

theorem ofTree_toTree : ∀ v, ofTree (toTree v) = v
  | .null => rfl
  | .bool _ => rfl
  | .num _ => rfl
  | .str _ => rfl
  | .arr items => by rw [toTree,ofTree,ofTreeItems_toTreeItems items]
  | .obj members => by rw [toTree,ofTree,ofTreeMembers_toTreeMembers members]

theorem ofTreeItems_toTreeItems : ∀ vs, ofTreeItems (toTreeItems vs) = vs
  | [] => rfl
  | v::vs => by rw [toTreeItems,ofTreeItems,ofTree_toTree v,ofTreeItems_toTreeItems vs]

theorem ofTreeMembers_toTreeMembers : ∀ ms, ofTreeMembers (toTreeMembers ms) = ms
  | [] => rfl
  | (k,v)::ms => by
    rw [toTreeMembers,ofTreeMembers,ofTree_toTree v,ofTreeMembers_toTreeMembers ms]

end

/-- Values of one text are equal. -/
theorem stringify_injective (n : ℕ) : Function.Injective (stringify n) := fun v w h => by
  rw [stringify_eq,stringify_eq] at h
  rw [← ofTree_toTree v,lined_lawful.print_injective n h,ofTree_toTree]

/-! ## Members of canonical forms -/

/-- An object of distinct keys with this member. -/
def Has (key : Text) (value v : Json) : Prop :=
  ∃ ms, v = .obj ms ∧ (keys ms).Nodup ∧ (key,value) ∈ ms

theorem Has.get_canonical {key : Text} {value v : Json} (h : Has key value v) :
    ∃ ms, canonicalize v = .obj ms ∧ get key ms = some (canonicalize value) := by
  obtain ⟨ms,rfl,hnodup,hmem⟩ := h
  refine ⟨_,rfl,?_⟩
  rw [get_eq_some ((keys_canonical ms).nodup_iff.2 hnodup),(sortKeys_perm _).mem_iff,
    canonicalizeMembers_eq]
  exact List.mem_map.2 ⟨_,hmem,rfl⟩

/-- What stands under a key is read off the canonical form. -/
theorem Has.canonicalize_eq {key : Text} {x y v w : Json} (hv : Has key x v) (hw : Has key y w)
    (h : canonicalize v = canonicalize w) : canonicalize x = canonicalize y := by
  obtain ⟨ms,hms,hget⟩ := hv.get_canonical
  obtain ⟨ns,hns,hget'⟩ := hw.get_canonical
  have hsame : ms = ns := obj.inj (hms.symm.trans (h.trans hns))
  rw [hsame] at hget
  exact Option.some.inj (hget.symm.trans hget')

theorem canonicalizeItems_eq (vs : List Json) : canonicalizeItems vs = vs.map canonicalize := by
  induction vs with
  | nil => rfl
  | cons v vs ih => rw [canonicalizeItems,ih,List.map_cons]

end Json
end BpsProtocol
