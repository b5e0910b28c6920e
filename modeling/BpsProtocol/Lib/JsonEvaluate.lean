import BpsProtocol.Lib.JsonParse
import BpsProtocol.Lib.JsonValue

/-! `JSON.parse`.
Names are decoded and numbers are rounded to the nearest double.  Of the members of one name the
last one counts, and it stands where the first one stood. -/
namespace BpsProtocol

namespace JsonTree

section Members

variable {σ α β : Type} [DecidableEq σ] {ms : List (σ × α)} {k k' : σ} {v : α}

def member (k : σ) (ms : List (σ × α)) : Option α :=
  (ms.find? (fun m => m.1 = k)).map Prod.snd

/-- A member is set in the place of the one of its name, or behind all others. -/
def setMember (ms : List (σ × α)) (m : σ × α) : List (σ × α) :=
  if m.1 ∈ keys ms then ms.map (fun m' => if m'.1 = m.1 then m else m') else ms ++ [m]

def assign (ms : List (σ × α)) : List (σ × α) := ms.foldl setMember []

theorem member_cons (m : σ × α) (ms : List (σ × α)) :
    member k (m::ms) = if m.1 = k then some m.2 else member k ms := by
  unfold member
  by_cases h : m.1 = k
  · rw [List.find?_cons_of_pos (by simpa using h),if_pos h]
    rfl
  · rw [List.find?_cons_of_neg (by simpa using h),if_neg h]

theorem member_eq_none (h : k ∉ keys ms) : member k ms = none := by
  induction ms with
  | nil => rfl
  | cons m ms ih =>
    simp only [keys,List.map_cons,List.mem_cons,not_or] at h ih
    rw [member_cons,if_neg fun heq => h.1 heq.symm,ih h.2]

theorem member_append (ms' : List (σ × α)) :
    member k (ms ++ ms') = (member k ms).or (member k ms') := by
  induction ms with
  | nil => rfl
  | cons m ms ih =>
    rw [List.cons_append,member_cons,member_cons,ih]
    split <;> rfl

theorem member_mapValues (f : α → β) : member k (mapValues f ms) = (member k ms).map f := by
  induction ms with
  | nil => rfl
  | cons m ms ih =>
    simp only [mapValues,List.map_cons] at ih ⊢
    rw [member_cons,member_cons,ih]
    split <;> rfl

theorem member_setMember (m : σ × α) :
    member k (setMember ms m) = if m.1 = k then some m.2 else member k ms := by
  unfold setMember
  split
  · rename_i hmem
    induction ms with
    | nil => cases hmem
    | cons m' ms ih =>
      rw [List.map_cons,member_cons,member_cons]
      by_cases hm' : m'.1 = m.1
      · rw [if_pos hm',hm']
        by_cases hk : m.1 = k
        · rw [if_pos hk,if_pos hk]
        · rw [if_neg hk,if_neg hk,if_neg hk]
          have hother : ∀ ms : List (σ × α),
              member k (ms.map (fun m' => if m'.1 = m.1 then m else m')) = member k ms := by
            intro ms
            induction ms with
            | nil => rfl
            | cons m'' ms ih =>
              rw [List.map_cons,member_cons,member_cons,ih]
              by_cases hm'' : m''.1 = m.1
              · rw [if_pos hm'',hm'',if_neg hk,if_neg hk]
              · rw [if_neg hm'']
          exact hother ms
      · have hmem' : m.1 ∈ keys ms := by
          simp only [keys,List.map_cons,List.mem_cons] at hmem
          exact hmem.resolve_left fun heq => hm' heq.symm
        rw [if_neg hm',ih hmem']
        by_cases hk : m.1 = k
        · rw [if_pos hk,if_neg fun heq => hm' (heq.trans hk.symm),if_pos hk]
        · rw [if_neg hk]
          split <;> rfl
  · rename_i hmem
    rw [member_append,member_cons]
    by_cases hk : m.1 = k
    · rw [if_pos hk,if_pos hk,member_eq_none (hk ▸ hmem)]
      rfl
    · rw [if_neg hk,if_neg hk]
      exact Option.or_none

/-- Of the members of one name the last one counts. -/
theorem member_assign (ms : List (σ × α)) : member k (assign ms) = member k ms.reverse := by
  have hfold : ∀ (ms acc : List (σ × α)),
      member k (ms.foldl setMember acc) = (member k ms.reverse).or (member k acc) := by
    intro ms
    induction ms with
    | nil => exact fun acc => rfl
    | cons m ms ih =>
      intro acc
      rw [List.foldl_cons,ih,member_setMember,List.reverse_cons,member_append,member_cons,
        Option.or_assoc]
      split <;> rfl
  rw [assign,hfold]
  exact Option.or_none

end Members

end JsonTree

namespace JsonParse
open Utf16 JsonText JsonTree JsonSyntax Binary64 JsonValue

/-! ## Values -/

def evaluateScalar : Scalar → Leaf JsString Number
  | .null => .null
  | .bool b => .bool b
  | .num n => .num (.ofRat n.value)
  | .str s => .str s.decoded

mutual

/-- The value that is meant by what is written. -/
def evaluate : Tree → Value
  | .leaf a => .leaf (evaluateScalar a)
  | .arr items => .arr (evaluateItems items)
  | .obj members => .obj (assign (evaluateMembers members))

def evaluateItems : List Tree → List Value
  | [] => []
  | t::ts => evaluate t::evaluateItems ts

def evaluateMembers : List (StringLit × Tree) → List (JsString × Value)
  | [] => []
  | (k,t)::ms => (k.decoded,evaluate t)::evaluateMembers ms

end

/-- `JSON.parse(text)`; nothing where it throws. -/
def jsonParse (text : JsString) : Option Value := (parse text).map evaluate

/-! ## Members -/

/-- `value.name`; nothing where it is undefined. -/
def prop (name : JsString) : Value → Option Value
  | .obj members => member name members
  | _ => none

/-- The member that `value.name` reads, as it is written. -/
def written (name : JsString) : Tree → Option Tree
  | .obj members => (members.reverse.find? (fun m => m.1.decoded = name)).map Prod.snd
  | _ => none

section Written

variable {name : JsString}

theorem evaluateMembers_eq (ms : List (StringLit × Tree)) :
    evaluateMembers ms = ms.map (fun m => (m.1.decoded,evaluate m.2)) := by
  induction ms with
  | nil => rfl
  | cons m ms ih =>
    cases m
    rw [evaluateMembers,ih,List.map_cons]

theorem member_evaluated (ms : List (StringLit × Tree)) :
    member name (ms.map (fun m => (m.1.decoded,evaluate m.2))) =
      ((ms.find? (fun m => m.1.decoded = name)).map Prod.snd).map evaluate := by
  induction ms with
  | nil => rfl
  | cons m ms ih =>
    rw [List.map_cons,member_cons,ih]
    by_cases h : m.1.decoded = name
    · rw [if_pos h,List.find?_cons_of_pos (by simpa using h)]
      rfl
    · rw [if_neg h,List.find?_cons_of_neg (by simpa using h)]

/-- Reading a member of the value is evaluating the member that is written last. -/
theorem prop_evaluate (t : Tree) : prop name (evaluate t) = (written name t).map evaluate := by
  cases t with
  | leaf a => rfl
  | arr items => rfl
  | obj members =>
    rw [evaluate,prop,written,member_assign,evaluateMembers_eq,← List.map_reverse,
      member_evaluated]

end Written

end JsonParse
end BpsProtocol
