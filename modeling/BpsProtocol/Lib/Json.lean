import BpsProtocol.Lib.HexText
import BpsProtocol.Lib.Reorder

/-! JSON values, in canonical form and as text.
The canonical form sorts the keys of every object.  A value and its canonical form have the
same canonical form, so a hash of it is the same for both. -/
namespace BpsProtocol

inductive Json
  | null
  | bool (b : Bool)
  | num (n : ℤ)
  | str (s : Text)
  | arr (items : List Json)
  | obj (members : List (Text × Json))

namespace Json

/-! ## Objects -/

abbrev Members := List (Text × Json)

/-- The value of a key; the first one counts. -/
def get (key : Text) : Members → Option Json
  | [] => none
  | m::ms => if m.1 = key then some m.2 else get key ms

/-- The members without those of a key. -/
def delete (key : Text) (ms : Members) : Members := ms.filter (fun m => m.1 ≠ key)

/-- `Object.keys(input).sort()` -/
def sortKeys (ms : Members) : Members := ms.insertionSort (fun a b => List.le a.1 b.1)

/-! ## Canonical form -/

mutual

def canonicalize : Json → Json
  | .null => .null
  | .bool b => .bool b
  | .num n => .num n
  | .str s => .str s
  | .arr items => .arr (canonicalizeItems items)
  | .obj members => .obj (sortKeys (canonicalizeMembers members))

def canonicalizeItems : List Json → List Json
  | [] => []
  | v::vs => canonicalize v::canonicalizeItems vs

def canonicalizeMembers : Members → Members
  | [] => []
  | (k,v)::ms => (k,canonicalize v)::canonicalizeMembers ms

end

/-! ## Text -/

def hexEscape (n : ℕ) : Text := '\x5c' :: 'u' :: HexText.write 4 n

/-- One character of a quoted string. -/
def escape (c : Char) : Text :=
  if c = '\x22' then ['\x5c','\x22']
  else if c = '\x5c' then ['\x5c','\x5c']
  else if c.toNat = 8 then ['\x5c','b']
  else if c.toNat = 9 then ['\x5c','t']
  else if c.toNat = 10 then ['\x5c','n']
  else if c.toNat = 12 then ['\x5c','f']
  else if c.toNat = 13 then ['\x5c','r']
  else if c.toNat < 32 then hexEscape c.toNat
  else [c]

def quote (s : Text) : Text := '\x22' :: s.flatMap escape ++ ['\x22']

def decimal (n : ℤ) : Text :=
  if n < 0 then '-' :: Nat.toDigits 10 n.natAbs else Nat.toDigits 10 n.natAbs

/-- A line break and the indentation after it. -/
def newline (indent : ℕ) : Text := '\x0a' :: List.replicate indent ' '

mutual

/-- `JSON.stringify(value, null, 2)` at an indentation. -/
def stringify (indent : ℕ) : Json → Text
  | .null => "null".toList
  | .bool b => (if b then "true" else "false").toList
  | .num n => decimal n
  | .str s => quote s
  | .arr [] => "[]".toList
  | .arr (v::vs) =>
    '[' :: newline (indent+2) ++ stringify (indent+2) v ++ stringifyItems (indent+2) vs ++
      newline indent ++ [']']
  | .obj [] => ['\x7b','\x7d']
  | .obj ((k,v)::ms) =>
    '\x7b' :: newline (indent+2) ++ quote k ++ [':',' '] ++ stringify (indent+2) v ++
      stringifyMembers (indent+2) ms ++ newline indent ++ ['\x7d']

/-- The items after the first one, each with the comma before it. -/
def stringifyItems (indent : ℕ) : List Json → Text
  | [] => []
  | v::vs => ',' :: newline indent ++ stringify indent v ++ stringifyItems indent vs

def stringifyMembers (indent : ℕ) : Members → Text
  | [] => []
  | (k,v)::ms =>
    ',' :: newline indent ++ quote k ++ [':',' '] ++ stringify indent v ++ stringifyMembers indent ms

end

example : stringify 0 (.obj [("a".toList,.arr [.num 1,.str "x".toList])]) =
    "\x7b\n  \"a\": [\n    1,\n    \"x\"\n  ]\n\x7d".toList := by decide

/-! ## Facts about objects -/

def keys (ms : Members) : List Text := ms.map Prod.fst

theorem canonicalizeMembers_eq (ms : Members) :
    canonicalizeMembers ms = ms.map (fun m => (m.1,canonicalize m.2)) := by
  induction ms with
  | nil => rfl
  | cons m ms ih =>
    cases m
    rw [canonicalizeMembers,ih,List.map_cons]

theorem keys_canonicalizeMembers (ms : Members) : keys (canonicalizeMembers ms) = keys ms := by
  rw [canonicalizeMembers_eq,keys,List.map_map]
  rfl

theorem sortKeys_perm (ms : Members) : (sortKeys ms).Perm ms := List.perm_insertionSort _ _

theorem sortKeys_pairwise (ms : Members) :
    (sortKeys ms).Pairwise (fun a b => List.le a.1 b.1) := by
  have : Std.Total (fun a b : Text × Json => List.le a.1 b.1) :=
    ⟨fun a b => List.le_total a.1 b.1⟩
  have : IsTrans (Text × Json) (fun a b => List.le a.1 b.1) :=
    ⟨fun _ _ _ hab hbc => List.le_trans hab hbc⟩
  exact List.pairwise_insertionSort _ ms

theorem sortKeys_sortKeys (ms : Members) : sortKeys (sortKeys ms) = sortKeys ms :=
  (sortKeys_pairwise ms).insertionSort_eq

theorem canonicalizeMembers_sortKeys (ms : Members) :
    canonicalizeMembers (sortKeys ms) = sortKeys (canonicalizeMembers ms) := by
  rw [canonicalizeMembers_eq,canonicalizeMembers_eq]
  exact List.map_insertionSort _ _ _ _ fun a _ b _ => Iff.rfl

/-- Distinct keys have one order. -/
theorem sortKeys_eq {ms ms' : Members} (h : ms.Perm ms') (hnodup : (keys ms).Nodup) :
    sortKeys ms' = sortKeys ms :=
  Reorder.sortByText_eq Prod.fst h fun _ ha _ hb => List.inj_on_of_nodup_map hnodup ha hb

mutual

/-- The canonical form is its own canonical form. -/
theorem canonicalize_canonicalize : ∀ v, canonicalize (canonicalize v) = canonicalize v
  | .null => rfl
  | .bool _ => rfl
  | .num _ => rfl
  | .str _ => rfl
  | .arr items => by
    rw [canonicalize,canonicalize,canonicalizeItems_canonicalizeItems items]
  | .obj members => by
    rw [canonicalize,canonicalize,canonicalizeMembers_sortKeys,sortKeys_sortKeys,
      canonicalizeMembers_canonicalizeMembers members]

theorem canonicalizeItems_canonicalizeItems :
    ∀ vs, canonicalizeItems (canonicalizeItems vs) = canonicalizeItems vs
  | [] => rfl
  | v::vs => by
    rw [canonicalizeItems,canonicalizeItems,canonicalize_canonicalize v,
      canonicalizeItems_canonicalizeItems vs]

theorem canonicalizeMembers_canonicalizeMembers :
    ∀ ms, canonicalizeMembers (canonicalizeMembers ms) = canonicalizeMembers ms
  | [] => rfl
  | (k,v)::ms => by
    rw [canonicalizeMembers,canonicalizeMembers,canonicalize_canonicalize v,
      canonicalizeMembers_canonicalizeMembers ms]

end

/-- The canonical form does not depend on the order of the members. -/
theorem canonicalize_perm {ms ms' : Members} (h : ms.Perm ms') (hnodup : (keys ms).Nodup) :
    canonicalize (.obj ms') = canonicalize (.obj ms) := by
  have hperm : (canonicalizeMembers ms).Perm (canonicalizeMembers ms') := by
    rw [canonicalizeMembers_eq,canonicalizeMembers_eq]
    exact h.map _
  rw [canonicalize,canonicalize,sortKeys_eq hperm]
  rwa [keys_canonicalizeMembers]

theorem get_eq_some {key : Text} {ms : Members} {v : Json} (hnodup : (keys ms).Nodup) :
    get key ms = some v ↔ (key,v) ∈ ms := by
  induction ms with
  | nil => simp [get]
  | cons m ms ih =>
    have hnodup' := List.nodup_cons.1 hnodup
    rw [get]
    by_cases hkey : m.1 = key
    · subst hkey
      have hout : (m.1,v) ∉ ms := fun hmem => hnodup'.1 (List.mem_map.2 ⟨(m.1,v),hmem,rfl⟩)
      simp [hout,Prod.ext_iff,eq_comm]
    · have hne : (key,v) ≠ m := fun h => hkey (congrArg Prod.fst h).symm
      rw [if_neg hkey,ih hnodup'.2,List.mem_cons]
      simp [hne]

theorem keys_canonical (ms : Members) :
    (keys (sortKeys (canonicalizeMembers ms))).Perm (keys ms) := by
  have h := (sortKeys_perm (canonicalizeMembers ms)).map Prod.fst
  rwa [← keys,← keys,keys_canonicalizeMembers ms] at h

/-- A string is found under its key in the canonical form too. -/
theorem get_canonical_str {key t : Text} {ms : Members} (hnodup : (keys ms).Nodup)
    (h : (key,Json.str t) ∈ ms) : get key (sortKeys (canonicalizeMembers ms)) = some (.str t) := by
  rw [get_eq_some ((keys_canonical ms).nodup_iff.2 hnodup),(sortKeys_perm _).mem_iff,
    canonicalizeMembers_eq]
  exact List.mem_map.2 ⟨_,h,rfl⟩

theorem delete_append_self {key : Text} {ms : Members} (h : key ∉ keys ms) (v : Json) :
    delete key (ms ++ [(key,v)]) = ms := by
  rw [delete,List.filter_append,List.filter_eq_self.2]
  · simp
  · intro m hm
    simpa using fun heq : m.1 = key => h (heq ▸ List.mem_map_of_mem (f := Prod.fst) hm)

theorem canonicalizeMembers_delete (key : Text) (ms : Members) :
    canonicalizeMembers (delete key ms) = delete key (canonicalizeMembers ms) := by
  rw [canonicalizeMembers_eq,canonicalizeMembers_eq,delete,delete,List.filter_map]
  rfl

/-- A member may be deleted before or after the canonical form is taken. -/
theorem canonicalize_delete {key : Text} {ms : Members} (hnodup : (keys ms).Nodup) :
    canonicalize (.obj (delete key (sortKeys (canonicalizeMembers ms)))) =
      canonicalize (.obj (delete key ms)) := by
  have hperm : (delete key (canonicalizeMembers ms)).Perm
      (delete key (sortKeys (canonicalizeMembers ms))) :=
    (sortKeys_perm (canonicalizeMembers ms)).symm.filter _
  have hnodup' : (keys (delete key (canonicalizeMembers ms))).Nodup := by
    rw [← keys_canonicalizeMembers] at hnodup
    exact hnodup.sublist (List.filter_sublist.map _)
  rw [canonicalize_perm hperm hnodup',← canonicalizeMembers_delete,canonicalize,canonicalize,
    canonicalizeMembers_canonicalizeMembers]

end Json
end BpsProtocol
