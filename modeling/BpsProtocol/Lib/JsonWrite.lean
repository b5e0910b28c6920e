import BpsProtocol.Lib.JsonEvaluate
import BpsProtocol.Lib.JsonValue

/-! Writing JSON texts.
A style whose parts are those of the grammar prints texts of the grammar, so what is printed can be
read: `JSON.parse` gives back what `JSON.stringify` was given. -/
namespace BpsProtocol

namespace JsonTree

variable {σ κ ρ α β : Type}

mutual

theorem mapKeys_mapKeys (f : σ → κ) (g : κ → ρ) : ∀ t : JsonTree σ α,
    (t.mapKeys f).mapKeys g = t.mapKeys (g ∘ f)
  | .leaf _ => rfl
  | .arr items => by rw [mapKeys,mapKeys,mapKeysItems_mapKeysItems f g items,mapKeys]
  | .obj members => by rw [mapKeys,mapKeys,mapKeysMembers_mapKeysMembers f g members,mapKeys]

theorem mapKeysItems_mapKeysItems (f : σ → κ) (g : κ → ρ) : ∀ ts : List (JsonTree σ α),
    mapKeysItems g (mapKeysItems f ts) = mapKeysItems (g ∘ f) ts
  | [] => rfl
  | t::ts => by
    rw [mapKeysItems,mapKeysItems,mapKeys_mapKeys f g t,mapKeysItems_mapKeysItems f g ts,
      mapKeysItems]

theorem mapKeysMembers_mapKeysMembers (f : σ → κ) (g : κ → ρ) : ∀ ms : List (σ × JsonTree σ α),
    mapKeysMembers g (mapKeysMembers f ms) = mapKeysMembers (g ∘ f) ms
  | [] => rfl
  | (k,t)::ms => by
    rw [mapKeysMembers,mapKeysMembers,mapKeys_mapKeys f g t,mapKeysMembers_mapKeysMembers f g ms,
      mapKeysMembers]
    rfl

end

mutual

theorem mapKeys_id : ∀ t : JsonTree σ α, t.mapKeys id = t
  | .leaf _ => rfl
  | .arr items => by rw [mapKeys,mapKeysItems_id items]
  | .obj members => by rw [mapKeys,mapKeysMembers_id members]

theorem mapKeysItems_id : ∀ ts : List (JsonTree σ α), mapKeysItems id ts = ts
  | [] => rfl
  | t::ts => by rw [mapKeysItems,mapKeys_id t,mapKeysItems_id ts]

theorem mapKeysMembers_id : ∀ ms : List (σ × JsonTree σ α), mapKeysMembers id ms = ms
  | [] => rfl
  | (k,t)::ms => by
    rw [mapKeysMembers,mapKeys_id t,mapKeysMembers_id ms]
    rfl

end

mutual

/-- The names and the leaves of a value are replaced in either order. -/
theorem mapKeys_mapLeaves (f : σ → κ) (g : α → β) : ∀ t : JsonTree σ α,
    (t.mapLeaves g).mapKeys f = (t.mapKeys f).mapLeaves g
  | .leaf _ => rfl
  | .arr items => congrArg arr (mapKeysItems_rebuildItems f g items)
  | .obj members => congrArg obj (mapKeysMembers_rebuildMembers f g members)

theorem mapKeysItems_rebuildItems (f : σ → κ) (g : α → β) : ∀ ts : List (JsonTree σ α),
    mapKeysItems f (rebuildItems g .keep ts) = rebuildItems g .keep (mapKeysItems f ts)
  | [] => rfl
  | t::ts => by
    rw [rebuildItems,mapKeysItems,mapKeysItems,rebuildItems,mapKeysItems_rebuildItems f g ts]
    exact congrArg (· :: _) (mapKeys_mapLeaves f g t)

theorem mapKeysMembers_rebuildMembers (f : σ → κ) (g : α → β) : ∀ ms : List (σ × JsonTree σ α),
    mapKeysMembers f (rebuildMembers g .keep ms) = rebuildMembers g .keep (mapKeysMembers f ms)
  | [] => rfl
  | (k,t)::ms => by
    rw [rebuildMembers,mapKeysMembers,mapKeysMembers,rebuildMembers,
      mapKeysMembers_rebuildMembers f g ms]
    exact congrArg (fun t => (f k,t)::_) (mapKeys_mapLeaves f g t)

end

/-! ## Leaves -/

mutual

/-- Every leaf has the property. -/
def AllLeaves (p : α → Prop) : JsonTree σ α → Prop
  | .leaf a => p a
  | .arr items => AllLeavesItems p items
  | .obj members => AllLeavesMembers p members

def AllLeavesItems (p : α → Prop) : List (JsonTree σ α) → Prop
  | [] => True
  | t::ts => AllLeaves p t ∧ AllLeavesItems p ts

def AllLeavesMembers (p : α → Prop) : List (σ × JsonTree σ α) → Prop
  | [] => True
  | (_,t)::ms => AllLeaves p t ∧ AllLeavesMembers p ms

end

section Leaves

variable {p : α → Prop} {q : β → Prop} {f : α → β} {g g' : Rule σ}

theorem allLeavesMembers_iff {ms : List (σ × JsonTree σ α)} :
    AllLeavesMembers p ms ↔ ∀ m ∈ ms, AllLeaves p m.2 := by
  induction ms with
  | nil => simp [AllLeavesMembers]
  | cons m ms ih =>
    cases m
    rw [AllLeavesMembers,ih,List.forall_mem_cons]

mutual

/-- A rule that adds no member adds no leaf. -/
theorem AllLeaves.rebuild (hf : ∀ a, p a → q (f a))
    (hg : ∀ ms : List (σ × JsonTree σ β), g.act ms ⊆ ms) :
    ∀ {t : JsonTree σ α}, t.AllLeaves p → (t.rebuild f g).AllLeaves q
  | .leaf a, h => hf a h
  | .arr _, h => AllLeavesItems.rebuild hf hg h
  | .obj members, h => by
    have hmembers : AllLeavesMembers q (rebuildMembers f g members) :=
      AllLeavesMembers.rebuild hf hg h
    rw [JsonTree.rebuild,AllLeaves,allLeavesMembers_iff]
    exact fun m hm => allLeavesMembers_iff.1 hmembers m (hg _ hm)

theorem AllLeavesItems.rebuild (hf : ∀ a, p a → q (f a))
    (hg : ∀ ms : List (σ × JsonTree σ β), g.act ms ⊆ ms) :
    ∀ {ts : List (JsonTree σ α)}, AllLeavesItems p ts → AllLeavesItems q (rebuildItems f g ts)
  | [], _ => trivial
  | _::_, h => ⟨AllLeaves.rebuild hf hg h.1,AllLeavesItems.rebuild hf hg h.2⟩

theorem AllLeavesMembers.rebuild (hf : ∀ a, p a → q (f a))
    (hg : ∀ ms : List (σ × JsonTree σ β), g.act ms ⊆ ms) :
    ∀ {ms : List (σ × JsonTree σ α)}, AllLeavesMembers p ms →
      AllLeavesMembers q (rebuildMembers f g ms)
  | [], _ => trivial
  | (_,_)::_, h => ⟨AllLeaves.rebuild hf hg h.1,AllLeavesMembers.rebuild hf hg h.2⟩

end

mutual

/-- Where no name is given twice, rules may be exchanged that treat such members alike. -/
theorem rebuild_congr
    (hg : ∀ ms : List (σ × JsonTree σ β), (keys ms).Nodup → g.act ms = g'.act ms) :
    ∀ {t : JsonTree σ α}, t.WellFormed → t.rebuild f g = t.rebuild f g'
  | .leaf _, _ => rfl
  | .arr _, h => congrArg arr (rebuildItems_congr hg h)
  | .obj members, h => by
    rw [rebuild,rebuild,rebuildMembers_congr hg h.2,hg]
    rw [keys_rebuildMembers]
    exact h.1

theorem rebuildItems_congr
    (hg : ∀ ms : List (σ × JsonTree σ β), (keys ms).Nodup → g.act ms = g'.act ms) :
    ∀ {ts : List (JsonTree σ α)}, WellFormedItems ts → rebuildItems f g ts = rebuildItems f g' ts
  | [], _ => rfl
  | _::_, h => by
    rw [rebuildItems,rebuildItems,rebuild_congr hg h.1,rebuildItems_congr hg h.2]

theorem rebuildMembers_congr
    (hg : ∀ ms : List (σ × JsonTree σ β), (keys ms).Nodup → g.act ms = g'.act ms) :
    ∀ {ms : List (σ × JsonTree σ α)}, WellFormedMembers ms →
      rebuildMembers f g ms = rebuildMembers f g' ms
  | [], _ => rfl
  | (_,_)::_, h => by
    rw [rebuildMembers,rebuildMembers,rebuild_congr hg h.1,rebuildMembers_congr hg h.2]

end

end Leaves

section Names

theorem wellFormedMembers_mapKeys_iff {h : σ → κ} {ms : List (σ × JsonTree σ α)} :
    WellFormedMembers (mapKeysMembers h ms) ↔ ∀ m ∈ ms, (m.2.mapKeys h).WellFormed := by
  induction ms with
  | nil => simp [mapKeysMembers,WellFormedMembers]
  | cons m ms ih =>
    cases m
    rw [mapKeysMembers,WellFormedMembers,ih,List.forall_mem_cons]

variable {f : α → β} {g : Rule σ} {h : σ → κ}

mutual

/-- Whether names that are read as others are distinct does not depend on their order. -/
theorem wellFormed_mapKeys_rebuild (hg : ∀ ms : List (σ × JsonTree σ β), (g.act ms).Perm ms) :
    ∀ t : JsonTree σ α, ((t.rebuild f g).mapKeys h).WellFormed ↔ (t.mapKeys h).WellFormed
  | .leaf _ => Iff.rfl
  | .arr items => wellFormedItems_mapKeys_rebuild hg items
  | .obj members => by
    have hperm := hg (rebuildMembers f g members)
    have hkeys := (hperm.map Prod.fst).map h
    have hmembers := wellFormedMembers_mapKeys_rebuild hg members
    rw [wellFormedMembers_mapKeys_iff] at hmembers
    rw [rebuild,mapKeys,mapKeys,WellFormed,WellFormed,keys_mapKeysMembers,keys_mapKeysMembers,
      wellFormedMembers_mapKeys_iff,← hmembers]
    refine and_congr ?_ (forall_congr' fun m => ?_)
    · rw [← keys_rebuildMembers (f := f) (g := g) members]
      exact hkeys.nodup_iff
    · rw [hperm.mem_iff]

theorem wellFormedItems_mapKeys_rebuild
    (hg : ∀ ms : List (σ × JsonTree σ β), (g.act ms).Perm ms) : ∀ ts : List (JsonTree σ α),
    WellFormedItems (mapKeysItems h (rebuildItems f g ts)) ↔ WellFormedItems (mapKeysItems h ts)
  | [] => Iff.rfl
  | t::ts => and_congr (wellFormed_mapKeys_rebuild hg t) (wellFormedItems_mapKeys_rebuild hg ts)

theorem wellFormedMembers_mapKeys_rebuild
    (hg : ∀ ms : List (σ × JsonTree σ β), (g.act ms).Perm ms) :
    ∀ ms : List (σ × JsonTree σ α),
    WellFormedMembers (mapKeysMembers h (rebuildMembers f g ms)) ↔
      WellFormedMembers (mapKeysMembers h ms)
  | [] => Iff.rfl
  | (_,t)::ms =>
    and_congr (wellFormed_mapKeys_rebuild hg t) (wellFormedMembers_mapKeys_rebuild hg ms)

end

end Names

section Assign

variable [DecidableEq σ] {ms : List (σ × α)}

/-- Members of different names are set one behind the other. -/
theorem assign_of_nodup (h : (keys ms).Nodup) : assign ms = ms := by
  have hfold : ∀ (ms acc : List (σ × α)), (keys (acc ++ ms)).Nodup →
      ms.foldl setMember acc = acc ++ ms := by
    intro ms
    induction ms with
    | nil => exact fun acc _ => (List.append_nil acc).symm
    | cons m ms ih =>
      intro acc hnodup
      have hfresh : m.1 ∉ keys acc := by
        rw [keys,List.map_append,List.map_cons,List.nodup_append] at hnodup
        exact fun hmem => hnodup.2.2 _ hmem _ List.mem_cons_self rfl
      rw [List.foldl_cons,setMember,if_neg hfresh,ih _ (by simpa using hnodup),List.append_assoc]
      rfl
  exact hfold ms [] h

end Assign

end JsonTree

namespace JsonSyntax
open Utf16 JsonText JsonTree

/-! ## Texts of tokens -/

theorem ofText_append (s t : Text) : ofText (s ++ t) = ofText s ++ ofText t := List.flatMap_append

theorem ofText_cons (c : Char) (t : Text) : ofText (c::t) = encodePoint c.toNat ++ ofText t := rfl

/-- A character of one unit. -/
theorem ofText_unit {c : Char} (h : c.toNat < 65536) (t : Text) :
    ofText (c::t) = unit c :: ofText t := by
  rw [ofText_cons,encodePoint,if_pos h]
  rfl

theorem Spells.space {w s : JsString} {ks : List Token} (hw : ∀ u ∈ w, isSpace u = true)
    (h : Spells s ks) : Spells (w ++ s) ks := by
  cases h with
  | nil hs =>
    refine .nil fun u hu => ?_
    exact (List.mem_append.1 hu).elim (hw u) (hs u)
  | @cons w' s k ks hw' hs =>
    rw [← List.append_assoc,← List.append_assoc]
    refine .cons (fun u hu => ?_) hs
    exact (List.mem_append.1 hu).elim (hw u) (hw' u)

theorem Spells.token {s : JsString} {ks : List Token} (k : Token) (h : Spells s ks) :
    Spells (k.text ++ s) (k::ks) := .cons (w := []) (List.forall_mem_nil _) h

end JsonSyntax

namespace Style
open Utf16 JsonText JsonTree JsonSyntax

variable {σ α : Type}

/-- White space, as characters. -/
def Blank (t : Text) : Prop := ∀ u ∈ ofText t, isSpace u = true

theorem blank_nil : Blank [] := List.forall_mem_nil _

/-- How the names and leaves that a style prints are spelled. -/
structure Spelling (S : Style σ α) where
  name : σ → StringLit
  scalar : α → Scalar
  quote_text : ∀ k, ofText (S.quote k) = (name k).text
  leaf_text : ∀ a, ofText (S.leaf a) = scalarText (scalar a)
  newline_blank : ∀ n, Blank (S.newline n)
  colon_blank : ∃ t, S.colon = ':' :: t ∧ Blank t

namespace Spelling

variable {S : Style σ α} (W : S.Spelling)

/-- The printed value as it is written. -/
def spell (t : JsonTree σ α) : Tree := (t.mapKeys W.name).mapLeaves W.scalar

section Print

variable {s : JsString} {ks : List Token}

include W in
theorem spells_colon (h : Spells s ks) : Spells (ofText S.colon ++ s) (.colon::ks) := by
  obtain ⟨t,ht,hblank⟩ := W.colon_blank
  rw [ht,ofText_unit (by decide)]
  exact .token .colon (h.space hblank)

theorem spell_leaf (a : α) : W.spell (.leaf a) = .leaf (W.scalar a) := rfl

theorem spell_arr (ts : List (JsonTree σ α)) : W.spell (.arr ts) = .arr (ts.map W.spell) := by
  have hitems : ∀ ts : List (JsonTree σ α),
      rebuildItems W.scalar .keep (mapKeysItems W.name ts) = ts.map W.spell := by
    intro ts
    induction ts with
    | nil => rfl
    | cons t ts ih =>
      rw [mapKeysItems,rebuildItems,ih]
      rfl
  rw [spell,mapKeys,mapLeaves,rebuild,hitems]

theorem spell_obj (ms : List (σ × JsonTree σ α)) :
    W.spell (.obj ms) = .obj (ms.map (fun m => (W.name m.1,W.spell m.2))) := by
  have hmembers : ∀ ms : List (σ × JsonTree σ α),
      rebuildMembers W.scalar .keep (mapKeysMembers W.name ms) =
        ms.map (fun m => (W.name m.1,W.spell m.2)) := by
    intro ms
    induction ms with
    | nil => rfl
    | cons m ms ih =>
      rw [mapKeysMembers,rebuildMembers,ih]
      rfl
  rw [spell,mapKeys,mapLeaves,rebuild]
  exact congrArg JsonTree.obj (hmembers ms)

mutual

/-- What is printed before a text of the grammar spells the value before its tokens. -/
theorem spells_print : ∀ (t : JsonTree σ α) (n : ℕ) {s : JsString} {ks : List Token}, Spells s ks →
    Spells (ofText (S.print n t) ++ s) (tokens (W.spell t) ++ ks)
  | .leaf a, n, s, ks, h => by
    rw [print,W.leaf_text]
    exact .token (.scalar (W.scalar a)) h
  | .arr [], n, s, ks, h => .token .openArray (.token .closeArray h)
  | .arr (t::ts), n, s, ks, h => by
    have hitems := spells_printItems ts (n+2)
      (Spells.space (W.newline_blank n) (Spells.token .closeArray h))
    have hvalue := Spells.space (W.newline_blank (n+2)) (spells_print t (n+2) hitems)
    have htext : ofText (S.print n (.arr (t::ts))) ++ s =
        Token.openArray.text ++ (ofText (S.newline (n+2)) ++ (ofText (S.print (n+2) t) ++
          (ofText (S.printItems (n+2) ts) ++ (ofText (S.newline n) ++
            (Token.closeArray.text ++ s))))) := by
      simp only [print,List.cons_append,ofText_unit (by decide : '['.toNat < 65536),
        ofText_append,List.append_assoc]
      rfl
    rw [htext,spell_arr,List.map_cons,tokens]
    simp only [List.cons_append,List.append_assoc]
    exact .token .openArray hvalue
  | .obj [], n, s, ks, h => .token .openObject (.token .closeObject h)
  | .obj ((k,t)::ms), n, s, ks, h => by
    have hmembers := spells_printMembers ms (n+2)
      (Spells.space (W.newline_blank n) (Spells.token .closeObject h))
    have hvalue := W.spells_colon (spells_print t (n+2) hmembers)
    have hname := Spells.space (W.newline_blank (n+2)) (Spells.token (.name (W.name k)) hvalue)
    have htext : ofText (S.print n (.obj ((k,t)::ms))) ++ s =
        Token.openObject.text ++ (ofText (S.newline (n+2)) ++ ((Token.name (W.name k)).text ++
          (ofText S.colon ++ (ofText (S.print (n+2) t) ++
            (ofText (S.printMembers (n+2) ms) ++ (ofText (S.newline n) ++
              (Token.closeObject.text ++ s))))))) := by
      simp only [print,List.cons_append,ofText_unit (by decide : '\x7b'.toNat < 65536),
        ofText_append,List.append_assoc,W.quote_text]
      rfl
    rw [htext,spell_obj,List.map_cons,tokens]
    simp only [List.cons_append,List.append_assoc]
    exact .token .openObject hname

theorem spells_printItems : ∀ (ts : List (JsonTree σ α)) (n : ℕ) {s : JsString} {ks : List Token},
    Spells s ks →
    Spells (ofText (S.printItems n ts) ++ s) (tokensItems (ts.map W.spell) ++ ks)
  | [], n, s, ks, h => by
    rw [printItems]
    exact h
  | t::ts, n, s, ks, h => by
    have hvalue := Spells.space (W.newline_blank n)
      (spells_print t n (spells_printItems ts n h))
    have htext : ofText (S.printItems n (t::ts)) ++ s =
        Token.comma.text ++ (ofText (S.newline n) ++ (ofText (S.print n t) ++
          (ofText (S.printItems n ts) ++ s))) := by
      simp only [printItems,List.cons_append,ofText_unit (by decide : ','.toNat < 65536),
        ofText_append,List.append_assoc]
      rfl
    rw [htext,List.map_cons,tokensItems,List.cons_append,List.cons_append,List.append_assoc]
    exact .token .comma hvalue

theorem spells_printMembers : ∀ (ms : List (σ × JsonTree σ α)) (n : ℕ) {s : JsString}
    {ks : List Token}, Spells s ks →
    Spells (ofText (S.printMembers n ms) ++ s)
      (tokensMembers (ms.map (fun m => (W.name m.1,W.spell m.2))) ++ ks)
  | [], n, s, ks, h => by
    rw [printMembers]
    exact h
  | (k,t)::ms, n, s, ks, h => by
    have hvalue := W.spells_colon (spells_print t n (spells_printMembers ms n h))
    have hname := Spells.space (W.newline_blank n) (Spells.token (.name (W.name k)) hvalue)
    have htext : ofText (S.printMembers n ((k,t)::ms)) ++ s =
        Token.comma.text ++ (ofText (S.newline n) ++ ((Token.name (W.name k)).text ++
          (ofText S.colon ++ (ofText (S.print n t) ++
            (ofText (S.printMembers n ms) ++ s))))) := by
      simp only [printMembers,List.cons_append,ofText_unit (by decide : ','.toNat < 65536),
        ofText_append,List.append_assoc,W.quote_text]
      rfl
    rw [htext,List.map_cons,tokensMembers]
    simp only [List.cons_append,List.append_assoc]
    exact .token .comma hname

end

/-- A printed value, with white space behind it, is a text of the grammar. -/
theorem writes_print (t : JsonTree σ α) (n : ℕ) {r : Text} (hr : Blank r) :
    Writes (ofText (S.print n t ++ r)) (W.spell t) := by
  have h := W.spells_print t n (.nil hr)
  rwa [List.append_nil,← ofText_append] at h

end Print

end Spelling
end Style
end BpsProtocol
