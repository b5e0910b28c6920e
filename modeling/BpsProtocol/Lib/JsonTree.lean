import BpsProtocol.Lib.Reorder
import Mathlib.Tactic.Common

/-! JSON values over any keys and leaves.
Two values are the same up to the order of members exactly if they are equal after their members
are arranged by a rule that only looks at the keys. -/
namespace BpsProtocol

inductive JsonTree (σ α : Type)
  | leaf (a : α)
  | arr (items : List (JsonTree σ α))
  | obj (members : List (σ × JsonTree σ α))

namespace JsonTree

variable {σ α β γ : Type}

/-! ## Rules -/

def keys (ms : List (σ × α)) : List σ := ms.map Prod.fst

def mapValues (f : α → β) (ms : List (σ × α)) : List (σ × β) := ms.map (fun m => (m.1,f m.2))

/-- What may be done with the members of an object on account of their keys. -/
structure Rule (σ : Type) where
  act : ∀ {α : Type}, List (σ × α) → List (σ × α)
  act_mapValues : ∀ {α β : Type} (f : α → β) (ms : List (σ × α)),
    act (mapValues f ms) = mapValues f (act ms)

namespace Rule

def keep : Rule σ where
  act := fun ms => ms
  act_mapValues := fun _ _ => rfl

def andThen (g h : Rule σ) : Rule σ where
  act := fun ms => h.act (g.act ms)
  act_mapValues := fun f ms => by rw [g.act_mapValues,h.act_mapValues]

def filter (p : σ → Bool) : Rule σ where
  act := fun ms => ms.filter (fun m => p m.1)
  act_mapValues := fun f ms => by
    rw [mapValues,List.filter_map]
    rfl

def sort (r : σ → σ → Prop) [DecidableRel r] : Rule σ where
  act := fun ms => ms.insertionSort (fun a b => r a.1 b.1)
  act_mapValues := fun f ms => by
    rw [mapValues,mapValues]
    exact (List.map_insertionSort (fun a b : σ × _ => r a.1 b.1) (fun a b : σ × _ => r a.1 b.1)
      (fun m => (m.1,f m.2)) ms fun a _ b _ => Iff.rfl).symm

theorem ext {g h : Rule σ} (hact : ∀ {α : Type} (ms : List (σ × α)), g.act ms = h.act ms) : g = h := by
  cases g
  cases h
  congr
  funext α ms
  exact hact ms

/-- Members are left out before or after they are sorted. -/
theorem sort_andThen_filter (r : σ → σ → Prop) [DecidableRel r] [Std.Total r] [IsTrans σ r]
    (p : σ → Bool) : (sort r).andThen (filter p) = (filter p).andThen (sort r) := by
  apply ext
  intro α ms
  have : Std.Total (fun a b : σ × α => r a.1 b.1) := ⟨fun a b => Std.Total.total a.1 b.1⟩
  have : IsTrans (σ × α) (fun a b => r a.1 b.1) :=
    ⟨fun _ _ _ hab hbc => IsTrans.trans _ _ _ hab hbc⟩
  exact Reorder.filter_insertionSort _ ms

/-- The rule fixes one order of the members. -/
structure Arranges (g : Rule σ) : Prop where
  perm : ∀ {α : Type} (ms : List (σ × α)), (g.act ms).Perm ms
  act_eq : ∀ {α : Type} {ms ns : List (σ × α)}, ms.Perm ns → (keys ms).Nodup →
    g.act ms = g.act ns

theorem keys_mapValues (f : α → β) (ms : List (σ × α)) : keys (mapValues f ms) = keys ms := by
  rw [keys,mapValues,List.map_map]
  rfl

/-- Distinct keys have one sorted order. -/
theorem arranges_sort (r : σ → σ → Prop) [DecidableRel r] [Std.Total r] [IsTrans σ r]
    (hantisymm : ∀ a b, r a b → r b a → a = b) : (sort r).Arranges := by
  constructor
  · intro α ms
    exact List.perm_insertionSort _ ms
  · intro α ms ns h hnodup
    have : Std.Total (fun a b : σ × α => r a.1 b.1) := ⟨fun a b => Std.Total.total a.1 b.1⟩
    have : IsTrans (σ × α) (fun a b => r a.1 b.1) :=
      ⟨fun _ _ _ hab hbc => IsTrans.trans _ _ _ hab hbc⟩
    exact (Reorder.insertionSort_eq h fun a ha b hb hab hba =>
      List.inj_on_of_nodup_map hnodup ha hb (hantisymm _ _ hab hba)).symm

/-- A fixed order may be rearranged. -/
theorem Arranges.andThen {g h : Rule σ} (hg : g.Arranges)
    (hperm : ∀ {α : Type} (ms : List (σ × α)), (h.act ms).Perm ms) : (g.andThen h).Arranges where
  perm := fun ms => (hperm _).trans (hg.perm ms)
  act_eq := fun hms hnodup => congrArg h.act (hg.act_eq hms hnodup)

end Rule

/-! ## Rebuilding -/

mutual

/-- A value with other leaves, and the members of its objects treated by a rule. -/
def rebuild (f : α → β) (g : Rule σ) : JsonTree σ α → JsonTree σ β
  | .leaf a => .leaf (f a)
  | .arr items => .arr (rebuildItems f g items)
  | .obj members => .obj (g.act (rebuildMembers f g members))

def rebuildItems (f : α → β) (g : Rule σ) : List (JsonTree σ α) → List (JsonTree σ β)
  | [] => []
  | t::ts => rebuild f g t::rebuildItems f g ts

def rebuildMembers (f : α → β) (g : Rule σ) : List (σ × JsonTree σ α) → List (σ × JsonTree σ β)
  | [] => []
  | (k,t)::ms => (k,rebuild f g t)::rebuildMembers f g ms

end

abbrev arrange (g : Rule σ) : JsonTree σ α → JsonTree σ α := rebuild id g

abbrev mapLeaves (f : α → β) : JsonTree σ α → JsonTree σ β := rebuild f Rule.keep

section Rebuild

variable {f : α → β} {f' : β → γ} {g g' : Rule σ}

theorem rebuildItems_eq (f : α → β) (g : Rule σ) (ts : List (JsonTree σ α)) :
    rebuildItems f g ts = ts.map (rebuild f g) := by
  induction ts with
  | nil => rfl
  | cons t ts ih => rw [rebuildItems,ih,List.map_cons]

theorem rebuildMembers_eq (f : α → β) (g : Rule σ) (ms : List (σ × JsonTree σ α)) :
    rebuildMembers f g ms = mapValues (rebuild f g) ms := by
  induction ms with
  | nil => rfl
  | cons m ms ih =>
    cases m
    rw [rebuildMembers,ih]
    rfl

theorem keys_rebuildMembers (ms : List (σ × JsonTree σ α)) : keys (rebuildMembers f g ms) = keys ms := by
  rw [rebuildMembers_eq,Rule.keys_mapValues]

theorem rebuildMembers_perm {ms ns : List (σ × JsonTree σ α)} (h : ms.Perm ns) :
    (rebuildMembers f g ms).Perm (rebuildMembers f g ns) := by
  rw [rebuildMembers_eq,rebuildMembers_eq]
  exact h.map _

theorem eq_leaf_of_rebuild {t : JsonTree σ α} {b : β} (h : t.rebuild f g = .leaf b) :
    ∃ a, t = .leaf a ∧ f a = b := by
  cases t with
  | leaf a => exact ⟨a,rfl,leaf.inj (by rwa [rebuild] at h)⟩
  | arr items =>
    rw [rebuild] at h
    cases h
  | obj members =>
    rw [rebuild] at h
    cases h

theorem eq_arr_of_rebuild {t : JsonTree σ α} {us : List (JsonTree σ β)} (h : t.rebuild f g = .arr us) :
    ∃ ts, t = .arr ts ∧ rebuildItems f g ts = us := by
  cases t with
  | leaf a =>
    rw [rebuild] at h
    cases h
  | arr items => exact ⟨items,rfl,arr.inj (by rwa [rebuild] at h)⟩
  | obj members =>
    rw [rebuild] at h
    cases h

theorem eq_obj_of_rebuild {t : JsonTree σ α} {ns : List (σ × JsonTree σ β)} (h : t.rebuild f g = .obj ns) :
    ∃ ms, t = .obj ms ∧ g.act (rebuildMembers f g ms) = ns := by
  cases t with
  | leaf a =>
    rw [rebuild] at h
    cases h
  | arr items =>
    rw [rebuild] at h
    cases h
  | obj members => exact ⟨members,rfl,obj.inj (by rwa [rebuild] at h)⟩

theorem rebuildMembers_act (g₀ : Rule σ) (ms : List (σ × JsonTree σ α)) :
    rebuildMembers f g (g₀.act ms) = g₀.act (rebuildMembers f g ms) := by
  rw [rebuildMembers_eq,rebuildMembers_eq,g₀.act_mapValues]

mutual

/-- Rebuilding twice is rebuilding once, by one rule after the other. -/
theorem rebuild_rebuild : ∀ t : JsonTree σ α,
    rebuild f' g' (rebuild f g t) = rebuild (f' ∘ f) (g.andThen g') t
  | .leaf _ => rfl
  | .arr items => by rw [rebuild,rebuild,rebuildItems_rebuildItems items,rebuild]
  | .obj members => by
    rw [rebuild,rebuild,rebuildMembers_act,rebuildMembers_rebuildMembers members,rebuild]
    rfl

theorem rebuildItems_rebuildItems : ∀ ts : List (JsonTree σ α),
    rebuildItems f' g' (rebuildItems f g ts) = rebuildItems (f' ∘ f) (g.andThen g') ts
  | [] => rfl
  | t::ts => by
    rw [rebuildItems,rebuildItems,rebuild_rebuild t,rebuildItems_rebuildItems ts,rebuildItems]

theorem rebuildMembers_rebuildMembers : ∀ ms : List (σ × JsonTree σ α),
    rebuildMembers f' g' (rebuildMembers f g ms) = rebuildMembers (f' ∘ f) (g.andThen g') ms
  | [] => rfl
  | (k,t)::ms => by
    rw [rebuildMembers,rebuildMembers,rebuild_rebuild t,rebuildMembers_rebuildMembers ms,
      rebuildMembers]

end

theorem arrange_rebuild (t : JsonTree σ α) : (t.rebuild f g).arrange g' = t.rebuild f (g.andThen g') :=
  rebuild_rebuild t

theorem arrange_arrange (t : JsonTree σ α) : (t.arrange g).arrange g' = t.arrange (g.andThen g') :=
  rebuild_rebuild t

theorem mapLeaves_rebuild (t : JsonTree σ α) : (t.rebuild f g).mapLeaves f' = t.rebuild (f' ∘ f) g :=
  rebuild_rebuild t

theorem mapLeaves_arrange (t : JsonTree σ α) : (t.arrange g).mapLeaves f = t.rebuild f g :=
  rebuild_rebuild t

mutual

/-- Two functions that tell all leaves apart tell all values apart. -/
theorem eq_of_mapLeaves {f : α → β} {f' : α → γ} (hf : ∀ a b, f a = f b → f' a = f' b → a = b) :
    ∀ {t u : JsonTree σ α}, t.mapLeaves f = u.mapLeaves f → t.mapLeaves f' = u.mapLeaves f' → t = u
  | .leaf a, _, h, h' => by
    obtain ⟨b,rfl,hb⟩ := eq_leaf_of_rebuild h.symm
    obtain ⟨b',hb',heq⟩ := eq_leaf_of_rebuild h'.symm
    obtain rfl := leaf.inj hb'
    rw [hf a b hb.symm heq.symm]
  | .arr ts, _, h, h' => by
    obtain ⟨us,rfl,hus⟩ := eq_arr_of_rebuild h.symm
    obtain ⟨us',hus',heq⟩ := eq_arr_of_rebuild h'.symm
    obtain rfl := arr.inj hus'
    rw [eq_of_mapLeaves_items hf hus.symm heq.symm]
  | .obj ms, _, h, h' => by
    obtain ⟨ns,rfl,hns⟩ := eq_obj_of_rebuild h.symm
    obtain ⟨ns',hns',heq⟩ := eq_obj_of_rebuild h'.symm
    obtain rfl := obj.inj hns'
    rw [eq_of_mapLeaves_members hf hns.symm heq.symm]

theorem eq_of_mapLeaves_items {f : α → β} {f' : α → γ}
    (hf : ∀ a b, f a = f b → f' a = f' b → a = b) : ∀ {ts us : List (JsonTree σ α)},
    rebuildItems f .keep ts = rebuildItems f .keep us →
    rebuildItems f' .keep ts = rebuildItems f' .keep us → ts = us
  | [], [], _, _ => rfl
  | t::ts, u::us, h, h' => by
    obtain ⟨hhead,htail⟩ := List.cons.inj h
    obtain ⟨hhead',htail'⟩ := List.cons.inj h'
    rw [eq_of_mapLeaves hf hhead hhead',eq_of_mapLeaves_items hf htail htail']

theorem eq_of_mapLeaves_members {f : α → β} {f' : α → γ}
    (hf : ∀ a b, f a = f b → f' a = f' b → a = b) : ∀ {ms ns : List (σ × JsonTree σ α)},
    rebuildMembers f .keep ms = rebuildMembers f .keep ns →
    rebuildMembers f' .keep ms = rebuildMembers f' .keep ns → ms = ns
  | [], [], _, _ => rfl
  | (k,t)::ms, (l,u)::ns, h, h' => by
    obtain ⟨hhead,htail⟩ := List.cons.inj h
    obtain ⟨hhead',htail'⟩ := List.cons.inj h'
    obtain ⟨hkey,hvalue⟩ := Prod.mk.inj hhead
    obtain ⟨-,hvalue'⟩ := Prod.mk.inj hhead'
    rw [hkey,eq_of_mapLeaves hf hvalue hvalue',eq_of_mapLeaves_members hf htail htail']

end

end Rebuild

/-! ## Distinct keys -/

mutual

/-- No object has a key twice. -/
def WellFormed : JsonTree σ α → Prop
  | .leaf _ => True
  | .arr items => WellFormedItems items
  | .obj members => (keys members).Nodup ∧ WellFormedMembers members

def WellFormedItems : List (JsonTree σ α) → Prop
  | [] => True
  | t::ts => WellFormed t ∧ WellFormedItems ts

def WellFormedMembers : List (σ × JsonTree σ α) → Prop
  | [] => True
  | (_,t)::ms => WellFormed t ∧ WellFormedMembers ms

end

section WellFormed

variable {f : α → β} {g : Rule σ}

theorem wellFormedMembers_iff {ms : List (σ × JsonTree σ α)} :
    WellFormedMembers ms ↔ ∀ m ∈ ms, WellFormed m.2 := by
  induction ms with
  | nil => simp [WellFormedMembers]
  | cons m ms ih =>
    cases m
    rw [WellFormedMembers,ih,List.forall_mem_cons]

mutual

/-- A rule that makes sublists does not repeat a key. -/
theorem WellFormed.rebuild (hg : ∀ ms : List (σ × JsonTree σ β), ∃ ns, (g.act ms).Perm ns ∧ ns.Sublist ms) :
    ∀ {t : JsonTree σ α}, t.WellFormed → (t.rebuild f g).WellFormed
  | .leaf _, _ => trivial
  | .arr _, h => WellFormedItems.rebuild hg h
  | .obj members, h => by
    obtain ⟨ns,hperm,hsub⟩ := hg (rebuildMembers f g members)
    have hmembers := wellFormedMembers_iff.1 (WellFormedMembers.rebuild hg h.2)
    refine ⟨?_,wellFormedMembers_iff.2 fun m hm => hmembers m (hsub.subset (hperm.subset hm))⟩
    have hnodup : (keys (rebuildMembers f g members)).Nodup := by
      rw [keys_rebuildMembers]
      exact h.1
    exact (hperm.map Prod.fst).nodup_iff.2 (hnodup.sublist (hsub.map _))

theorem WellFormedItems.rebuild
    (hg : ∀ ms : List (σ × JsonTree σ β), ∃ ns, (g.act ms).Perm ns ∧ ns.Sublist ms) :
    ∀ {ts : List (JsonTree σ α)}, WellFormedItems ts → WellFormedItems (rebuildItems f g ts)
  | [], _ => trivial
  | _::_, h => ⟨WellFormed.rebuild hg h.1,WellFormedItems.rebuild hg h.2⟩

theorem WellFormedMembers.rebuild
    (hg : ∀ ms : List (σ × JsonTree σ β), ∃ ns, (g.act ms).Perm ns ∧ ns.Sublist ms) :
    ∀ {ms : List (σ × JsonTree σ α)}, WellFormedMembers ms → WellFormedMembers (rebuildMembers f g ms)
  | [], _ => trivial
  | (_,_)::_, h => ⟨WellFormed.rebuild hg h.1,WellFormedMembers.rebuild hg h.2⟩

end

end WellFormed

/-! ## Equality up to the order of members -/

mutual

def Same : JsonTree σ α → JsonTree σ α → Prop
  | .leaf a, u => u = .leaf a
  | .arr ts, u => ∃ us, u = .arr us ∧ SameItems ts us
  | .obj ms, u => ∃ ns, u = .obj ns ∧ SameMembers ms ns

def SameItems : List (JsonTree σ α) → List (JsonTree σ α) → Prop
  | [], us => us = []
  | t::ts, us => ∃ u us', us = u::us' ∧ Same t u ∧ SameItems ts us'

/-- Each member has its counterpart, wherever it stands. -/
def SameMembers : List (σ × JsonTree σ α) → List (σ × JsonTree σ α) → Prop
  | [], ns => ns = []
  | (k,t)::ms, ns => ∃ u ns', ns.Perm ((k,u)::ns') ∧ Same t u ∧ SameMembers ms ns'

end

section Same

variable {f : α → β} {g : Rule σ}

mutual

/-- Values that are the same are rebuilt alike by a rule that arranges. -/
theorem Same.rebuild_eq (hg : g.Arranges) : ∀ {t u : JsonTree σ α}, u.WellFormed → t.Same u →
    t.rebuild f g = u.rebuild f g
  | .leaf a, _, _, h => by
    rw [Same] at h
    rw [h]
  | .arr ts, _, hwf, h => by
    rw [Same] at h
    obtain ⟨us,rfl,h⟩ := h
    rw [rebuild,rebuild,SameItems.rebuild_eq hg hwf h]
  | .obj ms, _, hwf, h => by
    rw [Same] at h
    obtain ⟨ns,rfl,h⟩ := h
    have hnodup : (keys (rebuildMembers f g ns)).Nodup := by
      rw [keys_rebuildMembers]
      exact hwf.1
    rw [rebuild,rebuild,hg.act_eq (SameMembers.rebuild_perm hg hwf.2 h).symm hnodup]

theorem SameItems.rebuild_eq (hg : g.Arranges) : ∀ {ts us : List (JsonTree σ α)}, WellFormedItems us →
    SameItems ts us → rebuildItems f g ts = rebuildItems f g us
  | [], _, _, h => by
    rw [SameItems] at h
    rw [h]
  | t::ts, _, hwf, h => by
    rw [SameItems] at h
    obtain ⟨u,us',rfl,hhead,htail⟩ := h
    rw [rebuildItems,rebuildItems,Same.rebuild_eq hg hwf.1 hhead,SameItems.rebuild_eq hg hwf.2 htail]

theorem SameMembers.rebuild_perm (hg : g.Arranges) : ∀ {ms ns : List (σ × JsonTree σ α)},
    WellFormedMembers ns → SameMembers ms ns → (rebuildMembers f g ms).Perm (rebuildMembers f g ns)
  | [], _, _, h => by
    rw [SameMembers] at h
    rw [h]
  | (k,t)::ms, ns, hwf, h => by
    rw [SameMembers] at h
    obtain ⟨u,ns',hperm,hhead,htail⟩ := h
    have hall := wellFormedMembers_iff.1 hwf
    have hu : u.WellFormed := hall _ (hperm.mem_iff.2 List.mem_cons_self)
    have hns : WellFormedMembers ns' := wellFormedMembers_iff.2 fun m hm =>
      hall m (hperm.mem_iff.2 (List.mem_cons_of_mem _ hm))
    refine List.Perm.trans ?_ (rebuildMembers_perm hperm).symm
    rw [rebuildMembers,rebuildMembers,Same.rebuild_eq hg hu hhead]
    exact (SameMembers.rebuild_perm hg hns htail).cons _

end

mutual

theorem same_of_rebuild_eq (hf : Function.Injective f) (hg : g.Arranges) : ∀ {t u : JsonTree σ α},
    t.rebuild f g = u.rebuild f g → t.Same u
  | .leaf a, _, h => by
    rw [rebuild] at h
    obtain ⟨b,rfl,hb⟩ := eq_leaf_of_rebuild h.symm
    rw [Same,hf hb]
  | .arr ts, _, h => by
    rw [rebuild] at h
    obtain ⟨us,rfl,hus⟩ := eq_arr_of_rebuild h.symm
    rw [Same]
    exact ⟨us,rfl,sameItems_of_rebuild_eq hf hg hus.symm⟩
  | .obj ms, _, h => by
    rw [rebuild] at h
    obtain ⟨ns,rfl,hns⟩ := eq_obj_of_rebuild h.symm
    have hperm := (hg.perm (rebuildMembers f g ms)).symm.trans
      ((List.Perm.of_eq hns.symm).trans (hg.perm (rebuildMembers f g ns)))
    rw [Same]
    exact ⟨ns,rfl,sameMembers_of_rebuild_perm hf hg hperm⟩

theorem sameItems_of_rebuild_eq (hf : Function.Injective f) (hg : g.Arranges) :
    ∀ {ts us : List (JsonTree σ α)}, rebuildItems f g ts = rebuildItems f g us → SameItems ts us
  | [], us, h => by
    rw [rebuildItems_eq,rebuildItems_eq] at h
    rw [SameItems]
    exact List.map_eq_nil_iff.1 h.symm
  | t::ts, us, h => by
    rw [rebuildItems,rebuildItems_eq _ _ us] at h
    obtain ⟨u,us',rfl,hu,hus⟩ := List.map_eq_cons_iff.1 h.symm
    rw [SameItems]
    refine ⟨u,us',rfl,same_of_rebuild_eq hf hg hu.symm,sameItems_of_rebuild_eq hf hg ?_⟩
    rw [← hus,rebuildItems_eq]

theorem sameMembers_of_rebuild_perm (hf : Function.Injective f) (hg : g.Arranges) :
    ∀ {ms ns : List (σ × JsonTree σ α)}, (rebuildMembers f g ms).Perm (rebuildMembers f g ns) →
      SameMembers ms ns
  | [], ns, h => by
    rw [rebuildMembers_eq _ _ ns] at h
    rw [SameMembers]
    exact List.map_eq_nil_iff.1 h.nil_eq.symm
  | (k,t)::ms, ns, h => by
    rw [rebuildMembers] at h
    have hmem : (k,rebuild f g t) ∈ rebuildMembers f g ns := h.subset List.mem_cons_self
    rw [rebuildMembers_eq,mapValues,List.mem_map] at hmem
    obtain ⟨⟨k',u⟩,hmem,heq⟩ := hmem
    obtain ⟨hkey,hu⟩ := Prod.mk.inj heq
    dsimp only at hkey hu
    subst hkey
    obtain ⟨before,behind,rfl⟩ := List.append_of_mem hmem
    have hfront : (before ++ (k',u)::behind).Perm ((k',u)::(before ++ behind)) :=
      List.perm_middle
    have hrest := h.trans (rebuildMembers_perm hfront)
    rw [rebuildMembers,hu] at hrest
    rw [SameMembers]
    exact ⟨u,before ++ behind,hfront,same_of_rebuild_eq hf hg hu.symm,
      sameMembers_of_rebuild_perm hf hg hrest.cons_inv⟩

end

/-- Values are the same exactly if their arrangements are equal. -/
theorem same_iff_arrange_eq (hg : g.Arranges) {t u : JsonTree σ α} (hu : u.WellFormed) :
    t.Same u ↔ t.arrange g = u.arrange g :=
  ⟨Same.rebuild_eq hg hu,same_of_rebuild_eq Function.injective_id hg⟩

theorem mapLeaves_same_iff (hg : g.Arranges) {t u : JsonTree σ α} (hu : u.WellFormed) :
    (t.mapLeaves f).Same (u.mapLeaves f) ↔ t.rebuild f g = u.rebuild f g := by
  have hwf : (u.mapLeaves f).WellFormed :=
    hu.rebuild fun ms => ⟨ms,List.Perm.refl _,List.Sublist.refl _⟩
  rw [same_iff_arrange_eq hg hwf,arrange_rebuild,arrange_rebuild]
  rfl

end Same

end JsonTree
end BpsProtocol
