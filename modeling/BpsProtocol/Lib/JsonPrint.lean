import BpsProtocol.Lib.HexText
import BpsProtocol.Lib.JsonTree

/-! The text of a JSON value.
Leaves, strings and line breaks are printed by a style.  Where each of them can be told from what
follows it, the text of a value determines the value. -/
namespace BpsProtocol

/-- How the parts of a value are printed. -/
structure Style (σ α : Type) where
  leaf : α → Text
  quote : σ → Text
  newline : ℕ → Text
  colon : Text

namespace Style

variable {σ α : Type} (S : Style σ α)

mutual

/-- A value at an indentation. -/
def print (indent : ℕ) : JsonTree σ α → Text
  | .leaf a => S.leaf a
  | .arr [] => ['[',']']
  | .arr (t::ts) =>
    '[' :: S.newline (indent+2) ++ print (indent+2) t ++ printItems (indent+2) ts ++
      S.newline indent ++ [']']
  | .obj [] => ['\x7b','\x7d']
  | .obj ((k,t)::ms) =>
    '\x7b' :: S.newline (indent+2) ++ S.quote k ++ S.colon ++ print (indent+2) t ++
      printMembers (indent+2) ms ++ S.newline indent ++ ['\x7d']

/-- The items after the first one, each with the comma before it. -/
def printItems (indent : ℕ) : List (JsonTree σ α) → Text
  | [] => []
  | t::ts => ',' :: S.newline indent ++ print indent t ++ printItems indent ts

def printMembers (indent : ℕ) : List (σ × JsonTree σ α) → Text
  | [] => []
  | (k,t)::ms =>
    ',' :: S.newline indent ++ S.quote k ++ S.colon ++ print indent t ++ printMembers indent ms

end

theorem printItems_nil (n : ℕ) : S.printItems n [] = [] := by rw [printItems]

theorem printMembers_nil (n : ℕ) : S.printMembers n [] = [] := by rw [printMembers]

/-- The style of leaves that are printed as others. -/
def comap {β : Type} (S : Style σ β) (f : α → β) : Style σ α :=
  { leaf := fun a => S.leaf (f a),quote := S.quote,newline := S.newline,colon := S.colon }

section Comap

variable {β : Type} (S : Style σ β) (f : α → β)

mutual

theorem print_comap : ∀ (n : ℕ) (t : JsonTree σ α), (S.comap f).print n t = S.print n (t.mapLeaves f)
  | _, .leaf _ => rfl
  | _, .arr [] => rfl
  | n, .arr (t::ts) => by
    rw [print,print_comap (n+2) t,printItems_comap (n+2) ts]
    rfl
  | _, .obj [] => rfl
  | n, .obj ((k,t)::ms) => by
    rw [print,print_comap (n+2) t,printMembers_comap (n+2) ms]
    rfl

theorem printItems_comap : ∀ (n : ℕ) (ts : List (JsonTree σ α)),
    (S.comap f).printItems n ts = S.printItems n (JsonTree.rebuildItems f JsonTree.Rule.keep ts)
  | _, [] => rfl
  | n, t::ts => by
    rw [printItems,print_comap n t,printItems_comap n ts]
    rfl

theorem printMembers_comap : ∀ (n : ℕ) (ms : List (σ × JsonTree σ α)),
    (S.comap f).printMembers n ms = S.printMembers n (JsonTree.rebuildMembers f JsonTree.Rule.keep ms)
  | _, [] => rfl
  | n, (k,t)::ms => by
    rw [printMembers,print_comap n t,printMembers_comap n ms]
    rfl

end

end Comap

/-! ## What may follow -/

/-- The rest of a text goes on with one of the characters, or ends. -/
def Follows (cs : Text) (r : Text) : Prop := ∀ c ∈ r.head?, c ∈ cs

/-- What stands behind a value. -/
abbrev Delimited : Text → Prop := Follows [',',']','\x7d','\x0a']

/-- What stands behind the last item. -/
abbrev Closing : Text → Prop := Follows [']','\x7d','\x0a']

structure Lawful : Prop where
  leaf_head : ∀ a, ∃ c t, S.leaf a = c::t ∧ c ∉ ['[',']','\x7b','\x7d','\x0a']
  leaf_inj : ∀ {a b : α} {r r' : Text}, Delimited r → Delimited r' →
    S.leaf a ++ r = S.leaf b ++ r' → a = b ∧ r = r'
  quote_head : ∀ s, ∃ t, S.quote s = '\x22' :: t
  quote_inj : ∀ {s s' : σ} {r r' : Text}, S.quote s ++ r = S.quote s' ++ r' → s = s' ∧ r = r'
  newline_cases : ∀ n, S.newline n = [] ∨ ∃ t, S.newline n = '\x0a' :: t

section Follows

variable {cs ds r : Text} {c : Char}

theorem follows_nil : Follows cs [] := fun _ h => by cases h

theorem follows_cons (h : c ∈ cs) : Follows cs (c::r) := fun d hd => by
  obtain rfl : c = d := Option.some.inj hd
  exact h

theorem Follows.mono (h : Follows cs r) (hsub : ∀ c ∈ cs, c ∈ ds) : Follows ds r :=
  fun c hc => hsub c (h c hc)

/-- What stands behind the last item may stand behind any value. -/
theorem Closing.delimited (h : Closing r) : Delimited r := h.mono fun _ => List.mem_cons_of_mem _

theorem Follows.mem (h : Follows cs (c::r)) : c ∈ cs := h c rfl

end Follows

namespace Lawful

variable {S}

section Heads

variable (L : S.Lawful) {n : ℕ} {r r' : Text}

include L

/-- A text behind a line break starts with its own first character or with the break. -/
theorem newline_follows {c : Char} : Follows [c,'\x0a'] (S.newline n ++ c::r) := by
  rcases L.newline_cases n with hnil | ⟨t,ht⟩
  · rw [hnil]
    exact follows_cons List.mem_cons_self
  · rw [ht]
    exact follows_cons (List.mem_cons_of_mem _ List.mem_cons_self)

theorem newline_closing {c : Char} (hc : c ∈ [']','\x7d']) : Closing (S.newline n ++ c::r) := by
  apply L.newline_follows.mono
  intro d hd
  rcases List.mem_cons.1 hd with rfl | hd
  · exact List.mem_append_left ['\x0a'] hc
  · exact List.mem_append_right [']','\x7d'] hd

omit L in
theorem printItems_delimited {ts : List (JsonTree σ α)} (h : Closing r) :
    Delimited (S.printItems n ts ++ r) := by
  cases ts with
  | nil => exact h.delimited
  | cons t ts => exact follows_cons List.mem_cons_self

omit L in
theorem printMembers_delimited {ms : List (σ × JsonTree σ α)} (h : Closing r) :
    Delimited (S.printMembers n ms ++ r) := by
  cases ms with
  | nil => exact h.delimited
  | cons m ms => exact follows_cons List.mem_cons_self

/-- No value starts like the end of a list. -/
theorem print_head (t : JsonTree σ α) : ∃ c s, S.print n t = c::s ∧ c ∉ [']','\x7d','\x0a'] := by
  cases t with
  | leaf a =>
    obtain ⟨c,s,hs,hc⟩ := L.leaf_head a
    refine ⟨c,s,hs,fun hmem => hc ?_⟩
    revert hmem
    simp only [List.mem_cons]
    tauto
  | arr ts =>
    cases ts with
    | nil => exact ⟨'[',_,rfl,by decide⟩
    | cons t ts => exact ⟨'[',_,rfl,by decide⟩
  | obj ms =>
    cases ms with
    | nil => exact ⟨'\x7b',_,rfl,by decide⟩
    | cons m ms => exact ⟨'\x7b',_,rfl,by decide⟩

theorem leaf_ne_arr {a : α} {ts : List (JsonTree σ α)} : S.leaf a ++ r ≠ S.print n (.arr ts) ++ r' := by
  intro h
  obtain ⟨c,s,hs,hc⟩ := L.leaf_head a
  have hhead : c = '[' := by
    cases ts with
    | nil =>
      rw [hs,print] at h
      exact (List.cons.inj h).1
    | cons t ts =>
      rw [hs,print] at h
      exact (List.cons.inj h).1
  exact hc (by rw [hhead]; decide)

theorem leaf_ne_obj {a : α} {ms : List (σ × JsonTree σ α)} :
    S.leaf a ++ r ≠ S.print n (.obj ms) ++ r' := by
  intro h
  obtain ⟨c,s,hs,hc⟩ := L.leaf_head a
  have hhead : c = '\x7b' := by
    cases ms with
    | nil =>
      rw [hs,print] at h
      exact (List.cons.inj h).1
    | cons m ms =>
      rw [hs,print] at h
      exact (List.cons.inj h).1
  exact hc (by rw [hhead]; decide)

omit L in
theorem arr_ne_obj {ts : List (JsonTree σ α)} {ms : List (σ × JsonTree σ α)} :
    S.print n (.arr ts) ++ r ≠ S.print n (.obj ms) ++ r' := by
  cases ts <;> cases ms <;>
  · intro h
    rw [print,print] at h
    exact absurd (List.cons.inj h).1 (by decide)

theorem empty_ne_items {t : JsonTree σ α} {ts : List (JsonTree σ α)} :
    S.print n (.arr []) ++ r ≠ S.print n (.arr (t::ts)) ++ r' := by
  intro h
  obtain ⟨c,s,hs,hc⟩ := L.print_head (n:=n+2) t
  have hfollows := L.newline_follows (n:=n+2) (r:=s ++ (S.printItems (n+2) ts ++
    (S.newline n ++ ']' :: r'))) (c:=c)
  simp only [print,List.cons_append,List.append_assoc,List.cons.injEq,true_and,hs,
    List.nil_append] at h
  rw [← h] at hfollows
  have hmem := hfollows.mem
  simp only [List.mem_cons,List.not_mem_nil,or_false] at hmem hc
  tauto

theorem empty_ne_members {m : σ × JsonTree σ α} {ms : List (σ × JsonTree σ α)} :
    S.print n (.obj []) ++ r ≠ S.print n (.obj (m::ms)) ++ r' := by
  intro h
  obtain ⟨s,hs⟩ := L.quote_head m.1
  have hfollows := L.newline_follows (n:=n+2) (r:=s ++ (S.colon ++ (S.print (n+2) m.2 ++
    (S.printMembers (n+2) ms ++ (S.newline n ++ '\x7d' :: r'))))) (c := '\x22')
  simp only [print,List.cons_append,List.append_assoc,List.cons.injEq,true_and,hs,
    List.nil_append] at h
  rw [← h] at hfollows
  exact absurd hfollows.mem (by decide)

end Heads

mutual

/-- A printed value is told from what follows it. -/
theorem print_inj (L : S.Lawful) : ∀ (t u : JsonTree σ α) (n : ℕ) {r r' : Text}, Delimited r → Delimited r' →
    S.print n t ++ r = S.print n u ++ r' → t = u ∧ r = r'
  | .leaf a, .leaf b, n, _, _, hr, hr', h => by
    rw [print,print] at h
    obtain ⟨rfl,hrest⟩ := L.leaf_inj hr hr' h
    exact ⟨rfl,hrest⟩
  | .arr [], .arr [], n, _, _, hr, hr', h => by
    rw [print] at h
    exact ⟨rfl,List.append_cancel_left h⟩
  | .arr (t::ts), .arr (u::us), n, r, r', hr, hr', h => by
    have hclose := fun r => L.newline_closing (n:=n) (r:=r) (c := ']') (by decide)
    simp only [print,List.cons_append,List.append_assoc,List.cons.injEq,List.append_cancel_left_eq,
      true_and,List.nil_append] at h
    obtain ⟨rfl,hitems⟩ := print_inj L t u (n+2) (printItems_delimited (hclose r))
      (printItems_delimited (hclose r')) h
    obtain ⟨rfl,hrest⟩ := printItems_inj L ts us (n+2) (hclose r) (hclose r') hitems
    exact ⟨rfl,(List.cons.inj (List.append_cancel_left hrest)).2⟩
  | .obj [], .obj [], n, _, _, hr, hr', h => by
    rw [print] at h
    exact ⟨rfl,List.append_cancel_left h⟩
  | .obj ((k,t)::ms), .obj ((l,u)::ns), n, r, r', hr, hr', h => by
    have hclose := fun r => L.newline_closing (n:=n) (r:=r) (c := '\x7d') (by decide)
    simp only [print,List.cons_append,List.append_assoc,List.cons.injEq,List.append_cancel_left_eq,
      true_and,List.nil_append] at h
    obtain ⟨rfl,hvalue⟩ := L.quote_inj h
    obtain ⟨rfl,hmembers⟩ := print_inj L t u (n+2) (printMembers_delimited (hclose r))
      (printMembers_delimited (hclose r')) (List.append_cancel_left hvalue)
    obtain ⟨rfl,hrest⟩ := printMembers_inj L ms ns (n+2) (hclose r) (hclose r') hmembers
    exact ⟨rfl,(List.cons.inj (List.append_cancel_left hrest)).2⟩
  | .arr [], .arr (u::us), n, r, r', _, _, h => absurd h L.empty_ne_items
  | .arr (t::ts), .arr [], n, r, r', _, _, h => absurd h.symm L.empty_ne_items
  | .obj [], .obj (m::ms), n, r, r', _, _, h => absurd h L.empty_ne_members
  | .obj (m::ms), .obj [], n, r, r', _, _, h => absurd h.symm L.empty_ne_members
  | .leaf _, .arr _, _, _, _, _, _, h => absurd h L.leaf_ne_arr
  | .arr _, .leaf _, _, _, _, _, _, h => absurd h.symm L.leaf_ne_arr
  | .leaf _, .obj _, _, _, _, _, _, h => absurd h L.leaf_ne_obj
  | .obj _, .leaf _, _, _, _, _, _, h => absurd h.symm L.leaf_ne_obj
  | .arr _, .obj _, _, _, _, _, _, h => absurd h arr_ne_obj
  | .obj _, .arr _, _, _, _, _, _, h => absurd h.symm arr_ne_obj

theorem printItems_inj (L : S.Lawful) : ∀ (ts us : List (JsonTree σ α)) (n : ℕ) {r r' : Text},
    Closing r → Closing r' → S.printItems n ts ++ r = S.printItems n us ++ r' → ts = us ∧ r = r'
  | [], [], n, _, _, _, _, h => ⟨rfl,h⟩
  | t::ts, u::us, n, _, _, hr, hr', h => by
    simp only [printItems,List.cons_append,List.append_assoc,List.cons.injEq,
      List.append_cancel_left_eq,true_and] at h
    obtain ⟨rfl,hitems⟩ := print_inj L t u n (printItems_delimited hr) (printItems_delimited hr') h
    obtain ⟨rfl,hrest⟩ := printItems_inj L ts us n hr hr' hitems
    exact ⟨rfl,hrest⟩
  | [], _::_, n, _, _, hr, _, h => by
    rw [printItems,List.nil_append] at h
    rw [h] at hr
    exact absurd hr.mem (by decide)
  | _::_, [], n, _, _, _, hr', h => by
    rw [printItems_nil,List.nil_append] at h
    rw [← h] at hr'
    exact absurd hr'.mem (by decide)

theorem printMembers_inj (L : S.Lawful) : ∀ (ms ns : List (σ × JsonTree σ α)) (n : ℕ) {r r' : Text},
    Closing r → Closing r' → S.printMembers n ms ++ r = S.printMembers n ns ++ r' → ms = ns ∧ r = r'
  | [], [], n, _, _, _, _, h => ⟨rfl,h⟩
  | (k,t)::ms, (l,u)::ns, n, _, _, hr, hr', h => by
    simp only [printMembers,List.cons_append,List.append_assoc,List.cons.injEq,
      List.append_cancel_left_eq,true_and] at h
    obtain ⟨rfl,hvalue⟩ := L.quote_inj h
    obtain ⟨rfl,hmembers⟩ := print_inj L t u n (printMembers_delimited hr)
      (printMembers_delimited hr') (List.append_cancel_left hvalue)
    obtain ⟨rfl,hrest⟩ := printMembers_inj L ms ns n hr hr' hmembers
    exact ⟨rfl,hrest⟩
  | [], _::_, n, _, _, hr, _, h => by
    rw [printMembers,List.nil_append] at h
    rw [h] at hr
    exact absurd hr.mem (by decide)
  | _::_, [], n, _, _, _, hr', h => by
    rw [printMembers_nil,List.nil_append] at h
    rw [← h] at hr'
    exact absurd hr'.mem (by decide)

end

/-- Values of one text are equal. -/
theorem print_injective (L : S.Lawful) (n : ℕ) : Function.Injective (S.print n) := fun t u h =>
  (L.print_inj t u n follows_nil follows_nil (by rw [h])).1

end Lawful
end Style
end BpsProtocol
