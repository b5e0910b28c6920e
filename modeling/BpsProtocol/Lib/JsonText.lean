import BpsProtocol.Lib.JsonPrint

/-! Leaves and strings of JSON as text.
A string is a list of code points, quoted and escaped point by point; a number ends where no
character of a number follows. -/
namespace BpsProtocol
namespace JsonText

/-! ## Strings -/

/-- `\u` and four digits. -/
def hexEscape (n : ℕ) : Text := '\x5c' :: 'u' :: HexText.write 4 n

def isSurrogate (n : ℕ) : Bool := 55296 ≤ n && n < 57344

/-- One code point of a quoted string; a surrogate, which no text contains, is escaped. -/
def escape (n : ℕ) : Text :=
  if n = 34 then ['\x5c','\x22']
  else if n = 92 then ['\x5c','\x5c']
  else if n = 8 then ['\x5c','b']
  else if n = 9 then ['\x5c','t']
  else if n = 10 then ['\x5c','n']
  else if n = 12 then ['\x5c','f']
  else if n = 13 then ['\x5c','r']
  else if n < 32 then hexEscape n
  else if isSurrogate n then hexEscape n
  else [Char.ofNat n]

def quotePoints (points : List ℕ) : Text := '\x22' :: points.flatMap escape ++ ['\x22']

def unescape (c : Char) : ℕ :=
  if c = 'b' then 8
  else if c = 't' then 9
  else if c = 'n' then 10
  else if c = 'f' then 12
  else if c = 'r' then 13
  else c.toNat

/-- The first code point of a quoted text, and what follows it. -/
def readPoint : Text → ℕ × Text
  | [] => (0,[])
  | [c] => (c.toNat,[])
  | c::d::t =>
    if c ≠ '\x5c' then (c.toNat,d::t)
    else if d = 'u' then (HexText.value (t.take 4),t.drop 4)
    else (unescape d,t)

section Strings

variable {n : ℕ} {r r' : Text} {ps qs : List ℕ}

theorem readPoint_hexEscape (h : n < 65536) : readPoint (hexEscape n ++ r) = (n,r) := by
  have hlength := HexText.write_length 4 n
  rw [hexEscape,List.cons_append,List.cons_append,readPoint,if_neg (by decide),if_pos rfl,
    List.take_left' hlength,List.drop_left' hlength,HexText.value_write h]

theorem toNat_ofNat (h : n < 1114112) (hsurrogate : isSurrogate n = false) :
    (Char.ofNat n).toNat = n := by
  simp only [isSurrogate,Bool.and_eq_false_iff,decide_eq_false_iff_not] at hsurrogate
  have hvalid : n.isValidChar := by
    unfold Nat.isValidChar
    omega
  rw [Char.ofNat,dif_pos hvalid]
  exact UInt32.toNat_ofNatLT

theorem readPoint_char {c : Char} (h : c ≠ '\x5c') : readPoint (c::r) = (c.toNat,r) := by
  cases r with
  | nil => rfl
  | cons d r => rw [readPoint,if_pos h]

/-- A code point is read back. -/
theorem readPoint_escape (h : n < 1114112) : readPoint (escape n ++ r) = (n,r) := by
  unfold escape
  split_ifs with hquote hslash hb ht hn hf hr hcontrol hsurrogate
  · subst hquote; rfl
  · subst hslash; rfl
  · subst hb; rfl
  · subst ht; rfl
  · subst hn; rfl
  · subst hf; rfl
  · subst hr; rfl
  · exact readPoint_hexEscape (by omega)
  · simp only [isSurrogate,Bool.and_eq_true,decide_eq_true_eq] at hsurrogate
    exact readPoint_hexEscape (by omega)
  · have hnat := toNat_ofNat h (Bool.not_eq_true _ ▸ hsurrogate)
    rw [List.singleton_append,readPoint_char,hnat]
    intro hchar
    rw [hchar] at hnat
    exact hslash hnat.symm

/-- No escaped code point starts like the end of the string. -/
theorem escape_head (h : n < 1114112) : ∃ c t, escape n = c::t ∧ c ≠ '\x22' := by
  unfold escape
  split_ifs with hquote hslash hb ht hn hf hr hcontrol hsurrogate
  all_goals first
    | exact ⟨_,_,rfl,by decide⟩
    | skip
  have hnat := toNat_ofNat h (Bool.not_eq_true _ ▸ hsurrogate)
  refine ⟨_,_,rfl,fun hchar => hquote ?_⟩
  rw [hchar] at hnat
  exact hnat.symm

/-- A quoted string is told from what follows it. -/
theorem quotePoints_inj (hps : ∀ p ∈ ps, p < 1114112) (hqs : ∀ q ∈ qs, q < 1114112)
    (h : quotePoints ps ++ r = quotePoints qs ++ r') : ps = qs ∧ r = r' := by
  simp only [quotePoints,List.cons_append,List.append_assoc,List.cons.injEq,true_and,
    List.nil_append] at h
  induction ps generalizing qs with
  | nil =>
    cases qs with
    | nil => exact ⟨rfl,(List.cons.inj h).2⟩
    | cons q qs =>
      obtain ⟨c,t,ht,hc⟩ := escape_head (hqs q List.mem_cons_self)
      rw [List.flatMap_cons,ht] at h
      exact absurd (List.cons.inj h).1.symm hc
  | cons p ps ih =>
    have hp := hps p List.mem_cons_self
    cases qs with
    | nil =>
      obtain ⟨c,t,ht,hc⟩ := escape_head hp
      rw [List.flatMap_cons,ht] at h
      exact absurd (List.cons.inj h).1 hc
    | cons q qs =>
      rw [List.flatMap_cons,List.flatMap_cons,List.append_assoc,List.append_assoc] at h
      have hread := congrArg readPoint h
      rw [readPoint_escape hp,readPoint_escape (hqs q List.mem_cons_self)] at hread
      obtain ⟨hpoint,hrest⟩ := Prod.mk.inj hread
      obtain ⟨hpoints,hr⟩ := ih (fun p hp => hps p (List.mem_cons_of_mem _ hp))
        (fun q hq => hqs q (List.mem_cons_of_mem _ hq)) hrest
      exact ⟨by rw [hpoint,hpoints],hr⟩

end Strings

/-! ## Leaves -/

inductive Leaf (σ ν : Type)
  | null
  | bool (b : Bool)
  | num (n : ν)
  | str (s : σ)
  deriving DecidableEq

section Leaves

variable {σ ν : Type} {quoted : σ → Text} {number : ν → Text}

def leafText (quoted : σ → Text) (number : ν → Text) : Leaf σ ν → Text
  | .null => "null".toList
  | .bool b => (if b then "true" else "false").toList
  | .num n => number n
  | .str s => quoted s

/-- The first character of a leaf that is not a number. -/
def leafHead : Leaf σ ν → Option Char
  | .null => some 'n'
  | .bool b => some (if b then 't' else 'f')
  | .num _ => none
  | .str _ => some '\x22'

theorem leafHead_mem {a : Leaf σ ν} {c : Char} (h : leafHead a = some c) :
    c ∈ ['n','t','f','\x22'] := by
  cases a with
  | null =>
    obtain rfl := Option.some.inj h
    decide
  | bool b =>
    obtain rfl := Option.some.inj h
    cases b <;> decide
  | num n => cases h
  | str s =>
    obtain rfl := Option.some.inj h
    decide

/-- Characters up to the first one of another kind. -/
theorem append_inj_of_chars {p : Char → Bool} {a b r r' : Text} (ha : ∀ c ∈ a, p c = true)
    (hb : ∀ c ∈ b, p c = true) (hr : ∀ c ∈ r.head?, p c = false) (hr' : ∀ c ∈ r'.head?, p c = false)
    (h : a ++ r = b ++ r') : a = b ∧ r = r' := by
  have hstop : ∀ {r : Text}, (∀ c ∈ r.head?, p c = false) → r.takeWhile p = [] := by
    intro r hr
    cases r with
    | nil => rfl
    | cons c r => rw [List.takeWhile_cons_of_neg (by simp [hr c rfl])]
  have htake := congrArg (List.takeWhile p) h
  rw [List.takeWhile_append_of_pos ha,List.takeWhile_append_of_pos hb,hstop hr,hstop hr',
    List.append_nil,List.append_nil] at htake
  subst htake
  exact ⟨rfl,List.append_cancel_left h⟩

/-- The characters that no number has. -/
def others : Text := ['n','t','f','\x22','[',']','\x7b','\x7d',',','\x0a']

theorem delimiters_subset : ∀ {c}, c ∈ [',',']','\x7d','\x0a'] → c ∈ others := by
  simp [others]

theorem brackets_subset : ∀ {c}, c ∈ ['[',']','\x7b','\x7d','\x0a'] → c ∈ others := by
  simp [others]

theorem heads_not_brackets : ∀ c ∈ ['n','t','f','\x22'], c ∉ ['[',']','\x7b','\x7d','\x0a'] := by
  simp

/-- What tells strings and numbers from the rest of a text. -/
structure Lexemes (quoted : σ → Text) (number : ν → Text) (isNumeric : Char → Bool) : Prop where
  quoted_head : ∀ s, ∃ t, quoted s = '\x22' :: t
  quoted_inj : ∀ {s s' : σ} {r r' : Text}, quoted s ++ r = quoted s' ++ r' → s = s' ∧ r = r'
  number_ne_nil : ∀ n, number n ≠ []
  number_chars : ∀ n, ∀ c ∈ number n, isNumeric c = true
  number_injective : Function.Injective number
  not_numeric : ∀ c ∈ others, isNumeric c = false

/-- Leaves, and the given line breaks and colon. -/
def style (quoted : σ → Text) (number : ν → Text) (newline : ℕ → Text) (colon : Text) :
    Style σ (Leaf σ ν) :=
  { leaf := leafText quoted number,quote := quoted,newline,colon }

namespace Lexemes

variable {isNumeric : Char → Bool} (L : Lexemes quoted number isNumeric)

include L

theorem number_head (n : ν) : ∃ c t, number n = c::t ∧ isNumeric c = true := by
  obtain ⟨c,t,ht⟩ := List.exists_cons_of_ne_nil (L.number_ne_nil n)
  exact ⟨c,t,ht,L.number_chars n c (by rw [ht]; exact List.mem_cons_self)⟩

/-- The first character tells the kind of the leaf. -/
theorem leafText_head (a : Leaf σ ν) : ∃ c t, leafText quoted number a = c::t ∧
    leafHead a = if isNumeric c then none else some c := by
  cases a with
  | null => exact ⟨'n',_,rfl,by rw [L.not_numeric 'n' (by decide)]; rfl⟩
  | bool b =>
    cases b with
    | false => exact ⟨'f',_,rfl,by rw [L.not_numeric 'f' (by decide)]; rfl⟩
    | true => exact ⟨'t',_,rfl,by rw [L.not_numeric 't' (by decide)]; rfl⟩
  | num n =>
    obtain ⟨c,t,ht,hc⟩ := L.number_head n
    exact ⟨c,t,ht,by rw [hc]; rfl⟩
  | str s =>
    obtain ⟨t,ht⟩ := L.quoted_head s
    exact ⟨_,t,ht,by rw [L.not_numeric _ (by decide)]; rfl⟩

theorem leafHead_eq {a b : Leaf σ ν} {r r' : Text}
    (h : leafText quoted number a ++ r = leafText quoted number b ++ r') : leafHead a = leafHead b := by
  obtain ⟨c,t,ht,hc⟩ := L.leafText_head a
  obtain ⟨d,u,hu,hd⟩ := L.leafText_head b
  rw [ht,hu] at h
  rw [hc,hd,(List.cons.inj h).1]

theorem not_numeric_of_delimited {r : Text} (h : Style.Delimited r) :
    ∀ c ∈ r.head?, isNumeric c = false := fun c hc =>
  L.not_numeric c (delimiters_subset (h c hc))

theorem leafText_inj {a b : Leaf σ ν} {r r' : Text} (hr : Style.Delimited r)
    (hr' : Style.Delimited r')
    (h : leafText quoted number a ++ r = leafText quoted number b ++ r') : a = b ∧ r = r' := by
  have hhead := L.leafHead_eq h
  cases a <;> cases b <;> simp only [leafHead,Option.some.injEq,reduceCtorEq] at hhead
  case null.null => exact ⟨rfl,List.append_cancel_left h⟩
  case bool.bool b b' =>
    obtain rfl : b = b' := by
      revert hhead
      cases b <;> cases b' <;> decide
    exact ⟨rfl,List.append_cancel_left h⟩
  case num.num n m =>
    obtain ⟨htext,hrest⟩ := append_inj_of_chars (L.number_chars n) (L.number_chars m)
      (L.not_numeric_of_delimited hr) (L.not_numeric_of_delimited hr') h
    rw [L.number_injective htext]
    exact ⟨rfl,hrest⟩
  case str.str s s' =>
    obtain ⟨rfl,hrest⟩ := L.quoted_inj h
    exact ⟨rfl,hrest⟩
  all_goals exact absurd hhead (by first | decide | (split <;> decide))

theorem lawful {newline : ℕ → Text} {colon : Text}
    (hnewline : ∀ n, newline n = [] ∨ ∃ t, newline n = '\x0a' :: t) :
    (style quoted number newline colon).Lawful where
  leaf_head := fun a => by
    obtain ⟨c,t,ht,hc⟩ := L.leafText_head a
    refine ⟨c,t,ht,fun hmem => ?_⟩
    rw [L.not_numeric c (brackets_subset hmem)] at hc
    exact heads_not_brackets c (leafHead_mem hc) hmem
  leaf_inj := L.leafText_inj
  quote_head := L.quoted_head
  quote_inj := L.quoted_inj
  newline_cases := hnewline

end Lexemes

end Leaves

end JsonText
end BpsProtocol
