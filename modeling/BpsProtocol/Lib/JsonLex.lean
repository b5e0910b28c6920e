import BpsProtocol.Lib.JsonSyntax

/-! The tokens of a JSON text.
Each reader takes what it reads off the front of a text.  What it has read is what was written
there, and it reads all that was written, where the text does not go on with more of it. -/
namespace BpsProtocol
namespace JsonParse
open Utf16 JsonText JsonTree JsonSyntax

/-! ## Digits -/

def digitOf (u : CodeUnit) : Option (Fin 10) :=
  if h : 48 ≤ u.val ∧ u.val < 58 then some ⟨u.val-48,by omega⟩ else none

/-- The digits a text starts with, and what follows them. -/
def readDigits : JsString → Digits × JsString
  | [] => ([],[])
  | u::s =>
    match digitOf u with
    | some d => (d::(readDigits s).1,(readDigits s).2)
    | none => ([],u::s)

/-- The text does not go on with a unit of this kind. -/
def Ends (p : CodeUnit → Bool) (r : JsString) : Prop := ∀ u ∈ r.head?, p u = false

def isDigit (u : CodeUnit) : Bool := (digitOf u).isSome

section Digits

variable {u : CodeUnit} {r s : JsString} {ds : Digits}

theorem digitOf_unit (d : Fin 10) : digitOf (unit (Nat.digitChar d.val)) = some d := by
  revert d
  decide

theorem unit_digitChar (d : Fin 10) : (unit (Nat.digitChar d.val)).val = 48+d.val := by
  revert d
  decide

theorem unit_digitOf {d : Fin 10} (h : digitOf u = some d) : unit (Nat.digitChar d.val) = u := by
  unfold digitOf at h
  split at h
  · rename_i hu
    obtain rfl := Option.some.inj h
    apply Fin.ext
    rw [unit_digitChar]
    simp only
    omega
  · cases h

theorem readDigits_sound (s : JsString) : (readDigits s).1.text ++ (readDigits s).2 = s := by
  induction s with
  | nil => rfl
  | cons u s ih =>
    rw [readDigits]
    cases hu : digitOf u with
    | none => rfl
    | some d =>
      simp only [Digits.text,List.map_cons,List.cons_append] at ih ⊢
      rw [unit_digitOf hu,ih]

theorem readDigits_complete (ds : Digits) (hr : Ends isDigit r) :
    readDigits (ds.text ++ r) = (ds,r) := by
  induction ds with
  | nil =>
    cases r with
    | nil => rfl
    | cons u r =>
      have hu := hr u rfl
      rw [isDigit,Option.isSome_eq_false_iff,Option.isNone_iff_eq_none] at hu
      simp only [Digits.text,List.map_nil,List.nil_append,readDigits,hu]
  | cons d ds ih =>
    simp only [Digits.text,List.map_cons,List.cons_append] at ih ⊢
    rw [readDigits,digitOf_unit,ih]

end Digits

/-! ## Numbers -/

/-- What may follow a digit in a number. -/
def isNumeric (u : CodeUnit) : Bool :=
  isDigit u || u = unit '.' || u = unit 'e' || u = unit 'E'

/-- The digits behind a point, where there is one. -/
def readFraction : JsString → Option (Digits × JsString)
  | [] => some ([],[])
  | u::s =>
    if u = unit '.' then
      if (readDigits s).1 = [] then none else some (readDigits s)
    else some ([],u::s)

def readSign : JsString → Option Bool × JsString
  | [] => (none,[])
  | u::s =>
    if u = unit '+' then (some false,s)
    else if u = unit '-' then (some true,s)
    else (none,u::s)

def readExponent : JsString → Option (Option Exponent × JsString)
  | [] => some (none,[])
  | u::s =>
    if u = unit 'e' ∨ u = unit 'E' then
      if h : (readDigits (readSign s).2).1 ≠ [] then
        some (some ⟨u = unit 'E',(readSign s).1,_,h⟩,(readDigits (readSign s).2).2)
      else none
    else some (none,u::s)

def readMinus : JsString → Bool × JsString
  | [] => (false,[])
  | u::s => if u = unit '-' then (true,s) else (false,u::s)

def readNumber (s : JsString) : Option (NumberLit × JsString) :=
  let (minus,s) := readMinus s
  let (whole,s) := readDigits s
  if h : whole ≠ [] ∧ (whole.head? = some 0 → whole = [0]) then
    (readFraction s).bind fun (fraction,s) =>
      (readExponent s).map fun (exponent,s) => (⟨minus,whole,fraction,exponent,h.1,h.2⟩,s)
  else none

def fractionText (fraction : Digits) : JsString :=
  if fraction = [] then [] else unit '.' :: fraction.text

def exponentText (exponent : Option Exponent) : JsString := (exponent.map Exponent.text).getD []

section Numbers

variable {r s : JsString}

theorem readFraction_sound {fraction : Digits} (h : readFraction s = some (fraction,r)) :
    s = fractionText fraction ++ r := by
  cases s with
  | nil =>
    cases h
    rfl
  | cons u s =>
    rw [readFraction] at h
    split at h
    · rename_i hu
      split at h
      · cases h
      · rename_i hne
        have hdigits := readDigits_sound s
        rw [Option.some.inj h] at hdigits hne
        rw [fractionText,if_neg hne,hu,List.cons_append,hdigits]
    · cases h
      rfl

theorem readSign_sound (s : JsString) :
    Exponent.signText (readSign s).1 ++ (readSign s).2 = s := by
  cases s with
  | nil => rfl
  | cons u s =>
    rw [readSign]
    split
    · rename_i hu
      rw [hu]
      rfl
    · split
      · rename_i hu
        rw [hu]
        rfl
      · rfl

theorem readExponent_sound {exponent : Option Exponent} (h : readExponent s = some (exponent,r)) :
    s = exponentText exponent ++ r := by
  cases s with
  | nil =>
    cases h
    rfl
  | cons u s =>
    rw [readExponent] at h
    split at h
    · rename_i hu
      split at h
      · have hs := readSign_sound s
        have hdigits := readDigits_sound (readSign s).2
        cases h
        have hletter : unit (if decide (u = unit 'E') = true then 'E' else 'e') = u := by
          obtain rfl | rfl := hu <;> rfl
        rw [exponentText,Option.map_some,Option.getD_some,Exponent.text,hletter,
          List.cons_append,List.cons_append,List.append_assoc,hdigits,hs]
      · cases h
    · cases h
      rfl

theorem readMinus_sound (s : JsString) :
    (if (readMinus s).1 then [unit '-'] else []) ++ (readMinus s).2 = s := by
  cases s with
  | nil => rfl
  | cons u s =>
    rw [readMinus]
    split
    · rename_i hu
      rw [hu]
      rfl
    · rfl

theorem readNumber_sound {n : NumberLit} (h : readNumber s = some (n,r)) : s = n.text ++ r := by
  simp only [readNumber] at h
  split at h
  · obtain ⟨x,hfraction,h⟩ := Option.bind_eq_some_iff.1 h
    obtain ⟨y,hexponent,h⟩ := Option.map_eq_some_iff.1 h
    obtain ⟨rfl,rfl⟩ := Prod.mk.inj h
    have hminus := readMinus_sound s
    have hwhole := readDigits_sound (readMinus s).2
    have hs := readFraction_sound hfraction
    have hr := readExponent_sound hexponent
    simp only [NumberLit.text,List.append_assoc]
    rw [← exponentText,← hr,← fractionText,← hs,hwhole,hminus]
  · cases h

theorem Ends.mono {p q : CodeUnit → Bool} (h : Ends p r) (hpq : ∀ u, p u = false → q u = false) :
    Ends q r := fun u hu => hpq u (h u hu)

theorem Ends.cons {p : CodeUnit → Bool} {u : CodeUnit} (h : p u = false) : Ends p (u::s) := by
  rintro v hv
  obtain rfl := Option.some.inj hv
  exact h

theorem Ends.isDigit (h : Ends isNumeric r) : Ends isDigit r :=
  h.mono fun u hu => by
    simp only [isNumeric,Bool.or_eq_false_iff] at hu
    exact hu.1.1.1

theorem Ends.ne {p : CodeUnit → Bool} {u v : CodeUnit} (h : Ends p (u::s)) (hv : p v = true) :
    u ≠ v := by
  rintro rfl
  rw [h u rfl] at hv
  cases hv

theorem readSign_complete (sign : Option Bool) (d : Fin 10) :
    readSign (Exponent.signText sign ++ unit (Nat.digitChar d.val) :: s) =
      (sign,unit (Nat.digitChar d.val) :: s) := by
  cases sign with
  | none =>
    have hplus : unit (Nat.digitChar d.val) ≠ unit '+' := by
      revert d
      decide
    have hminus : unit (Nat.digitChar d.val) ≠ unit '-' := by
      revert d
      decide
    rw [Exponent.signText,List.nil_append,readSign,if_neg hplus,if_neg hminus]
  | some negative => cases negative <;> rfl

theorem readExponent_complete (exponent : Option Exponent) (hr : Ends isNumeric r) :
    readExponent (exponentText exponent ++ r) = some (exponent,r) := by
  cases exponent with
  | none =>
    cases r with
    | nil => rfl
    | cons u r =>
      have he : ¬(u = unit 'e' ∨ u = unit 'E') := by
        rintro (rfl | rfl)
        · exact hr.ne (by decide) rfl
        · exact hr.ne (by decide) rfl
      rw [exponentText,Option.map_none,Option.getD_none,List.nil_append,readExponent,if_neg he]
  | some e =>
    obtain ⟨letter,sign,digits,hdigits⟩ := e
    have hletter : unit (if letter then 'E' else 'e') = unit 'e' ∨
        unit (if letter then 'E' else 'e') = unit 'E' := by
      cases letter <;> decide
    have hupper : decide (unit (if letter then 'E' else 'e') = unit 'E') = letter := by
      cases letter <;> decide
    have hsign : readSign (Exponent.signText sign ++ (digits.text ++ r)) =
        (sign,digits.text ++ r) := by
      cases digits with
      | nil => exact absurd rfl hdigits
      | cons d ds => exact readSign_complete sign d
    have hread := readDigits_complete digits hr.isDigit
    rw [exponentText,Option.map_some,Option.getD_some,Exponent.text,List.cons_append,
      List.cons_append,List.append_assoc,readExponent,if_pos hletter]
    simp only [hsign,hread,hupper,dif_pos hdigits]

theorem readFraction_complete (fraction : Digits) (hr : Ends isDigit r)
    (hpoint : ∀ u ∈ r.head?, u ≠ unit '.') :
    readFraction (fractionText fraction ++ r) = some (fraction,r) := by
  by_cases hnil : fraction = []
  · rw [fractionText,if_pos hnil,hnil,List.nil_append]
    cases r with
    | nil => rfl
    | cons u r => rw [readFraction,if_neg (hpoint u rfl)]
  · rw [fractionText,if_neg hnil,List.cons_append,readFraction,if_pos rfl,
      readDigits_complete fraction hr,if_neg hnil]

theorem ends_exponentText {p : CodeUnit → Bool} (exponent : Option Exponent) (hr : Ends p r)
    (he : p (unit 'e') = false) (hE : p (unit 'E') = false) :
    Ends p (exponentText exponent ++ r) := by
  cases exponent with
  | none => exact hr
  | some e =>
    obtain ⟨letter,sign,digits,hdigits⟩ := e
    cases letter
    · exact Ends.cons he
    · exact Ends.cons hE

theorem readMinus_complete (minus : Bool) (d : Fin 10) :
    readMinus ((if minus then [unit '-'] else []) ++ unit (Nat.digitChar d.val) :: s) =
      (minus,unit (Nat.digitChar d.val) :: s) := by
  cases minus with
  | false =>
    have hminus : unit (Nat.digitChar d.val) ≠ unit '-' := by
      revert d
      decide
    simp only [Bool.false_eq_true,if_false,List.nil_append,readMinus,hminus]
  | true => rfl

theorem readNumber_complete (n : NumberLit) (hr : Ends isNumeric r) :
    readNumber (n.text ++ r) = some (n,r) := by
  obtain ⟨minus,whole,fraction,exponent,hwhole,hzero⟩ := n
  have hexponent := readExponent_complete exponent hr
  have hdot : Ends (fun u => decide (u = unit '.')) (exponentText exponent ++ r) :=
    ends_exponentText exponent (hr.mono fun u hu => by
      simp only [isNumeric,Bool.or_eq_false_iff] at hu
      exact hu.1.1.2) (by decide) (by decide)
  have hfraction := readFraction_complete fraction
    (ends_exponentText exponent hr.isDigit (by decide) (by decide))
    (fun u hu => of_decide_eq_false (hdot u hu))
  have hdigit : Ends isDigit (fractionText fraction ++ (exponentText exponent ++ r)) := by
    by_cases hnil : fraction = []
    · rw [fractionText,if_pos hnil,List.nil_append]
      exact ends_exponentText exponent hr.isDigit (by decide) (by decide)
    · rw [fractionText,if_neg hnil]
      exact Ends.cons (by decide)
  have hdigits := readDigits_complete whole hdigit
  have hminus : readMinus ((if minus then [unit '-'] else []) ++
      (whole.text ++ (fractionText fraction ++ (exponentText exponent ++ r)))) =
        (minus,whole.text ++ (fractionText fraction ++ (exponentText exponent ++ r))) := by
    cases whole with
    | nil => exact absurd rfl hwhole
    | cons d ds => exact readMinus_complete minus d
  have htext : NumberLit.text ⟨minus,whole,fraction,exponent,hwhole,hzero⟩ ++ r =
      (if minus then [unit '-'] else []) ++
        (whole.text ++ (fractionText fraction ++ (exponentText exponent ++ r))) := by
    simp only [NumberLit.text,fractionText,exponentText,List.append_assoc]
  rw [htext]
  simp only [readNumber,hminus,hdigits,hfraction,hexponent,Option.bind_some,Option.map_some]
  rw [dif_pos ⟨hwhole,hzero⟩]

end Numbers

/-! ## Strings -/

def escapes : List Escape :=
  [.quote,.backslash,.slash,.backspace,.formFeed,.newline,.carriageReturn,.tab]

def escapeOf (u : CodeUnit) : Option Escape := escapes.find? (fun e => e.letter = u)

def hexOf (u : CodeUnit) : Option {u : CodeUnit // isHex u = true} :=
  if h : isHex u = true then some ⟨u,h⟩ else none

def readHex : JsString → Option (Piece × JsString)
  | a::b::c::d::s => do
    let a ← hexOf a
    let b ← hexOf b
    let c ← hexOf c
    let d ← hexOf d
    return (.unicode a b c d,s)
  | _ => none

/-- What is written behind a backslash. -/
def readEscape : JsString → Option (Piece × JsString)
  | [] => none
  | u::s => if u = unit 'u' then readHex s else (escapeOf u).map fun e => (.escape e,s)

def readPiece : JsString → Option (Piece × JsString)
  | [] => none
  | u::s =>
    if u = unit '\x5c' then readEscape s
    else if h : isPlain u = true then some (.plain ⟨u,h⟩,s)
    else none

/-- The pieces up to the closing quote, and what follows it. -/
def readPieces : ℕ → JsString → Option (StringLit × JsString)
  | 0, _ => none
  | n+1, s =>
    if s.head? = some (unit '\x22') then some ([],s.tail)
    else (readPiece s).bind fun (p,s) => (readPieces n s).map fun (ps,s) => (p::ps,s)

section Strings

variable {u : CodeUnit} {r s : JsString} {ps : StringLit}

theorem letter_escapeOf {e : Escape} (h : escapeOf u = some e) : e.letter = u := by
  have hsome := List.find?_some h
  exact of_decide_eq_true hsome

theorem escapeOf_letter (e : Escape) : escapeOf e.letter = some e := by
  cases e <;> decide

theorem hexOf_val (a : {u : CodeUnit // isHex u = true}) : hexOf a.val = some a := by
  rw [hexOf,dif_pos a.property]

theorem val_hexOf {a : {u : CodeUnit // isHex u = true}} (h : hexOf u = some a) : a.val = u := by
  unfold hexOf at h
  split at h
  · exact congrArg Subtype.val (Option.some.inj h).symm
  · cases h

theorem readHex_sound {p : Piece} (h : readHex s = some (p,r)) :
    unit '\x5c' :: unit 'u' :: s = p.text ++ r := by
  match s, h with
  | a::b::c::d::s, h =>
    simp only [readHex,Option.bind_eq_bind,Option.bind_eq_some_iff] at h
    obtain ⟨a',ha,b',hb,c',hc,d',hd,h⟩ := h
    cases h
    rw [Piece.text,val_hexOf ha,val_hexOf hb,val_hexOf hc,val_hexOf hd]
    rfl

theorem readPiece_sound {p : Piece} (h : readPiece s = some (p,r)) : s = p.text ++ r := by
  cases s with
  | nil => cases h
  | cons u s =>
    rw [readPiece] at h
    split at h
    · rename_i hu
      subst hu
      cases s with
      | nil => cases h
      | cons v s =>
        rw [readEscape] at h
        split at h
        · rename_i hv
          rw [hv]
          exact readHex_sound h
        · obtain ⟨e,he,h⟩ := Option.map_eq_some_iff.1 h
          cases h
          rw [Piece.text,letter_escapeOf he]
          rfl
    · split at h
      · cases h
        rfl
      · cases h

theorem readPieces_sound {n : ℕ} (h : readPieces n s = some (ps,r)) :
    s = ps.flatMap Piece.text ++ unit '\x22' :: r := by
  induction n generalizing s ps with
  | zero => cases h
  | succ n ih =>
    rw [readPieces] at h
    split at h
    · rename_i hquote
      cases s with
      | nil => cases hquote
      | cons u s =>
        cases h
        rw [Option.some.inj hquote]
        rfl
    · obtain ⟨x,hpiece,h⟩ := Option.bind_eq_some_iff.1 h
      obtain ⟨y,hpieces,h⟩ := Option.map_eq_some_iff.1 h
      cases h
      rw [readPiece_sound hpiece,ih hpieces,List.flatMap_cons,List.append_assoc]

theorem readPiece_complete (p : Piece) : readPiece (p.text ++ r) = some (p,r) := by
  cases p with
  | plain u =>
    have hu := u.property
    simp only [isPlain,Bool.and_eq_true,decide_eq_true_eq] at hu
    rw [Piece.text,List.singleton_append,readPiece,if_neg hu.2,dif_pos u.property]
  | escape e =>
    have hletter : e.letter ≠ unit 'u' := by cases e <;> decide
    rw [Piece.text,List.cons_append,List.singleton_append,readPiece,if_pos rfl,readEscape,
      if_neg hletter,escapeOf_letter]
    rfl
  | unicode a b c d =>
    simp only [Piece.text,List.cons_append,List.nil_append,readPiece,if_true,readEscape,readHex,
      hexOf_val,Option.bind_eq_bind,Option.bind_some]
    rfl

theorem head_text (p : Piece) : (p.text ++ r).head? ≠ some (unit '\x22') := by
  cases p with
  | plain u =>
    have hu := u.property
    simp only [isPlain,Bool.and_eq_true,decide_eq_true_eq] at hu
    exact fun heq => hu.1.2 (Option.some.inj heq)
  | escape e => exact fun heq => absurd (Option.some.inj heq) (by decide)
  | unicode a b c d => exact fun heq => absurd (Option.some.inj heq) (by decide)

theorem readPieces_complete {n : ℕ} (hn : ps.length < n) :
    readPieces n (ps.flatMap Piece.text ++ unit '\x22' :: r) = some (ps,r) := by
  induction ps generalizing n with
  | nil =>
    cases n with
    | zero => cases hn
    | succ n => rfl
  | cons p ps ih =>
    cases n with
    | zero => cases hn
    | succ n =>
      rw [List.flatMap_cons,List.append_assoc,readPieces,if_neg (head_text p),
        readPiece_complete,Option.bind_some]
      simp only [ih (Nat.lt_of_succ_lt_succ hn),Option.map_some]

theorem length_le_flatMap (ps : StringLit) : ps.length ≤ (ps.flatMap Piece.text).length := by
  induction ps with
  | nil => exact Nat.le_refl _
  | cons p ps ih =>
    have hp : 1 ≤ p.text.length := by
      cases p <;> simp [Piece.text]
    rw [List.flatMap_cons,List.length_append,List.length_cons]
    omega

end Strings

/-! ## Tokens -/

def punctuation : List Token := [.openArray,.closeArray,.openObject,.closeObject,.colon,.comma]

def words : List Scalar := [.null,.bool true,.bool false]

/-- The rest behind a word. -/
def dropWord (w s : JsString) : Option JsString :=
  if s.take w.length = w then some (s.drop w.length) else none

def readWord (s : JsString) : Option (Scalar × JsString) :=
  words.findSome? fun a => (dropWord (scalarText a) s).map fun r => (a,r)

def readToken : JsString → Option (Token × JsString)
  | [] => none
  | u::s =>
    match punctuation.find? (fun k => k.text = [u]) with
    | some k => some (k,s)
    | none =>
      if u = unit '\x22' then
        (readPieces s.length s).map fun (ps,s) => (.scalar (.str ps),s)
      else
        match readWord (u::s) with
        | some (a,s) => some (.scalar a,s)
        | none => (readNumber (u::s)).map fun (n,s) => (.scalar (.num n),s)

/-- All tokens of a text. -/
def lex : ℕ → JsString → Option (List Token)
  | 0, s => if s.dropWhile isSpace = [] then some [] else none
  | n+1, s =>
    if s.dropWhile isSpace = [] then some []
    else (readToken (s.dropWhile isSpace)).bind fun (k,s) => (lex n s).map (k::·)

section Tokens

variable {r s : JsString} {a : Scalar} {k : Token} {ks : List Token}

theorem dropWord_sound {w : JsString} (h : dropWord w s = some r) : s = w ++ r := by
  unfold dropWord at h
  split at h
  · rename_i htake
    have hs := List.take_append_drop w.length s
    rw [htake,Option.some.inj h] at hs
    exact hs.symm
  · cases h

theorem readWord_sound (h : readWord s = some (a,r)) : s = scalarText a ++ r := by
  obtain ⟨b,-,hb⟩ := List.exists_of_findSome?_eq_some h
  obtain ⟨x,hx,heq⟩ := Option.map_eq_some_iff.1 hb
  cases heq
  exact dropWord_sound hx

theorem readToken_sound (h : readToken s = some (k,r)) : s = k.text ++ r := by
  cases s with
  | nil => cases h
  | cons u s =>
    rw [readToken] at h
    split at h
    · rename_i k' hk
      cases h
      have hsome := List.find?_some hk
      rw [of_decide_eq_true hsome]
      rfl
    · split at h
      · rename_i hu
        obtain ⟨x,hx,heq⟩ := Option.map_eq_some_iff.1 h
        cases heq
        rw [readPieces_sound hx,hu]
        simp [Token.text,scalarText,StringLit.text]
      · split at h
        · rename_i hword
          cases h
          exact readWord_sound hword
        · obtain ⟨x,hx,heq⟩ := Option.map_eq_some_iff.1 h
          cases heq
          exact readNumber_sound hx

theorem lex_sound {n : ℕ} (h : lex n s = some ks) : Spells s ks := by
  have hspace : ∀ s : JsString, ∀ u ∈ s.takeWhile isSpace, isSpace u = true :=
    fun s => List.all_eq_true.1 (List.all_takeWhile)
  induction n generalizing s ks with
  | zero =>
    rw [lex] at h
    split at h
    · rename_i hnil
      cases h
      rw [← List.takeWhile_append_dropWhile (p := isSpace) (l := s),hnil,List.append_nil]
      exact .nil (hspace s)
    · cases h
  | succ n ih =>
    rw [lex] at h
    split at h
    · rename_i hnil
      cases h
      rw [← List.takeWhile_append_dropWhile (p := isSpace) (l := s),hnil,List.append_nil]
      exact .nil (hspace s)
    · obtain ⟨x,hx,h⟩ := Option.bind_eq_some_iff.1 h
      obtain ⟨ks',hks,rfl⟩ := Option.map_eq_some_iff.1 h
      rw [← List.takeWhile_append_dropWhile (p := isSpace) (l := s),readToken_sound hx,
        ← List.append_assoc]
      exact .cons (hspace s) (ih hks)

/-- A number starts with a digit or a minus sign. -/
theorem number_head (n : NumberLit) : ∃ u t, n.text = u::t ∧
    (u = unit '-' ∨ ∃ d : Fin 10, u = unit (Nat.digitChar d.val)) := by
  obtain ⟨minus,whole,fraction,exponent,hwhole,hzero⟩ := n
  cases minus with
  | true => exact ⟨_,_,rfl,Or.inl rfl⟩
  | false =>
    cases whole with
    | nil => exact absurd rfl hwhole
    | cons d ds => exact ⟨_,_,rfl,Or.inr ⟨d,rfl⟩⟩

theorem number_head_plain {u : CodeUnit}
    (h : u = unit '-' ∨ ∃ d : Fin 10, u = unit (Nat.digitChar d.val)) :
    punctuation.find? (fun k => k.text = [u]) = none ∧ u ≠ unit '\x22' ∧ isSpace u = false ∧
      ∀ s, readWord (u::s) = none := by
  have hall : ∀ u : CodeUnit, punctuation.find? (fun k => k.text = [u]) = none →
      u ≠ unit '\x22' → isSpace u = false → u ≠ unit 'n' → u ≠ unit 't' → u ≠ unit 'f' →
        punctuation.find? (fun k => k.text = [u]) = none ∧ u ≠ unit '\x22' ∧
          isSpace u = false ∧ ∀ s, readWord (u::s) = none := by
    intro u hpunctuation hquote hspace hn ht hf
    refine ⟨hpunctuation,hquote,hspace,fun s => ?_⟩
    have hnull : dropWord (lit "null") (u::s) = none :=
      if_neg fun heq => hn (List.cons.inj heq).1
    have htrue : dropWord (lit "true") (u::s) = none :=
      if_neg fun heq => ht (List.cons.inj heq).1
    have hfalse : dropWord (lit "false") (u::s) = none :=
      if_neg fun heq => hf (List.cons.inj heq).1
    simp only [readWord,words,List.findSome?_cons,scalarText,if_true,Bool.false_eq_true,if_false,
      hnull,htrue,hfalse,Option.map_none,List.findSome?_nil]
  obtain rfl | ⟨d,rfl⟩ := h
  · exact hall _ (by decide) (by decide) (by decide) (by decide) (by decide) (by decide)
  · exact hall _ (by revert d; decide) (by revert d; decide) (by revert d; decide)
      (by revert d; decide) (by revert d; decide) (by revert d; decide)

theorem readToken_complete (k : Token) (hr : ∀ n, k = .scalar (.num n) → Ends isNumeric r) :
    readToken (k.text ++ r) = some (k,r) := by
  cases k with
  | openArray => rfl
  | closeArray => rfl
  | openObject => rfl
  | closeObject => rfl
  | colon => rfl
  | comma => rfl
  | scalar a =>
    cases a with
    | null => rfl
    | bool b => cases b <;> rfl
    | num n =>
      obtain ⟨u,t,htext,hu⟩ := number_head n
      obtain ⟨hpunctuation,hquote,-,hword⟩ := number_head_plain hu
      have hread := readNumber_complete n (hr n rfl)
      rw [htext,List.cons_append] at hread
      rw [Token.text,scalarText,htext,List.cons_append,readToken]
      simp only [hpunctuation,if_neg hquote,hword,hread,Option.map_some]
    | str ps =>
      have hpunctuation : punctuation.find? (fun k => k.text = [unit '\x22']) = none := by decide
      have hlength := length_le_flatMap ps
      have hread : readPieces (ps.flatMap Piece.text ++ unit '\x22' :: r).length
          (ps.flatMap Piece.text ++ unit '\x22' :: r) = some (ps,r) :=
        readPieces_complete (by rw [List.length_append,List.length_cons]; omega)
      rw [Token.text,scalarText,StringLit.text,List.cons_append,List.cons_append,
        List.append_assoc,List.singleton_append,readToken]
      simp only [hpunctuation,if_true,hread,Option.map_some]

theorem text_head (k : Token) : ∃ u t, k.text = u::t ∧ isSpace u = false := by
  cases k with
  | openArray => exact ⟨_,_,rfl,by decide⟩
  | closeArray => exact ⟨_,_,rfl,by decide⟩
  | openObject => exact ⟨_,_,rfl,by decide⟩
  | closeObject => exact ⟨_,_,rfl,by decide⟩
  | colon => exact ⟨_,_,rfl,by decide⟩
  | comma => exact ⟨_,_,rfl,by decide⟩
  | scalar a =>
    cases a with
    | null => exact ⟨_,_,rfl,by decide⟩
    | bool b => cases b <;> exact ⟨_,_,rfl,by decide⟩
    | num n =>
      obtain ⟨u,t,htext,hu⟩ := number_head n
      exact ⟨u,t,htext,(number_head_plain hu).2.2.1⟩
    | str ps => exact ⟨_,_,rfl,by decide⟩

def isScalar : Token → Bool
  | .scalar _ => true
  | _ => false

/-- No two scalars are next to each other. -/
abbrev Spaced (ks : List Token) : Prop :=
  ks.IsChain (fun k k' => isScalar k = true → isScalar k' = false)

theorem not_numeric_of_isSpace {u : CodeUnit} (h : isSpace u = true) : isNumeric u = false := by
  simp only [isSpace,Bool.or_eq_true,decide_eq_true_eq] at h
  obtain ((rfl | rfl) | rfl) | rfl := h <;> decide

theorem Ends.append {p : CodeUnit → Bool} {w : JsString} (hw : ∀ u ∈ w, p u = false)
    (hr : Ends p r) : Ends p (w ++ r) := by
  cases w with
  | nil => exact hr
  | cons u w => exact Ends.cons (hw u List.mem_cons_self)

/-- Behind a number comes no more of it. -/
theorem ends_spells (h : Spells s ks) (hks : ∀ k ∈ ks.head?, isScalar k = false) :
    Ends isNumeric s := by
  cases h with
  | nil hw =>
    rw [← List.append_nil s]
    exact Ends.append (fun u hu => not_numeric_of_isSpace (hw u hu)) (fun u hu => by cases hu)
  | @cons w s k ks hw hs =>
    rw [List.append_assoc]
    refine Ends.append (fun u hu => not_numeric_of_isSpace (hw u hu)) ?_
    have hk := hks k rfl
    cases k with
    | scalar a => cases hk
    | _ => exact Ends.cons (by decide)

theorem lex_complete {n : ℕ} (h : Spells s ks) (hspaced : Spaced ks) (hn : ks.length ≤ n) :
    lex n s = some ks := by
  induction h generalizing n with
  | @nil w hw =>
    have hnil : w.dropWhile isSpace = [] := by
      rw [← List.append_nil w,List.dropWhile_append_of_pos hw]
      rfl
    cases n <;> rw [lex,if_pos hnil]
  | @cons w s k ks hw hs ih =>
    obtain ⟨u,t,htext,hu⟩ := text_head k
    have hdrop : (w ++ k.text ++ s).dropWhile isSpace = k.text ++ s := by
      rw [List.append_assoc,List.dropWhile_append_of_pos hw,htext,List.cons_append,
        List.dropWhile_cons_of_neg (by rw [hu]; decide)]
    cases n with
    | zero => cases hn
    | succ n =>
      have hnumber : ∀ x, k = .scalar (.num x) → Ends isNumeric s := by
        rintro x rfl
        refine ends_spells hs fun k' hk' => ?_
        cases ks with
        | nil => cases hk'
        | cons k'' ks =>
          obtain rfl := Option.some.inj hk'
          exact (List.isChain_cons_cons.1 hspaced).1 rfl
      have hrest := ih hspaced.tail (Nat.le_of_succ_le_succ hn)
      rw [lex,hdrop,if_neg (by rw [htext]; exact List.cons_ne_nil _ _),
        readToken_complete k hnumber,Option.bind_some]
      simp only [hrest,Option.map_some]

end Tokens

end JsonParse
end BpsProtocol
