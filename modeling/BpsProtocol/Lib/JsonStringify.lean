import BpsProtocol.Lib.JsonWrite

/-! `JSON.stringify` by the grammar.
Each code point of a string is spelled as it is quoted, and a number by its shortest decimal, which
rounds back to it.  So `JSON.parse` of what was printed is the value that was printed. -/
namespace BpsProtocol
namespace JsonSyntax
open Utf16 JsonText Binary64

/-! ## Strings -/

/-- `\u` and four digits. -/
def hexPiece (n : ℕ) : Piece :=
  .ofHex (unit (Nat.digitChar (n/4096%16))) (unit (Nat.digitChar (n/256%16)))
    (unit (Nat.digitChar (n/16%16))) (unit (Nat.digitChar (n%16)))

/-- A code point as it is quoted. -/
def pointPieces (n : ℕ) : StringLit :=
  if n = 34 then [.escape .quote]
  else if n = 92 then [.escape .backslash]
  else if n = 8 then [.escape .backspace]
  else if n = 9 then [.escape .tab]
  else if n = 10 then [.escape .newline]
  else if n = 12 then [.escape .formFeed]
  else if n = 13 then [.escape .carriageReturn]
  else if n < 32 then [hexPiece n]
  else if isSurrogate n then [hexPiece n]
  else (encodePoint n).map .ofUnit

def literal (s : JsString) : StringLit := (codePoints s).flatMap pointPieces

section Strings

variable {n : ℕ} {s : JsString} {t : Text}

theorem write_four (n : ℕ) : HexText.write 4 n =
    [Nat.digitChar (n/4096%16),Nat.digitChar (n/256%16),Nat.digitChar (n/16%16),
      Nat.digitChar (n%16)] := by
  simp [HexText.write,Nat.div_div_eq_div_mul]

/-- A hexadecimal digit is one unit, and is read from it. -/
theorem unit_hexDigit {n : ℕ} (h : n < 16) : isHex (unit (Nat.digitChar n)) = true ∧
    Char.ofNat (unit (Nat.digitChar n)).val = Nat.digitChar n ∧
    encodePoint (Nat.digitChar n).toNat = [unit (Nat.digitChar n)] := by
  interval_cases n <;> decide

theorem hexPiece_eq (n : ℕ) : ∃ a b c d : {u : CodeUnit // isHex u = true},
    hexPiece n = .unicode a b c d ∧
    [a.val,b.val,c.val,d.val] = [unit (Nat.digitChar (n/4096%16)),unit (Nat.digitChar (n/256%16)),
      unit (Nat.digitChar (n/16%16)),unit (Nat.digitChar (n%16))] := by
  have hhex : ∀ m, isHex (unit (Nat.digitChar (m%16))) = true := fun m =>
    (unit_hexDigit (Nat.mod_lt m (by decide))).1
  exact ⟨⟨_,hhex _⟩,⟨_,hhex _⟩,⟨_,hhex _⟩,⟨_,hhex _⟩,
    dif_pos ⟨hhex _,hhex _,hhex _,hhex _⟩,rfl⟩

theorem hexPiece_text (n : ℕ) : (hexPiece n).text = ofText (JsonText.hexEscape n) := by
  have hunit : ∀ m, encodePoint (Nat.digitChar (m%16)).toNat = [unit (Nat.digitChar (m%16))] :=
    fun m => (unit_hexDigit (Nat.mod_lt m (by decide))).2.2
  obtain ⟨a,b,c,d,hpiece,hdigits⟩ := hexPiece_eq n
  simp only [List.cons.injEq,and_true] at hdigits
  obtain ⟨ha,hb,hc,hd⟩ := hdigits
  rw [hpiece,Piece.text,ha,hb,hc,hd,JsonText.hexEscape,write_four]
  simp only [ofText_cons,hunit]
  rfl

theorem hexPiece_decoded (h : n < 65536) : (hexPiece n).decoded = Fin.ofNat 65536 n := by
  have hchar : ∀ m, Char.ofNat (unit (Nat.digitChar (m%16))).val = Nat.digitChar (m%16) :=
    fun m => (unit_hexDigit (Nat.mod_lt m (by decide))).2.1
  obtain ⟨a,b,c,d,hpiece,hdigits⟩ := hexPiece_eq n
  simp only [List.cons.injEq,and_true] at hdigits
  obtain ⟨ha,hb,hc,hd⟩ := hdigits
  have hvalue := @HexText.value_write 4 n h
  rw [write_four] at hvalue
  rw [hpiece,Piece.decoded]
  simp only [List.map_cons,List.map_nil,ha,hb,hc,hd,hchar,hvalue]

theorem ofUnit_plain {u : CodeUnit} (h : isPlain u = true) :
    (Piece.ofUnit u).text = [u] ∧ (Piece.ofUnit u).decoded = u := by
  rw [Piece.ofUnit,dif_pos h]
  exact ⟨rfl,rfl⟩

theorem plain_pieces (h : ∀ u ∈ s, isPlain u = true) :
    (s.map Piece.ofUnit).flatMap Piece.text = s ∧ (s.map Piece.ofUnit).map Piece.decoded = s := by
  induction s with
  | nil => exact ⟨rfl,rfl⟩
  | cons u s ih =>
    rw [List.forall_mem_cons] at h
    obtain ⟨htext,hdecoded⟩ := ofUnit_plain h.1
    obtain ⟨htexts,hdecodeds⟩ := ih h.2
    rw [List.map_cons,List.flatMap_cons,List.map_cons,htext,htexts,hdecoded,hdecodeds]
    exact ⟨rfl,rfl⟩

theorem val_ofNat (h : n < 65536) : (Fin.ofNat 65536 n).val = n := by
  rw [Fin.val_ofNat,Nat.mod_eq_of_lt h]

theorem isPlain_of_val {u : CodeUnit} (hlow : 32 ≤ u.val) (hquote : u.val ≠ 34)
    (hslash : u.val ≠ 92) : isPlain u = true := by
  simp only [isPlain,Bool.and_eq_true,decide_eq_true_eq,ne_eq]
  exact ⟨⟨hlow,fun h => hquote (by rw [h]; rfl)⟩,fun h => hslash (by rw [h]; rfl)⟩

/-- The units of a point that is not escaped stand for themselves. -/
theorem isPlain_encodePoint (hquote : n ≠ 34) (hslash : n ≠ 92) (hlow : 32 ≤ n)
    (h : n < 1114112) : ∀ u ∈ encodePoint n, isPlain u = true := by
  unfold encodePoint
  by_cases hunit : n < 65536
  · have hval := val_ofNat hunit
    rw [if_pos hunit,List.forall_mem_singleton]
    exact isPlain_of_val (hval.symm ▸ hlow) (hval.symm ▸ hquote) (hval.symm ▸ hslash)
  · have hhigh := @val_ofNat (55296+(n-65536)/1024) (by omega)
    have hlower := @val_ofNat (56320+(n-65536)%1024) (by omega)
    rw [if_neg hunit,List.forall_mem_cons,List.forall_mem_singleton]
    exact ⟨isPlain_of_val (by omega) (by omega) (by omega),
      isPlain_of_val (by omega) (by omega) (by omega)⟩

/-- The pieces of a point are its quoted form, and mean the point. -/
theorem pointPieces_spec (h : n < 1114112) :
    (pointPieces n).flatMap Piece.text = ofText (JsonText.escape n) ∧
      (pointPieces n).map Piece.decoded = encodePoint n := by
  unfold pointPieces JsonText.escape
  split_ifs with hquote hslash hb ht hn hf hr hcontrol hsurrogate
  · subst hquote; decide
  · subst hslash; decide
  · subst hb; decide
  · subst ht; decide
  · subst hn; decide
  · subst hf; decide
  · subst hr; decide
  · refine ⟨(List.append_nil _).trans (hexPiece_text n),?_⟩
    rw [encodePoint,if_pos (by omega),List.map_singleton,hexPiece_decoded (by omega)]
  · simp only [isSurrogate,Bool.and_eq_true,decide_eq_true_eq] at hsurrogate
    refine ⟨(List.append_nil _).trans (hexPiece_text n),?_⟩
    rw [encodePoint,if_pos (by omega),List.map_singleton,hexPiece_decoded (by omega)]
  · obtain ⟨htext,hdecoded⟩ := plain_pieces (isPlain_encodePoint hquote hslash (by omega) h)
    refine ⟨?_,hdecoded⟩
    rw [htext,ofText_cons,toNat_ofNat h (Bool.not_eq_true _ ▸ hsurrogate)]
    exact (List.append_nil _).symm

theorem literal_text (s : JsString) : ofText (quote s) = (literal s).text := by
  have hpoints : ∀ ps : List ℕ, (∀ p ∈ ps, p < 1114112) →
      ofText (ps.flatMap JsonText.escape) = (ps.flatMap pointPieces).flatMap Piece.text := by
    intro ps
    induction ps with
    | nil => exact fun _ => rfl
    | cons p ps ih =>
      intro hps
      rw [List.forall_mem_cons] at hps
      rw [List.flatMap_cons,List.flatMap_cons,ofText_append,List.flatMap_append,ih hps.2,
        (pointPieces_spec hps.1).1]
  rw [quote,quotePoints,List.cons_append,ofText_unit (by decide),ofText_append,
    hpoints _ (codePoints_lt s)]
  rfl

theorem literal_decoded (s : JsString) : (literal s).decoded = s := by
  have hpoints : ∀ ps : List ℕ, (∀ p ∈ ps, p < 1114112) →
      (ps.flatMap pointPieces).map Piece.decoded = ps.flatMap encodePoint := by
    intro ps
    induction ps with
    | nil => exact fun _ => rfl
    | cons p ps ih =>
      intro hps
      rw [List.forall_mem_cons] at hps
      rw [List.flatMap_cons,List.map_append,List.flatMap_cons,ih hps.2,(pointPieces_spec hps.1).2]
  exact (hpoints _ (codePoints_lt s)).trans (encode_codePoints s)

end Strings

/-! ## Numbers -/

namespace Digits

def chars (ds : Digits) : Text := ds.map (fun d : Fin 10 => Nat.digitChar d.val)

def ofChars (t : Text) : Digits := t.map (fun c => Fin.ofNat 10 (c.toNat-48))

theorem digitChar_ofChar {c : Char} (h : c.isDigit = true) :
    Nat.digitChar (Fin.ofNat 10 (c.toNat-48)).val = c := by
  obtain ⟨hlow,hhigh⟩ : 48 ≤ c.toNat ∧ c.toNat ≤ 57 := by
    simpa [Char.isDigit,UInt32.le_iff_toNat_le] using h
  have hofNat := Char.ofNat_toNat c
  generalize c.toNat = n at hlow hhigh hofNat ⊢
  subst hofNat
  interval_cases n <;> decide

theorem chars_ofChars {t : Text} (h : ∀ c ∈ t, c.isDigit = true) : (ofChars t).chars = t := by
  induction t with
  | nil => rfl
  | cons c t ih =>
    rw [List.forall_mem_cons] at h
    have hc := digitChar_ofChar h.1
    rw [ofChars,List.map_cons,← ofChars,chars,List.map_cons,← chars,ih h.2,hc]

theorem ofText_chars (ds : Digits) : ofText ds.chars = ds.text := by
  induction ds with
  | nil => rfl
  | cons d ds ih =>
    have hd : encodePoint (Nat.digitChar d.val).toNat = [unit (Nat.digitChar d.val)] := by
      revert d
      decide
    rw [chars,List.map_cons,ofText_cons,hd,← chars,ih]
    rfl

theorem numeral_chars (ds : Digits) : NumberText.numeral ds.chars = ds.value := by
  have hfold : ∀ (ds : Digits) (n : ℕ), Nat.ofDigitChars 10 ds.chars n =
      ds.foldl (fun n d => 10*n+d.val) n := by
    intro ds
    induction ds with
    | nil => exact fun _ => rfl
    | cons d ds ih =>
      intro n
      have hd : (Nat.digitChar d.val).toNat - '0'.toNat = d.val := by
        revert d
        decide
      rw [chars,List.map_cons,Nat.ofDigitChars_cons,hd,← chars,ih]
      rfl
  exact hfold ds 0

end Digits

namespace Exponent

/-- A sign and the digits behind an `e`. -/
def Signed (e : Exponent) : Prop := e.letter = false ∧ e.sign ≠ none

def chars (e : Exponent) : Text :=
  'e' :: (if e.sign = some true then '-' else '+') :: e.digits.chars

theorem ofText_chars {e : Exponent} (h : e.Signed) : ofText e.chars = e.text := by
  obtain ⟨letter,sign,digits,hne⟩ := e
  obtain ⟨rfl,hsign⟩ : letter = false ∧ sign ≠ none := h
  match sign, hsign with
  | some false, _ => exact congrArg (unit 'e' :: unit '+' :: ·) (Digits.ofText_chars digits)
  | some true, _ => exact congrArg (unit 'e' :: unit '-' :: ·) (Digits.ofText_chars digits)

theorem readExponent_chars (e : Exponent) :
    NumberText.readExponent ((if e.sign = some true then '-' else '+') :: e.digits.chars) =
      e.value := by
  rw [value]
  by_cases h : e.sign = some true
  · rw [if_pos h,if_pos h,NumberText.readExponent,Digits.numeral_chars]
  · rw [if_neg h,if_neg h,NumberText.readExponent,Digits.numeral_chars]
    exact fun heq => by cases heq

end Exponent

namespace NumberLit

/-- The number without its sign, as characters. -/
def chars (n : NumberLit) : Text :=
  n.whole.chars ++ (if n.fraction = [] then [] else '.' :: n.fraction.chars) ++
    (n.exponent.map Exponent.chars).getD []

/-- As the shortest decimals are written. -/
def Simple (n : NumberLit) : Prop := n.minus = false ∧ ∀ e ∈ n.exponent, e.Signed

theorem zero_ne_nil : ([0] : Digits) ≠ [] :=
  List.cons_ne_nil _ _

theorem zero_only (_ : ([0] : Digits).head? = some 0) : ([0] : Digits) = [0] :=
  rfl

/-- Zero with the digits of a fraction. -/
def zero (fraction : Digits) : NumberLit := ⟨false,[0],fraction,none,zero_ne_nil,zero_only⟩

/-- The same number below zero. -/
def neg (n : NumberLit) : NumberLit := { n with minus := true }

theorem ofText_chars {n : NumberLit} (h : n.Simple) : ofText n.chars = n.text := by
  obtain ⟨minus,whole,fraction,exponent,hwhole,hzero⟩ := n
  obtain ⟨rfl,hexponent⟩ : minus = false ∧ ∀ e ∈ exponent, e.Signed := h
  have hfraction : ofText (if fraction = [] then [] else '.' :: fraction.chars) =
      if fraction = [] then [] else unit '.' :: fraction.text := by
    by_cases hnil : fraction = []
    · rw [if_pos hnil,if_pos hnil]
      rfl
    · rw [if_neg hnil,if_neg hnil,ofText_unit (by decide),Digits.ofText_chars]
  have hexp : ofText ((exponent.map Exponent.chars).getD []) =
      (exponent.map Exponent.text).getD [] := by
    cases exponent with
    | none => rfl
    | some e => exact Exponent.ofText_chars (hexponent e rfl)
  rw [chars,text,ofText_append,ofText_append,Digits.ofText_chars,hfraction,hexp]
  rfl

theorem neg_text {n : NumberLit} (h : n.Simple) : n.neg.text = unit '-' :: n.text := by
  rw [text,text,h.1]
  rfl

theorem neg_value {n : NumberLit} (h : n.Simple) : n.neg.value = -n.value := by
  simp [value,neg,h.1]

theorem notMem_chars {ds : Digits} {c : Char} (h : c.isDigit = false) : c ∉ ds.chars := by
  intro hmem
  obtain ⟨d,-,rfl⟩ := List.mem_map.1 hmem
  have hall : ∀ d : Fin 10, (Nat.digitChar d.val).isDigit = true := by decide
  rw [hall d] at h
  cases h

theorem length_chars (ds : Digits) : ds.chars.length = ds.length := List.length_map _

/-- The decimal that is read is the number that is meant. -/
theorem read_chars {n : NumberLit} (h : n.Simple) : NumberText.read n.chars = n.value := by
  obtain ⟨minus,whole,fraction,exponent,hwhole,hzero⟩ := n
  obtain ⟨rfl,hexponent⟩ : minus = false ∧ ∀ e ∈ exponent, e.Signed := h
  have hpoint : ∃ fraction', NumberText.split '.'
      (whole.chars ++ if fraction = [] then [] else '.' :: fraction.chars) =
        (whole.chars,fraction') ∧ fraction' = fraction.chars := by
    by_cases hnil : fraction = []
    · rw [if_pos hnil,List.append_nil,NumberText.split_of_notMem (notMem_chars (by decide)),hnil]
      exact ⟨[],rfl,rfl⟩
    · rw [if_neg hnil,NumberText.split_append (notMem_chars (by decide))]
      exact ⟨_,rfl,rfl⟩
  obtain ⟨_,hpoint,rfl⟩ := hpoint
  have he : 'e' ∉ whole.chars ++ if fraction = [] then [] else '.' :: fraction.chars := by
    rw [List.mem_append,not_or]
    refine ⟨notMem_chars (by decide),?_⟩
    split
    · exact List.not_mem_nil
    · rw [List.mem_cons,not_or]
      exact ⟨by decide,notMem_chars (by decide)⟩
  have hsplit : ∃ exponent',
      NumberText.split 'e' (chars ⟨false,whole,fraction,exponent,hwhole,hzero⟩) =
      (whole.chars ++ if fraction = [] then [] else '.' :: fraction.chars,exponent') ∧
      NumberText.readExponent exponent' = (exponent.map Exponent.value).getD 0 := by
    cases exponent with
    | none =>
      refine ⟨[],?_,rfl⟩
      rw [chars,Option.map_none,Option.getD_none,List.append_nil]
      exact NumberText.split_of_notMem he
    | some e => exact ⟨_,NumberText.split_append he,Exponent.readExponent_chars e⟩
  obtain ⟨exponent',hexp,hread⟩ := hsplit
  rw [NumberText.read_of_split hexp hpoint,hread,length_chars]
  have hdigits : whole.chars ++ fraction.chars = Digits.chars (whole ++ fraction) :=
    List.map_append.symm
  rw [hdigits,Digits.numeral_chars,value]
  simp

end NumberLit

/-- One digit before the point, and an exponent. -/
theorem exists_scientific {digits : Text} (h : ∀ c ∈ digits, c.isDigit = true) (hne : digits ≠ [])
    (m : ℤ) : ∃ l : NumberLit, l.Simple ∧ l.chars = NumberText.mantissa digits ++
      'e' :: (if m < 0 then '-' else '+') :: Nat.toDigits 10 m.natAbs := by
  obtain ⟨d,rest,rfl⟩ := List.exists_cons_of_ne_nil hne
  rw [List.forall_mem_cons] at h
  have hexponent : ∀ c ∈ Nat.toDigits 10 m.natAbs, c.isDigit = true := DecimalText.isDigit_toDigits
  have hnil : Digits.ofChars (Nat.toDigits 10 m.natAbs) ≠ [] := by
    rw [Digits.ofChars,ne_eq,List.map_eq_nil_iff]
    exact Nat.toDigits_ne_nil
  refine ⟨⟨false,[Fin.ofNat 10 (d.toNat-48)],Digits.ofChars rest,
    some ⟨false,some (decide (m < 0)),_,hnil⟩,List.cons_ne_nil _ _,fun hzero => ?_⟩,
    ⟨rfl,fun e he => ?_⟩,?_⟩
  · rw [Option.some.inj hzero]
  · obtain rfl := Option.some.inj he
    exact ⟨rfl,Option.some_ne_none _⟩
  · have hd := Digits.digitChar_ofChar h.1
    have hmantissa : [d] ++ (if Digits.ofChars rest = [] then [] else
        '.' :: (Digits.ofChars rest).chars) = NumberText.mantissa (d::rest) := by
      cases rest with
      | nil => rfl
      | cons e rest =>
        rw [Digits.chars_ofChars h.2,
          if_neg (show Digits.ofChars (e::rest) ≠ [] from List.cons_ne_nil _ _)]
        rfl
    have hsign : (if some (decide (m < 0)) = some true then '-' else '+') =
        if m < 0 then '-' else '+' := by simp
    rw [NumberLit.chars,← hmantissa,Option.map_some,Option.getD_some,Exponent.chars,
      Digits.chars_ofChars hexponent,hsign]
    simp only [Digits.chars,List.map_cons,List.map_nil,hd]

/-- Digits around a point, as they are laid out, are a number of the grammar. -/
theorem exists_layout {digits : Text} (h : ∀ c ∈ digits, c.isDigit = true) (hne : digits ≠ [])
    (hhead : digits.head? ≠ some '0') (n : ℤ) :
    ∃ l : NumberLit, l.Simple ∧ l.chars = NumberText.layout digits n := by
  have hzeros : ∀ k, ∀ c ∈ List.replicate k '0', c.isDigit = true := by
    intro k c hc
    rw [List.eq_of_mem_replicate hc]
    decide
  have hchars : ∀ {t : Text}, (∀ c ∈ t, c.isDigit = true) → (Digits.ofChars t).chars = t :=
    Digits.chars_ofChars
  -- a whole part that starts like the digits has no leading zero
  have hwhole : ∀ {t : Text}, t ≠ [] → t.head? = digits.head? → (∀ c ∈ t, c.isDigit = true) →
      Digits.ofChars t ≠ [] ∧ ((Digits.ofChars t).head? = some 0 → Digits.ofChars t = [0]) := by
    intro t ht hstart hdigits
    obtain ⟨c,t,rfl⟩ := List.exists_cons_of_ne_nil ht
    refine ⟨List.cons_ne_nil _ _,fun hzero => absurd ?_ hhead⟩
    have hc := Digits.digitChar_ofChar (hdigits c List.mem_cons_self)
    rw [Digits.ofChars,List.map_cons,List.head?_cons] at hzero
    rw [← hstart,List.head?_cons,← hc,Option.some.inj hzero]
    rfl
  unfold NumberText.layout
  dsimp only
  by_cases hall : digits.length ≤ n ∧ n ≤ 21
  · rw [if_pos hall]
    have hdigits : ∀ c ∈ digits ++ List.replicate (n-digits.length).toNat '0', c.isDigit = true :=
      List.forall_mem_append.2 ⟨h,hzeros _⟩
    obtain ⟨hnil,hzero⟩ := hwhole (List.append_ne_nil_of_left_ne_nil hne _)
      (List.head?_append_of_ne_nil _ hne) hdigits
    refine ⟨⟨false,_,[],none,hnil,hzero⟩,⟨rfl,fun e he => by cases he⟩,?_⟩
    rw [NumberLit.chars,hchars hdigits]
    simp
  by_cases hinside : 0 < n ∧ n ≤ 21
  · rw [if_neg hall,if_pos hinside]
    have htake : ∀ c ∈ digits.take n.toNat, c.isDigit = true := fun c hc =>
      h c (List.mem_of_mem_take hc)
    have hdrop : ∀ c ∈ digits.drop n.toNat, c.isDigit = true := fun c hc =>
      h c (List.mem_of_mem_drop hc)
    obtain ⟨hnil,hzero⟩ := hwhole (t := digits.take n.toNat) (by
      rw [ne_eq,List.take_eq_nil_iff,not_or]
      exact ⟨by omega,hne⟩) (by rw [List.head?_take,if_neg (by omega)]) htake
    refine ⟨⟨false,_,Digits.ofChars (digits.drop n.toNat),none,hnil,hzero⟩,
      ⟨rfl,fun e he => by cases he⟩,?_⟩
    have hrest : Digits.ofChars (digits.drop n.toNat) ≠ [] := by
      rw [Digits.ofChars,ne_eq,List.map_eq_nil_iff,List.drop_eq_nil_iff]
      omega
    rw [NumberLit.chars,if_neg hrest,hchars htake,hchars hdrop]
    simp
  by_cases hbefore : -6 < n ∧ n ≤ 0
  · rw [if_neg hall,if_neg hinside,if_pos hbefore]
    have hfraction : ∀ c ∈ List.replicate (-n).toNat '0' ++ digits, c.isDigit = true :=
      List.forall_mem_append.2 ⟨hzeros _,h⟩
    refine ⟨.zero (Digits.ofChars (List.replicate (-n).toNat '0' ++ digits)),
      ⟨rfl,fun e he => by cases he⟩,?_⟩
    have hrest : Digits.ofChars (List.replicate (-n).toNat '0' ++ digits) ≠ [] := by
      rw [Digits.ofChars,ne_eq,List.map_eq_nil_iff]
      exact List.append_ne_nil_of_right_ne_nil _ hne
    rw [NumberLit.zero,NumberLit.chars,if_neg hrest,hchars hfraction]
    simp [Digits.chars]
  · rw [if_neg hall,if_neg hinside,if_neg hbefore]
    exact exists_scientific h hne (n-1)

theorem head_toDigits {m : ℕ} (h : 0 < m) : (Nat.toDigits 10 m).head? ≠ some '0' := by
  induction m using Nat.strongRecOn with
  | _ m ih =>
    by_cases hlt : m < 10
    · rw [Nat.toDigits_of_lt_base hlt,List.head?_cons]
      interval_cases m <;> decide
    · rw [Nat.toDigits_of_base_le (by decide) (by omega),
        List.head?_append_of_ne_nil _ Nat.toDigits_ne_nil]
      exact ih (m/10) (by omega) (by omega)

theorem abs_lt_of_representable {q : ℚ} (h : Representable q) : |q| < 2^1024 := by
  obtain ⟨m,e,hm,-,he,rfl⟩ := h
  have hcast : |(m : ℚ)| < 2^53 := by exact_mod_cast hm
  have hpow : (2 : ℚ)^e ≤ 2^(971 : ℤ) := zpow_le_zpow_right₀ one_le_two he
  calc |(m : ℚ)*2^e| = |(m : ℚ)| * 2^e := by rw [abs_mul,abs_of_pos (two_zpow_pos e)]
    _ < 2^53*2^e := mul_lt_mul_of_pos_right hcast (two_zpow_pos e)
    _ ≤ 2^53*2^(971 : ℤ) := mul_le_mul_of_nonneg_left hpow (by positivity)
    _ = 2^1024 := by rw [zpow_ofNat,← pow_add]

theorem roundHalfEven_neg (q : ℚ) : roundHalfEven (-q) = -roundHalfEven q := by
  by_cases hint : (⌊q⌋ : ℚ) = q
  · rw [← hint,← Int.cast_neg,roundHalfEven_intCast,roundHalfEven_intCast]
  · have hlt : (⌊q⌋ : ℚ) < q := lt_of_le_of_ne (Int.floor_le q) hint
    have hfloor : ⌊-q⌋ = -⌊q⌋-1 := by
      rw [Int.floor_eq_iff]
      push_cast
      constructor <;> linarith [Int.lt_floor_add_one q]
    unfold roundHalfEven
    rw [hfloor]
    push_cast
    split_ifs <;> first | omega | (exfalso; linarith)

theorem nearest_neg (q : ℚ) : nearest (-q) = -nearest q := by
  have hbit : lastBit (-q) = lastBit q := by rw [lastBit,lastBit,abs_neg]
  rw [nearest,nearest,hbit,neg_div,roundHalfEven_neg,Int.cast_neg,neg_mul]

/-- A number is a double when it is rounded to one. -/
theorem ofRat_of_nearest {q : ℚ} {x : Double} (h : nearest q = x.val) :
    Number.ofRat q = .finite x := by
  have hlt : |nearest q| < 2^1024 := h ▸ abs_lt_of_representable x.representable
  rw [Number.ofRat,dif_pos hlt]
  exact congrArg Number.finite (Double.ext h)

theorem exists_positive {q : ℚ} (h : Representable q) (hpos : 0 < q) :
    ∃ l : NumberLit, l.Simple ∧ l.chars = NumberText.positive q := by
  obtain ⟨k,hk⟩ := NumberText.toDigits_split (NumberText.shortest q).significand
  have hsignificand := NumberText.significand_pos h hpos
  have hhead := head_toDigits hsignificand
  have hdigits : ∀ c ∈ (Nat.toDigits 10 (NumberText.shortest q).significand).rdropWhile (· = '0'),
      c.isDigit = true := fun c hc =>
    DecimalText.isDigit_toDigits c (by rw [hk]; exact List.mem_append_left _ hc)
  have hne : (Nat.toDigits 10 (NumberText.shortest q).significand).rdropWhile (· = '0') ≠ [] := by
    intro hnil
    rw [hnil,List.nil_append] at hk
    cases k with
    | zero => exact Nat.toDigits_ne_nil hk
    | succ k =>
      rw [hk] at hhead
      exact hhead rfl
  refine exists_layout hdigits hne ?_ _
  rw [hk,List.head?_append_of_ne_nil _ hne] at hhead
  exact hhead

/-- The text of a number is a number of the grammar that is rounded to it. -/
theorem exists_text (x : Double) : ∃ l : NumberLit, l.text = ofText (NumberText.text x) ∧
    Number.ofRat l.value = .finite x := by
  rcases NumberText.text_cases x with ⟨hzero,htext⟩ | ⟨hneg,htext⟩ | ⟨hpos,htext,-,-⟩
  · refine ⟨.zero [],?_,ofRat_of_nearest ?_⟩
    · rw [htext]
      rfl
    · rw [hzero]
      simp [NumberLit.zero,NumberLit.value,Digits.value]
  · have hpos := neg_pos.2 hneg
    have hrep := NumberText.representable_neg x.representable
    obtain ⟨l,hsimple,hchars⟩ := exists_positive hrep hpos
    have hread := NumberText.nearest_read_positive hrep hpos
    rw [← hchars,NumberLit.read_chars hsimple] at hread
    refine ⟨l.neg,?_,ofRat_of_nearest ?_⟩
    · rw [NumberLit.neg_text hsimple,← NumberLit.ofText_chars hsimple,hchars,htext,
        ofText_unit (by decide)]
    · rw [NumberLit.neg_value hsimple,nearest_neg,hread,neg_neg]
  · obtain ⟨l,hsimple,hchars⟩ := exists_positive x.representable hpos
    have hread := NumberText.nearest_read_positive x.representable hpos
    rw [← hchars,NumberLit.read_chars hsimple] at hread
    refine ⟨l,?_,ofRat_of_nearest hread⟩
    rw [← NumberLit.ofText_chars hsimple,hchars,htext]

def spellNumber (x : Double) : NumberLit :=
  match JsonParse.readNumber (ofText (NumberText.text x)) with
  | some (l,_) => l
  | none => .zero []

theorem spellNumber_spec (x : Double) : (spellNumber x).text = ofText (NumberText.text x) ∧
    Number.ofRat (spellNumber x).value = .finite x := by
  obtain ⟨l,htext,hvalue⟩ := exists_text x
  have hread := @JsonParse.readNumber_complete [] l (fun u hu => by cases hu)
  rw [List.append_nil,htext] at hread
  have hspell : spellNumber x = l := by rw [spellNumber,hread]
  rw [hspell]
  exact ⟨htext,hvalue⟩

/-! ## Values -/

def spellLeaf : Leaf JsString Double → Scalar
  | .null => .null
  | .bool b => .bool b
  | .num x => .num (spellNumber x)
  | .str s => .str (literal s)

end JsonSyntax

namespace JsonValue
open Utf16 JsonText JsonTree JsonSyntax Style Binary64

theorem spellLeaf_text (a : Leaf JsString Double) :
    ofText (leafText quote NumberText.text a) = scalarText (spellLeaf a) := by
  cases a with
  | null => rfl
  | bool b => cases b <;> rfl
  | num x => exact (spellNumber_spec x).1.symm
  | str s => exact literal_text s

theorem evaluateScalar_spellLeaf (a : Leaf JsString Double) :
    JsonParse.evaluateScalar (spellLeaf a) = unshown a := by
  cases a with
  | null => rfl
  | bool b => rfl
  | num x => exact congrArg Leaf.num (spellNumber_spec x).2
  | str s => exact congrArg Leaf.str (literal_decoded s)

/-- Values of a script are spelled whatever white space the style sets. -/
def spelling {newline : ℕ → Text} {colon : Text} (hnewline : ∀ n, Blank (newline n))
    (hcolon : ∃ t, colon = ':' :: t ∧ Blank t) :
    (style quote NumberText.text newline colon).Spelling where
  name := literal
  scalar := spellLeaf
  quote_text := literal_text
  leaf_text := spellLeaf_text
  newline_blank := hnewline
  colon_blank := hcolon

theorem blank_spaces (n : ℕ) : Blank (List.replicate n ' ') := by
  induction n with
  | zero => exact blank_nil
  | succ n ih =>
    rw [List.replicate_succ,Blank,ofText_unit (by decide),List.forall_mem_cons]
    exact ⟨by decide,ih⟩

theorem blank_newline (n : ℕ) : Blank (newline n) := by
  rw [newline,Blank,ofText_unit (by decide),List.forall_mem_cons]
  exact ⟨by decide,blank_spaces n⟩

def prettySpelling : pretty.Spelling :=
  spelling blank_newline ⟨[' '],rfl,blank_spaces 1⟩

def compactSpelling : compact.Spelling :=
  spelling (fun _ => blank_nil) ⟨[],rfl,blank_nil⟩

end JsonValue

namespace JsonParse
open Utf16 JsonText JsonTree JsonSyntax Style

section Evaluate

variable {σ α : Type} {S : Style σ α} (W : S.Spelling) {f : σ → JsString}
  {g : α → Leaf JsString Binary64.Number}

mutual

/-- A spelled value means the value, with its names and leaves as they are read. -/
theorem evaluate_spell (hname : ∀ k, (W.name k).decoded = f k)
    (hscalar : ∀ a, evaluateScalar (W.scalar a) = g a) : ∀ {t : JsonTree σ α},
    (t.mapKeys f).WellFormed → evaluate (W.spell t) = (t.mapKeys f).mapLeaves g
  | .leaf a, _ => congrArg JsonTree.leaf (hscalar a)
  | .arr ts, h => by
    rw [Spelling.spell_arr,evaluate,evaluateItems_spell hname hscalar h,mapKeys,mapLeaves,rebuild]
  | .obj ms, h => by
    have hnodup : (keys (rebuildMembers g .keep (mapKeysMembers f ms))).Nodup := by
      rw [keys_rebuildMembers]
      exact h.1
    rw [Spelling.spell_obj,evaluate,evaluateMembers_spell hname hscalar h.2,
      assign_of_nodup hnodup,mapKeys,mapLeaves,rebuild]
    rfl

theorem evaluateItems_spell (hname : ∀ k, (W.name k).decoded = f k)
    (hscalar : ∀ a, evaluateScalar (W.scalar a) = g a) : ∀ {ts : List (JsonTree σ α)},
    WellFormedItems (mapKeysItems f ts) →
      evaluateItems (ts.map W.spell) = rebuildItems g .keep (mapKeysItems f ts)
  | [], _ => rfl
  | t::ts, h => by
    rw [List.map_cons,evaluateItems,evaluate_spell hname hscalar h.1,
      evaluateItems_spell hname hscalar h.2,mapKeysItems,rebuildItems]

theorem evaluateMembers_spell (hname : ∀ k, (W.name k).decoded = f k)
    (hscalar : ∀ a, evaluateScalar (W.scalar a) = g a) : ∀ {ms : List (σ × JsonTree σ α)},
    WellFormedMembers (mapKeysMembers f ms) →
      evaluateMembers (ms.map (fun m => (W.name m.1,W.spell m.2))) =
        rebuildMembers g .keep (mapKeysMembers f ms)
  | [], _ => rfl
  | (k,t)::ms, h => by
    rw [List.map_cons,evaluateMembers,evaluate_spell hname hscalar h.1,
      evaluateMembers_spell hname hscalar h.2,mapKeysMembers,rebuildMembers,hname]

end

/-- What a style prints is read back, with white space behind it or not. -/
theorem jsonParse_print (hname : ∀ k, (W.name k).decoded = f k)
    (hscalar : ∀ a, evaluateScalar (W.scalar a) = g a) {t : JsonTree σ α}
    (h : (t.mapKeys f).WellFormed) (n : ℕ) {r : Text} (hr : Blank r) :
    jsonParse (ofText (S.print n t ++ r)) = some ((t.mapKeys f).mapLeaves g) := by
  rw [jsonParse,parse_eq_some_iff.2 (W.writes_print t n hr),Option.map_some,
    evaluate_spell W hname hscalar h]

end Evaluate

section Stringify

open JsonValue

variable {v : Value} {r : Text}

theorem jsonParse_pretty {t : JsonTree JsString (Leaf JsString Binary64.Double)} (h : t.WellFormed)
    (hr : Blank r) :
    jsonParse (ofText (pretty.print 0 t ++ r)) = some (t.mapLeaves unshown) := by
  have hid : t.mapKeys id = t := mapKeys_id t
  have hparse := jsonParse_print prettySpelling (f := id) (t := t) literal_decoded
    evaluateScalar_spellLeaf (by rwa [hid]) 0 hr
  rwa [hid] at hparse

/-- `JSON.parse(JSON.stringify(value, null, 2))` -/
theorem jsonParse_stringify (h : v.WellFormed) (hr : Blank r) :
    jsonParse (ofText (stringify v ++ r)) = some (v.rebuild (unshown ∘ shown) ownKeys) := by
  have hwf : (v.rebuild shown ownKeys).WellFormed :=
    h.rebuild fun ms => ⟨ms,List.perm_insertionSort _ ms,List.Sublist.refl _⟩
  rw [stringify,print_comap,mapLeaves_arrange,jsonParse_pretty hwf hr,mapLeaves_rebuild]

end Stringify

end JsonParse
end BpsProtocol
