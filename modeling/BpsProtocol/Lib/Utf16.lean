import BpsProtocol.Lib.JsonText

/-! Strings of sixteen-bit code units.
A string may hold half of a surrogate pair; its code points are then not those of a text.
Both directions lose nothing: a string is put together again from its code points, and a text
is read back from its units. -/
namespace BpsProtocol
namespace Utf16

abbrev CodeUnit := Fin 65536

abbrev JsString := List CodeUnit

def isHigh (u : ℕ) : Bool := 55296 ≤ u && u < 56320

def isLow (u : ℕ) : Bool := 56320 ≤ u && u < 57344

instance neZero_unit : NeZero 65536 := ⟨by norm_num⟩

/-- The code point of a pair of surrogates. -/
def pairPoint (u v : ℕ) : ℕ := 65536+(u-55296)*1024+(v-56320)

/-- The code points of a string: pairs of surrogates, and single units. -/
def codePoints : JsString → List ℕ
  | [] => []
  | [u] => [u.val]
  | u::v::s =>
    if isHigh u && isLow v then pairPoint u v::codePoints s
    else u.val::codePoints (v::s)

/-- The units of a code point. -/
def encodePoint (n : ℕ) : JsString :=
  if n < 65536 then [Fin.ofNat 65536 n]
  else [Fin.ofNat 65536 (55296+(n-65536)/1024),Fin.ofNat 65536 (56320+(n-65536)%1024)]

/-- The units of a text. -/
def ofText (t : Text) : JsString := t.flatMap (fun c => encodePoint c.toNat)

def lit (s : String) : JsString := ofText s.toList

/-- `JSON.stringify` of a string; a surrogate without its other half is escaped. -/
def quote (s : JsString) : Text := JsonText.quotePoints (codePoints s)

section Points

variable {n : ℕ} {u v : CodeUnit} {s : JsString}

theorem ofNat_eq (h : n = u.val) : Fin.ofNat 65536 n = u := by
  apply Fin.ext
  rw [Fin.val_ofNat,h]
  exact Nat.mod_eq_of_lt u.isLt

theorem encodePoint_unit (u : CodeUnit) : encodePoint u.val = [u] := by
  rw [encodePoint,if_pos u.isLt,ofNat_eq rfl]

theorem encodePoint_pair (hu : isHigh u = true) (hv : isLow v = true) :
    encodePoint (pairPoint u v) = [u,v] := by
  simp only [isHigh,isLow,Bool.and_eq_true,decide_eq_true_eq] at hu hv
  unfold pairPoint
  rw [encodePoint,if_neg (by omega),ofNat_eq (u:=u) (by omega),ofNat_eq (u:=v) (by omega)]

theorem codePoints_unit (h : isHigh u = false) : codePoints (u::s) = u.val::codePoints s := by
  cases s with
  | nil => rfl
  | cons v s => rw [codePoints,h,Bool.false_and,if_neg (by decide)]

theorem codePoints_pair (hu : isHigh u = true) (hv : isLow v = true) :
    codePoints (u::v::s) = pairPoint u v::codePoints s := by
  rw [codePoints,hu,hv,if_pos (by decide)]

/-- The code points give the string back. -/
theorem encode_codePoints (s : JsString) : (codePoints s).flatMap encodePoint = s := by
  induction s using codePoints.induct with
  | case1 => rfl
  | case2 u => rw [codePoints,List.flatMap_singleton,encodePoint_unit]
  | case3 u v s hpair ih =>
    rw [codePoints,if_pos hpair,List.flatMap_cons,ih]
    rw [Bool.and_eq_true] at hpair
    rw [encodePoint_pair hpair.1 hpair.2]
    rfl
  | case4 u v s hpair ih =>
    rw [codePoints,if_neg hpair,List.flatMap_cons,ih,encodePoint_unit]
    rfl

theorem codePoints_injective : Function.Injective codePoints := fun s t h => by
  rw [← encode_codePoints s,h,encode_codePoints]

theorem codePoints_lt (s : JsString) : ∀ p ∈ codePoints s, p < 1114112 := by
  induction s using codePoints.induct with
  | case1 => simp [codePoints]
  | case2 u =>
    have hu := u.isLt
    simp only [codePoints,List.mem_singleton]
    omega
  | case3 u v s hpair ih =>
    rw [codePoints,if_pos hpair,List.forall_mem_cons]
    simp only [isHigh,isLow,Bool.and_eq_true,decide_eq_true_eq] at hpair
    exact ⟨by unfold pairPoint; omega,ih⟩
  | case4 u v s hpair ih =>
    have hu := u.isLt
    rw [codePoints,if_neg hpair,List.forall_mem_cons]
    exact ⟨by omega,ih⟩

theorem quote_inj {t : JsString} {r r' : Text} (h : quote s ++ r = quote t ++ r') :
    s = t ∧ r = r' := by
  obtain ⟨hpoints,hrest⟩ := JsonText.quotePoints_inj (codePoints_lt s) (codePoints_lt t) h
  exact ⟨codePoints_injective hpoints,hrest⟩

end Points

section Texts

variable {c : Char} {s : JsString} {t t' : Text}

/-- A character is not half of a pair. -/
theorem codePoints_encodePoint (c : Char) (s : JsString) :
    codePoints (encodePoint c.toNat ++ s) = c.toNat::codePoints s := by
  have hvalid : c.toNat < 55296 ∨ 57343 < c.toNat ∧ c.toNat < 1114112 := c.valid
  by_cases hunit : c.toNat < 65536
  · obtain ⟨u,hu⟩ : ∃ u : CodeUnit, u.val = c.toNat := ⟨⟨_,hunit⟩,rfl⟩
    rw [← hu,encodePoint_unit,List.singleton_append,codePoints_unit]
    simp only [isHigh,Bool.and_eq_false_iff,decide_eq_false_iff_not]
    omega
  · obtain ⟨u,hu⟩ : ∃ u : CodeUnit, u.val = 55296+(c.toNat-65536)/1024 := ⟨⟨_,by omega⟩,rfl⟩
    obtain ⟨v,hv⟩ : ∃ v : CodeUnit, v.val = 56320+(c.toNat-65536)%1024 := ⟨⟨_,by omega⟩,rfl⟩
    have hhigh : isHigh u = true := by
      simp only [isHigh,Bool.and_eq_true,decide_eq_true_eq]
      omega
    have hlow : isLow v = true := by
      simp only [isLow,Bool.and_eq_true,decide_eq_true_eq]
      omega
    have hpoint : pairPoint u v = c.toNat := by
      unfold pairPoint
      omega
    rw [← hpoint,encodePoint_pair hhigh hlow]
    exact codePoints_pair hhigh hlow

theorem codePoints_ofText (t : Text) : codePoints (ofText t) = t.map Char.toNat := by
  induction t with
  | nil => rfl
  | cons c t ih => rw [ofText,List.flatMap_cons,codePoints_encodePoint,← ofText,ih,List.map_cons]

/-- Texts of the same units are equal. -/
theorem ofText_injective : Function.Injective ofText := fun t t' h => by
  have hpoints := congrArg codePoints h
  rw [codePoints_ofText,codePoints_ofText] at hpoints
  exact List.map_injective_iff.2 (fun c d h => Char.toNat_inj.1 h) hpoints

end Texts

end Utf16
end BpsProtocol
