import BpsProtocol.Lib.IntegerText
import BpsProtocol.PacketDigest

/-! What the digest of a packet binds.
Units below 256 are written with two digits; where two texts take the same number of digits
unit by unit, equal digits are equal units.  A wider unit may be the digits of two others. -/
namespace BpsProtocol
namespace PacketDigest

open Utf16 JsonText JsonValue Binary64

/-! ## Digits -/

def hexWidth (c : CodeUnit) : ℕ := (hexUnit c.val).length

section Digits

variable {n : ℕ} {s t : JsString}

theorem value_toDigits (n : ℕ) : HexText.value (Nat.toDigits 16 n) = n := by
  induction n using Nat.strong_induction_on with
  | _ n ih =>
    by_cases h : n < 16
    · rw [Nat.toDigits_of_lt_base h,← List.nil_append [_],HexText.value_append,
        HexText.digitValue_digitChar h]
      simp [HexText.value]
    · rw [Nat.toDigits_of_base_le (by decide) (by omega),HexText.value_append,ih (n/16) (by omega),
        HexText.digitValue_digitChar (Nat.mod_lt n (by decide))]
      omega

theorem value_hexUnit (n : ℕ) : HexText.value (hexUnit n) = n := by
  unfold hexUnit
  split
  · exact value_toDigits n
  · exact value_toDigits n

theorem hexUnit_injective : Function.Injective hexUnit := fun a b h => by
  rw [← value_hexUnit a,h,value_hexUnit]

/-- A unit of one byte takes two digits. -/
theorem hexUnit_length (h : n < 256) : (hexUnit n).length = 2 := by
  have hle : (Nat.toDigits 16 n).length ≤ 2 := (Nat.length_toDigits_le_iff (by decide) (by decide)).2 h
  unfold hexUnit
  by_cases hsmall : n < 16
  · rw [if_pos hsmall,Nat.toDigits_of_lt_base hsmall]
    rfl
  · have hnot : ¬(Nat.toDigits 16 n).length ≤ 1 := fun hone => hsmall
      ((Nat.length_toDigits_le_iff (by decide) (by decide)).1 hone)
    rw [if_neg hsmall,List.nil_append]
    omega

/-- Texts that take the same digits, the same number for each unit, are equal. -/
theorem utf8ToHex_inj (hwidth : s.map hexWidth = t.map hexWidth)
    (h : utf8ToHex s = utf8ToHex t) : s = t := by
  have hdigits : s.flatMap (fun c => hexUnit c.val) = t.flatMap (fun c => hexUnit c.val) :=
    (List.cons.inj (List.cons.inj h).2).2
  clear h
  induction s generalizing t with
  | nil => exact (List.map_eq_nil_iff.1 hwidth.symm).symm
  | cons c s ih =>
    obtain ⟨d,t,rfl,hcd,hst⟩ := List.map_eq_cons_iff.1 hwidth.symm
    rw [List.flatMap_cons,List.flatMap_cons] at hdigits
    obtain ⟨hunit,hrest⟩ := List.append_inj hdigits hcd.symm
    rw [Fin.ext (hexUnit_injective hunit),ih hst.symm hrest]

end Digits

/-! ## Numbers that are not finite -/

/-- A number that is printed as null. -/
def nonFinite : Leaf JsString Number → Option Number
  | .num .nan => some .nan
  | .num (.infinite negative) => some (.infinite negative)
  | _ => none

theorem eq_of_shown_of_nonFinite (a b : Leaf JsString Number) (h : shown a = shown b)
    (h' : nonFinite a = nonFinite b) : a = b := by
  have hcases : ∀ a : Leaf JsString Number, (nonFinite a = none ∧ unshown (shown a) = a) ∨
      ∃ x, nonFinite a = some x ∧ a = .num x := by
    intro a
    rcases a with _ | b | x | s
    · exact Or.inl ⟨rfl,rfl⟩
    · exact Or.inl ⟨rfl,rfl⟩
    · cases x with
      | finite x => exact Or.inl ⟨rfl,rfl⟩
      | nan => exact Or.inr ⟨_,rfl,rfl⟩
      | infinite negative => exact Or.inr ⟨_,rfl,rfl⟩
    · exact Or.inl ⟨rfl,rfl⟩
  rcases hcases a with ⟨hnone,hback⟩ | ⟨x,hx,rfl⟩ <;>
    rcases hcases b with ⟨hnone',hback'⟩ | ⟨x',hx',rfl⟩
  · rw [← hback,h,hback']
  · rw [h',hx'] at hnone
    cases hnone
  · rw [← h',hx] at hnone'
    cases hnone'
  · rw [hx,hx'] at h'
    rw [Option.some.inj h']

/-! ## Objects of single bytes -/

mutual

/-- Every name and every string holds units below 256 only. -/
def Narrow : Value → Prop
  | .leaf (.str s) => ∀ u ∈ s, u.val < 256
  | .leaf _ => True
  | .arr items => NarrowItems items
  | .obj ms => NarrowMembers ms

def NarrowItems : List Value → Prop
  | [] => True
  | v::vs => Narrow v ∧ NarrowItems vs

def NarrowMembers : List (JsString × Value) → Prop
  | [] => True
  | (k,v)::ms => (∀ u ∈ k, u.val < 256) ∧ Narrow v ∧ NarrowMembers ms

end

def NarrowText (t : Text) : Prop := ∀ c ∈ t, c.toNat < 256

section Narrow

theorem narrowText_of_all {t : Text} (h : t.all (fun c => c.toNat < 256) = true) : NarrowText t :=
  fun c hc => of_decide_eq_true (List.all_eq_true.1 h c hc)

theorem narrowText_append {a b : Text} (ha : NarrowText a) (hb : NarrowText b) :
    NarrowText (a ++ b) := List.forall_mem_append.2 ⟨ha,hb⟩

theorem codePoints_narrow {s : JsString} (h : ∀ u ∈ s, u.val < 256) :
    ∀ p ∈ codePoints s, p < 256 := by
  induction s with
  | nil => simp [codePoints]
  | cons u s ih =>
    rw [List.forall_mem_cons] at h
    have hhigh : isHigh u = false := by
      simp only [isHigh,Bool.and_eq_false_iff,decide_eq_false_iff_not]
      omega
    rw [codePoints_unit hhigh,List.forall_mem_cons]
    exact ⟨h.1,ih h.2⟩

theorem escape_narrow {n : ℕ} (h : n < 256) : NarrowText (escape n) := by
  have hall : ∀ n < 256, (escape n).all (fun c => c.toNat < 256) = true := by decide +kernel
  exact narrowText_of_all (hall n h)

theorem quote_narrow {s : JsString} (h : ∀ u ∈ s, u.val < 256) : NarrowText (quote s) := by
  intro c hc
  rw [quote,quotePoints,List.cons_append,List.mem_cons,List.mem_append,List.mem_flatMap] at hc
  rcases hc with rfl | ⟨p,hp,hc⟩ | hc
  · decide
  · exact escape_narrow (codePoints_narrow h p hp) c hc
  · rw [List.mem_singleton.1 hc]
    decide

theorem number_narrow (x : Double) : NarrowText (NumberText.text x) := by
  intro c hc
  have hchar := (NumberText.text_chars x).2 c hc
  simp only [NumberText.isNumeric,Bool.or_eq_true,decide_eq_true_eq,List.mem_cons,List.not_mem_nil,
    or_false] at hchar
  rcases hchar with hdigit | rfl | rfl | rfl | rfl
  · have := IntegerText.toNat_of_isDigit hdigit
    omega
  all_goals decide

theorem stringifyLeaf_narrow {a : Leaf JsString Number} (h : Narrow (.leaf a)) :
    NarrowText (stringifyLeaf a) := by
  have hnull : NarrowText "null".toList := narrowText_of_all (by decide)
  rcases a with _ | b | x | s
  · exact hnull
  · cases b with
    | false => exact narrowText_of_all (by decide)
    | true => exact narrowText_of_all (by decide)
  · cases x with
    | nan => exact hnull
    | infinite negative => exact hnull
    | finite x => exact number_narrow x
  · exact quote_narrow h

theorem join_narrow {parts : List Text} (h : ∀ t ∈ parts, NarrowText t) :
    NarrowText (Separated.join ',' parts) := by
  cases parts with
  | nil => simp [Separated.join,NarrowText]
  | cons t ts =>
    rw [List.forall_mem_cons] at h
    refine narrowText_append h.1 fun c hc => ?_
    obtain ⟨part,hpart,hc⟩ := List.mem_flatMap.1 hc
    rcases List.mem_cons.1 hc with rfl | hc
    · decide
    · exact h.2 part hpart c hc

theorem bracket_narrow {a b : Char} {t : Text} (ha : a.toNat < 256) (hb : b.toNat < 256)
    (h : NarrowText t) : NarrowText (a :: t ++ [b]) := by
  rw [List.cons_append]
  intro c hc
  rcases List.mem_cons.1 hc with rfl | hc
  · exact ha
  · rcases List.mem_append.1 hc with hc | hc
    · exact h c hc
    · rw [List.mem_singleton.1 hc]
      exact hb

mutual

theorem canonicalStable_narrow : ∀ {v : Value}, Narrow v → NarrowText (canonicalStable v)
  | .leaf _, h => stringifyLeaf_narrow h
  | .arr items, h => by
    rw [canonicalStable]
    exact bracket_narrow (by decide) (by decide) (join_narrow (stableItems_narrow h))
  | .obj ms, h => by
    rw [canonicalStable]
    refine bracket_narrow (by decide) (by decide) (join_narrow fun t ht => ?_)
    obtain ⟨m,hm,rfl⟩ := List.mem_map.1 ht
    obtain ⟨hkey,hvalue⟩ := stableMembers_narrow h m ((arranges_sortKeys.perm _).mem_iff.1 hm)
    refine narrowText_append (quote_narrow hkey) fun c hc => ?_
    rcases List.mem_cons.1 hc with rfl | hc
    · decide
    · exact hvalue c hc

theorem stableItems_narrow : ∀ {vs : List Value}, NarrowItems vs →
    ∀ t ∈ stableItems vs, NarrowText t
  | [], _ => by simp [stableItems]
  | v::vs, h => by
    rw [stableItems,List.forall_mem_cons]
    exact ⟨canonicalStable_narrow h.1,stableItems_narrow h.2⟩

theorem stableMembers_narrow : ∀ {ms : List (JsString × Value)}, NarrowMembers ms →
    ∀ m ∈ stableMembers ms, (∀ u ∈ m.1, u.val < 256) ∧ NarrowText m.2
  | [], _ => by simp [stableMembers]
  | (k,v)::ms, h => by
    rw [stableMembers,List.forall_mem_cons]
    exact ⟨⟨h.1,canonicalStable_narrow h.2.1⟩,stableMembers_narrow h.2.2⟩

end

theorem ofText_narrow {t : Text} (h : NarrowText t) : ∀ u ∈ ofText t, u.val < 256 := by
  intro u hu
  obtain ⟨c,hc,hu⟩ := List.mem_flatMap.1 hu
  have hlt := h c hc
  rw [encodePoint,if_pos (by omega),List.mem_singleton] at hu
  rw [hu,Fin.val_ofNat]
  omega

theorem map_hexWidth_narrow {s : JsString} (h : ∀ u ∈ s, u.val < 256) :
    s.map hexWidth = List.replicate s.length 2 := by
  rw [List.eq_replicate_iff,List.length_map]
  refine ⟨rfl,fun n hn => ?_⟩
  obtain ⟨u,hu,rfl⟩ := List.mem_map.1 hn
  exact hexUnit_length (h u hu)

/-- Texts of single bytes are read off their digits, two by two. -/
theorem utf8ToHex_inj_narrow {s t : JsString} (hs : ∀ u ∈ s, u.val < 256) (ht : ∀ u ∈ t, u.val < 256)
    (h : utf8ToHex s = utf8ToHex t) : s = t := by
  have hlength : ∀ {s : JsString}, (∀ u ∈ s, u.val < 256) → (utf8ToHex s).length = 2+2*s.length := by
    intro s hs
    have hsum : (s.map (fun c => (hexUnit c.val).length)).sum = 2*s.length := by
      have hwidths := map_hexWidth_narrow hs
      unfold hexWidth at hwidths
      rw [hwidths,List.sum_replicate_nat,mul_comm]
    rw [utf8ToHex,List.length_cons,List.length_cons,List.length_flatMap,hsum]
    omega
  have heq := congrArg List.length h
  rw [hlength hs,hlength ht] at heq
  have hcount : s.length = t.length := by omega
  exact utf8ToHex_inj (by rw [map_hexWidth_narrow hs,map_hexWidth_narrow ht,hcount]) h

end Narrow

/-! ## Binding -/

/-- The number of digits of each unit of the canonical text. -/
def hexWidths (v : Value) : List ℕ := (stableUnits v).map hexWidth

/-- The places of an object, with the numbers there that are printed as null. -/
def nonFinites (v : Value) : JsonTree JsString (Option Number) := v.mapLeaves nonFinite

section Binding

variable {x y : Value} {keccak256 : Text → Text}

theorem same_iff_sorted_eq (hy : y.WellFormed) :
    x.Same y ↔ x.rebuild shown sortKeys = y.rebuild shown sortKeys ∧
      x.rebuild nonFinite sortKeys = y.rebuild nonFinite sortKeys := by
  constructor
  · intro h
    exact ⟨h.rebuild_eq arranges_sortKeys hy,h.rebuild_eq arranges_sortKeys hy⟩
  · intro ⟨hshown,hnonFinite⟩
    rw [JsonTree.same_iff_arrange_eq arranges_sortKeys hy]
    rw [← JsonTree.mapLeaves_arrange,← JsonTree.mapLeaves_arrange] at hshown hnonFinite
    exact JsonTree.eq_of_mapLeaves eq_of_shown_of_nonFinite hshown hnonFinite

/-- A value with null for the numbers that are not finite. -/
def printed (v : Value) : JsonTree JsString (Leaf JsString Double) := v.mapLeaves shown

/-- The texts that the operator compares directly are equal for what is printed the same. -/
theorem reconMatchesPackaged_iff {a : Anchors} (hx : a.recon = some x) (hy : a.packaged = some y)
    (hwf : y.WellFormed) : reconMatchesPackaged a = true ↔ (printed x).Same (printed y) := by
  rw [reconMatchesPackaged,hx,hy]
  exact decide_eq_true_iff.trans (canonicalStable_inj_iff.trans
    (JsonTree.mapLeaves_same_iff arranges_sortKeys hwf).symm)

/-- Equal digests of texts that take the same digits unit by unit are those of one text. -/
theorem stable_eq_of_digest (hfree : keccak256 (utf8ToHex (stableUnits x)) =
      keccak256 (utf8ToHex (stableUnits y)) → utf8ToHex (stableUnits x) = utf8ToHex (stableUnits y))
    (hdigest : digestOf x keccak256 = digestOf y keccak256) (hwidth : hexWidths x = hexWidths y) :
    canonicalStable x = canonicalStable y :=
  ofText_injective (utf8ToHex_inj hwidth (hfree hdigest))

/-- The digest of an object of single bytes binds all that is printed of it. -/
theorem digestOf_binds_narrow (hy : y.WellFormed)
    (hxNarrow : Narrow x) (hyNarrow : Narrow y)
    (hfree : keccak256 (utf8ToHex (stableUnits x)) = keccak256 (utf8ToHex (stableUnits y)) →
      utf8ToHex (stableUnits x) = utf8ToHex (stableUnits y))
    (hdigest : digestOf x keccak256 = digestOf y keccak256) : (printed x).Same (printed y) := by
  have hunits : stableUnits x = stableUnits y := utf8ToHex_inj_narrow
    (ofText_narrow (canonicalStable_narrow hxNarrow))
    (ofText_narrow (canonicalStable_narrow hyNarrow)) (hfree hdigest)
  exact (JsonTree.mapLeaves_same_iff arranges_sortKeys hy).2
    (canonicalStable_inj_iff.1 (ofText_injective hunits))

/-- Objects of one digest are the same exactly if their texts take the same digits unit by unit
and numbers that are not finite stand in the same places. -/
theorem digestOf_binds_iff (hy : y.WellFormed)
    (hfree : keccak256 (utf8ToHex (stableUnits x)) = keccak256 (utf8ToHex (stableUnits y)) →
      utf8ToHex (stableUnits x) = utf8ToHex (stableUnits y))
    (hdigest : digestOf x keccak256 = digestOf y keccak256) :
    x.Same y ↔ hexWidths x = hexWidths y ∧ (nonFinites x).Same (nonFinites y) := by
  rw [same_iff_sorted_eq hy,nonFinites,nonFinites,JsonTree.mapLeaves_same_iff arranges_sortKeys hy,
    ← canonicalStable_inj_iff]
  constructor
  · intro ⟨hstable,hnonFinite⟩
    exact ⟨by rw [hexWidths,hexWidths,stableUnits,hstable,stableUnits],hnonFinite⟩
  · intro ⟨hwidth,hnonFinite⟩
    exact ⟨stable_eq_of_digest hfree hdigest hwidth,hnonFinite⟩

def samplePacket : Value :=
  .obj [(lit "label",.leaf (.str (lit "buy"))),(lit "to",.leaf .null)]

def reorderedPacket : Value :=
  .obj [(lit "to",.leaf .null),(lit "label",.leaf (.str (lit "buy")))]

theorem reorderedPacket_bound :
    digestOf reorderedPacket (fun hex => hex) = digestOf samplePacket (fun hex => hex) ∧
    (reorderedPacket.Same samplePacket ↔ hexWidths reorderedPacket = hexWidths samplePacket ∧
      (nonFinites reorderedPacket).Same (nonFinites samplePacket)) := by
  have hdigest : digestOf reorderedPacket (fun hex => hex) = digestOf samplePacket (fun hex => hex) := by
    decide +kernel
  exact ⟨hdigest,digestOf_binds_iff ⟨by decide,trivial,trivial,trivial⟩ (fun h => h) hdigest⟩

/-- `\x7b"a":"AA"\x7d` -/
def narrowPacket : Value := .obj [(lit "a",.leaf (.str (lit "AA")))]

/-- The same digits as one unit: `41` and `41` are `4141`. -/
def widePacket : Value := .obj [(lit "a",.leaf (.str (lit "\u4141")))]

theorem narrowPacket_wellFormed : narrowPacket.WellFormed := ⟨by decide,trivial,trivial⟩

theorem widePacket_unbound : widePacket.WellFormed ∧ narrowPacket.WellFormed ∧
    (∀ keccak256, digestOf widePacket keccak256 = digestOf narrowPacket keccak256) ∧
    ¬widePacket.Same narrowPacket := by
  have hhex : utf8ToHex (stableUnits widePacket) = utf8ToHex (stableUnits narrowPacket) := by
    decide +kernel
  refine ⟨⟨by decide,trivial,trivial⟩,narrowPacket_wellFormed,fun keccak256 => ?_,fun h => ?_⟩
  · rw [digestOf,digestOf,hhex]
  · have hstable := canonicalStable_inj_iff.2 ((same_iff_sorted_eq narrowPacket_wellFormed).1 h).1
    exact absurd hstable (by decide +kernel)

end Binding

end PacketDigest
end BpsProtocol
