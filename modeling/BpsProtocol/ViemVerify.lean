import BpsProtocol.Lib.IntegerText
import BpsProtocol.MerkleSoundness

/-! Proof verification over the strings of an artifact.
A hash is a string of 64 digits; a proof element may be any string.  On hashes the strings
fold as their words do, and a string that hashes as a given word reads as its bytes. -/
namespace BpsProtocol
namespace ViemVerify

open HexText IntegerText MerkleProof LeafEncoding Merkle

/-- `x.replace('0x', '')`: the first marker is dropped. -/
def stripMarker : Text → Text
  | '0' :: 'x' :: rest => rest
  | c::rest => c::stripMarker rest
  | [] => []

def concatHex (values : List Text) : Text := '0' :: 'x' :: values.flatMap stripMarker

/-- The string of a hash. -/
def wordText (w : Bytes32) : Text := '0' :: 'x' :: write 64 w.val

/-- `keccak256` of a string of bytes; no value where it throws. -/
def keccakHex (keccak256 : Hash) (hex : Text) : Option Text :=
  (hexToBytes hex).map (fun bytes => wordText (keccak256 bytes))

def sortedPair (a b : Text) : Option Text := do
  let x ← toBigInt a
  let y ← toBigInt b
  return if x < y then concatHex [a,b] else concatHex [b,a]

/-- One turn of the loop of `viemProcessProof`. -/
def hashSibling (keccak256 : Hash) (computed sibling : Text) : Option Text := do
  let pair ← sortedPair computed sibling
  keccakHex keccak256 pair

def viemProcessProof (keccak256 : Hash) : (computed : Text) → (proof : List Text) → Option Text
  | computed, [] => some computed
  | computed, sibling::rest => do
    let computed ← hashSibling keccak256 computed sibling
    viemProcessProof keccak256 computed rest

def viemVerifyRaw (keccak256 : Hash) (f : LeafFields) (proof : List Text) (root : Text) :
    Option Bool := do
  let leaf ← viemLeafHashRaw keccak256 f
  let computed ← viemProcessProof keccak256 (wordText leaf) proof
  return computed = root

/-- The bytes that a proof element contributes. -/
def elementBytes (element : Text) : Option Bytes := hexToBytes (concatHex [element])

/-! ## Hashes as strings -/

theorem wordText_injective {a b : Bytes32} (h : wordText a = wordText b) : a = b := by
  have ha : a.val < 16^64 := a.isLt.trans_eq (by norm_num)
  have hb : b.val < 16^64 := b.isLt.trans_eq (by norm_num)
  have hdigits : write 64 a.val = write 64 b.val := (List.cons.inj (List.cons.inj h).2).2
  apply Fin.ext
  rw [← value_write ha,hdigits,value_write hb]

theorem toBigInt_wordText (w : Bytes32) : toBigInt (wordText w) = some (w.val : ℤ) := by
  have hlt : w.val < 16^64 := w.isLt.trans_eq (by norm_num)
  have hne : write 64 w.val ≠ [] := by
    intro h
    have := congrArg List.length h
    simp at this
  rw [wordText,toBigInt_hex hne isDigit_of_mem_write,value_write hlt]

theorem stripMarker_wordText (w : Bytes32) : stripMarker (wordText w) = write 64 w.val := rfl

theorem wordBytes_append (a b : Bytes32) :
    wordBytes a ++ wordBytes b = Bytes.bigEndian 64 (a.val*16^64+b.val) := by
  have hb : b.val < 256^32 := b.isLt.trans_eq (by norm_num)
  have h := bigEndian_append 32 32 (x := a.val) hb
  rw [wordBytes,wordBytes,← h,show (256 : ℕ)^32 = 16^64 by norm_num]

/-- The bytes that one turn of the loop hashes. -/
def siblingBytes (computed : Bytes32) (sibling : Text) : Option Bytes := do
  let pair ← sortedPair (wordText computed) sibling
  hexToBytes pair

theorem hashSibling_eq_some {keccak256 : Hash} {computed : Bytes32} {sibling t : Text} :
    hashSibling keccak256 (wordText computed) sibling = some t ↔
      ∃ bytes, siblingBytes computed sibling = some bytes ∧ t = wordText (keccak256 bytes) := by
  simp only [hashSibling,siblingBytes,keccakHex,Option.bind_eq_bind,Option.bind_eq_some_iff,
    Option.map_eq_some_iff]
  constructor
  · rintro ⟨pair,hpair,bytes,hbytes,rfl⟩
    exact ⟨bytes,⟨pair,hpair,hbytes⟩,rfl⟩
  · rintro ⟨bytes,⟨pair,hpair,hbytes⟩,rfl⟩
    exact ⟨pair,hpair,bytes,hbytes,rfl⟩

/-- A turn over a hash hashes the sorted pair of the two words. -/
theorem siblingBytes_wordText (a b : Bytes32) :
    siblingBytes a (wordText b) = some (LeafEncoding.sortedPair a b) := by
  have hpair (x y : Bytes32) :
      hexToBytes (concatHex [wordText x,wordText y]) = some (wordBytes x ++ wordBytes y) := by
    have hx : x.val < 16^64 := x.isLt.trans_eq (by norm_num)
    have hy : y.val < 16^64 := y.isLt.trans_eq (by norm_num)
    have hconcat : concatHex [wordText x,wordText y] =
        '0' :: 'x' :: (write 64 x.val ++ write 64 y.val) := by
      simp [concatHex,stripMarker_wordText]
    rw [hconcat,hexToBytes_eq_some,value_append_text,value_write hx,value_write hy,
      List.length_append,write_length,write_length,wordBytes_append]
    refine ⟨fun c hc => ?_,rfl⟩
    cases List.mem_append.1 hc with
    | inl hc => exact isDigit_of_mem_write c hc
    | inr hc => exact isDigit_of_mem_write c hc
  have hlt : ((a.val : ℤ) < b.val) ↔ a < b := by
    rw [Fin.lt_def]
    exact_mod_cast Iff.rfl
  simp only [siblingBytes,sortedPair,toBigInt_wordText,Option.bind_eq_bind,Option.bind_some,
    LeafEncoding.sortedPair,hlt,Option.pure_def]
  by_cases hab : a < b
  · rw [if_pos hab,if_pos hab,hpair]
  · rw [if_neg hab,if_neg hab,hpair]

/-- Over hashes the strings fold as the words. -/
theorem viemProcessProof_wordText (keccak256 : Hash) (leaf : Bytes32) (proof : List Bytes32) :
    viemProcessProof keccak256 (wordText leaf) (proof.map wordText) =
      some (wordText (LeafEncoding.viemProcessProof keccak256 leaf proof)) := by
  induction proof generalizing leaf with
  | nil => rfl
  | cons sibling rest ih =>
    have hstep : hashSibling keccak256 (wordText leaf) (wordText sibling) =
        some (wordText (keccak256 (LeafEncoding.sortedPair leaf sibling))) :=
      hashSibling_eq_some.2 ⟨_,siblingBytes_wordText leaf sibling,rfl⟩
    rw [List.map_cons,viemProcessProof,hstep]
    exact ih _

/-- The verifier of the strings agrees with the verifier of the words. -/
theorem viemVerifyRaw_wordText (keccak256 : Hash) (f : LeafFields) (proof : List Bytes32)
    (root : Bytes32) : viemVerifyRaw keccak256 f (proof.map wordText) (wordText root) =
      LeafEncoding.viemVerifyRaw keccak256 f proof root := by
  unfold viemVerifyRaw LeafEncoding.viemVerifyRaw
  cases viemLeafHashRaw keccak256 f with
  | none => rfl
  | some leaf =>
    have heq : (wordText (LeafEncoding.viemProcessProof keccak256 leaf proof) = wordText root) ↔
        LeafEncoding.viemProcessProof keccak256 leaf proof = root :=
      ⟨wordText_injective,fun h => by rw [h]⟩
    simp [viemProcessProof_wordText,heq]

/-! ## What a proof element must be to hash as a given word -/

theorem stripMarker_cases (t : Text) : stripMarker t = t ∨
    ∃ before after, t = before ++ '0' :: 'x' :: after ∧ stripMarker t = before ++ after := by
  induction t using stripMarker.induct with
  | case1 rest => exact .inr ⟨[],rest,rfl,rfl⟩
  | case2 c rest hne ih =>
    have hstep : stripMarker (c::rest) = c::stripMarker rest := by
      rw [stripMarker]
      exact hne
    rw [hstep]
    cases ih with
    | inl hsame => exact .inl (by rw [hsame])
    | inr hfound =>
      obtain ⟨before,after,ht,hstrip⟩ := hfound
      exact .inr ⟨c::before,after,by rw [ht,List.cons_append],by rw [hstrip,List.cons_append]⟩
  | case3 => exact .inl rfl

/-- The number that a proof element is compared by is at most the number that it hashes as. -/
theorem toBigInt_le_stripMarker {t : Text} {n : ℤ} (h : ∀ c ∈ stripMarker t, isDigit c = true)
    (hn : toBigInt t = some n) : n ≤ value (stripMarker t) := by
  cases stripMarker_cases t with
  | inl hsame =>
    rw [hsame] at h ⊢
    exact toBigInt_le_value h hn
  | inr hfound =>
    obtain ⟨before,after,ht,hstrip⟩ := hfound
    rw [hstrip] at h ⊢
    subst ht
    cases before with
    | nil =>
      cases after with
      | nil => cases (show toBigInt ['0','x'] = none by decide).symm.trans hn
      | cons c after =>
        rw [List.nil_append,toBigInt_hex (List.cons_ne_nil c after) h] at hn
        exact (Option.some.inj hn).symm.le
    | cons c before =>
      -- a marker further on is no digit of any literal
      have htrim : trim (c::before ++ '0' :: 'x' :: after) = c::before ++ '0' :: 'x' :: after := by
        apply trim_eq_self
        intro d hd
        have hplain : ∀ d ∈ '0' :: 'x' :: after, isStrWhiteSpace d = false := by
          rw [List.forall_mem_cons,List.forall_mem_cons]
          exact ⟨by decide,by decide,fun d hd =>
            isStrWhiteSpace_of_isDigit (h d (List.mem_append_right _ hd))⟩
        cases List.mem_append.1 hd with
        | inl hd => exact isStrWhiteSpace_of_isDigit (h d (List.mem_append_left _ hd))
        | inr hd => exact hplain d hd
      have hx : 'x' ∈ (c::before ++ '0' :: 'x' :: after).drop 2 := by
        cases before <;> simp
      exact absurd (isDigit_of_toBigInt htrim hn 'x' hx) (by decide)

theorem elementBytes_eq {element : Text} (h : ∀ c ∈ stripMarker element, isDigit c = true) :
    elementBytes element = some (Bytes.bigEndian (((stripMarker element).length+1)/2)
      (value (stripMarker element))) := by
  have hconcat : concatHex [element] = '0' :: 'x' :: stripMarker element := by simp [concatHex]
  rw [elementBytes,hconcat,hexToBytes_eq_some]
  exact ⟨h,rfl⟩

/-- Both orders of a pair, as one number. -/
theorem sortedPair_bigEndian (a b : Bytes32) : ∃ n : ℕ,
    (n = a.val*16^64+b.val ∨ n = b.val*16^64+a.val) ∧ n < 256^64 ∧
      LeafEncoding.sortedPair a b = Bytes.bigEndian 64 n := by
  have ha : a.val < 16^64 := a.isLt.trans_eq (by norm_num)
  have hb : b.val < 16^64 := b.isLt.trans_eq (by norm_num)
  unfold LeafEncoding.sortedPair
  split
  · refine ⟨_,.inl rfl,?_,wordBytes_append a b⟩
    norm_num at ha hb ⊢
    omega
  · refine ⟨_,.inr rfl,?_,wordBytes_append b a⟩
    norm_num at ha hb ⊢
    omega

/-- The digits of a hash and of an element that hash as a pair of words: the element spells
the other word.  With one digit less, the element cannot stand second, where it is the
larger of the two. -/
theorem value_of_pair {c s V k : ℕ} (hc : c < 16^64) (hs : s < 16^64) (hV : V < 16^k)
    (hk : (64+k+1)/2 = 64) {N : ℕ} (hN : N = c*16^64+s ∨ N = s*16^64+c) :
    (V*16^64+c = N → V = s) ∧ (c < V → c*16^k+V = N → V = s) := by
  have hk' : k = 63 ∨ k = 64 := by omega
  cases hk' with
  | inl hk63 =>
    subst hk63
    norm_num at *
    omega
  | inr hk64 =>
    subst hk64
    norm_num at *
    omega

/-- A string that hashes with a hash as a word does reads as the bytes of that word. -/
theorem elementBytes_of_siblingBytes {c s : Bytes32} {element : Text}
    (h : siblingBytes c element = some (LeafEncoding.sortedPair c s)) :
    elementBytes element = some (wordBytes s) := by
  have hc : c.val < 16^64 := c.isLt.trans_eq (by norm_num)
  have hs : s.val < 16^64 := s.isLt.trans_eq (by norm_num)
  obtain ⟨N,hN,hlt,hpair⟩ := sortedPair_bigEndian c s
  have hconcat (x y : Text) : concatHex [x,y] = '0' :: 'x' :: (stripMarker x ++ stripMarker y) := by
    simp [concatHex]
  have hlength (ds : Text) (hlen : Bytes.bigEndian ((ds.length+1)/2) (value ds) =
      LeafEncoding.sortedPair c s) (hds : ∀ x ∈ ds, isDigit x = true) :
      (ds.length+1)/2 = 64 ∧ value ds = N := by
    have hl := congrArg List.length hlen
    rw [Bytes.bigEndian_length,LeafEncoding.sortedPair_length] at hl
    rw [hl,hpair] at hlen
    have hv : value ds < 256^64 := by
      apply (value_lt hds).trans_le
      rw [show (256 : ℕ)^64 = 16^128 by norm_num]
      exact Nat.pow_le_pow_right (by decide) (by omega)
    exact ⟨hl,Bytes.bigEndian_injective hv hlt hlen⟩
  simp only [siblingBytes,sortedPair,toBigInt_wordText,Option.bind_eq_bind,Option.bind_some,
    Option.bind_eq_some_iff,Option.pure_def,Option.some.injEq] at h
  obtain ⟨pair,⟨n,hn,rfl⟩,hbytes⟩ := h
  split at hbytes
  · rename_i hcn
    rw [hconcat,stripMarker_wordText,hexToBytes_eq_some] at hbytes
    obtain ⟨hdigits,hbytes⟩ := hbytes
    have hdigits' : ∀ x ∈ stripMarker element, isDigit x = true :=
      fun x hx => hdigits x (List.mem_append_right _ hx)
    obtain ⟨hl,hv⟩ := hlength _ hbytes.symm hdigits
    rw [List.length_append,write_length] at hl
    rw [value_append_text,value_write hc] at hv
    have hle := toBigInt_le_stripMarker hdigits' hn
    have hV := (value_of_pair hc hs (value_lt hdigits') hl hN).2 (by omega) hv
    rw [elementBytes_eq hdigits',hV,show ((stripMarker element).length+1)/2 = 32 by omega]
    rfl
  · rw [hconcat,stripMarker_wordText,hexToBytes_eq_some] at hbytes
    obtain ⟨hdigits,hbytes⟩ := hbytes
    have hdigits' : ∀ x ∈ stripMarker element, isDigit x = true :=
      fun x hx => hdigits x (List.mem_append_left _ hx)
    obtain ⟨hl,hv⟩ := hlength _ hbytes.symm hdigits
    rw [List.length_append,write_length,Nat.add_comm (List.length _) 64] at hl
    rw [value_append_text,value_write hc,write_length] at hv
    have hV := (value_of_pair hc hs (value_lt hdigits') hl hN).1 hv
    rw [elementBytes_eq hdigits',hV,show ((stripMarker element).length+1)/2 = 32 by omega]
    rfl

end ViemVerify
end BpsProtocol
