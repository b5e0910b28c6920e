import BpsProtocol.QuoteClient
import Mathlib.Tactic.FieldSimp
import Mathlib.Tactic.Positivity

/-! Amounts of a quote.
A string of digits is read exactly.  A JSON number is rounded to a double before the client sees
it, so an accepted quote says what its text says exactly where the numbers of the text are
doubles. -/
namespace BpsProtocol
namespace QuoteClient
open Checked Utf16 JsonText JsonTree JsonSyntax JsonParse Binary64
open JsonValue (Value)

/-! ## Decimals -/

/-- Digits, and more digits behind a point where there is one. -/
structure PlainDecimal where
  whole : Digits
  fraction : Digits
  whole_ne_nil : whole ≠ []

namespace PlainDecimal

def text (d : PlainDecimal) : JsString := d.whole.text ++ fractionText d.fraction

def value (d : PlainDecimal) : ℚ := Digits.value (d.whole ++ d.fraction)/10^d.fraction.length

end PlainDecimal

section Decimals

variable {ds es : Digits} {r s : JsString} {p : CodeUnit → Bool}

theorem digits_append (ds es : Digits) : Digits.text (ds ++ es) = ds.text ++ es.text :=
  List.map_append

theorem value_append_zeros (ds : Digits) (k : ℕ) :
    Digits.value (ds ++ List.replicate k 0) = ds.value*10^k := by
  induction k with
  | zero => simp
  | succ k ih =>
    have hsnoc : Digits.value (ds ++ List.replicate (k+1) 0) =
        10*Digits.value (ds ++ List.replicate k 0) := by
      rw [List.replicate_succ',← List.append_assoc]
      simp [Digits.value]
    rw [hsnoc,ih,pow_succ]
    ring

theorem takeWhile_digits (hp : ∀ d : Fin 10, p (unit (Nat.digitChar d.val)) = true)
    (hr : Ends p r) : (ds.text ++ r).takeWhile p = ds.text ∧ (ds.text ++ r).dropWhile p = r := by
  have hall : ∀ u ∈ ds.text, p u = true := by
    intro u hu
    obtain ⟨d,-,rfl⟩ := List.mem_map.1 hu
    exact hp d
  rw [List.takeWhile_append_of_pos hall,List.dropWhile_append_of_pos hall]
  cases r with
  | nil => exact ⟨List.append_nil _,rfl⟩
  | cons u r =>
    have hu : ¬p u = true := by
      rw [hr u rfl]
      decide
    rw [List.takeWhile_cons_of_neg hu,List.dropWhile_cons_of_neg hu]
    exact ⟨List.append_nil _,rfl⟩

theorem ends_fractionText (hp : p (unit '.') = false) : Ends p (fractionText ds) := by
  unfold fractionText
  split
  · intro u hu
    cases hu
  · exact Ends.cons hp

/-- The pattern accepts exactly the plain decimals. -/
theorem isDecimal_iff : isDecimal s = true ↔ ∃ d : PlainDecimal, d.text = s := by
  constructor
  · intro h
    rw [isDecimal,Bool.and_eq_true,Bool.or_eq_true] at h
    obtain ⟨whole,hwhole⟩ := exists_digits_of_all (List.all_takeWhile (p := isDigit) (l := s))
    have hs := List.takeWhile_append_dropWhile (p := isDigit) (l := s)
    have hne : whole ≠ [] := by
      rintro rfl
      rw [hwhole] at h
      exact absurd h.1 (by decide)
    rw [hwhole] at hs
    obtain hnil | hpoint := h.2
    · rw [List.isEmpty_iff.1 hnil] at hs
      exact ⟨⟨whole,[],hne⟩,hs⟩
    · rw [Bool.and_eq_true,decide_eq_true_eq] at hpoint
      obtain ⟨fraction,hfraction,htail⟩ := isDigits_iff.1 hpoint.2
      refine ⟨⟨whole,fraction,hne⟩,?_⟩
      rw [PlainDecimal.text,fractionText,if_neg hfraction,← htail]
      cases hrest : s.dropWhile isDigit with
      | nil =>
        rw [hrest] at hpoint
        cases hpoint.1
      | cons u rest =>
        rw [hrest] at hpoint hs
        rw [← Option.some.inj hpoint.1]
        exact hs
  · rintro ⟨⟨whole,fraction,hne⟩,rfl⟩
    have hends : Ends isDigit (fractionText fraction) := ends_fractionText (by decide)
    obtain ⟨htake,hdrop⟩ := @takeWhile_digits whole _ _
      (fun d => by rw [isDigit,digitOf_unit]; rfl) hends
    have hnonempty : (!whole.text.isEmpty) = true := by
      cases whole with
      | nil => exact absurd rfl hne
      | cons d ds => rfl
    rw [isDecimal,PlainDecimal.text,htake,hdrop,hnonempty,Bool.true_and]
    by_cases hfraction : fraction = []
    · rw [fractionText,if_pos hfraction]
      rfl
    · rw [fractionText,if_neg hfraction]
      simp [isDigits_text hfraction]

/-- The two parts around the point. -/
theorem split_text (d : PlainDecimal) :
    d.text.takeWhile (· ≠ unit '.') = d.whole.text ∧
      ((d.text.dropWhile (· ≠ unit '.')).drop 1).takeWhile (· ≠ unit '.') = d.fraction.text := by
  have hdigit : ∀ d : Fin 10, decide (unit (Nat.digitChar d.val) ≠ unit '.') = true := by decide
  have hends : Ends (· ≠ unit '.') (fractionText d.fraction) := ends_fractionText (by decide)
  obtain ⟨htake,hdrop⟩ := @takeWhile_digits d.whole _ (· ≠ unit '.') hdigit hends
  refine ⟨htake,?_⟩
  rw [PlainDecimal.text,hdrop]
  by_cases hnil : d.fraction = []
  · rw [fractionText,if_pos hnil,hnil]
    rfl
  · have hrest := (@takeWhile_digits d.fraction [] (· ≠ unit '.') hdigit
      (fun u hu => by cases hu)).1
    rw [List.append_nil] at hrest
    rw [fractionText,if_neg hnil,List.drop_one,List.tail_cons,hrest]

theorem padEnd_text (ds : Digits) (k : ℕ) :
    padEnd ds.text k = Digits.text (ds ++ List.replicate (k-ds.length) 0) := by
  rw [padEnd,digits_append]
  congr 1
  simp only [Digits.text,List.map_replicate,List.length_map]
  rfl

theorem decimalToBaseUnits_text (d : PlainDecimal) (decimals : ℕ) :
    decimalToBaseUnits d.text decimals =
      if decimals < d.fraction.length then none
      else
        let n : ℕ := Digits.value (d.whole ++ d.fraction)*10^(decimals-d.fraction.length)
        if 0 < n then some (n : ℤ) else none := by
  obtain ⟨hint,hfrac⟩ := split_text d
  have hlength : d.fraction.text.length = d.fraction.length := List.length_map _
  have hne : d.whole ++ (d.fraction ++ List.replicate (decimals-d.fraction.length) 0) ≠ [] := by
    simp [d.whole_ne_nil]
  rw [decimalToBaseUnits,isDecimal_iff.2 ⟨d,rfl⟩]
  simp only [Bool.not_true,Bool.false_eq_true,if_false,hint,hfrac,hlength,padEnd_text,
    ← digits_append,bigIntOfString_digits hne,Option.bind_some]
  rw [← List.append_assoc,value_append_zeros]
  simp only [Int.natCast_pos]

theorem scaled_value (d : PlainDecimal) {decimals : ℕ} (h : d.fraction.length ≤ decimals) :
    ((Digits.value (d.whole ++ d.fraction)*10^(decimals-d.fraction.length) : ℕ) : ℚ) =
      d.value*10^decimals := by
  have hpow : (10 : ℚ)^decimals = 10^(decimals-d.fraction.length)*10^d.fraction.length := by
    rw [← pow_add,Nat.sub_add_cancel h]
  rw [PlainDecimal.value,hpow]
  push_cast
  field_simp

theorem scaled_pos_iff (d : PlainDecimal) {decimals : ℕ} (h : d.fraction.length ≤ decimals) :
    0 < Digits.value (d.whole ++ d.fraction)*10^(decimals-d.fraction.length) ↔ 0 < d.value := by
  rw [← Nat.cast_pos (α := ℚ),scaled_value d h]
  exact mul_pos_iff_of_pos_right (by positivity)

/-- A plain decimal is converted exactly where it is positive and not too fine. -/
theorem decimalToBaseUnits_text_eq_some (d : PlainDecimal) {decimals : ℕ} {n : ℤ} :
    decimalToBaseUnits d.text decimals = some n ↔
      d.fraction.length ≤ decimals ∧ 0 < d.value ∧ (n : ℚ) = d.value*10^decimals := by
  rw [decimalToBaseUnits_text]
  by_cases hfine : decimals < d.fraction.length
  · rw [if_pos hfine]
    exact iff_of_false (fun h => by cases h) fun h => absurd h.1 (not_le.2 hfine)
  · have hd := not_lt.1 hfine
    have hscale := scaled_value d hd
    rw [if_neg hfine]
    simp only
    constructor
    · intro h
      split at h
      · rename_i hn
        refine ⟨hd,(scaled_pos_iff d hd).1 hn,?_⟩
        rw [← Option.some.inj h,← hscale]
        rfl
      · cases h
    · rintro ⟨-,hvalue,hn⟩
      rw [if_pos ((scaled_pos_iff d hd).2 hvalue),Option.some.injEq]
      rw [← hn] at hscale
      exact_mod_cast hscale

/-- `decimalToBaseUnits` is exact, and succeeds on the positive plain decimals that the token can
represent. -/
theorem decimalToBaseUnits_eq_some {decimals : ℕ} {n : ℤ} :
    decimalToBaseUnits s decimals = some n ↔
      ∃ d : PlainDecimal, d.text = s ∧ d.fraction.length ≤ decimals ∧ 0 < d.value ∧
        (n : ℚ) = d.value*10^decimals := by
  constructor
  · intro h
    by_cases hdecimal : isDecimal s = true
    · obtain ⟨d,rfl⟩ := isDecimal_iff.1 hdecimal
      exact ⟨d,rfl,(decimalToBaseUnits_text_eq_some d).1 h⟩
    · rw [decimalToBaseUnits] at h
      simp [hdecimal] at h
  · rintro ⟨d,rfl,hd⟩
    exact (decimalToBaseUnits_text_eq_some d).2 hd

end Decimals

/-! ## Integers -/

/-- The integer that the client reads. -/
def integerOf : Option Value → Option ℤ
  | some (.leaf (.str s)) => if isDigits s then bigIntOfString s else none
  | some (.leaf (.num x)) => FeedAcceptance.bigIntOf x
  | _ => none

/-- What a written amount denotes: a string of digits, or a JSON number. -/
inductive Denotes : Tree → ℚ → Prop
  | digits (s : StringLit) (ds : Digits) (hne : ds ≠ []) (hs : s.decoded = ds.text) :
    Denotes (.leaf (.str s)) ds.value
  | number (n : NumberLit) : Denotes (.leaf (.num n)) n.value

/-- The amount is written, and denotes this number. -/
def IsAmount (t : Option Tree) (q : ℚ) : Prop := ∃ u, t = some u ∧ Denotes u q

/-- Where the amount is written as a JSON number, that number is a double. -/
def AmountRepresentable (t : Option Tree) : Prop :=
  ∀ n, t = some (.leaf (.num n)) → Representable n.value

section Integers

variable {v : Option Value} {t : Option Tree} {n : ℤ} {x : Number}

theorem bigIntOf_eq_some : FeedAcceptance.bigIntOf x = some n ↔ x.Is n := by
  cases x with
  | nan => exact iff_of_false (fun h => by cases h) (by rintro ⟨y,hy,-⟩; cases hy)
  | infinite negative => exact iff_of_false (fun h => by cases h) (by rintro ⟨y,hy,-⟩; cases hy)
  | finite y =>
    constructor
    · intro h
      rw [FeedAcceptance.bigIntOf] at h
      split at h
      · rename_i hden
        obtain rfl := Option.some.inj h
        exact ⟨y,rfl,(Rat.coe_int_num_of_den_eq_one hden).symm⟩
      · cases h
    · rintro ⟨z,hz,hval⟩
      obtain rfl := Number.finite.inj hz
      rw [FeedAcceptance.bigIntOf,hval,if_pos (Rat.den_intCast n),Rat.num_intCast]

/-- A string, a number, or a value that is no amount. -/
theorem amount_cases {p : Option Value → Prop} (str : ∀ s, p (some (.leaf (.str s))))
    (num : ∀ x, p (some (.leaf (.num x))))
    (other : ∀ v, integerOf v = none → (∀ n, rawEquals v n = false) →
      parsePositiveBigInt v = none → p v) (v : Option Value) : p v := by
  match v with
  | some (.leaf (.str s)) => exact str s
  | some (.leaf (.num x)) => exact num x
  | some (.leaf .null) => exact other _ rfl (fun _ => rfl) rfl
  | some (.leaf (.bool b)) => exact other _ rfl (fun _ => rfl) rfl
  | some (.arr items) => exact other _ rfl (fun _ => rfl) rfl
  | some (.obj members) => exact other _ rfl (fun _ => rfl) rfl
  | none => exact other _ rfl (fun _ => rfl) rfl

theorem rawEquals_iff : rawEquals v n = true ↔ integerOf v = some n := by
  induction v using amount_cases with
  | str s =>
    change (isDigits s && bigIntOfString s = some n) = true ↔
      (if isDigits s then bigIntOfString s else none) = some n
    by_cases hs : isDigits s = true
    · simp [hs]
    · simp [hs]
  | num x =>
    change (x.isInteger && FeedAcceptance.bigIntOf x = some n) = true ↔
      FeedAcceptance.bigIntOf x = some n
    rw [Bool.and_eq_true,decide_eq_true_eq]
    exact ⟨And.right,fun h => ⟨(bigIntOf_eq_some.1 h).isInteger,h⟩⟩
  | other v hinteger hequals hpositive => simp [hinteger,hequals]

theorem positive_eq_some {o : Option ℤ} :
    (o.bind fun n => if 0 < n then some n else none) = some n ↔ o = some n ∧ 0 < n := by
  cases o with
  | none => simp
  | some m =>
    rw [Option.bind_some,Option.some.injEq]
    constructor
    · intro h
      split at h
      · obtain rfl := Option.some.inj h
        exact ⟨rfl,‹_›⟩
      · cases h
    · rintro ⟨rfl,hpos⟩
      exact if_pos hpos

theorem parsePositiveBigInt_eq_some :
    parsePositiveBigInt v = some n ↔ integerOf v = some n ∧ 0 < n := by
  induction v using amount_cases with
  | str s =>
    change (if isDigits s then
        (bigIntOfString s).bind fun n => if 0 < n then some n else none else none) = some n ↔
      (if isDigits s then bigIntOfString s else none) = some n ∧ 0 < n
    by_cases hs : isDigits s = true
    · rw [if_pos hs,if_pos hs,positive_eq_some]
    · simp [hs]
  | num x =>
    change (if x.isInteger && (Number.ofRat 0).lt x then FeedAcceptance.bigIntOf x else none) =
      some n ↔ FeedAcceptance.bigIntOf x = some n ∧ 0 < n
    have hzero : (Number.ofRat 0).Is 0 := Number.is_ofRat (Int.cast_zero).symm (by decide)
    constructor
    · intro h
      split at h
      · rename_i hcond
        rw [Bool.and_eq_true] at hcond
        rw [hzero.lt (bigIntOf_eq_some.1 h),decide_eq_true_eq] at hcond
        exact ⟨h,hcond.2⟩
      · cases h
    · rintro ⟨hn,hpos⟩
      have his := bigIntOf_eq_some.1 hn
      rw [his.isInteger,hzero.lt his,decide_eq_true hpos]
      exact hn
  | other v hinteger hequals hpositive => simp [hinteger,hpositive]

theorem ofRat_is {q : ℚ} (h : (Number.ofRat q).Is n) : nearest q = n ∧ Representable n := by
  obtain ⟨y,hy,hval⟩ := h
  unfold Number.ofRat at hy
  split at hy
  · have hnearest := congrArg Double.val (Number.finite.inj hy)
    simp only at hnearest
    exact ⟨hnearest.trans hval,hval ▸ y.representable⟩
  · cases hy

theorem Denotes.eq_value {m : NumberLit} {q : ℚ} (h : Denotes (.leaf (.num m)) q) :
    q = m.value := by
  cases h
  rfl

/-- Only strings and numbers are read as integers. -/
theorem scalar_of_integerOf (h : integerOf (t.map evaluate) = some n) :
    (∃ s, t = some (.leaf (.str s))) ∨ ∃ m, t = some (.leaf (.num m)) := by
  match t with
  | some (.leaf (.str s)) => exact Or.inl ⟨s,rfl⟩
  | some (.leaf (.num m)) => exact Or.inr ⟨m,rfl⟩
  | some (.leaf .null) => cases h
  | some (.leaf (.bool b)) => cases h
  | some (.arr items) => cases h
  | some (.obj members) => cases h
  | none => cases h

/-- What is read is what is denoted, exactly where a number is a double. -/
theorem isAmount_iff (h : integerOf (t.map evaluate) = some n) :
    IsAmount t n ↔ AmountRepresentable t := by
  obtain ⟨s,rfl⟩ | ⟨m,rfl⟩ := scalar_of_integerOf h
  · refine iff_of_true ?_ fun m hm => by cases hm
    change (if isDigits s.decoded then bigIntOfString s.decoded else none) = some n at h
    split at h
    · rename_i hs
      obtain ⟨ds,hne,hds⟩ := isDigits_iff.1 hs
      rw [hds,bigIntOfString_digits hne] at h
      obtain rfl := Option.some.inj h
      exact ⟨_,rfl,by simpa using Denotes.digits s ds hne hds⟩
    · cases h
  · change FeedAcceptance.bigIntOf (Number.ofRat m.value) = some n at h
    obtain ⟨hnearest,hrepresentable⟩ := ofRat_is (bigIntOf_eq_some.1 h)
    constructor
    · rintro ⟨u,hu,hdenotes⟩ k hk
      obtain rfl := Option.some.inj hu
      cases hk
      rwa [← hdenotes.eq_value]
    · intro hm
      refine ⟨_,rfl,?_⟩
      rw [← hnearest,nearest_of_representable (hm m rfl)]
      exact .number m

end Integers

/-! ## Accepted quotes -/

/-- What the service is sent, where a request is sent at all. -/
def sentRequest (P : Platform) (config : RialtoQuoteConfig) (request : RialtoQuoteRequest) :
    Option HttpRequest := do
  let apiKey ← P.apiKey
  let (weth,taker,buyToken) ← quoteAddresses config request
  return httpRequest P config request apiKey weth taker buyToken

/-- The text of the response. -/
def responseText (P : Platform) (config : RialtoQuoteConfig) (request : RialtoQuoteRequest) :
    Option JsString := do
  let sent ← sentRequest P config request
  let res ← (P.fetchImpl sent).toOption
  res.text

def sellAmount (t : Tree) : Option Tree := written (lit "sell_amount") t

def txValue (t : Tree) : Option Tree := (written (lit "tx") t).bind (written (lit "value"))

def minBuyAmount (t : Tree) : Option Tree := written (lit "min_buy_amount") t

/-- The amounts of a quote are what the text says they are. -/
structure AmountsExact (t : Tree) (request : RialtoQuoteRequest) (result : RialtoQuoteResult) :
    Prop where
  sell_amount : ∃ d : PlainDecimal, d.text = request.sellAmountDecimal ∧
    IsAmount (sellAmount t) (d.value*10^SELL_TOKEN_DECIMALS)
  tx_value : IsAmount (txValue t) 0
  min_buy_amount : IsAmount (minBuyAmount t) result.minBuyAmountRaw

/-- The amounts that are written as JSON numbers are doubles. -/
structure AmountsRepresentable (t : Tree) : Prop where
  sell_amount : AmountRepresentable (sellAmount t)
  tx_value : AmountRepresentable (txValue t)
  min_buy_amount : AmountRepresentable (minBuyAmount t)

section Accepted

variable {P : Platform} {config : RialtoQuoteConfig} {request : RialtoQuoteRequest}
  {result : RialtoQuoteResult}

theorem objectOf_eq_some {v : Option Value} {w : Value} (h : objectOf v = some w) :
    v = some w := by
  cases v with
  | none => cases h
  | some u =>
    rw [objectOf] at h
    split at h
    · exact h
    · cases h

/-- What validation has seen of the amounts. -/
theorem validateQuote_ok {weth taker buyToken : JsString} {expectedSellRaw : ℤ} {body : Value}
    (h : validateQuote P config request weth taker buyToken expectedSellRaw body = .ok result) :
    rawEquals (prop (lit "sell_amount") body) expectedSellRaw = true ∧
      (∃ tx, prop (lit "tx") body = some tx ∧ rawEquals (prop (lit "value") tx) 0 = true) ∧
        parsePositiveBigInt (prop (lit "min_buy_amount") body) = some result.minBuyAmountRaw := by
  simp only [validateQuote,reject,orReject,bind_eq_ok,revertIf_eq_ok,orRevert_eq_ok,exists_const,
    pure_eq_ok,Bool.not_eq_false] at h
  obtain ⟨-,-,-,-,-,-,-,hsell,-,tx,htx,-,target,-,callData,-,hvalue,minBuy,hminBuy,-,issues,-,
    digest,-,rfl⟩ := h
  exact ⟨hsell,⟨tx,objectOf_eq_some htx,hvalue⟩,hminBuy⟩

/-- An accepted text is JSON, and its value passes validation. -/
theorem fetchRialtoAllowanceQuote_ok
    (h : fetchRialtoAllowanceQuote P config request = .ok result) :
    ∃ expectedSellRaw text t weth taker buyToken,
      decimalToBaseUnits request.sellAmountDecimal SELL_TOKEN_DECIMALS = some expectedSellRaw ∧
        responseText P config request = some text ∧ Writes text t ∧
          validateQuote P config request weth taker buyToken expectedSellRaw (evaluate t) =
            .ok result := by
  simp only [fetchRialtoAllowanceQuote,receive,reject,orReject,bind_eq_ok,revertIf_eq_ok,
    orRevert_eq_ok,exists_const,pure_eq_ok,mapError_eq_ok,Option.bind_eq_some_iff] at h
  obtain ⟨apiKey,⟨key,hkey,hapiKey⟩,_,_,⟨weth,taker,buyToken⟩,haddresses,-,expectedSellRaw,
    hexpected,text,⟨res,hres,-,text',htext,-,rfl⟩,body,hbody,hvalid⟩ := h
  split at hapiKey
  · cases hapiKey
  · obtain rfl := Option.some.inj hapiKey
    obtain ⟨t,ht,rfl⟩ := Option.map_eq_some_iff.1 hbody
    refine ⟨expectedSellRaw,_,t,weth,taker,buyToken,hexpected,?_,parse_eq_some_iff.1 ht,hvalid⟩
    have hsent : sentRequest P config request =
        some (httpRequest P config request key weth taker buyToken) := by
      rw [sentRequest,hkey,haddresses]
      rfl
    rw [responseText,hsent]
    simp only [Option.bind_eq_bind,Option.bind_some,hres,Except.toOption,htext]

theorem prop_bind (t : Tree) {v : Value} {name name' : JsString}
    (h : prop name (evaluate t) = some v) :
    prop name' v = ((written name t).bind (written name')).map evaluate := by
  rw [prop_evaluate] at h
  obtain ⟨u,hu,rfl⟩ := Option.map_eq_some_iff.1 h
  rw [hu,Option.bind_some,prop_evaluate]

/-- An accepted quote says exactly what its text says where the amounts that the text writes as
numbers are doubles, and only there. -/
theorem amountsExact_iff (hok : fetchRialtoAllowanceQuote P config request = .ok result) :
    ∃ text t, responseText P config request = some text ∧ Writes text t ∧
      (AmountsExact t request result ↔ AmountsRepresentable t) := by
  obtain ⟨expectedSellRaw,text,t,weth,taker,buyToken,hexpected,htext,hwrites,hvalid⟩ :=
    fetchRialtoAllowanceQuote_ok hok
  obtain ⟨hsell,⟨tx,htx,hvalue⟩,hminBuy⟩ := validateQuote_ok hvalid
  refine ⟨text,t,htext,hwrites,?_⟩
  obtain ⟨d,hd,-⟩ := decimalToBaseUnits_eq_some.1 hexpected
  have hunique : ∀ e : PlainDecimal, e.text = request.sellAmountDecimal →
      e.value*10^SELL_TOKEN_DECIMALS = expectedSellRaw := by
    intro e he
    rw [← he,decimalToBaseUnits_text_eq_some] at hexpected
    exact hexpected.2.2.symm
  rw [rawEquals_iff,prop_evaluate] at hsell
  rw [rawEquals_iff,prop_bind t htx] at hvalue
  rw [parsePositiveBigInt_eq_some,prop_evaluate] at hminBuy
  have hsellIff := isAmount_iff hsell
  have hvalueIff : IsAmount (txValue t) (0 : ℤ) ↔ AmountRepresentable (txValue t) :=
    isAmount_iff hvalue
  rw [Int.cast_zero] at hvalueIff
  have hminBuyIff := isAmount_iff hminBuy.1
  constructor
  · rintro ⟨⟨e,he,hsellAmount⟩,htxValue,hmin⟩
    rw [hunique e he] at hsellAmount
    exact ⟨hsellIff.1 hsellAmount,hvalueIff.1 htxValue,hminBuyIff.1 hmin⟩
  · rintro ⟨hsellAmount,htxValue,hmin⟩
    refine ⟨⟨d,hd,?_⟩,hvalueIff.2 htxValue,hminBuyIff.2 hmin⟩
    rw [hunique d hd]
    exact hsellIff.2 hsellAmount

end Accepted

/-- Decimals are converted exactly, and the amounts of an accepted quote are exact if and only if
the numbers among them are doubles. -/
theorem quote_amounts_exact_iff (decimal : JsString) (decimals : ℕ) (n : ℤ) :
    (decimalToBaseUnits decimal decimals = some n ↔
      ∃ d : PlainDecimal, d.text = decimal ∧ d.fraction.length ≤ decimals ∧ 0 < d.value ∧
        (n : ℚ) = d.value*10^decimals) ∧
      ∀ (P : Platform) (config : RialtoQuoteConfig) (request : RialtoQuoteRequest)
        (result : RialtoQuoteResult), fetchRialtoAllowanceQuote P config request = .ok result →
          ∃ text t, responseText P config request = some text ∧ Writes text t ∧
            (AmountsExact t request result ↔ AmountsRepresentable t) :=
  ⟨decimalToBaseUnits_eq_some,fun _ _ _ _ hok => amountsExact_iff hok⟩

/-! A quote of the service, with the least amount as it is written. -/

def name (s : String) : StringLit := (lit s).map Piece.ofUnit

def stringAt (s : String) : Tree := .leaf (.str (name s))

def zeroLit : NumberLit := ⟨false,[0],[],none,List.cons_ne_nil _ _,fun _ => rfl⟩

def numberOf (s : String) : NumberLit := ((readNumber (lit s)).map Prod.fst).getD zeroLit

def sampleTx : Tree :=
  .obj [(name "to",stringAt "0x71a120cbbf3ce7cd910a3c50ff77afc62735687e"),
    (name "data",stringAt "0x12345678abcdef"),(name "value",stringAt "0")]

def sampleQuote (minBuy : Scalar) : Tree :=
  .obj [(name "chain_id",.leaf (.num (numberOf "4663"))),
    (name "settlement",stringAt "allowance"),
    (name "sell_token",stringAt "0x1111111111111111111111111111111111111111"),
    (name "buy_token",stringAt "0x3333333333333333333333333333333333333333"),
    (name "sell_amount",stringAt "20000000000000000000"),
    (name "min_buy_amount",.leaf minBuy),
    (name "taker",stringAt "0x2222222222222222222222222222222222222222"),
    (name "tx",sampleTx)]

def sampleConfig : RialtoQuoteConfig where
  apiBaseUrl := lit "https://rialto-trade-api.rialto.xyz"
  chainId := .ofRat 4663
  wethAddress := lit "0x1111111111111111111111111111111111111111"
  adapterAddress := lit "0x2222222222222222222222222222222222222222"
  slippageBps := .ofRat 50
  timeoutMs := none
  maxResponseBytes := none
  maxCallDataBytes := none

def sampleRequest : RialtoQuoteRequest where
  buyToken := lit "0x3333333333333333333333333333333333333333"
  sellAmountDecimal := lit "20"

/-- A service that answers every request with the quote. -/
def samplePlatform (minBuy : Scalar) : Platform where
  apiKey := some (lit "key")
  parseUrl := fun _ => some {
    protocol := lit "https:"
    hostname := OFFICIAL_RIALTO_HOST
    username := []
    password := []
    port := []
    pathname := lit "/"
    search := []
    hash := [] }
  quoteUrl := fun base _ => base ++ lit "/quote"
  sha256Hex := id
  fetchImpl := fun _ => .ok ⟨true,.ofRat 200,some (compact (sampleQuote minBuy))⟩

section Sample

variable {minBuy : Scalar} {n : ℤ}

/-- A number without sign, point and exponent. -/
theorem value_integer {m : NumberLit} {k : ℕ} (hminus : m.minus = false)
    (hfraction : m.fraction = []) (hexponent : m.exponent = none) (hwhole : m.whole.value = k) : m.value = k := by
  rw [NumberLit.value,hminus,hfraction,hexponent,List.append_nil,hwhole]
  simp

theorem value_chainId : (numberOf "4663").value = 4663 := by
  rw [value_integer (k := 4663) (by decide) (by decide) (by decide) (by decide)]
  norm_num

theorem is_chainId : (Number.ofRat 4663).Is 4663 :=
  Number.is_ofRat (by norm_num) (by decide)

theorem sample_callData : callDataOf (.ofRat 8192) (ofString (lit "0x12345678abcdef")) =
    some (lit "0x12345678abcdef") := by
  have hmax : (Number.ofRat 8192).Is 8192 := Number.is_ofRat (by norm_num) (by decide)
  have hlength : (lit "0x12345678abcdef").length = 16 := by decide
  have hbytes : (Number.ofRat ((((lit "0x12345678abcdef").length : ℚ)-2)/2)).Is 7 := by
    rw [hlength]
    exact Number.is_ofRat (by norm_num) (by decide)
  have hdata : isCallData (.ofRat 8192) (lit "0x12345678abcdef") = true := by
    rw [isCallData,hmax.lt hbytes]
    decide
  exact if_pos hdata

theorem sample_prop {s : JsString} {t : Option Tree} (h : written s (sampleQuote minBuy) = t) :
    prop s (evaluate (sampleQuote minBuy)) = t.map evaluate := by
  rw [prop_evaluate,h]

theorem sampleTx_prop {s : JsString} {t : Option Tree} (h : written s sampleTx = t) :
    prop s (evaluate sampleTx) = t.map evaluate := by
  rw [prop_evaluate,h]

/-- The quote passes validation, whatever its least amount is written as. -/
theorem sample_validated (hpositive : parsePositiveBigInt (some (.leaf (evaluateScalar minBuy))) =
      some n) (hle : ¬(20000000000000000000*1000000 : ℤ) < n) :
    ∃ result, validateQuote (samplePlatform minBuy) sampleConfig sampleRequest
      (lit "0x1111111111111111111111111111111111111111")
      (lit "0x2222222222222222222222222222222222222222")
      (lit "0x3333333333333333333333333333333333333333") 20000000000000000000
      (evaluate (sampleQuote minBuy)) = .ok result ∧ result.minBuyAmountRaw = n := by
  have hchain : isNumber (.ofRat 4663) (prop (lit "chain_id") (evaluate (sampleQuote minBuy))) =
      true := by
    rw [sample_prop (t := some (.leaf (.num (numberOf "4663")))) rfl]
    change (Number.ofRat (numberOf "4663").value).strictEq (.ofRat 4663) = true
    rw [value_chainId]
    exact is_chainId.strictEq
  have hsettlement : prop (lit "settlement") (evaluate (sampleQuote minBuy)) =
      ofString (lit "allowance") := sample_prop (t := some (stringAt "allowance")) rfl
  have habsent : ∀ s, written s (sampleQuote minBuy) = none →
      prop s (evaluate (sampleQuote minBuy)) = none := fun s hs => sample_prop hs
  have hsellToken : normAddress (prop (lit "sell_token") (evaluate (sampleQuote minBuy))) =
      some (lit "0x1111111111111111111111111111111111111111") := by
    rw [sample_prop (t := some (stringAt "0x1111111111111111111111111111111111111111")) rfl]
    decide
  have hbuyToken : normAddress (prop (lit "buy_token") (evaluate (sampleQuote minBuy))) =
      some (lit "0x3333333333333333333333333333333333333333") := by
    rw [sample_prop (t := some (stringAt "0x3333333333333333333333333333333333333333")) rfl]
    decide
  have htaker : normAddress (prop (lit "taker") (evaluate (sampleQuote minBuy))) =
      some (lit "0x2222222222222222222222222222222222222222") := by
    rw [sample_prop (t := some (stringAt "0x2222222222222222222222222222222222222222")) rfl]
    decide
  have hsell : rawEquals (prop (lit "sell_amount") (evaluate (sampleQuote minBuy)))
      20000000000000000000 = true := by
    rw [sample_prop (t := some (stringAt "20000000000000000000")) rfl]
    decide
  have htx : objectOf (prop (lit "tx") (evaluate (sampleQuote minBuy))) =
      some (evaluate sampleTx) := by
    rw [sample_prop (t := some sampleTx) rfl]
    rfl
  have htarget : targetOf (evaluate sampleTx) =
      some (lit "0x71a120cbbf3ce7cd910a3c50ff77afc62735687e") := by
    rw [targetOf,sampleTx_prop (t := some
      (stringAt "0x71a120cbbf3ce7cd910a3c50ff77afc62735687e")) rfl]
    decide
  have hdata : prop (lit "data") (evaluate sampleTx) = ofString (lit "0x12345678abcdef") :=
    sampleTx_prop (t := some (stringAt "0x12345678abcdef")) rfl
  have hvalue : rawEquals (prop (lit "value") (evaluate sampleTx)) 0 = true := by
    rw [sampleTx_prop (t := some (stringAt "0")) rfl]
    decide
  have hminBuy : parsePositiveBigInt (prop (lit "min_buy_amount")
      (evaluate (sampleQuote minBuy))) = some n := by
    rw [sample_prop (t := some (.leaf minBuy)) rfl]
    exact hpositive
  have hobject : isObject (evaluate (sampleQuote minBuy)) = true := rfl
  simp only [validateQuote,reject,orReject,bind_eq_ok,revertIf_eq_ok,orRevert_eq_ok,exists_const,
    pure_eq_ok]
  refine ⟨_,⟨by rw [hobject]; decide,by rw [hchain]; decide,
    by rw [hsettlement]; decide,by rw [habsent _ rfl]; decide,by rw [habsent _ rfl]; decide,
    not_not.2 hsellToken,not_not.2 hbuyToken,by rw [hsell]; decide,not_not.2 htaker,_,htx,
    by rw [sampleTx_prop (t := none) rfl]; decide,_,htarget,lit "0x12345678abcdef",?_,
    by rw [hvalue]; decide,_,hminBuy,hle,⟨false,false,none⟩,by rw [habsent _ rfl]; rfl,none,?_,rfl⟩,
    rfl⟩
  · rw [hdata]
    exact sample_callData
  · have hid : firstMember ["quote_id","quoteId","id"] (evaluate (sampleQuote minBuy)) = none := by
      simp only [firstMember,List.map_cons,List.map_nil,habsent (lit "quote_id") rfl,
        habsent (lit "quoteId") rfl,habsent (lit "id") rfl]
      rfl
    rw [hid]
    rfl

/-- The quote is accepted. -/
theorem sample_accepted (hpositive : parsePositiveBigInt (some (.leaf (evaluateScalar minBuy))) =
      some n) (hle : ¬(20000000000000000000*1000000 : ℤ) < n)
    (hlength : (compact (sampleQuote minBuy)).length ≤ 65536) :
    ∃ result, fetchRialtoAllowanceQuote (samplePlatform minBuy) sampleConfig sampleRequest =
      .ok result ∧ result.minBuyAmountRaw = n := by
  obtain ⟨result,hvalid,hresult⟩ := sample_validated hpositive hle
  refine ⟨result,?_,hresult⟩
  have horigin : assertOfficialRialtoOrigin (samplePlatform minBuy) sampleConfig.apiBaseUrl =
      .ok () := by
    simp only [assertOfficialRialtoOrigin,reject,orReject,bind_eq_ok,revertIf_eq_ok,
      orRevert_eq_ok,exists_const]
    exact ⟨_,rfl,by decide⟩
  have haddresses : quoteAddresses sampleConfig sampleRequest =
      some (lit "0x1111111111111111111111111111111111111111",
        lit "0x2222222222222222222222222222222222222222",
        lit "0x3333333333333333333333333333333333333333") := by
    have hequal : Number.strictEq sampleConfig.chainId (.ofRat 4663) = true := is_chainId.strictEq
    simp only [quoteAddresses,hequal]
    rfl
  have hslippage : (Number.ofRat 50).Is 50 := Number.is_ofRat (by norm_num) (by decide)
  have hlow : (Number.ofRat 50).lt (.ofRat 0) = false := by
    rw [hslippage.lt (n := 0) (Number.is_ofRat Int.cast_zero.symm (by decide))]
    decide
  have hhigh : (Number.ofRat 10000).lt (.ofRat 50) = false := by
    rw [Number.Is.lt (m := 10000) (Number.is_ofRat (by norm_num) (by decide)) hslippage]
    decide
  have hunits : decimalToBaseUnits sampleRequest.sellAmountDecimal SELL_TOKEN_DECIMALS =
      some 20000000000000000000 := by
    decide
  have hsize : (Number.ofRat 65536).lt (.ofRat (compact (sampleQuote minBuy)).length) = false := by
    rw [Number.Is.lt (m := 65536) (n := (compact (sampleQuote minBuy)).length)
      (Number.is_ofRat (by norm_num) (by decide))
      (Number.is_ofRat (Int.cast_natCast _).symm (by rw [Nat.abs_cast]; omega))]
    exact decide_eq_false (by omega)
  have hparse : jsonParse (compact (sampleQuote minBuy)) =
      some (evaluate (sampleQuote minBuy)) := by
    rw [jsonParse,parse_eq_some_iff.2 (writes_compact _)]
    rfl
  simp only [fetchRialtoAllowanceQuote,receive,reject,orReject,bind_eq_ok,revertIf_eq_ok,
    orRevert_eq_ok,exists_const,pure_eq_ok,mapError_eq_ok]
  refine ⟨lit "key",rfl,_,horigin,_,haddresses,?_,_,hunits,_,
    ⟨⟨true,.ofRat 200,some (compact (sampleQuote minBuy))⟩,rfl,Bool.noConfusion,_,rfl,?_,rfl⟩,_,
    hparse,hvalid⟩
  · rw [show sampleConfig.slippageBps = .ofRat 50 from rfl,hslippage.isInteger,hlow,hhigh]
    decide
  · rw [show sampleConfig.maxResponseBytes = none from rfl,Option.getD_none,hsize]
    decide

theorem sample_responseText : responseText (samplePlatform minBuy) sampleConfig sampleRequest =
    some (compact (sampleQuote minBuy)) := by
  have hequal : Number.strictEq sampleConfig.chainId (.ofRat 4663) = true := is_chainId.strictEq
  simp only [responseText,sentRequest,quoteAddresses,hequal]
  rfl

end Sample

/-- A least amount that is written as a string. -/
theorem stringQuote_exact : ∃ result, fetchRialtoAllowanceQuote
      (samplePlatform (.str (name "1980000000000000000000"))) sampleConfig sampleRequest =
        .ok result ∧
    AmountsRepresentable (sampleQuote (.str (name "1980000000000000000000"))) ∧
    AmountsExact (sampleQuote (.str (name "1980000000000000000000"))) sampleRequest result := by
  obtain ⟨result,hok,-⟩ := @sample_accepted (.str (name "1980000000000000000000"))
    1980000000000000000000 (by decide) (by decide) (by decide +kernel)
  obtain ⟨text,t,htext,hwrites,hiff⟩ :=
    (quote_amounts_exact_iff (lit "20") 18 20000000000000000000).2 _ _ _ _ hok
  rw [sample_responseText] at htext
  obtain rfl := Option.some.inj htext
  have hquote := (parse_eq_some_iff.2 hwrites).symm.trans (parse_eq_some_iff.2 (writes_compact _))
  obtain rfl := Option.some.inj hquote
  have hstring {t : Option Tree} {s : StringLit} (h : t = some (.leaf (.str s))) :
      AmountRepresentable t := by
    rintro n hn
    rw [h] at hn
    cases hn
  have hrepresentable : AmountsRepresentable
      (sampleQuote (.str (name "1980000000000000000000"))) :=
    ⟨hstring rfl,hstring rfl,hstring rfl⟩
  exact ⟨result,hok,hrepresentable,hiff.2 hrepresentable⟩

/-- The least whole number that is no double. -/
def unevenLit : NumberLit := numberOf "9007199254740993"

theorem value_unevenLit : unevenLit.value = (9007199254740993 : ℕ) :=
  value_integer (by decide) (by decide) (by decide) (by decide)

theorem nearest_unevenLit : nearest unevenLit.value = 9007199254740992 := by
  have hlog : Int.log 2 |((9007199254740993 : ℕ) : ℚ)| = 53 := by
    rw [Nat.abs_cast,Int.log_natCast,Nat.log_eq_of_pow_le_of_lt_pow (m := 53) (by decide)
      (by decide)]
    rfl
  have hbit : lastBit ((9007199254740993 : ℕ) : ℚ) = 1 := by
    rw [lastBit,hlog]
    decide
  have hfloor : ⌊((9007199254740993 : ℕ) : ℚ)/2^(1 : ℤ)⌋ = 4503599627370496 := by
    rw [Int.floor_eq_iff]
    norm_num
  rw [value_unevenLit,nearest,hbit,roundHalfEven,hfloor]
  norm_num

theorem unevenQuote_rounded : ∃ result, fetchRialtoAllowanceQuote (samplePlatform (.num unevenLit))
      sampleConfig sampleRequest = .ok result ∧
    ∃ text t, responseText (samplePlatform (.num unevenLit)) sampleConfig sampleRequest =
      some text ∧ Writes text t ∧ ¬AmountsExact t sampleRequest result := by
  have hlt : |((9007199254740992 : ℤ) : ℚ)| < 2^1024 := by
    rw [show ((9007199254740992 : ℤ) : ℚ) = 2^53 by norm_num,abs_of_pos (by positivity)]
    exact pow_lt_pow_right₀ one_lt_two (by decide)
  have his : (Number.ofRat unevenLit.value).Is 9007199254740992 :=
    Number.is_ofRat_of_nearest (nearest_unevenLit.trans (by norm_num)) hlt
  obtain ⟨result,hok,hresult⟩ := @sample_accepted (.num unevenLit)
    9007199254740992 (parsePositiveBigInt_eq_some.2 ⟨bigIntOf_eq_some.2 his,by decide⟩)
    (by decide) (by decide +kernel)
  refine ⟨result,hok,_,_,sample_responseText,writes_compact _,fun hexact => ?_⟩
  obtain ⟨t,ht,hdenotes⟩ := hexact.min_buy_amount
  obtain rfl := Option.some.inj ht
  have hvalue := hdenotes.eq_value
  rw [hresult,value_unevenLit] at hvalue
  norm_num at hvalue

end QuoteClient
end BpsProtocol
