import BpsProtocol.CanaryExposure
import BpsProtocol.Lib.JsonSyntax

/-! The scan for repeated names in the packaged authorization.
The scanner goes over the text unit by unit and keeps the names of every open object.  It leaves
out a backslash and the unit behind it, so it compares names as far as they are written without
escapes, and finds exactly the objects in which two of these are equal. -/
namespace BpsProtocol
namespace Canary
open Utf16 JsonText JsonTree JsonSyntax

/-! ## The scanner -/

/-- `curKey`, which is undefined before the first name. -/
abbrev Key := Option JsString

/-- The variables of `rawDuplicateKeys`; the top of the stack comes first. -/
structure KeyScan where
  dups : List Key
  inStr : Bool
  esc : Bool
  expectKey : Bool
  keyStack : List (Option (List Key))
  curKey : Key
  deriving DecidableEq

namespace KeyScan

def start : KeyScan where
  dups := []
  inStr := false
  esc := false
  expectKey := false
  keyStack := []
  curKey := none

/-- `curKey += chars` -/
def extended (curKey : Key) (chars : JsString) : Key :=
  some (curKey.getD (lit "undefined") ++ chars)

/-- `top.add(key)` -/
def addKey (top : List Key) (key : Key) : List Key := if key ∈ top then top else top ++ [key]

def inString (s : KeyScan) (ch : CodeUnit) : KeyScan :=
  if s.esc then { s with esc := false }
  else if ch = unit '\x5c' then { s with esc := true }
  else if ch = unit '\x22' then
    { s with inStr := false
             curKey := if s.expectKey then extended s.curKey [] else s.curKey }
  else if s.expectKey then { s with curKey := extended s.curKey [ch] }
  else s

def colon (s : KeyScan) : KeyScan :=
  match s.keyStack with
  | some top::rest =>
    { s with dups := if s.curKey ∈ top then s.dups ++ [s.curKey] else s.dups
             keyStack := some (addKey top s.curKey)::rest
             expectKey := false }
  | _ => { s with expectKey := false }

def outside (s : KeyScan) (ch : CodeUnit) : KeyScan :=
  if ch = unit '\x22' then
    { s with inStr := true
             curKey := if s.expectKey then some [] else s.curKey }
  else if ch = unit '\x7b' then
    { s with keyStack := some []::s.keyStack
             expectKey := true
             curKey := some [] }
  else if ch = unit '\x7d' then { s with keyStack := s.keyStack.tail }
  else if ch = unit ':' then s.colon
  else if ch = unit ',' then { s with expectKey := s.expectKey || !s.keyStack.isEmpty }
  else if ch = unit '[' then { s with keyStack := none::s.keyStack }
  else if ch = unit ']' then { s with keyStack := s.keyStack.tail }
  else s

def step (s : KeyScan) (ch : CodeUnit) : KeyScan :=
  if s.inStr then s.inString ch else s.outside ch

def scan (s : KeyScan) (rawText : JsString) : KeyScan := rawText.foldl step s

end KeyScan

def rawDuplicateKeys (rawText : JsString) : List Key := (KeyScan.start.scan rawText).dups

/-! ## What is compared -/

namespace KeyScan

/-- What is left of a written unit. -/
def skimmedPiece : Piece → JsString
  | .plain u => [u.val]
  | .escape _ => []
  | .unicode a b c d => [a.val,b.val,c.val,d.val]

/-- A name without its backslashes and the units behind them. -/
def skimmed (s : StringLit) : JsString := s.flatMap skimmedPiece

/-- The state between two tokens. -/
def between (dups : List Key) (keyStack : List (Option (List Key))) (expectKey : Bool)
    (curKey : Key) : KeyScan where
  dups := dups
  inStr := false
  esc := false
  expectKey := expectKey
  keyStack := keyStack
  curKey := curKey

section Strings

variable {dups : List Key} {stack : List (Option (List Key))} {expectKey : Bool} {curKey : Key}

theorem scan_append (s : KeyScan) (a b : JsString) : s.scan (a ++ b) = (s.scan a).scan b :=
  List.foldl_append

/-- The state inside a string. -/
def within (dups : List Key) (keyStack : List (Option (List Key))) (expectKey : Bool)
    (curKey : Key) : KeyScan where
  dups := dups
  inStr := true
  esc := false
  expectKey := expectKey
  keyStack := keyStack
  curKey := curKey

/-- The name grows where one is expected. -/
def grown (expectKey : Bool) (curKey : Key) (chars : JsString) : Key :=
  if expectKey then curKey.map (fun key => key ++ chars) else curKey

theorem grown_grown (a b : JsString) :
    grown expectKey (grown expectKey curKey a) b = grown expectKey curKey (a ++ b) := by
  cases expectKey <;> cases curKey <;> simp [grown]

theorem grown_isSome (h : expectKey = true → curKey.isSome = true) (a : JsString) :
    expectKey = true → (grown expectKey curKey a).isSome = true := by
  cases expectKey <;> cases curKey <;> simp_all [grown]

theorem extended_eq (h : curKey.isSome = true) (chars : JsString) :
    extended curKey chars = curKey.map (fun key => key ++ chars) := by
  cases curKey with
  | none => cases h
  | some key => rfl

theorem scan_plain (h : expectKey = true → curKey.isSome = true) {u : CodeUnit}
    (hquote : u ≠ unit '\x22') (hslash : u ≠ unit '\x5c') :
    (within dups stack expectKey curKey).scan [u] =
      within dups stack expectKey (grown expectKey curKey [u]) := by
  cases expectKey with
  | false => simp [scan,step,inString,within,grown,hquote,hslash]
  | true => simp [scan,step,inString,within,grown,hquote,hslash,extended_eq (h rfl)]

theorem scan_escaped (u : CodeUnit) :
    (within dups stack expectKey curKey).scan [unit '\x5c',u] =
      within dups stack expectKey curKey := by
  simp [scan,step,inString,within]

theorem isHex_ne {u : CodeUnit} (h : isHex u = true) : u ≠ unit '\x22' ∧ u ≠ unit '\x5c' := by
  constructor
  · rintro rfl
    revert h
    decide
  · rintro rfl
    revert h
    decide

theorem scan_hex (h : expectKey = true → curKey.isSome = true) {us : List CodeUnit}
    (hus : ∀ u ∈ us, isHex u = true) :
    (within dups stack expectKey curKey).scan us =
      within dups stack expectKey (grown expectKey curKey us) := by
  induction us generalizing curKey with
  | nil => cases expectKey <;> cases curKey <;> simp [scan,grown]
  | cons u us ih =>
    have hu := isHex_ne (hus u List.mem_cons_self)
    have hrest := ih (grown_isSome h [u]) (fun v hv => hus v (List.mem_cons_of_mem _ hv))
    rw [← List.singleton_append,scan_append,scan_plain h hu.1 hu.2,hrest,grown_grown]

theorem scan_piece (h : expectKey = true → curKey.isSome = true) (p : Piece) :
    (within dups stack expectKey curKey).scan p.text =
      within dups stack expectKey (grown expectKey curKey (skimmedPiece p)) := by
  cases p with
  | plain u =>
    have hu := u.property
    simp only [isPlain,Bool.and_eq_true,decide_eq_true_eq] at hu
    exact scan_plain h hu.1.2 hu.2
  | escape e =>
    have hnil : grown expectKey curKey [] = curKey := by
      cases expectKey <;> cases curKey <;> simp [grown]
    rw [skimmedPiece,hnil]
    exact scan_escaped e.letter
  | unicode a b c d =>
    rw [show Piece.text (.unicode a b c d) = [unit '\x5c',unit 'u'] ++
      [a.val,b.val,c.val,d.val] from rfl,scan_append,scan_escaped]
    refine scan_hex h ?_
    simp [a.property,b.property,c.property,d.property]

theorem scan_pieces (h : expectKey = true → curKey.isSome = true) (s : StringLit) :
    (within dups stack expectKey curKey).scan (s.flatMap Piece.text) =
      within dups stack expectKey (grown expectKey curKey (skimmed s)) := by
  induction s generalizing curKey with
  | nil => cases expectKey <;> cases curKey <;> simp [scan,grown,skimmed]
  | cons p s ih =>
    rw [List.flatMap_cons,scan_append,scan_piece h,ih (grown_isSome h _),grown_grown]
    rfl

/-- A string outside of another becomes the current name where one is expected. -/
theorem scan_string (s : StringLit) :
    (between dups stack expectKey curKey).scan s.text =
      between dups stack expectKey (if expectKey then some (skimmed s) else curKey) := by
  have hopen : (between dups stack expectKey curKey).scan [unit '\x22'] =
      within dups stack expectKey (if expectKey then some [] else curKey) := by
    simp [scan,step,outside,between,within]
  have hclose : ∀ key : Key, (expectKey = true → key.isSome = true) →
      (within dups stack expectKey key).scan [unit '\x22'] =
        between dups stack expectKey key := by
    intro key hkey
    have hslash : unit '\x22' ≠ unit '\x5c' := by decide
    cases expectKey with
    | false => simp [scan,step,inString,between,within,hslash]
    | true => cases key <;> simp_all [scan,step,inString,between,within,extended]
  have hsome : expectKey = true → (if expectKey then some [] else curKey).isSome = true := by
    rintro rfl
    rfl
  rw [StringLit.text,← List.singleton_append,List.append_assoc,scan_append,scan_append,hopen,
    scan_pieces hsome,hclose _ (grown_isSome hsome _)]
  cases expectKey <;> simp [grown]

/-! ## Tokens -/

/-- Outside of a string the scanner passes over it. -/
def isInert (u : CodeUnit) : Bool :=
  u ∉ [unit '\x22',unit '\x7b',unit '\x7d',unit ':',unit ',',unit '[',unit ']']

theorem scan_inert {s : JsString} (h : ∀ u ∈ s, isInert u = true) :
    (between dups stack expectKey curKey).scan s = between dups stack expectKey curKey := by
  induction s with
  | nil => rfl
  | cons u s ih =>
    have hu := h u List.mem_cons_self
    simp only [isInert,decide_eq_true_eq,List.mem_cons,not_or,List.not_mem_nil,not_false_eq_true,
      and_true] at hu
    rw [← List.singleton_append,scan_append]
    have hstep : (between dups stack expectKey curKey).scan [u] =
        between dups stack expectKey curKey := by
      simp [scan,step,outside,between,hu]
    rw [hstep]
    exact ih fun v hv => h v (List.mem_cons_of_mem _ hv)

theorem isInert_space {u : CodeUnit} (h : isSpace u = true) : isInert u = true := by
  simp only [isSpace,Bool.or_eq_true,decide_eq_true_eq] at h
  obtain ((rfl | rfl) | rfl) | rfl := h <;> decide

theorem isInert_digit (d : Fin 10) : isInert (unit (Nat.digitChar d.val)) = true := by
  revert d
  decide

theorem isInert_digits (ds : Digits) : ∀ u ∈ ds.text, isInert u = true := by
  intro u hu
  obtain ⟨d,-,rfl⟩ := List.mem_map.1 hu
  exact isInert_digit d

theorem isInert_exponent (e : Exponent) : ∀ u ∈ e.text, isInert u = true := by
  have hletter : ∀ b : Bool, isInert (unit (if b then 'E' else 'e')) = true := by decide
  have hsign : ∀ o : Option Bool, (Exponent.signText o).all isInert = true := by decide
  intro u hu
  simp only [Exponent.text,List.cons_append,List.mem_cons,List.mem_append] at hu
  obtain rfl | hu | hu := hu
  · exact hletter e.letter
  · exact List.all_eq_true.1 (hsign e.sign) u hu
  · exact isInert_digits e.digits u hu

theorem isInert_number (n : NumberLit) : ∀ u ∈ n.text, isInert u = true := by
  intro u hu
  simp only [NumberLit.text,List.mem_append] at hu
  obtain ((hu | hu) | hu) | hu := hu
  · split at hu
    · rw [List.mem_singleton.1 hu]
      decide
    · cases hu
  · exact isInert_digits _ u hu
  · split at hu
    · cases hu
    · obtain rfl | hu := List.mem_cons.1 hu
      · decide
      · exact isInert_digits _ u hu
  · cases he : n.exponent with
    | none =>
      rw [he] at hu
      cases hu
    | some e =>
      rw [he] at hu
      exact isInert_exponent e u hu

/-- What the current name is after a token. -/
def scalarKey (expectKey : Bool) (curKey : Key) : Scalar → Key
  | .str s => if expectKey then some (skimmed s) else curKey
  | _ => curKey

theorem scan_scalar (a : Scalar) :
    (between dups stack expectKey curKey).scan (scalarText a) =
      between dups stack expectKey (scalarKey expectKey curKey a) := by
  cases a with
  | null => exact scan_inert (List.all_eq_true.1 (by decide))
  | bool b => exact scan_inert (List.all_eq_true.1 (by cases b <;> decide))
  | num n => exact scan_inert (isInert_number n)
  | str s => exact scan_string s

def feed (s : KeyScan) (k : Token) : KeyScan := s.scan k.text

theorem feed_openArray : feed (between dups stack expectKey curKey) .openArray =
    between dups (none::stack) expectKey curKey := rfl

theorem feed_closeArray : feed (between dups stack expectKey curKey) .closeArray =
    between dups stack.tail expectKey curKey := rfl

theorem feed_openObject : feed (between dups stack expectKey curKey) .openObject =
    between dups (some []::stack) true (some []) := rfl

theorem feed_closeObject : feed (between dups stack expectKey curKey) .closeObject =
    between dups stack.tail expectKey curKey := rfl

theorem feed_comma : feed (between dups stack expectKey curKey) .comma =
    between dups stack (expectKey || !stack.isEmpty) curKey := rfl

theorem feed_colon : feed (between dups stack expectKey curKey) .colon =
    (between dups stack expectKey curKey).colon := rfl

theorem feed_scalar (a : Scalar) : feed (between dups stack expectKey curKey) (.scalar a) =
    between dups stack expectKey (scalarKey expectKey curKey a) :=
  scan_scalar a

theorem feed_between (k : Token) : ∃ dups' stack' expectKey' curKey',
    feed (between dups stack expectKey curKey) k = between dups' stack' expectKey' curKey' := by
  cases k with
  | openArray => exact ⟨_,_,_,_,feed_openArray⟩
  | closeArray => exact ⟨_,_,_,_,feed_closeArray⟩
  | openObject => exact ⟨_,_,_,_,feed_openObject⟩
  | closeObject => exact ⟨_,_,_,_,feed_closeObject⟩
  | comma => exact ⟨_,_,_,_,feed_comma⟩
  | scalar a => exact ⟨_,_,_,_,feed_scalar a⟩
  | colon =>
    rw [feed_colon,colon]
    split
    · exact ⟨_,_,_,_,rfl⟩
    · exact ⟨_,_,_,_,rfl⟩

/-- White space changes nothing, so the text is scanned token by token. -/
theorem scan_spells {s : JsString} {ks : List Token} (h : Spells s ks) :
    (between dups stack expectKey curKey).scan s =
      ks.foldl feed (between dups stack expectKey curKey) := by
  induction h generalizing dups stack expectKey curKey with
  | nil hw => exact scan_inert fun u hu => isInert_space (hw u hu)
  | @cons w s k ks hw hs ih =>
    obtain ⟨dups',stack',expectKey',curKey',hfeed⟩ :=
      @feed_between dups stack expectKey curKey k
    rw [scan_append,scan_append,scan_inert fun u hu => isInert_space (hw u hu),List.foldl_cons,
      ← feed,hfeed,ih]

end Strings

/-! ## Trees -/

mutual

/-- The names that the scanner reports, in the order of their colons. -/
def repeated : Tree → List Key
  | .leaf _ => []
  | .arr items => repeatedItems items
  | .obj members => repeatedMembers [] members

def repeatedItems : List Tree → List Key
  | [] => []
  | t::ts => repeated t ++ repeatedItems ts

/-- Behind the names of the members before them. -/
def repeatedMembers (top : List Key) : List (StringLit × Tree) → List Key
  | [] => []
  | (k,t)::ms =>
    (if some (skimmed k) ∈ top then [some (skimmed k)] else []) ++
      (repeated t ++ repeatedMembers (addKey top (some (skimmed k))) ms)

end

/-- From any state between two tokens the names are reported and the stack is restored. -/
def Reports (ks : List Token) (found : List Key) : Prop :=
  ∀ dups stack expectKey curKey, ∃ expectKey' curKey',
    ks.foldl feed (between dups stack expectKey curKey) =
      between (dups ++ found) stack expectKey' curKey'

/-- The same inside of an object, whose names are kept on the stack. -/
def ReportsNames (ks : List Token) (top : List Key) (found : List Key) (top' : List Key) : Prop :=
  ∀ dups stack expectKey curKey, ∃ expectKey' curKey',
    ks.foldl feed (between dups (some top::stack) expectKey curKey) =
      between (dups ++ found) (some top'::stack) expectKey' curKey'

section Trees

variable {ks ks' : List Token} {found found' top top' top'' : List Key}

theorem Reports.nil : Reports [] [] := fun dups stack expectKey curKey =>
  ⟨expectKey,curKey,by rw [List.append_nil]; rfl⟩

theorem Reports.append (h : Reports ks found) (h' : Reports ks' found') :
    Reports (ks ++ ks') (found ++ found') := by
  intro dups stack expectKey curKey
  obtain ⟨expectKey',curKey',hks⟩ := h dups stack expectKey curKey
  rw [List.foldl_append,hks,← List.append_assoc]
  exact h' _ _ _ _

theorem Reports.comma (h : Reports ks found) : Reports (.comma::ks) found := by
  intro dups stack expectKey curKey
  rw [List.foldl_cons,feed_comma]
  exact h _ _ _ _

theorem Reports.array (h : Reports ks found) :
    Reports (.openArray :: ks ++ [.closeArray]) found := by
  intro dups stack expectKey curKey
  obtain ⟨expectKey',curKey',hks⟩ := h dups (none::stack) expectKey curKey
  rw [List.cons_append,List.foldl_cons,feed_openArray,List.foldl_append,hks]
  exact ⟨_,_,feed_closeArray⟩

theorem ReportsNames.nil : ReportsNames [] top [] top := fun dups stack expectKey curKey =>
  ⟨expectKey,curKey,by rw [List.append_nil]; rfl⟩

theorem ReportsNames.append (h : ReportsNames ks top found top')
    (h' : ReportsNames ks' top' found' top'') :
    ReportsNames (ks ++ ks') top (found ++ found') top'' := by
  intro dups stack expectKey curKey
  obtain ⟨expectKey',curKey',hks⟩ := h dups stack expectKey curKey
  rw [List.foldl_append,hks,← List.append_assoc]
  exact h' _ _ _ _

theorem Reports.names (h : Reports ks found) : ReportsNames ks top found top :=
  fun dups stack => h dups (some top::stack)

/-- Behind a brace or a comma a name is expected. -/
theorem reports_name (k : StringLit) (dups : List Key) (stack : List (Option (List Key)))
    (curKey : Key) : ∃ expectKey' curKey',
      [.name k,.colon].foldl feed (between dups (some top::stack) true curKey) =
        between (dups ++ if some (skimmed k) ∈ top then [some (skimmed k)] else [])
          (some (addKey top (some (skimmed k)))::stack) expectKey' curKey' := by
  refine ⟨false,some (skimmed k),?_⟩
  rw [List.foldl_cons,List.foldl_cons,List.foldl_nil,feed_scalar,feed_colon]
  by_cases hmem : some (skimmed k) ∈ top
  · simp [scalarKey,colon,between,hmem]
  · simp [scalarKey,colon,between,hmem]

theorem reportsNames_member (k : StringLit) (h : Reports ks found) :
    ReportsNames (.comma :: .name k :: .colon :: ks) top
      ((if some (skimmed k) ∈ top then [some (skimmed k)] else []) ++ found)
      (addKey top (some (skimmed k))) := by
  intro dups stack expectKey curKey
  obtain ⟨expectKey',curKey',hname⟩ := @reports_name top k dups stack curKey
  obtain ⟨expectKey'',curKey'',hks⟩ := h
    (dups ++ if some (skimmed k) ∈ top then [some (skimmed k)] else [])
    (some (addKey top (some (skimmed k)))::stack) expectKey' curKey'
  refine ⟨expectKey'',curKey'',?_⟩
  rw [List.foldl_cons,feed_comma,List.isEmpty_cons,Bool.not_false,Bool.or_true,
    show Token.name k :: .colon :: ks = [.name k,.colon] ++ ks from rfl,List.foldl_append,hname,
    hks,List.append_assoc]

theorem Reports.object (k : StringLit) (h : Reports ks found)
    (h' : ReportsNames ks' [some (skimmed k)] found' top') :
    Reports (.openObject :: .name k :: .colon :: ks ++ ks' ++ [.closeObject])
      (found ++ found') := by
  intro dups stack expectKey curKey
  obtain ⟨expectKey₁,curKey₁,hname⟩ := @reports_name [] k dups stack (some [])
  obtain ⟨expectKey₂,curKey₂,hks⟩ := h dups (some [some (skimmed k)]::stack) expectKey₁ curKey₁
  obtain ⟨expectKey₃,curKey₃,hks'⟩ := h' (dups ++ found) stack expectKey₂ curKey₂
  refine ⟨expectKey₃,curKey₃,?_⟩
  rw [show Token.openObject :: .name k :: .colon :: ks ++ ks' ++ [.closeObject] =
      .openObject :: ([.name k,.colon] ++ (ks ++ (ks' ++ [.closeObject]))) by simp,
    List.foldl_cons,feed_openObject,List.foldl_append,hname,List.foldl_append]
  simp only [List.not_mem_nil,if_false,List.append_nil,addKey,List.nil_append]
  rw [hks,List.foldl_append,hks',List.append_assoc]
  exact feed_closeObject

mutual

/-- Scanning a tree reports its repeated names and leaves the open objects as they were. -/
theorem reports_tokens : ∀ t : Tree, Reports (tokens t) (repeated t)
  | .leaf a => by
    intro dups stack expectKey curKey
    refine ⟨expectKey,scalarKey expectKey curKey a,?_⟩
    rw [tokens,repeated,List.append_nil]
    exact feed_scalar a
  | .arr [] => by
    rw [tokens,repeated,repeatedItems]
    exact Reports.nil.array
  | .arr (t::ts) => by
    rw [tokens,repeated,repeatedItems,List.cons_append]
    exact ((reports_tokens t).append (reports_tokensItems ts)).array
  | .obj [] => by
    rw [tokens,repeated,repeatedMembers]
    intro dups stack expectKey curKey
    rw [List.foldl_cons,feed_openObject,List.append_nil]
    exact ⟨_,_,feed_closeObject⟩
  | .obj ((k,t)::ms) => by
    rw [tokens,repeated,repeatedMembers]
    obtain ⟨top',hms⟩ := reports_tokensMembers ms [some (skimmed k)]
    exact (reports_tokens t).object k hms

theorem reports_tokensItems : ∀ ts : List Tree, Reports (tokensItems ts) (repeatedItems ts)
  | [] => by
    rw [tokensItems,repeatedItems]
    exact Reports.nil
  | t::ts => by
    rw [tokensItems,repeatedItems]
    exact (reports_tokens t).comma.append (reports_tokensItems ts)

theorem reports_tokensMembers : ∀ (ms : List (StringLit × Tree)) (top : List Key),
    ∃ top', ReportsNames (tokensMembers ms) top (repeatedMembers top ms) top'
  | [], top => by
    rw [tokensMembers,repeatedMembers]
    exact ⟨top,ReportsNames.nil⟩
  | (k,t)::ms, top => by
    rw [tokensMembers,repeatedMembers]
    obtain ⟨top',hms⟩ := reports_tokensMembers ms (addKey top (some (skimmed k)))
    refine ⟨top',?_⟩
    rw [← List.append_assoc]
    exact (reportsNames_member k (reports_tokens t)).append hms

end

end Trees

/-! ## What is found -/

theorem mem_addKey {key key' : Key} {top : List Key} :
    key' ∈ addKey top key ↔ key' ∈ top ∨ key' = key := by
  unfold addKey
  split
  · rename_i hmem
    exact ⟨Or.inl,fun h => h.elim id fun heq => heq ▸ hmem⟩
  · simp

mutual

/-- Nothing is reported exactly where no object has two names of one skimmed form. -/
theorem repeated_eq_nil : ∀ t : Tree, repeated t = [] ↔ (t.mapKeys skimmed).WellFormed
  | .leaf a => by
    rw [repeated,mapKeys,WellFormed]
    simp
  | .arr items => by
    rw [repeated,mapKeys,WellFormed]
    exact repeatedItems_eq_nil items
  | .obj members => by
    rw [repeated,mapKeys,WellFormed,repeatedMembers_eq_nil members []]
    simp

theorem repeatedItems_eq_nil : ∀ ts : List Tree,
    repeatedItems ts = [] ↔ WellFormedItems (mapKeysItems skimmed ts)
  | [] => by
    rw [repeatedItems,mapKeysItems,WellFormedItems]
    simp
  | t::ts => by
    rw [repeatedItems,mapKeysItems,WellFormedItems,List.append_eq_nil_iff,repeated_eq_nil t,
      repeatedItems_eq_nil ts]

theorem repeatedMembers_eq_nil : ∀ (ms : List (StringLit × Tree)) (top : List Key),
    repeatedMembers top ms = [] ↔
      (∀ key ∈ keys (mapKeysMembers skimmed ms), some key ∉ top) ∧
        (keys (mapKeysMembers skimmed ms)).Nodup ∧ WellFormedMembers (mapKeysMembers skimmed ms)
  | [], top => by
    rw [repeatedMembers,mapKeysMembers,WellFormedMembers]
    simp [keys]
  | (k,t)::ms, top => by
    rw [repeatedMembers,List.append_eq_nil_iff,List.append_eq_nil_iff,repeated_eq_nil t,
      repeatedMembers_eq_nil ms,mapKeysMembers,WellFormedMembers]
    simp only [keys,List.map_cons,List.nodup_cons,List.forall_mem_cons,mem_addKey,not_or,
      Option.some.injEq,ite_eq_right_iff,List.cons_ne_self,imp_false]
    constructor
    · rintro ⟨htop,ht,hfresh,hnodup,hms⟩
      exact ⟨⟨htop,fun key hkey => (hfresh key hkey).1⟩,
        ⟨fun hmem => (hfresh _ hmem).2 rfl,hnodup⟩,ht,hms⟩
    · rintro ⟨⟨htop,hfresh⟩,⟨hnotMem,hnodup⟩,ht,hms⟩
      exact ⟨htop,ht,fun key hkey => ⟨hfresh key hkey,fun heq => hnotMem (heq ▸ hkey)⟩,
        hnodup,hms⟩

end

end KeyScan

section Text

variable {rawText : JsString} {t : Tree}

theorem rawDuplicateKeys_eq (h : Writes rawText t) :
    rawDuplicateKeys rawText = KeyScan.repeated t := by
  obtain ⟨expectKey,curKey,hrun⟩ := KeyScan.reports_tokens t [] [] false none
  have hscan := @KeyScan.scan_spells [] [] false none _ _ h
  rw [hrun,List.nil_append] at hscan
  exact congrArg KeyScan.dups hscan

/-- Names are compared without their escapes, at every depth of the text. -/
theorem rawDuplicateKeys_eq_nil (h : Writes rawText t) :
    rawDuplicateKeys rawText = [] ↔ (t.mapKeys KeyScan.skimmed).WellFormed := by
  rw [rawDuplicateKeys_eq h,KeyScan.repeated_eq_nil]

end Text

/-! ## Escapes in names -/

/-- Two names of one object are the same name exactly where they are written in the same way
outside of their escapes. -/
def EscapesHarmless (t : Tree) : Prop :=
  t.EachObject (List.Pairwise fun n m =>
    StringLit.decoded n = StringLit.decoded m ↔ KeyScan.skimmed n = KeyScan.skimmed m)

/-- A string without escapes. -/
def Unescaped (s : StringLit) : Prop := ∀ p ∈ s, ∃ u, p = .plain u

theorem skimmed_unescaped {s : StringLit} (h : Unescaped s) : KeyScan.skimmed s = s.decoded := by
  induction s with
  | nil => rfl
  | cons p s ih =>
    obtain ⟨u,rfl⟩ := h p List.mem_cons_self
    have hrest := ih fun q hq => h q (List.mem_cons_of_mem _ hq)
    simp only [KeyScan.skimmed,StringLit.decoded] at hrest ⊢
    rw [List.flatMap_cons,hrest]
    rfl

theorem escapesHarmless_of_unescaped {t : Tree} (h : t.AllKeys Unescaped) : EscapesHarmless t := by
  refine h.eachObject.imp fun ns hns => List.pairwise_of_forall_mem_list fun n hn m hm => ?_
  rw [skimmed_unescaped (hns n hn),skimmed_unescaped (hns m hm)]

theorem EscapesHarmless.decided {rawText : JsString} {t : Tree} (hw : Writes rawText t)
    (h : EscapesHarmless t) :
    rawDuplicateKeys rawText = [] ↔ (t.mapKeys StringLit.decoded).WellFormed := by
  rw [rawDuplicateKeys_eq_nil hw,wellFormed_mapKeys_iff h]

/-- An object with two names and nothing else of interest. -/
def twoNames (n m : StringLit) : Tree := .obj [(n,.leaf .null),(m,.leaf .null)]

theorem twoNames_wellFormed (f : StringLit → JsString) (n m : StringLit) :
    ((twoNames n m).mapKeys f).WellFormed ↔ f n ≠ f m := by
  simp [twoNames,mapKeys,mapKeysMembers,WellFormed,WellFormedMembers,keys]

/-- The scanner is right about two names exactly where escapes do not matter to them. -/
theorem twoNames_decided_iff (n m : StringLit) :
    (∀ rawText, Writes rawText (twoNames n m) →
      (rawDuplicateKeys rawText = [] ↔
        ((twoNames n m).mapKeys StringLit.decoded).WellFormed)) ↔
      (StringLit.decoded n = StringLit.decoded m ↔ KeyScan.skimmed n = KeyScan.skimmed m) := by
  constructor
  · intro h
    have hcompact := h _ (writes_compact (twoNames n m))
    rw [rawDuplicateKeys_eq_nil (writes_compact _),twoNames_wellFormed,twoNames_wellFormed,
      not_iff_not] at hcompact
    exact hcompact.symm
  · intro h rawText hw
    rw [rawDuplicateKeys_eq_nil hw,twoNames_wellFormed,twoNames_wellFormed,not_iff_not]
    exact h.symm

/-- The scanner decides whether a name is given twice where escapes are harmless, as they are
where no name has one.  They are harmless exactly where the scanner is right about any two
names of one object. -/
theorem rawDuplicateKeys_decides_iff {rawText : JsString} {t : Tree} (h : Writes rawText t) :
    (EscapesHarmless t →
      (rawDuplicateKeys rawText = [] ↔ (t.mapKeys StringLit.decoded).WellFormed)) ∧
    (EscapesHarmless t ↔ t.EachObject (List.Pairwise fun n m =>
      ∀ rawText, Writes rawText (twoNames n m) →
        (rawDuplicateKeys rawText = [] ↔
          ((twoNames n m).mapKeys StringLit.decoded).WellFormed))) ∧
    (t.AllKeys Unescaped → EscapesHarmless t) := by
  refine ⟨EscapesHarmless.decided h,?_,escapesHarmless_of_unescaped⟩
  simp only [twoNames_decided_iff]
  exact Iff.rfl

/-- Names inside of a named value, and a name with an escape behind them. -/
def nestedNames : Tree :=
  .obj [([Piece.ofUnit (unit 'a')],.obj [([Piece.ofUnit (unit 'a')],.leaf (.bool true))]),
    ([.escape .quote,Piece.ofUnit (unit 'b')],.leaf .null)]

/-- The inner name again beside it. -/
def repeatedName : Tree :=
  .obj [([Piece.ofUnit (unit 'b')],.leaf .null),
    ([Piece.ofUnit (unit 'a')],.obj [([Piece.ofUnit (unit 'a')],.leaf (.bool true)),
      ([Piece.ofUnit (unit 'a')],.leaf .null)])]

theorem nestedNames_decided :
    (rawDuplicateKeys (lit "\x7b\"a\":\x7b\"a\":true\x7d,\"\\\"b\":null\x7d") = [] ∧
      (nestedNames.mapKeys StringLit.decoded).WellFormed) ∧
    (rawDuplicateKeys (lit "\x7b\"b\":null,\"a\":\x7b\"a\":true,\"a\":null\x7d\x7d") =
        [some (lit "a")] ∧
      ¬(repeatedName.mapKeys StringLit.decoded).WellFormed) := by
  have hnested := (rawDuplicateKeys_decides_iff (writes_compact nestedNames)).1
    ⟨by decide,⟨⟨by decide,trivial,trivial⟩,trivial,trivial⟩⟩
  have hrepeated := (rawDuplicateKeys_decides_iff (writes_compact repeatedName)).1
    ⟨by decide,trivial,⟨by decide,trivial,trivial,trivial⟩,trivial⟩
  refine ⟨⟨by decide,hnested.1 (by decide)⟩,by decide,fun hw => ?_⟩
  exact absurd (hrepeated.2 hw) (by decide)

/-- `a` twice, the second time by its number. -/
def respelledName : Tree :=
  .obj [([Piece.ofUnit (unit 'a')],.leaf (.bool true)),
    ([Piece.ofHex (unit '0') (unit '0') (unit '6') (unit '1')],.leaf (.bool false))]

theorem respelledName_missed :
    Writes (lit "\x7b\"a\":true,\"\\u0061\":false\x7d") respelledName ∧
      rawDuplicateKeys (lit "\x7b\"a\":true,\"\\u0061\":false\x7d") = [] ∧
        ¬(respelledName.mapKeys StringLit.decoded).WellFormed := by
  refine ⟨writes_compact respelledName,by decide,?_⟩
  rintro ⟨hnodup,-⟩
  revert hnodup
  decide

/-- A letter, and the letter behind a line break: different names, which the scanner refuses. -/
example : rawDuplicateKeys (lit "\x7b\"a\":true,\"\\na\":false\x7d") = [some (lit "a")] := by decide

/-! ## Binding -/

/-- `c.packagedNoDuplicateKeys` of a packaged text. -/
def packagedNoDuplicateKeys (raw : JsString) : Bool := (rawDuplicateKeys raw).isEmpty

section Binding

variable {raw : JsString} {t : Tree}

theorem packagedNoDuplicateKeys_iff (h : Writes raw t) :
    packagedNoDuplicateKeys raw = true ↔ (t.mapKeys KeyScan.skimmed).WellFormed := by
  rw [packagedNoDuplicateKeys,List.isEmpty_iff,rawDuplicateKeys_eq_nil h]

/-- The text an operator is bound to repeats no name, as far as escapes are harmless in it. -/
theorem bound_names {env : Env Canonical} {x : Inputs} {R : Runtime}
    (h : bindAndVerifyPacket env x = .ok R)
    (hraw : x.noDuplicateKeys = packagedNoDuplicateKeys raw) (ht : Writes raw t)
    (hharmless : EscapesHarmless t) : (t.mapKeys StringLit.decoded).WellFormed := by
  have hmem : ("packagedNoDuplicateKeys",x.noDuplicateKeys) ∈ bindChecks env x := by
    simp [bindChecks]
  have hcheck := bound_check h _ hmem
  rw [hraw,packagedNoDuplicateKeys_iff ht] at hcheck
  exact (wellFormed_mapKeys_iff hharmless).2 hcheck

theorem Recovery.bound_names {env : Env Recovery.Canonical} {x : Recovery.Inputs} {R : Runtime}
    (h : Recovery.bindAndVerifyPacket env x = .ok R)
    (hraw : x.noDuplicateKeys = packagedNoDuplicateKeys raw) (ht : Writes raw t)
    (hharmless : EscapesHarmless t) : (t.mapKeys StringLit.decoded).WellFormed := by
  have hmem : ("packagedNoDuplicateKeys",x.noDuplicateKeys) ∈ Recovery.bindChecks env x := by
    simp [Recovery.bindChecks]
  have hcheck := Recovery.bound_check h _ hmem
  rw [hraw,packagedNoDuplicateKeys_iff ht] at hcheck
  exact (wellFormed_mapKeys_iff hharmless).2 hcheck

end Binding

end Canary
end BpsProtocol
