import BpsProtocol.Lib.Utf16

/-! JSON texts by their grammar.
A text is spelled from tokens with white space before each of them and at the end, and the tokens
are those of a tree whose names and leaves are written out: a string by its characters and
escapes, a number by its digits. -/
namespace BpsProtocol

namespace JsonTree

variable {σ κ α : Type}

mutual

/-- A value with other names. -/
def mapKeys (f : σ → κ) : JsonTree σ α → JsonTree κ α
  | .leaf a => .leaf a
  | .arr items => .arr (mapKeysItems f items)
  | .obj members => .obj (mapKeysMembers f members)

def mapKeysItems (f : σ → κ) : List (JsonTree σ α) → List (JsonTree κ α)
  | [] => []
  | t::ts => mapKeys f t::mapKeysItems f ts

def mapKeysMembers (f : σ → κ) : List (σ × JsonTree σ α) → List (κ × JsonTree κ α)
  | [] => []
  | (k,t)::ms => (f k,mapKeys f t)::mapKeysMembers f ms

end

theorem keys_mapKeysMembers (f : σ → κ) (ms : List (σ × JsonTree σ α)) :
    keys (mapKeysMembers f ms) = (keys ms).map f := by
  induction ms with
  | nil => rfl
  | cons m ms ih =>
    simp only [keys] at ih
    simp [mapKeysMembers,keys,ih]

mutual

/-- All names of a value, at every depth. -/
def AllKeys (p : σ → Prop) : JsonTree σ α → Prop
  | .leaf _ => True
  | .arr items => AllKeysItems p items
  | .obj members => AllKeysMembers p members

def AllKeysItems (p : σ → Prop) : List (JsonTree σ α) → Prop
  | [] => True
  | t::ts => AllKeys p t ∧ AllKeysItems p ts

def AllKeysMembers (p : σ → Prop) : List (σ × JsonTree σ α) → Prop
  | [] => True
  | (k,t)::ms => p k ∧ AllKeys p t ∧ AllKeysMembers p ms

end

section Congr

variable {f g : σ → κ} {p : σ → Prop}

mutual

theorem mapKeys_congr (hfg : ∀ k, p k → f k = g k) : ∀ {t : JsonTree σ α}, t.AllKeys p →
    t.mapKeys f = t.mapKeys g
  | .leaf _, _ => rfl
  | .arr items, h => by
    rw [mapKeys,mapKeys,mapKeysItems_congr hfg h]
  | .obj members, h => by
    rw [mapKeys,mapKeys,mapKeysMembers_congr hfg h]

theorem mapKeysItems_congr (hfg : ∀ k, p k → f k = g k) : ∀ {ts : List (JsonTree σ α)},
    AllKeysItems p ts → mapKeysItems f ts = mapKeysItems g ts
  | [], _ => rfl
  | _::_, h => by
    rw [mapKeysItems,mapKeysItems,mapKeys_congr hfg h.1,mapKeysItems_congr hfg h.2]

theorem mapKeysMembers_congr (hfg : ∀ k, p k → f k = g k) : ∀ {ms : List (σ × JsonTree σ α)},
    AllKeysMembers p ms → mapKeysMembers f ms = mapKeysMembers g ms
  | [], _ => rfl
  | (k,_)::_, h => by
    rw [mapKeysMembers,mapKeysMembers,hfg k h.1,mapKeys_congr hfg h.2.1,
      mapKeysMembers_congr hfg h.2.2]

end

end Congr

/-! The names of one object together. -/

mutual

/-- Of the names of every object of a value. -/
def EachObject (p : List σ → Prop) : JsonTree σ α → Prop
  | .leaf _ => True
  | .arr items => EachObjectItems p items
  | .obj members => p (keys members) ∧ EachObjectMembers p members

def EachObjectItems (p : List σ → Prop) : List (JsonTree σ α) → Prop
  | [] => True
  | t::ts => EachObject p t ∧ EachObjectItems p ts

def EachObjectMembers (p : List σ → Prop) : List (σ × JsonTree σ α) → Prop
  | [] => True
  | (_,t)::ms => EachObject p t ∧ EachObjectMembers p ms

end

section EachObject

variable {p q r : List σ → Prop}

mutual

theorem eachObject_congr (hqr : ∀ ns, p ns → (q ns ↔ r ns)) : ∀ {t : JsonTree σ α},
    t.EachObject p → (t.EachObject q ↔ t.EachObject r)
  | .leaf _, _ => Iff.rfl
  | .arr _, h => eachObjectItems_congr hqr h
  | .obj _, h => and_congr (hqr _ h.1) (eachObjectMembers_congr hqr h.2)

theorem eachObjectItems_congr (hqr : ∀ ns, p ns → (q ns ↔ r ns)) : ∀ {ts : List (JsonTree σ α)},
    EachObjectItems p ts → (EachObjectItems q ts ↔ EachObjectItems r ts)
  | [], _ => Iff.rfl
  | _::_, h => and_congr (eachObject_congr hqr h.1) (eachObjectItems_congr hqr h.2)

theorem eachObjectMembers_congr (hqr : ∀ ns, p ns → (q ns ↔ r ns)) :
    ∀ {ms : List (σ × JsonTree σ α)},
    EachObjectMembers p ms → (EachObjectMembers q ms ↔ EachObjectMembers r ms)
  | [], _ => Iff.rfl
  | (_,_)::_, h => and_congr (eachObject_congr hqr h.1) (eachObjectMembers_congr hqr h.2)

end

theorem EachObject.imp (hpq : ∀ ns, p ns → q ns) {t : JsonTree σ α} (h : t.EachObject p) :
    t.EachObject q :=
  (eachObject_congr (fun ns hp => iff_of_true (hpq ns hp) hp) h).2 h

mutual

theorem AllKeys.eachObject {p : σ → Prop} : ∀ {t : JsonTree σ α}, t.AllKeys p →
    t.EachObject fun ns => ∀ n ∈ ns, p n
  | .leaf _, _ => trivial
  | .arr _, h => AllKeysItems.eachObject h
  | .obj _, h => ⟨AllKeysMembers.forall_keys h,AllKeysMembers.eachObject h⟩

theorem AllKeysItems.eachObject {p : σ → Prop} : ∀ {ts : List (JsonTree σ α)},
    AllKeysItems p ts → EachObjectItems (fun ns => ∀ n ∈ ns, p n) ts
  | [], _ => trivial
  | _::_, h => ⟨AllKeys.eachObject h.1,AllKeysItems.eachObject h.2⟩

theorem AllKeysMembers.eachObject {p : σ → Prop} : ∀ {ms : List (σ × JsonTree σ α)},
    AllKeysMembers p ms → EachObjectMembers (fun ns => ∀ n ∈ ns, p n) ms
  | [], _ => trivial
  | (_,_)::_, h => ⟨AllKeys.eachObject h.2.1,AllKeysMembers.eachObject h.2.2⟩

theorem AllKeysMembers.forall_keys {p : σ → Prop} : ∀ {ms : List (σ × JsonTree σ α)},
    AllKeysMembers p ms → ∀ n ∈ keys ms, p n
  | [], _ => List.forall_mem_nil _
  | (_,_)::_, h => List.forall_mem_cons.2 ⟨h.1,AllKeysMembers.forall_keys h.2.2⟩

end

mutual

/-- Other names are distinct in each object on its own. -/
theorem wellFormed_mapKeys (f : σ → κ) : ∀ t : JsonTree σ α,
    (t.mapKeys f).WellFormed ↔ t.EachObject fun ns => (ns.map f).Nodup
  | .leaf _ => Iff.rfl
  | .arr items => wellFormedItems_mapKeys f items
  | .obj members => by
    rw [mapKeys,WellFormed,EachObject,keys_mapKeysMembers,wellFormedMembers_mapKeys f members]

theorem wellFormedItems_mapKeys (f : σ → κ) : ∀ ts : List (JsonTree σ α),
    WellFormedItems (mapKeysItems f ts) ↔ EachObjectItems (fun ns => (ns.map f).Nodup) ts
  | [] => Iff.rfl
  | t::ts => and_congr (wellFormed_mapKeys f t) (wellFormedItems_mapKeys f ts)

theorem wellFormedMembers_mapKeys (f : σ → κ) : ∀ ms : List (σ × JsonTree σ α),
    WellFormedMembers (mapKeysMembers f ms) ↔ EachObjectMembers (fun ns => (ns.map f).Nodup) ms
  | [] => Iff.rfl
  | (_,t)::ms => and_congr (wellFormed_mapKeys f t) (wellFormedMembers_mapKeys f ms)

end

/-- Two renamings that identify the same names of one object repeat names together. -/
theorem wellFormed_mapKeys_iff {f g : σ → κ} {t : JsonTree σ α}
    (h : t.EachObject (List.Pairwise fun n m => f n = f m ↔ g n = g m)) :
    (t.mapKeys f).WellFormed ↔ (t.mapKeys g).WellFormed := by
  rw [wellFormed_mapKeys,wellFormed_mapKeys]
  refine eachObject_congr (fun ns hns => ?_) h
  rw [List.nodup_iff_pairwise_ne,List.nodup_iff_pairwise_ne,List.pairwise_map,List.pairwise_map]
  exact ⟨fun hf => (hns.and hf).imp fun hnm => fun heq => hnm.2 (hnm.1.2 heq),
    fun hg => (hns.and hg).imp fun hnm => fun heq => hnm.2 (hnm.1.1 heq)⟩

end EachObject

end JsonTree

namespace JsonSyntax
open Utf16 JsonText

def unit (c : Char) : CodeUnit := Fin.ofNat 65536 c.toNat

/-! ## Strings -/

/-- A unit that stands for itself in a string. -/
def isPlain (u : CodeUnit) : Bool := 32 ≤ u.val && u ≠ unit '\x22' && u ≠ unit '\x5c'

/-- `[0-9a-fA-F]` -/
def isHex (u : CodeUnit) : Bool := HexText.isDigit (Char.ofNat u.val)

inductive Escape
  | quote
  | backslash
  | slash
  | backspace
  | formFeed
  | newline
  | carriageReturn
  | tab
  deriving DecidableEq

namespace Escape

/-- What is written behind the backslash. -/
def letter : Escape → CodeUnit
  | quote => unit '\x22'
  | backslash => unit '\x5c'
  | slash => unit '/'
  | backspace => unit 'b'
  | formFeed => unit 'f'
  | newline => unit 'n'
  | carriageReturn => unit 'r'
  | tab => unit 't'

def decoded : Escape → CodeUnit
  | quote => unit '\x22'
  | backslash => unit '\x5c'
  | slash => unit '/'
  | backspace => unit '\x08'
  | formFeed => unit '\x0c'
  | newline => unit '\x0a'
  | carriageReturn => unit '\x0d'
  | tab => unit '\x09'

end Escape

/-- One unit of a string as it is written. -/
inductive Piece
  | plain (u : {u : CodeUnit // isPlain u = true})
  | escape (e : Escape)
  | unicode (a b c d : {u : CodeUnit // isHex u = true})
  deriving DecidableEq

namespace Piece

def text : Piece → JsString
  | plain u => [u.val]
  | escape e => [unit '\x5c',e.letter]
  | unicode a b c d => [unit '\x5c',unit 'u',a.val,b.val,c.val,d.val]

def decoded : Piece → CodeUnit
  | plain u => u.val
  | escape e => e.decoded
  | unicode a b c d =>
    Fin.ofNat 65536 (HexText.value ([a,b,c,d].map (fun u => Char.ofNat u.val.val)))

/-- The unit as it stands; a quote where it cannot. -/
def ofUnit (u : CodeUnit) : Piece :=
  if h : isPlain u = true then plain ⟨u,h⟩ else escape .quote

/-- The escape with these four digits. -/
def ofHex (a b c d : CodeUnit) : Piece :=
  if h : isHex a = true ∧ isHex b = true ∧ isHex c = true ∧ isHex d = true then
    unicode ⟨a,h.1⟩ ⟨b,h.2.1⟩ ⟨c,h.2.2.1⟩ ⟨d,h.2.2.2⟩
  else escape .quote

end Piece

abbrev StringLit := List Piece

namespace StringLit

def text (s : StringLit) : JsString := unit '\x22' :: s.flatMap Piece.text ++ [unit '\x22']

/-- The string that is meant. -/
def decoded (s : StringLit) : JsString := s.map Piece.decoded

end StringLit

/-! ## Numbers -/

instance neZero_digit : NeZero 10 := ⟨by norm_num⟩

abbrev Digits := List (Fin 10)

namespace Digits

def text (ds : Digits) : JsString := ds.map (fun d : Fin 10 => unit (Nat.digitChar d.val))

def value (ds : Digits) : ℕ := ds.foldl (fun n d => 10*n+d.val) 0

end Digits

structure Exponent where
  letter : Bool
  sign : Option Bool
  digits : Digits
  digits_ne_nil : digits ≠ []
  deriving DecidableEq

namespace Exponent

def signText : Option Bool → JsString
  | none => []
  | some false => [unit '+']
  | some true => [unit '-']

def text (e : Exponent) : JsString :=
  unit (if e.letter then 'E' else 'e') :: signText e.sign ++ e.digits.text

def value (e : Exponent) : ℤ :=
  if e.sign = some true then -(e.digits.value : ℤ) else e.digits.value

end Exponent

/-- A number as it is written; no digits behind the point where there is no point. -/
structure NumberLit where
  minus : Bool
  whole : Digits
  fraction : Digits
  exponent : Option Exponent
  whole_ne_nil : whole ≠ []
  no_leading_zero : whole.head? = some 0 → whole = [0]
  deriving DecidableEq

namespace NumberLit

def text (n : NumberLit) : JsString :=
  (if n.minus then [unit '-'] else []) ++ n.whole.text ++
    (if n.fraction = [] then [] else unit '.' :: n.fraction.text) ++
    (n.exponent.map Exponent.text).getD []

/-- The number that is denoted. -/
def value (n : NumberLit) : ℚ :=
  (if n.minus then -1 else 1)*Digits.value (n.whole ++ n.fraction)*
    (10 : ℚ)^((n.exponent.map Exponent.value).getD 0-n.fraction.length)

end NumberLit

/-! ## Tokens -/

abbrev Scalar := Leaf StringLit NumberLit

inductive Token
  | openArray
  | closeArray
  | openObject
  | closeObject
  | colon
  | comma
  | scalar (a : Scalar)
  deriving DecidableEq

def scalarText : Scalar → JsString
  | .null => lit "null"
  | .bool b => lit (if b then "true" else "false")
  | .num n => n.text
  | .str s => s.text

namespace Token

def text : Token → JsString
  | openArray => [unit '[']
  | closeArray => [unit ']']
  | openObject => [unit '\x7b']
  | closeObject => [unit '\x7d']
  | colon => [unit ':']
  | comma => [unit ',']
  | scalar a => scalarText a

abbrev name (s : StringLit) : Token := .scalar (.str s)

end Token

/-! ## Trees -/

/-- A value as it is written. -/
abbrev Tree := JsonTree StringLit Scalar

mutual

def tokens : Tree → List Token
  | .leaf a => [.scalar a]
  | .arr [] => [.openArray,.closeArray]
  | .arr (t::ts) => .openArray :: tokens t ++ tokensItems ts ++ [.closeArray]
  | .obj [] => [.openObject,.closeObject]
  | .obj ((k,t)::ms) =>
    .openObject :: .name k :: .colon :: tokens t ++ tokensMembers ms ++ [.closeObject]

/-- The items after the first one, each with the comma before it. -/
def tokensItems : List Tree → List Token
  | [] => []
  | t::ts => .comma :: tokens t ++ tokensItems ts

def tokensMembers : List (StringLit × Tree) → List Token
  | [] => []
  | (k,t)::ms => .comma :: .name k :: .colon :: tokens t ++ tokensMembers ms

end

def isSpace (u : CodeUnit) : Bool :=
  u = unit ' ' || u = unit '\x09' || u = unit '\x0a' || u = unit '\x0d'

/-- The text has these tokens, with white space between them. -/
inductive Spells : JsString → List Token → Prop
  | nil {w : JsString} (hw : ∀ u ∈ w, isSpace u = true) : Spells w []
  | cons {w s : JsString} {k : Token} {ks : List Token} (hw : ∀ u ∈ w, isSpace u = true)
      (hs : Spells s ks) : Spells (w ++ k.text ++ s) (k::ks)

/-- A text of the grammar, and the value as it is written there. -/
def Writes (s : JsString) (t : Tree) : Prop := Spells s (tokens t)

/-- The text without white space. -/
def compact (t : Tree) : JsString := (tokens t).flatMap Token.text

theorem spells_flatMap (ks : List Token) : Spells (ks.flatMap Token.text) ks := by
  induction ks with
  | nil => exact .nil (List.forall_mem_nil _)
  | cons k ks ih => exact .cons (w := []) (List.forall_mem_nil _) ih

theorem writes_compact (t : Tree) : Writes (compact t) t := spells_flatMap (tokens t)

end JsonSyntax
end BpsProtocol
