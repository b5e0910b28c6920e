import BpsProtocol.Lib.JsonValue
import BpsProtocol.Lib.Separated

/-! The digest of a packet of the canary operator.
The canonical text of an object is hashed as hexadecimal digits, unit by unit: at least two
digits for each unit, and three or four where the unit does not fit a byte. -/
namespace BpsProtocol
namespace PacketDigest

open Utf16 JsonText JsonValue Binary64 Separated

/-! ## The canonical text -/

/-- `JSON.stringify` of a leaf -/
def stringifyLeaf (a : Leaf JsString Number) : Text := leafText quote NumberText.text (shown a)

mutual

def canonicalStable : Value → Text
  | .leaf a => stringifyLeaf a
  | .arr items => '[' :: join ',' (stableItems items) ++ [']']
  | .obj ms =>
    '\x7b' :: join ',' ((sortKeys.act (stableMembers ms)).map (fun m => quote m.1 ++ ':' :: m.2)) ++
      ['\x7d']

def stableItems : List Value → List Text
  | [] => []
  | v::vs => canonicalStable v::stableItems vs

/-- The text of each member beside its name. -/
def stableMembers : List (JsString × Value) → List (JsString × Text)
  | [] => []
  | (k,v)::ms => (k,canonicalStable v)::stableMembers ms

end

/-! ## The digest -/

/-- `(c < 16 ? "0" : "") + c.toString(16)` -/
def hexUnit (c : ℕ) : Text := (if c < 16 then ['0'] else []) ++ Nat.toDigits 16 c

/-- `_utf8ToHex` -/
def utf8ToHex (s : JsString) : Text := '0' :: 'x' :: s.flatMap (fun c => hexUnit c.val)

def stableUnits (v : Value) : JsString := ofText (canonicalStable v)

def digestOf (obj : Value) (keccak256 : Text → Text) : Text := keccak256 (utf8ToHex (stableUnits obj))

/-! ## The anchors of the operator -/

/-- `!!x && !!y && String(x).toLowerCase() === String(y).toLowerCase()` -/
def eq (x y : Option Text) : Bool :=
  match x, y with
  | some a, some b => a ≠ [] && b ≠ [] && a.map Char.toLower = b.map Char.toLower
  | _, _ => false

/-- The reconstruction, the packaged object and the anchors of packet and policy. -/
structure Anchors where
  recon : Option Value
  packaged : Option Value
  anchorPacket : Option Text
  anchorPolicy : Option Text

def reviewedDigestAnchorsAgree (a : Anchors) (keccak256 : Text → Text) : Bool :=
  let digestR := a.recon.map (digestOf · keccak256)
  let digestP := a.packaged.map (digestOf · keccak256)
  eq digestR digestP && eq digestR a.anchorPacket && eq digestR a.anchorPolicy

def reconMatchesPackaged (a : Anchors) : Bool :=
  match a.recon, a.packaged with
  | some recon, some packaged => canonicalStable recon = canonicalStable packaged
  | _, _ => false

/-! ## Text and value -/

section Print

variable {n : ℕ}

theorem printItems_compact (ts : List (JsonTree JsString (Leaf JsString Double))) :
    compact.printItems n ts = (ts.map (compact.print n)).flatMap (',' :: ·) := by
  induction ts with
  | nil => rfl
  | cons t ts ih =>
    rw [Style.printItems,ih]
    simp [compact,style]

theorem printMembers_compact (ms : List (JsString × JsonTree JsString (Leaf JsString Double))) :
    compact.printMembers n ms =
      (ms.map (fun m => quote m.1 ++ ':' :: compact.print n m.2)).flatMap (',' :: ·) := by
  induction ms with
  | nil => rfl
  | cons m ms ih =>
    rw [Style.printMembers,ih]
    simp [compact,style]

theorem print_arr (ts : List (JsonTree JsString (Leaf JsString Double))) :
    compact.print n (.arr ts) = '[' :: join ',' (ts.map (compact.print (n+2))) ++ [']'] := by
  cases ts with
  | nil => rfl
  | cons t ts =>
    rw [Style.print,printItems_compact,List.map_cons,join]
    simp [compact,style]

theorem print_obj (ms : List (JsString × JsonTree JsString (Leaf JsString Double))) :
    compact.print n (.obj ms) =
      '\x7b' :: join ',' (ms.map (fun m => quote m.1 ++ ':' :: compact.print (n+2) m.2)) ++
        ['\x7d'] := by
  cases ms with
  | nil => rfl
  | cons m ms =>
    rw [Style.print,printMembers_compact,List.map_cons,join]
    simp [compact,style]

mutual

/-- The text is that of the value with sorted members. -/
theorem canonicalStable_eq : ∀ (v : Value) (n : ℕ),
    canonicalStable v = compact.print n (v.rebuild shown sortKeys)
  | .leaf _, _ => rfl
  | .arr items, n => by
    rw [canonicalStable,JsonTree.rebuild,print_arr,stableItems_eq items (n+2)]
  | .obj ms, n => by
    rw [canonicalStable,JsonTree.rebuild,print_obj,stableMembers_eq ms (n+2),sortKeys.act_mapValues,
      JsonTree.mapValues,List.map_map]
    rfl

theorem stableItems_eq : ∀ (vs : List Value) (n : ℕ),
    stableItems vs = (JsonTree.rebuildItems shown sortKeys vs).map (compact.print n)
  | [], _ => rfl
  | v::vs, n => by
    rw [stableItems,canonicalStable_eq v n,stableItems_eq vs n]
    rfl

theorem stableMembers_eq : ∀ (ms : List (JsString × Value)) (n : ℕ), stableMembers ms =
    JsonTree.mapValues (compact.print n) (JsonTree.rebuildMembers shown sortKeys ms)
  | [], _ => rfl
  | (k,v)::ms, n => by
    rw [stableMembers,canonicalStable_eq v n,stableMembers_eq ms n]
    rfl

end

/-- The text determines the value up to the order of members, with null for every number that
is not finite. -/
theorem canonicalStable_inj_iff {x y : Value} : canonicalStable x = canonicalStable y ↔
    x.rebuild shown sortKeys = y.rebuild shown sortKeys := by
  rw [canonicalStable_eq x 0,canonicalStable_eq y 0]
  exact (compact_lawful.print_injective 0).eq_iff

end Print

end PacketDigest
end BpsProtocol
