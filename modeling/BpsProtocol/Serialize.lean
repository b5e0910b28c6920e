import BpsProtocol.Artifacts
import BpsProtocol.Lib.JsonValue

/-! Canonical serialization of any value of a script.
The members of an object are set on a new object in the order of their sorted names.  Setting
`__proto__` sets the prototype of that object and no member of it. -/
namespace BpsProtocol
namespace Serialize

open Checked MerkleProof Artifacts Utf16 JsonText JsonValue Binary64

/-! ## Values -/

/-- A leaf of a value of unknown type. -/
inductive Scalar
  | json (a : Leaf JsString Number)
  | bigint (n : ℤ)
  | unsupported (type : JsString)

abbrev Unknown := JsonTree JsString Scalar

/-- What `JSON.parse` gives. -/
def ofJson (v : Value) : Unknown := v.mapLeaves Scalar.json

theorem ofJson_leaf (a : Leaf JsString Number) : ofJson (.leaf a) = .leaf (.json a) := rfl

theorem ofJson_arr (items : List Value) :
    ofJson (.arr items) = .arr (JsonTree.rebuildItems Scalar.json .keep items) := rfl

theorem ofJson_obj (ms : List (JsString × Value)) :
    ofJson (.obj ms) = .obj (JsonTree.rebuildMembers Scalar.json .keep ms) := rfl

inductive CanonicalizeError
  | bigint (path : JsString)
  | notInteger (path : JsString)
  | unsupported (type path : JsString)
  deriving DecidableEq

def CanonicalizeError.message : CanonicalizeError → JsString
  | .bigint path =>
    lit "canonicalize: bigint at " ++ path ++ lit " must be converted to a string first"
  | .notInteger path => lit "canonicalize: only finite integer numbers allowed, at " ++ path
  | .unsupported type path => lit "canonicalize: unsupported " ++ type ++ lit " at " ++ path

/-! ## Canonical form -/

def canonicalizeScalar (path : JsString) : Scalar → Except CanonicalizeError (Leaf JsString Number)
  | .bigint _ => .error (.bigint path)
  | .json (.num x) => do
    revertIf (isFinite (.num x) = false ∨ x.isInteger = false) (.notInteger path)
    return .num x
  | .json a => .ok a
  | .unsupported type => .error (.unsupported type path)

def proto : JsString := lit "__proto__"

/-- `out[key] = value` for a name that `out` does not have. -/
def assign (out : List (JsString × Value)) (key : JsString) (value : Value) :
    List (JsString × Value) :=
  if key = proto then out else out ++ [(key,value)]

/-- The loop over the sorted names; a member is canonicalized when its turn comes. -/
def assignAll : List (JsString × Value) → List (JsString × Except CanonicalizeError Value) →
    Except CanonicalizeError (List (JsString × Value))
  | out, [] => .ok out
  | out, (key,member)::rest => do
    let value ← member
    assignAll (assign out key value) rest

mutual

def canonicalize (path : JsString) : Unknown → Except CanonicalizeError Value
  | .leaf a => do
    let a ← canonicalizeScalar path a
    return .leaf a
  | .arr items => do
    let items ← canonicalizeItems path 0 items
    return .arr items
  | .obj input => do
    let out ← assignAll [] (sortKeys.act (canonicalizeMembers path input))
    return .obj out

def canonicalizeItems (path : JsString) : ℕ → List Unknown → Except CanonicalizeError (List Value)
  | _, [] => .ok []
  | i, v::vs => do
    let v ← canonicalize (path ++ lit "[" ++ ofText (Nat.toDigits 10 i) ++ lit "]") v
    let vs ← canonicalizeItems path (i+1) vs
    return v::vs

def canonicalizeMembers (path : JsString) :
    List (JsString × Unknown) → List (JsString × Except CanonicalizeError Value)
  | [] => []
  | (key,v)::ms =>
    (key,canonicalize (path ++ lit "." ++ key) v)::canonicalizeMembers path ms

end

/-- Serialize a JSON-safe value canonically. -/
def canonicalStringify (value : Unknown) : Except CanonicalizeError Text := do
  let value ← canonicalize (lit "$") value
  return stringify value

/-- keccak256 over the canonical serialization of a JSON-safe value. -/
def keccakOfCanonical (keccak256 : Hash) (value : Unknown) : Except CanonicalizeError Text := do
  let text ← canonicalStringify value
  return keccakOfString keccak256 text

/-! ## Verification of documents -/

inductive VerifyError
  | typeError
  | canonicalize (e : CanonicalizeError)
  deriving DecidableEq

/-- The value of an own name. -/
def member {α : Type} (key : JsString) : List (JsString × α) → Option α
  | [] => none
  | m::ms => if m.1 = key then some m.2 else member key ms

/-- The members of a value whose fields are read; `null` has none to read. -/
def members : Unknown → Except VerifyError (List (JsString × Unknown))
  | .leaf (.json .null) => .error .typeError
  | .obj ms => .ok ms
  | _ => .ok []

/-- A hash of the canonical text is the committed one. -/
def commits (keccak256 : Hash) (committed : JsString) (value : Unknown) : Except VerifyError Bool := do
  let hash ← (keccakOfCanonical keccak256 value).mapError .canonicalize
  return ofText hash = committed

/-- `delete body[key]` on a copy of the object. -/
def without {α : Type} (key : JsString) (ms : List (JsString × α)) : List (JsString × α) :=
  ms.filter (fun m => m.1 ≠ key)

def verifyManifestEnvelope (keccak256 : Hash) (manifest : Unknown) : Except VerifyError Bool := do
  let m ← members manifest
  match member (lit "envelopeHash") m with
  | some (.leaf (.json (.str committed))) =>
    commits keccak256 committed (.obj (without (lit "envelopeHash") m))
  | _ => return false

def verifyAllocationsContentHash (keccak256 : Hash) (manifest allocations : Unknown) :
    Except VerifyError Bool := do
  let m ← members manifest
  match member (lit "allocationsContentHash") m with
  | some (.leaf (.json (.str committed))) => commits keccak256 committed allocations
  | _ => return false

/-! ## What a success says -/

/-- The members that an object keeps, in the order in which they are set. -/
def kept : JsonTree.Rule JsString := sortKeys.andThen (.filter (fun key => key ≠ proto))

theorem assign_fold (out ms : List (JsString × Value)) :
    assignAll out (JsonTree.mapValues .ok ms) =
      .ok (out ++ ms.filter (fun m => m.1 ≠ proto)) := by
  induction ms generalizing out with
  | nil => rw [JsonTree.mapValues,List.map_nil,assignAll,List.filter_nil,List.append_nil]
  | cons m ms ih =>
    rw [JsonTree.mapValues] at ih ⊢
    rw [List.map_cons,assignAll,ok_bind,ih,assign,List.filter_cons]
    by_cases hkey : m.1 = proto
    · simp [hkey]
    · simp [hkey]

/-- The loop ends where every member has a canonical form. -/
theorem assignAll_eq_ok {out out' : List (JsString × Value)}
    {ms : List (JsString × Except CanonicalizeError Value)} (h : assignAll out ms = .ok out') :
    ∀ m ∈ ms, ∃ c, m.2 = .ok c := by
  induction ms generalizing out with
  | nil => simp
  | cons m ms ih =>
    obtain ⟨key,member⟩ := m
    rw [assignAll,bind_eq_ok] at h
    obtain ⟨value,hvalue,hrest⟩ := h
    rw [List.forall_mem_cons]
    exact ⟨⟨value,hvalue⟩,ih hrest⟩

/-- The function keeps every leaf that is accepted. -/
def Keeps (f : Leaf JsString Number → Leaf JsString Number) : Prop :=
  ∀ path a b, canonicalizeScalar path (.json a) = .ok b → b = f a

section Success

variable {f : Leaf JsString Number → Leaf JsString Number}

mutual

/-- A canonical form keeps the leaves and, at every depth, all members but `__proto__`. -/
theorem canonicalize_ofJson (hf : Keeps f) : ∀ (v : Value) (path : JsString) {c : Value},
    canonicalize path (ofJson v) = .ok c → c = v.rebuild f kept
  | .leaf a, path, c, h => by
    rw [ofJson_leaf,canonicalize,bind_eq_ok] at h
    obtain ⟨b,hb,h⟩ := h
    rw [← pure_eq_ok.1 h,hf path a b hb,JsonTree.rebuild]
  | .arr items, path, c, h => by
    rw [ofJson_arr,canonicalize,bind_eq_ok] at h
    obtain ⟨cs,hcs,h⟩ := h
    rw [← pure_eq_ok.1 h,canonicalizeItems_ofJson hf items path 0 hcs,JsonTree.rebuild]
  | .obj ms, path, c, h => by
    rw [ofJson_obj,canonicalize,bind_eq_ok] at h
    obtain ⟨out,hout,h⟩ := h
    have hall : ∀ m ∈ canonicalizeMembers path (JsonTree.rebuildMembers Scalar.json .keep ms),
        ∃ c, m.2 = .ok c := fun m hm =>
      assignAll_eq_ok hout m ((arranges_sortKeys.perm _).mem_iff.2 hm)
    have hmembers := canonicalizeMembers_ofJson hf ms path hall
    change assignAll [] (sortKeys.act (canonicalizeMembers path
      (JsonTree.rebuildMembers Scalar.json .keep ms))) = .ok out at hout
    rw [hmembers,sortKeys.act_mapValues,assign_fold,List.nil_append] at hout
    rw [← pure_eq_ok.1 h,← Except.ok.inj hout,JsonTree.rebuild]
    rfl

theorem canonicalizeItems_ofJson (hf : Keeps f) : ∀ (vs : List Value) (path : JsString) (i : ℕ)
    {cs : List Value},
    canonicalizeItems path i (JsonTree.rebuildItems Scalar.json .keep vs) = .ok cs →
      cs = JsonTree.rebuildItems f kept vs
  | [], path, i, cs, h => by
    rw [JsonTree.rebuildItems,canonicalizeItems] at h
    rw [← Except.ok.inj h,JsonTree.rebuildItems]
  | v::vs, path, i, cs, h => by
    rw [JsonTree.rebuildItems,canonicalizeItems,bind_eq_ok] at h
    obtain ⟨c,hc,h⟩ := h
    rw [bind_eq_ok] at h
    obtain ⟨cs',hcs',h⟩ := h
    rw [← pure_eq_ok.1 h,canonicalize_ofJson hf v _ hc,canonicalizeItems_ofJson hf vs path (i+1) hcs',
      JsonTree.rebuildItems]

theorem canonicalizeMembers_ofJson (hf : Keeps f) : ∀ (ms : List (JsString × Value)) (path : JsString),
    (∀ m ∈ canonicalizeMembers path (JsonTree.rebuildMembers Scalar.json .keep ms), ∃ c, m.2 = .ok c) →
      canonicalizeMembers path (JsonTree.rebuildMembers Scalar.json .keep ms) =
        JsonTree.mapValues .ok (JsonTree.rebuildMembers f kept ms)
  | [], _, _ => rfl
  | (key,v)::ms, path, h => by
    rw [JsonTree.rebuildMembers,canonicalizeMembers,List.forall_mem_cons] at h
    obtain ⟨⟨c,hc⟩,hrest⟩ := h
    dsimp only at hc
    rw [JsonTree.rebuildMembers,canonicalizeMembers,hc,canonicalize_ofJson hf v _ hc,
      canonicalizeMembers_ofJson hf ms path hrest]
    rfl

end

end Success

end Serialize
end BpsProtocol
