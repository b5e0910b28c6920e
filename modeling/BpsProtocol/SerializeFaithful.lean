import BpsProtocol.MerkleSoundness
import BpsProtocol.Serialize

/-! What the canonical text of a value determines.
The texts of two values are equal exactly if the values are the same without their members
`__proto__`; what such a member holds enters no hash. -/
namespace BpsProtocol
namespace Serialize

open Checked MerkleProof Merkle Artifacts Utf16 JsonText JsonValue Binary64

/-- A value without its members `__proto__`, at every depth. -/
def withoutProto (v : Value) : Value := v.arrange (.filter (fun key => key ≠ proto))

/-- The values differ, but only in members `__proto__`. -/
def DifferInProto (v w : Value) : Prop := (withoutProto v).Same (withoutProto w) ∧ ¬v.Same w

/-! ## Accepted leaves -/

theorem canonicalizeScalar_json {path : JsString} {a b : Leaf JsString Number}
    (h : canonicalizeScalar path (.json a) = .ok b) : b = a ∧ isFinite a = true := by
  cases a with
  | num x =>
    rw [canonicalizeScalar,bind_eq_ok] at h
    obtain ⟨u,hu,h⟩ := h
    rw [revertIf_eq_ok,not_or,Bool.not_eq_false] at hu
    exact ⟨(pure_eq_ok.1 h).symm,hu.1⟩
  | null => exact ⟨(Except.ok.inj h).symm,rfl⟩
  | bool x => exact ⟨(Except.ok.inj h).symm,rfl⟩
  | str s => exact ⟨(Except.ok.inj h).symm,rfl⟩

theorem keeps_id : Keeps id := fun _ _ _ h => (canonicalizeScalar_json h).1

theorem keeps_shown : Keeps (unshown ∘ shown) := fun _ _ _ h => by
  obtain ⟨rfl,hfinite⟩ := canonicalizeScalar_json h
  exact (unshown_shown hfinite).symm

/-! ## The text -/

/-- The members in the order in which they are printed. -/
def listed : JsonTree.Rule JsString := kept.andThen ownKeys

theorem listed_eq : listed = (JsonTree.Rule.filter (fun key => key ≠ proto)).andThen
    (sortKeys.andThen ownKeys) := by
  unfold listed kept sortKeys
  rw [JsonTree.Rule.sort_andThen_filter]
  rfl

section Text

variable {v w : Value} {s t : Text}

theorem canonicalStringify_eq_ok (h : canonicalStringify (ofJson v) = .ok s) :
    s = pretty.print 0 (v.rebuild shown listed) ∧
      v.rebuild (unshown ∘ shown) listed = v.arrange listed := by
  rw [canonicalStringify,bind_eq_ok] at h
  obtain ⟨c,hc,h⟩ := h
  have hid := canonicalize_ofJson keeps_id v _ hc
  have hshown := canonicalize_ofJson keeps_shown v _ hc
  constructor
  · rw [← pure_eq_ok.1 h,stringify,Style.print_comap,JsonTree.mapLeaves_arrange,hid]
    exact congrArg (pretty.print 0) (JsonTree.rebuild_rebuild v)
  · have harrange : (v.rebuild (unshown ∘ shown) kept).arrange ownKeys =
        (v.rebuild id kept).arrange ownKeys := by rw [← hid,← hshown]
    rw [JsonTree.arrange_rebuild,JsonTree.arrange_rebuild] at harrange
    exact harrange

theorem arrange_listed (v : Value) :
    v.arrange listed = (withoutProto v).arrange (sortKeys.andThen ownKeys) := by
  rw [withoutProto,JsonTree.arrange_arrange,listed_eq]

theorem withoutProto_wellFormed (h : v.WellFormed) : (withoutProto v).WellFormed :=
  h.rebuild fun _ => ⟨_,List.Perm.refl _,List.filter_sublist⟩

/-- Without their members `__proto__`, values of one canonical text are the same. -/
theorem canonicalStringify_eq_iff (hw : w.WellFormed)
    (hs : canonicalStringify (ofJson v) = .ok s) (ht : canonicalStringify (ofJson w) = .ok t) :
    s = t ↔ (withoutProto v).Same (withoutProto w) := by
  obtain ⟨hsText,hsKept⟩ := canonicalStringify_eq_ok hs
  obtain ⟨htText,htKept⟩ := canonicalStringify_eq_ok ht
  rw [JsonTree.same_iff_arrange_eq arranges_ownKeys_sortKeys (withoutProto_wellFormed hw),
    ← arrange_listed,← arrange_listed]
  constructor
  · intro h
    rw [hsText,htText] at h
    have hleaves := congrArg (JsonTree.mapLeaves unshown) (pretty_lawful.print_injective 0 h)
    rw [JsonTree.mapLeaves_rebuild,JsonTree.mapLeaves_rebuild] at hleaves
    exact hsKept.symm.trans (hleaves.trans htKept)
  · intro h
    have hleaves := congrArg (JsonTree.mapLeaves shown) h
    rw [JsonTree.mapLeaves_arrange,JsonTree.mapLeaves_arrange] at hleaves
    rw [hsText,htText,hleaves]

end Text

/-! ## Documents -/

section Documents

variable {keccak256 : Hash} {v w : Value} {s t : Text} {ms : List (JsString × Value)}

theorem stringToBytes_injective : Function.Injective stringToBytes := fun s t h => by
  have hbytes : (String.ofList s).toUTF8 = (String.ofList t).toUTF8 := by
    apply ByteArray.ext
    exact Array.toList_inj.1 h
  exact String.ofList_injective (String.toByteArray_inj.1 hbytes)

/-- The hash that a document commits to. -/
def committedHash (keccak256 : Hash) (text : Text) : JsString := ofText (keccakOfString keccak256 text)

theorem committedHash_eq_iff (hfree : CollisionFree keccak256 [stringToBytes s,stringToBytes t]) :
    committedHash keccak256 s = committedHash keccak256 t ↔ s = t := by
  constructor
  · intro h
    have hword := ViemVerify.wordText_injective (ofText_injective h)
    exact stringToBytes_injective (hfree (by simp) (by simp) hword)
  · rintro rfl
    rfl

theorem member_mapValues {α β : Type} (f : α → β) (key : JsString) (ms : List (JsString × α)) :
    member key (JsonTree.mapValues f ms) = (member key ms).map f := by
  induction ms with
  | nil => rfl
  | cons m ms ih =>
    rw [JsonTree.mapValues] at ih ⊢
    rw [List.map_cons,member,member,ih]
    split <;> rfl

theorem without_mapValues {α β : Type} (f : α → β) (key : JsString) (ms : List (JsString × α)) :
    without key (JsonTree.mapValues f ms) = JsonTree.mapValues f (without key ms) :=
  (JsonTree.Rule.filter (fun k => k ≠ key)).act_mapValues f ms

theorem commits_of_hash {committed : JsString} {value : Unknown} {hash : Text}
    (h : keccakOfCanonical keccak256 value = .ok hash) :
    commits keccak256 committed value = .ok (decide (ofText hash = committed)) := by
  rw [commits,h]
  rfl

/-- A commitment is kept exactly by the content of the committed text. -/
theorem commits_eq_true_iff (hs : canonicalStringify (ofJson v) = .ok s) :
    commits keccak256 (committedHash keccak256 t) (ofJson v) = .ok true ↔
      committedHash keccak256 s = committedHash keccak256 t := by
  have hhash : keccakOfCanonical keccak256 (ofJson v) = .ok (keccakOfString keccak256 s) := by
    rw [keccakOfCanonical,hs]
    rfl
  rw [commits_of_hash hhash,Except.ok.injEq,decide_eq_true_eq,committedHash,committedHash]

theorem verifyAllocationsContentHash_eq {committed : JsString}
    (h : member (lit "allocationsContentHash") ms = some (.leaf (.str committed))) (a : Unknown) :
    verifyAllocationsContentHash keccak256 (ofJson (.obj ms)) a = commits keccak256 committed a := by
  rw [verifyAllocationsContentHash,ofJson_obj,members,ok_bind,JsonTree.rebuildMembers_eq,
    member_mapValues,h]
  rfl

theorem verifyManifestEnvelope_eq {committed : JsString}
    (h : member (lit "envelopeHash") ms = some (.leaf (.str committed))) :
    verifyManifestEnvelope keccak256 (ofJson (.obj ms)) =
      commits keccak256 committed (ofJson (.obj (without (lit "envelopeHash") ms))) := by
  rw [verifyManifestEnvelope,ofJson_obj,members,ok_bind,JsonTree.rebuildMembers_eq,
    member_mapValues,h,without_mapValues,← JsonTree.rebuildMembers_eq]
  rfl

/-- A document is accepted exactly if its content has the text that was hashed. -/
theorem commits_iff (hw : w.WellFormed) (hs : canonicalStringify (ofJson v) = .ok s)
    (ht : canonicalStringify (ofJson w) = .ok t)
    (hfree : CollisionFree keccak256 [stringToBytes s,stringToBytes t]) :
    commits keccak256 (committedHash keccak256 t) (ofJson v) = .ok true ↔
      (withoutProto v).Same (withoutProto w) :=
  (commits_eq_true_iff hs).trans
    ((committedHash_eq_iff hfree).trans (canonicalStringify_eq_iff hw hs ht))

end Documents

/-! ## Faithfulness -/

section Faithful

variable {v w : Value} {s t : Text}

/-- Leaving members out keeps what is the same. -/
theorem withoutProto_same (hw : w.WellFormed) (h : v.Same w) :
    (withoutProto v).Same (withoutProto w) := by
  have harrange : v.arrange sortKeys = w.arrange sortKeys := h.rebuild_eq arranges_sortKeys hw
  have hlisted := congrArg (JsonTree.arrange ((JsonTree.Rule.filter (fun key => key ≠ proto)).andThen
    ownKeys)) harrange
  rw [JsonTree.arrange_arrange,JsonTree.arrange_arrange] at hlisted
  rw [JsonTree.same_iff_arrange_eq arranges_ownKeys_sortKeys (withoutProto_wellFormed hw),
    ← arrange_listed,← arrange_listed]
  exact hlisted

theorem same_of_withoutProto_iff :
    ((withoutProto v).Same (withoutProto w) → v.Same w) ↔ ¬DifferInProto v w := by
  unfold DifferInProto
  tauto

/-- Canonical texts are equal exactly for values that are the same, and a document is accepted
only for the content that was hashed, unless two values differ in members `__proto__` only. -/
theorem canonicalStringify_faithful_iff (hw : w.WellFormed)
    (hs : canonicalStringify (ofJson v) = .ok s) (ht : canonicalStringify (ofJson w) = .ok t) :
    ((s = t ↔ v.Same w) ↔ ¬DifferInProto v w) ∧
    ∀ (keccak256 : Hash) (ms : List (JsString × Value)),
      CollisionFree keccak256 [stringToBytes s,stringToBytes t] →
      (member (lit "allocationsContentHash") ms =
          some (.leaf (.str (committedHash keccak256 t))) →
        ((verifyAllocationsContentHash keccak256 (ofJson (.obj ms)) (ofJson v) = .ok true →
          v.Same w) ↔ ¬DifferInProto v w)) ∧
      (member (lit "envelopeHash") ms = some (.leaf (.str (committedHash keccak256 t))) →
        v = .obj (without (lit "envelopeHash") ms) →
        ((verifyManifestEnvelope keccak256 (ofJson (.obj ms)) = .ok true → v.Same w) ↔
          ¬DifferInProto v w)) := by
  have htext := canonicalStringify_eq_iff hw hs ht
  have hsame : v.Same w → (withoutProto v).Same (withoutProto w) := withoutProto_same hw
  refine ⟨?_,fun keccak256 ms hfree => ⟨fun hget => ?_,fun hget hbody => ?_⟩⟩
  · rw [htext,← same_of_withoutProto_iff]
    tauto
  · rw [verifyAllocationsContentHash_eq hget,commits_iff hw hs ht hfree]
    exact same_of_withoutProto_iff
  · rw [verifyManifestEnvelope_eq hget,← hbody,commits_iff hw hs ht hfree]
    exact same_of_withoutProto_iff

def plainAllocations : Value :=
  .obj [(lit "amount",.leaf (.str (lit "1"))),(lit "wallet",.leaf (.str (lit "w")))]

def reorderedAllocations : Value :=
  .obj [(lit "wallet",.leaf (.str (lit "w"))),(lit "amount",.leaf (.str (lit "1")))]

def allocationsText : Text := "\x7b\n  \"amount\": \"1\",\n  \"wallet\": \"w\"\n\x7d".toList

def committingManifest : List (JsString × Value) :=
  [(lit "allocationsContentHash",.leaf (.str (committedHash toyHash allocationsText)))]

def sealedDocument : List (JsString × Value) :=
  [(lit "envelopeHash",.leaf (.str (committedHash toyHash allocationsText))),
    (lit "wallet",.leaf (.str (lit "w"))),(lit "amount",.leaf (.str (lit "1")))]

theorem plainAllocations_wellFormed : plainAllocations.WellFormed :=
  ⟨by decide,trivial,trivial,trivial⟩

theorem plainAllocations_text :
    canonicalStringify (ofJson plainAllocations) = .ok allocationsText := by
  decide +kernel

theorem reorderedAllocations_text :
    canonicalStringify (ofJson reorderedAllocations) = .ok allocationsText := by
  decide +kernel

theorem toyHash_collisionFree :
    CollisionFree toyHash [stringToBytes allocationsText,stringToBytes allocationsText] := by
  intro a ha b hb _
  simp only [List.mem_cons,List.not_mem_nil,or_false,or_self,Set.mem_ofPred_eq] at ha hb
  rw [ha,hb]

theorem reorderedAllocations_faithful :
    ¬DifferInProto reorderedAllocations plainAllocations ∧
    verifyAllocationsContentHash toyHash (ofJson (.obj committingManifest))
      (ofJson reorderedAllocations) = .ok true ∧
    reorderedAllocations.Same plainAllocations ∧
    (verifyManifestEnvelope toyHash (ofJson (.obj sealedDocument)) = .ok true →
      reorderedAllocations.Same plainAllocations) := by
  obtain ⟨-,hhash⟩ := canonicalStringify_faithful_iff plainAllocations_wellFormed
    reorderedAllocations_text plainAllocations_text
  have hplain : withoutProto reorderedAllocations = reorderedAllocations ∧
      withoutProto plainAllocations = plainAllocations := ⟨rfl,rfl⟩
  have hnot : ¬DifferInProto reorderedAllocations plainAllocations := by
    rintro ⟨hsame,hdiffer⟩
    rw [hplain.1,hplain.2] at hsame
    exact hdiffer hsame
  have hallocations := ((hhash toyHash committingManifest toyHash_collisionFree).1 rfl).2 hnot
  have henvelope := ((hhash toyHash sealedDocument toyHash_collisionFree).2 rfl rfl).2 hnot
  have haccepted : verifyAllocationsContentHash toyHash (ofJson (.obj committingManifest))
      (ofJson reorderedAllocations) = .ok true := by decide +kernel
  exact ⟨hnot,haccepted,hallocations haccepted,henvelope⟩

/-- The allocations with a member that enters no hash. -/
def pollutedAllocations : Value :=
  .obj [(lit "amount",.leaf (.str (lit "1"))),(lit "wallet",.leaf (.str (lit "w"))),
    (proto,.obj [(lit "amount",.leaf (.str (lit "9")))])]

theorem pollutedAllocations_accepted : pollutedAllocations.WellFormed ∧
    canonicalStringify (ofJson pollutedAllocations) =
      canonicalStringify (ofJson plainAllocations) ∧
    verifyAllocationsContentHash toyHash (ofJson (.obj committingManifest))
      (ofJson pollutedAllocations) = .ok true ∧
    ¬pollutedAllocations.Same plainAllocations := by
  refine ⟨⟨by decide,trivial,trivial,⟨by decide,trivial,trivial⟩,trivial⟩,by decide +kernel,
    by decide +kernel,fun h => ?_⟩
  have htext := congrArg (pretty.print 0)
    (h.rebuild_eq (f:=shown) arranges_sortKeys plainAllocations_wellFormed)
  exact absurd htext (by decide +kernel)

end Faithful

end Serialize
end BpsProtocol
