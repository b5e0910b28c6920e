import BpsProtocol.Lib.JsonStringify
import BpsProtocol.SerializeFaithful

/-! Canonical texts that are read again.
`JSON.parse` of a canonical text gives a value of the same text, so a document that was published
with its hashes still has them when its file is read. -/
namespace BpsProtocol
namespace Serialize

open Checked MerkleProof Artifacts Utf16 JsonText JsonValue JsonParse Style Binary64

/-! ## What is accepted -/

/-- A leaf that a canonical text can hold. -/
def Accepted : Leaf JsString Number → Prop
  | .num x => isFinite (.num x) = true ∧ x.isInteger = true
  | _ => True

theorem canonicalizeScalar_accepted {path : JsString} {a : Leaf JsString Number} (h : Accepted a) :
    canonicalizeScalar path (.json a) = .ok a := by
  cases a with
  | num x =>
    have hinteger : ¬(isFinite (.num x) = false ∨ x.isInteger = false) := by
      rw [not_or,Bool.not_eq_false,Bool.not_eq_false]
      exact h
    rw [canonicalizeScalar,revertIf_of_not hinteger]
    rfl
  | null => rfl
  | bool b => rfl
  | str s => rfl

theorem accepted_of_canonicalizeScalar {path : JsString} {a b : Leaf JsString Number}
    (h : canonicalizeScalar path (.json a) = .ok b) : Accepted a := by
  cases a with
  | num x =>
    rw [canonicalizeScalar,bind_eq_ok] at h
    obtain ⟨u,hu,-⟩ := h
    rwa [revertIf_eq_ok,not_or,Bool.not_eq_false,Bool.not_eq_false] at hu
  | null => trivial
  | bool b => trivial
  | str s => trivial

mutual

theorem canonicalize_accepted : ∀ {v : Value} (path : JsString), v.AllLeaves Accepted →
    canonicalize path (ofJson v) = .ok (v.arrange kept)
  | .leaf a, path, h => by
    rw [ofJson_leaf,canonicalize,canonicalizeScalar_accepted h,ok_bind]
    rfl
  | .arr items, path, h => by
    rw [ofJson_arr,canonicalize,canonicalizeItems_accepted path 0 h,ok_bind]
    rfl
  | .obj ms, path, h => by
    rw [ofJson_obj,canonicalize,canonicalizeMembers_accepted path h,sortKeys.act_mapValues,
      assign_fold,List.nil_append,ok_bind]
    rfl

theorem canonicalizeItems_accepted : ∀ {vs : List Value} (path : JsString) (i : ℕ),
    JsonTree.AllLeavesItems Accepted vs →
      canonicalizeItems path i (JsonTree.rebuildItems Scalar.json .keep vs) =
        .ok (JsonTree.rebuildItems id kept vs)
  | [], _, _, _ => rfl
  | v::vs, path, i, h => by
    have hhead := canonicalize_accepted (v := v)
      (path ++ lit "[" ++ ofText (Nat.toDigits 10 i) ++ lit "]") h.1
    rw [ofJson] at hhead
    rw [JsonTree.rebuildItems,canonicalizeItems,hhead,ok_bind,
      canonicalizeItems_accepted path (i+1) h.2,ok_bind]
    rfl

theorem canonicalizeMembers_accepted : ∀ {ms : List (JsString × Value)} (path : JsString),
    JsonTree.AllLeavesMembers Accepted ms →
      canonicalizeMembers path (JsonTree.rebuildMembers Scalar.json .keep ms) =
        JsonTree.mapValues .ok (JsonTree.rebuildMembers id kept ms)
  | [], _, _ => rfl
  | (key,v)::ms, path, h => by
    have hhead := canonicalize_accepted (v := v) (path ++ lit "." ++ key) h.1
    rw [ofJson] at hhead
    rw [JsonTree.rebuildMembers,canonicalizeMembers,hhead,canonicalizeMembers_accepted path h.2]
    rfl

end

mutual

theorem accepted_of_canonicalize : ∀ {v : Value} {path : JsString} {c : Value},
    canonicalize path (ofJson v) = .ok c → v.AllLeaves Accepted
  | .leaf a, path, c, h => by
    rw [ofJson_leaf,canonicalize,bind_eq_ok] at h
    obtain ⟨b,hb,-⟩ := h
    exact accepted_of_canonicalizeScalar hb
  | .arr items, path, c, h => by
    rw [ofJson_arr,canonicalize,bind_eq_ok] at h
    obtain ⟨cs,hcs,-⟩ := h
    exact accepted_of_canonicalizeItems hcs
  | .obj ms, path, c, h => by
    rw [ofJson_obj,canonicalize,bind_eq_ok] at h
    obtain ⟨out,hout,-⟩ := h
    exact accepted_of_canonicalizeMembers fun m hm =>
      assignAll_eq_ok hout m ((arranges_sortKeys.perm _).mem_iff.2 hm)

theorem accepted_of_canonicalizeItems : ∀ {vs : List Value} {path : JsString} {i : ℕ}
    {cs : List Value},
    canonicalizeItems path i (JsonTree.rebuildItems Scalar.json .keep vs) = .ok cs →
      JsonTree.AllLeavesItems Accepted vs
  | [], _, _, _, _ => trivial
  | v::vs, path, i, cs, h => by
    rw [JsonTree.rebuildItems,canonicalizeItems,bind_eq_ok] at h
    obtain ⟨c,hc,h⟩ := h
    rw [bind_eq_ok] at h
    obtain ⟨cs',hcs',-⟩ := h
    exact ⟨accepted_of_canonicalize hc,accepted_of_canonicalizeItems hcs'⟩

/-- Every member is canonicalized, a member `__proto__` too. -/
theorem accepted_of_canonicalizeMembers : ∀ {ms : List (JsString × Value)} {path : JsString},
    (∀ m ∈ canonicalizeMembers path (JsonTree.rebuildMembers Scalar.json .keep ms),
      ∃ c, m.2 = .ok c) → JsonTree.AllLeavesMembers Accepted ms
  | [], _, _ => trivial
  | (key,v)::ms, path, h => by
    rw [JsonTree.rebuildMembers,canonicalizeMembers,List.forall_mem_cons] at h
    obtain ⟨⟨c,hc⟩,hrest⟩ := h
    exact ⟨accepted_of_canonicalize hc,accepted_of_canonicalizeMembers hrest⟩

end

section Text

variable {v : Value} {s : Text}

/-- What has a canonical text, and which text it is. -/
theorem canonicalStringify_eq_ok_iff : canonicalStringify (ofJson v) = .ok s ↔
    v.AllLeaves Accepted ∧ s = pretty.print 0 (v.rebuild shown listed) := by
  constructor
  · intro h
    refine ⟨?_,(canonicalStringify_eq_ok h).1⟩
    rw [canonicalStringify,bind_eq_ok] at h
    obtain ⟨c,hc,-⟩ := h
    exact accepted_of_canonicalize hc
  · rintro ⟨haccepted,rfl⟩
    rw [canonicalStringify,canonicalize_accepted (lit "$") haccepted,ok_bind,stringify,
      print_comap,JsonTree.mapLeaves_arrange,JsonTree.arrange,JsonTree.rebuild_rebuild]
    rfl

end Text

/-! ## The listed order -/

/-- All members but `__proto__`. -/
abbrev unproto : JsonTree.Rule JsString := .filter (fun key => key ≠ proto)

theorem mem_listed {α : Type} {m : JsString × α} {ms : List (JsString × α)} :
    m ∈ listed.act ms ↔ m ∈ ms ∧ m.1 ≠ proto := by
  rw [listed_eq]
  refine (arranges_ownKeys_sortKeys.perm _).mem_iff.trans (List.mem_filter.trans ?_)
  rw [decide_eq_true_eq]

theorem listed_unproto : listed.andThen unproto = listed := by
  apply JsonTree.Rule.ext
  intro α ms
  exact List.filter_eq_self.2 fun m hm => decide_eq_true (mem_listed.1 hm).2

/-- Members that are listed stay as they are. -/
theorem listed_listed {α : Type} {ms : List (JsString × α)} (h : (JsonTree.keys ms).Nodup) :
    (listed.andThen listed).act ms = listed.act ms := by
  have hfilter : unproto.act (listed.act ms) = listed.act ms :=
    congrArg (fun g : JsonTree.Rule JsString => g.act ms) listed_unproto
  change listed.act (listed.act ms) = listed.act ms
  nth_rewrite 1 [listed_eq]
  change (sortKeys.andThen ownKeys).act (unproto.act (listed.act ms)) = listed.act ms
  rw [hfilter,listed_eq]
  have hnodup : (JsonTree.keys (unproto.act ms)).Nodup := h.sublist (List.filter_sublist.map _)
  exact (arranges_ownKeys_sortKeys.act_eq (arranges_ownKeys_sortKeys.perm _).symm hnodup).symm

section RoundTrip

variable {v : Value} {s r : Text}

theorem listed_sublist (ms : List (JsString × Value)) :
    ∃ ns, (listed.act ms).Perm ns ∧ ns.Sublist ms := by
  rw [listed_eq]
  exact ⟨_,arranges_ownKeys_sortKeys.perm _,List.filter_sublist⟩

/-- What is read from a canonical text. -/
theorem jsonParse_canonicalStringify (hv : v.WellFormed)
    (hs : canonicalStringify (ofJson v) = .ok s) (hr : Blank r) :
    jsonParse (ofText (s ++ r)) = some (v.arrange listed) := by
  obtain ⟨htext,hkept⟩ := canonicalStringify_eq_ok hs
  have hwf : (v.rebuild shown listed).WellFormed := hv.rebuild fun ms => by
    rw [listed_eq]
    exact ⟨_,arranges_ownKeys_sortKeys.perm _,List.filter_sublist⟩
  rw [htext,jsonParse_pretty hwf hr,JsonTree.mapLeaves_rebuild,hkept]

theorem arrange_listed_arrange_listed (hv : v.WellFormed) {β : Type}
    (f : Leaf JsString Number → β) : (v.arrange listed).rebuild f listed = v.rebuild f listed := by
  rw [JsonTree.arrange,JsonTree.rebuild_rebuild]
  exact JsonTree.rebuild_congr (fun ms h => listed_listed h) hv

theorem canonicalStringify_arrange_listed (hv : v.WellFormed)
    (hs : canonicalStringify (ofJson v) = .ok s) :
    canonicalStringify (ofJson (v.arrange listed)) = .ok s := by
  obtain ⟨haccepted,htext⟩ := canonicalStringify_eq_ok_iff.1 hs
  refine canonicalStringify_eq_ok_iff.2 ⟨haccepted.rebuild (fun _ ha => ha) ?_,?_⟩
  · exact fun ms m hm => (mem_listed.1 hm).1
  · rw [arrange_listed_arrange_listed hv,htext]

/-- A canonical text is read as the value that was written, but for members `__proto__`, and it
is the canonical text of what is read. -/
theorem canonicalStringify_roundTrip (hv : v.WellFormed)
    (hs : canonicalStringify (ofJson v) = .ok s) (hr : Blank r) :
    ∃ w, jsonParse (ofText (s ++ r)) = some w ∧ w.WellFormed ∧ (withoutProto v).Same w ∧
      canonicalStringify (ofJson w) = .ok s := by
  have hwf : (v.arrange listed).WellFormed := hv.rebuild listed_sublist
  have htext := canonicalStringify_arrange_listed hv hs
  have hproto : withoutProto (v.arrange listed) = v.arrange listed := by
    rw [withoutProto,JsonTree.arrange_arrange,listed_unproto]
  have hsame := (canonicalStringify_eq_iff hwf hs htext).1 rfl
  rw [hproto] at hsame
  exact ⟨_,jsonParse_canonicalStringify hv hs hr,hwf,hsame,htext⟩

theorem reorderedAllocations_wellFormed : reorderedAllocations.WellFormed :=
  ⟨by decide,trivial,trivial,trivial⟩

/-- A file with a line break at its end. -/
theorem reorderedAllocations_roundTrip :
    ∃ w, jsonParse (ofText (allocationsText ++ newline 0)) = some w ∧ w.WellFormed ∧
      (withoutProto reorderedAllocations).Same w ∧
        canonicalStringify (ofJson w) = .ok allocationsText :=
  canonicalStringify_roundTrip reorderedAllocations_wellFormed reorderedAllocations_text
    (blank_newline 0)

end RoundTrip

/-! ## Published documents -/

/-- The body of a manifest with the hash of its canonical text. -/
def withEnvelopeHash (keccak256 : Hash) (body : List (JsString × Value)) :
    Except CanonicalizeError Value := do
  let envelopeHash ← keccakOfCanonical keccak256 (ofJson (.obj body))
  return .obj (body ++ [(lit "envelopeHash",.leaf (.str (ofText envelopeHash)))])

theorem member_eq_some {α : Type} {key : JsString} {ms : List (JsString × α)} {v : α}
    (h : (JsonTree.keys ms).Nodup) : member key ms = some v ↔ (key,v) ∈ ms := by
  induction ms with
  | nil => simp [member]
  | cons m ms ih =>
    have hnodup := List.nodup_cons.1 h
    rw [member]
    by_cases hkey : m.1 = key
    · subst hkey
      have hout : (m.1,v) ∉ ms := fun hmem => hnodup.1 (List.mem_map.2 ⟨(m.1,v),hmem,rfl⟩)
      simp [hout,Prod.ext_iff,eq_comm]
    · have hne : (key,v) ≠ m := fun h => hkey (congrArg Prod.fst h).symm
      rw [if_neg hkey,ih hnodup.2,List.mem_cons]
      simp [hne]

/-- Listing the members loses no field but `__proto__`. -/
theorem member_listed {α : Type} {key : JsString} {ms : List (JsString × α)}
    (h : (JsonTree.keys ms).Nodup) (hkey : key ≠ proto) :
    member key (listed.act ms) = member key ms := by
  have hlisted : (JsonTree.keys (listed.act ms)).Nodup := by
    rw [listed_eq]
    exact ((arranges_ownKeys_sortKeys.perm _).map Prod.fst).nodup_iff.2
      (h.sublist (List.filter_sublist.map _))
  apply Option.ext
  intro v
  rw [member_eq_some hlisted,member_eq_some h,mem_listed]
  exact and_iff_left hkey

instance : Std.Total (fun a b : JsString => rank a ≤ rank b) :=
  ⟨fun a b => Nat.le_total (rank a) (rank b)⟩

instance : IsTrans JsString (fun a b => rank a ≤ rank b) := ⟨fun _ _ _ => Nat.le_trans⟩

/-- A field is deleted before or after the members are listed. -/
theorem without_listed {α : Type} (key : JsString) (ms : List (JsString × α)) :
    without key (listed.act ms) = listed.act (without key ms) := by
  have hsort : (sortKeys.andThen ownKeys).andThen (.filter (fun k => k ≠ key)) =
      (JsonTree.Rule.filter (fun k => k ≠ key)).andThen (sortKeys.andThen ownKeys) := by
    have hown := JsonTree.Rule.sort_andThen_filter (fun a b : JsString => rank a ≤ rank b)
      (fun k => k ≠ key)
    have hnames := JsonTree.Rule.sort_andThen_filter (fun a b : JsString => List.le a b)
      (fun k => k ≠ key)
    calc (sortKeys.andThen ownKeys).andThen (.filter (fun k => k ≠ key)) =
        sortKeys.andThen (ownKeys.andThen (.filter (fun k => k ≠ key))) := rfl
      _ = (sortKeys.andThen (.filter (fun k => k ≠ key))).andThen ownKeys :=
        congrArg sortKeys.andThen hown
      _ = ((JsonTree.Rule.filter (fun k => k ≠ key)).andThen sortKeys).andThen ownKeys :=
        congrArg (fun g : JsonTree.Rule JsString => g.andThen ownKeys) hnames
      _ = (JsonTree.Rule.filter (fun k => k ≠ key)).andThen (sortKeys.andThen ownKeys) := rfl
  have hfilter : (unproto.act ms).filter (fun m => m.1 ≠ key) =
      unproto.act (ms.filter (fun m => m.1 ≠ key)) := List.filter_comm _ _ _
  rw [listed_eq]
  calc without key ((sortKeys.andThen ownKeys).act (unproto.act ms)) =
      ((sortKeys.andThen ownKeys).andThen (.filter (fun k => k ≠ key))).act (unproto.act ms) := rfl
    _ = (sortKeys.andThen ownKeys).act ((unproto.act ms).filter (fun m => m.1 ≠ key)) := by
      rw [hsort]
      rfl
    _ = _ := by
      rw [hfilter]
      rfl

section Published

variable {keccak256 : Hash} {body : List (JsString × Value)} {a manifest : Value}
  {s t hash r : Text}

theorem keccakOfCanonical_eq_ok {v : Unknown} : keccakOfCanonical keccak256 v = .ok hash ↔
    ∃ text, canonicalStringify v = .ok text ∧ hash = keccakOfString keccak256 text := by
  rw [keccakOfCanonical,bind_eq_ok]
  refine exists_congr fun text => and_congr_right' ?_
  rw [pure_eq_ok,eq_comm]

theorem without_append_self {α : Type} {key : JsString} {ms : List (JsString × α)}
    (h : key ∉ JsonTree.keys ms) (v : α) : without key (ms ++ [(key,v)]) = ms := by
  rw [without,List.filter_append,List.filter_eq_self.2]
  · simp
  · intro m hm
    refine decide_eq_true fun heq => h ?_
    rw [← heq]
    exact List.mem_map_of_mem hm

theorem wellFormed_append {key : JsString} {ms : List (JsString × Value)} {v : Value}
    (h : (JsonTree.obj ms : Value).WellFormed) (hkey : key ∉ JsonTree.keys ms)
    (hv : v.WellFormed) : (JsonTree.obj (ms ++ [(key,v)])).WellFormed := by
  refine ⟨?_,JsonTree.wellFormedMembers_iff.2 fun m hm => ?_⟩
  · rw [JsonTree.keys,List.map_append,List.map_singleton]
    refine h.1.append (List.nodup_singleton key) ?_
    exact List.disjoint_singleton.2 hkey
  · obtain hm | hm := List.mem_append.1 hm
    · exact JsonTree.wellFormedMembers_iff.1 h.2 m hm
    · rw [List.mem_singleton.1 hm]
      exact hv

theorem rebuildMembers_append (ms ns : List (JsString × Value)) :
    JsonTree.rebuildMembers id listed (ms ++ ns) =
      JsonTree.rebuildMembers id listed ms ++ JsonTree.rebuildMembers id listed ns := by
  rw [JsonTree.rebuildMembers_eq,JsonTree.rebuildMembers_eq,JsonTree.rebuildMembers_eq,
    JsonTree.mapValues,List.map_append]
  rfl

/-- A string that a field of the document holds is found in what is read. -/
theorem member_read {key committed : JsString} {ms : List (JsString × Value)}
    (h : (JsonTree.obj ms : Value).WellFormed) (hkey : key ≠ proto)
    (hget : member key ms = some (.leaf (.str committed))) :
    member key (listed.act (JsonTree.rebuildMembers id listed ms)) =
      some (.leaf (.str committed)) := by
  have hnodup : (JsonTree.keys (JsonTree.rebuildMembers id listed ms)).Nodup := by
    rw [JsonTree.keys_rebuildMembers]
    exact h.1
  rw [member_listed hnodup hkey,JsonTree.rebuildMembers_eq,member_mapValues,hget]
  rfl

/-- A manifest that is read from its file has the envelope hash that it was given, and allocations
that are read have the hash that it commits to. -/
theorem published_verifies (hbody : (JsonTree.obj body : Value).WellFormed)
    (hfresh : lit "envelopeHash" ∉ JsonTree.keys body) (ha : a.WellFormed)
    (hhash : keccakOfCanonical keccak256 (ofJson a) = .ok hash)
    (hcommit : member (lit "allocationsContentHash") body = some (.leaf (.str (ofText hash))))
    (hmanifest : withEnvelopeHash keccak256 body = .ok manifest)
    (hs : canonicalStringify (ofJson manifest) = .ok s)
    (ht : canonicalStringify (ofJson a) = .ok t) (hr : Blank r) :
    ∃ m w, jsonParse (ofText (s ++ r)) = some m ∧ jsonParse (ofText (t ++ r)) = some w ∧
      verifyManifestEnvelope keccak256 (ofJson m) = .ok true ∧
      verifyAllocationsContentHash keccak256 (ofJson m) (ofJson w) = .ok true := by
  rw [withEnvelopeHash,bind_eq_ok] at hmanifest
  obtain ⟨envelopeHash,henvelope,hmanifest⟩ := hmanifest
  obtain ⟨text,htext,rfl⟩ := keccakOfCanonical_eq_ok.1 henvelope
  obtain ⟨t',ht',rfl⟩ := keccakOfCanonical_eq_ok.1 hhash
  obtain rfl : t = t' := Except.ok.inj (ht.symm.trans ht')
  rw [pure_eq_ok] at hmanifest
  subst hmanifest
  have hwf : (JsonTree.obj (body ++ [(lit "envelopeHash",
      (.leaf (.str (committedHash keccak256 text)) : Value))])).WellFormed :=
    wellFormed_append hbody hfresh trivial
  have hread := jsonParse_canonicalStringify hwf hs hr
  refine ⟨_,_,hread,jsonParse_canonicalStringify ha ht hr,?_,?_⟩
  · have henvelope' : member (lit "envelopeHash") (body ++ [(lit "envelopeHash",
        (.leaf (.str (committedHash keccak256 text)) : Value))]) =
          some (.leaf (.str (committedHash keccak256 text))) := by
      rw [member_eq_some hwf.1]
      exact List.mem_append_right _ (List.mem_singleton_self _)
    have hget := member_read hwf (by decide) henvelope'
    have hbodyRead : without (lit "envelopeHash") (listed.act (JsonTree.rebuildMembers id listed
        (body ++ [(lit "envelopeHash",.leaf (.str (committedHash keccak256 text)))]))) =
          listed.act (JsonTree.rebuildMembers id listed body) := by
      rw [without_listed,rebuildMembers_append]
      refine congrArg listed.act (without_append_self ?_ _)
      rwa [JsonTree.keys_rebuildMembers]
    refine (verifyManifestEnvelope_eq hget).trans ?_
    rw [hbodyRead]
    exact (commits_eq_true_iff (canonicalStringify_arrange_listed hbody htext)).2 rfl
  · have hcommit' : member (lit "allocationsContentHash") (body ++ [(lit "envelopeHash",
        (.leaf (.str (committedHash keccak256 text)) : Value))]) =
          some (.leaf (.str (committedHash keccak256 t))) := by
      rw [member_eq_some hwf.1]
      exact List.mem_append_left _ ((member_eq_some hbody.1).1 hcommit)
    have hget := member_read hwf (by decide) hcommit'
    refine (verifyAllocationsContentHash_eq hget _).trans ?_
    exact (commits_eq_true_iff (canonicalStringify_arrange_listed ha ht)).2 rfl

/-- A manifest of one field. -/
def plainBody : List (JsString × Value) :=
  [(lit "allocationsContentHash",.leaf (.str (committedHash toyHash allocationsText)))]

def plainManifest (envelope : Text) : Value :=
  .obj (plainBody ++ [(lit "envelopeHash",.leaf (.str (committedHash toyHash envelope)))])

theorem plainBody_verifies :
    ∃ m w, jsonParse (ofText (pretty.print 0 ((plainManifest (pretty.print 0
        ((JsonTree.obj plainBody).rebuild shown listed))).rebuild shown listed) ++ newline 0)) =
          some m ∧
      jsonParse (ofText (allocationsText ++ newline 0)) = some w ∧
      verifyManifestEnvelope toyHash (ofJson m) = .ok true ∧
      verifyAllocationsContentHash toyHash (ofJson m) (ofJson w) = .ok true := by
  have hbody : (JsonTree.obj plainBody).AllLeaves Accepted := ⟨trivial,trivial⟩
  have hmanifest : ∀ envelope, (plainManifest envelope).AllLeaves Accepted :=
    fun _ => ⟨trivial,trivial,trivial⟩
  have henvelope : withEnvelopeHash toyHash plainBody = .ok (plainManifest (pretty.print 0
      ((JsonTree.obj plainBody).rebuild shown listed))) := by
    rw [withEnvelopeHash,keccakOfCanonical,canonicalStringify_eq_ok_iff.2 ⟨hbody,rfl⟩]
    rfl
  exact @published_verifies toyHash plainBody plainAllocations _ _ _ _ _
    ⟨by decide,trivial,trivial⟩ (by decide) plainAllocations_wellFormed
    (keccakOfCanonical_eq_ok.2 ⟨_,plainAllocations_text,rfl⟩) rfl henvelope
    (canonicalStringify_eq_ok_iff.2 ⟨hmanifest _,rfl⟩) plainAllocations_text (blank_newline 0)

end Published

end Serialize
end BpsProtocol
