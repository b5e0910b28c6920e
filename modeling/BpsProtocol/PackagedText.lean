import BpsProtocol.DuplicateKeys
import BpsProtocol.Lib.JsonStringify
import BpsProtocol.PacketDigest

/-! The text of a packaged authorization.
An operator that is given the object without its text scans what `JSON.stringify` writes of the
object.  That text reads back as an object of the same digest, and no name of it is reported as
repeated unless names differ in escaped characters only. -/
namespace BpsProtocol
namespace Canary
open Utf16 JsonText JsonTree JsonSyntax JsonValue JsonParse Style PacketDigest

/-- `JSON.stringify(value)` -/
def stringifyCompact (v : Value) : Text := (compact.comap shown).print 0 (v.arrange ownKeys)

/-- `raw || JSON.stringify(pkg)` -/
def rawText (raw : Option JsString) (pkg : Value) : JsString :=
  match raw with
  | some (u::s) => u::s
  | _ => ofText (stringifyCompact pkg)

theorem stringifyCompact_eq (v : Value) :
    stringifyCompact v = compact.print 0 (v.rebuild shown ownKeys) := by
  rw [stringifyCompact,print_comap,mapLeaves_arrange]

theorem ownKeys_perm {α : Type} (ms : List (JsString × α)) : (ownKeys.act ms).Perm ms :=
  List.perm_insertionSort _ ms

section Fallback

variable {v : Value}

theorem jsonParse_stringifyCompact (hv : v.WellFormed) :
    jsonParse (ofText (stringifyCompact v)) = some (v.rebuild (unshown ∘ shown) ownKeys) := by
  have hwf : (v.rebuild shown ownKeys).WellFormed :=
    hv.rebuild fun ms => ⟨ms,ownKeys_perm ms,List.Sublist.refl _⟩
  have hid : (v.rebuild shown ownKeys).mapKeys id = v.rebuild shown ownKeys := mapKeys_id _
  have hparse := jsonParse_print compactSpelling (f := id) (t := v.rebuild shown ownKeys)
    literal_decoded evaluateScalar_spellLeaf (by rwa [hid]) 0 blank_nil
  rwa [hid,mapLeaves_rebuild,List.append_nil,← stringifyCompact_eq] at hparse

/-- The digest of what is read is that of what was written. -/
theorem digestOf_stringified (hv : v.WellFormed) (keccak256 : Text → Text) :
    digestOf (v.rebuild (unshown ∘ shown) ownKeys) keccak256 = digestOf v keccak256 := by
  have hshown : shown ∘ unshown ∘ shown = shown := by
    funext a
    rcases a with _ | b | x | s
    · rfl
    · rfl
    · cases x <;> rfl
    · rfl
  have hrule : (v.rebuild (unshown ∘ shown) ownKeys).rebuild shown sortKeys =
      v.rebuild shown sortKeys := by
    rw [rebuild_rebuild,hshown]
    refine rebuild_congr (fun ms hms => ?_) hv
    exact (arranges_sortKeys.act_eq (ownKeys_perm ms).symm hms).symm
  rw [digestOf,digestOf,stableUnits,stableUnits,canonicalStable_inj_iff.2 hrule]

theorem packagedNoDuplicateKeys_stringified : packagedNoDuplicateKeys (rawText none v) = true ↔
    (v.mapKeys (KeyScan.skimmed ∘ literal)).WellFormed := by
  have hwrites := compactSpelling.writes_print (v.rebuild shown ownKeys) 0 blank_nil
  rw [List.append_nil,← stringifyCompact_eq] at hwrites
  have hkeep := wellFormed_mapKeys_rebuild (f := compactSpelling.scalar)
    (g := Rule.keep) (h := KeyScan.skimmed) (fun ms => List.Perm.refl ms)
    ((v.rebuild shown ownKeys).mapKeys literal)
  rw [show rawText none v = ofText (stringifyCompact v) from rfl,
    packagedNoDuplicateKeys_iff hwrites,Spelling.spell]
  refine hkeep.trans ?_
  rw [mapKeys_mapKeys]
  exact wellFormed_mapKeys_rebuild (fun ms => ownKeys_perm ms) v

/-- An object without its text is bound like its text: what stands in for the text is read as an
object of the same digest, and it passes the scan exactly if the names that the scanner compares
are distinct. -/
theorem fallback_bound (hv : v.WellFormed) (keccak256 : Text → Text) :
    ∃ w, jsonParse (rawText none v) = some w ∧ digestOf w keccak256 = digestOf v keccak256 ∧
      (packagedNoDuplicateKeys (rawText none v) = true ↔
        (v.mapKeys (KeyScan.skimmed ∘ literal)).WellFormed) ∧
      (v.AllKeys (fun key => Unescaped (literal key)) →
        packagedNoDuplicateKeys (rawText none v) = true) := by
  refine ⟨_,jsonParse_stringifyCompact hv,digestOf_stringified hv keccak256,
    packagedNoDuplicateKeys_stringified,fun hplain => ?_⟩
  have hnames : v.mapKeys (KeyScan.skimmed ∘ literal) = v := by
    rw [mapKeys_congr (g := id) (fun key hkey => ?_) hplain,mapKeys_id]
    exact (skimmed_unescaped hkey).trans (literal_decoded key)
  rw [packagedNoDuplicateKeys_stringified,hnames]
  exact hv

/-- An object of two names. -/
def plainPackage : Value :=
  .obj [(lit "nonce",.leaf (.num (.ofRat 2))),(lit "chainId",.leaf (.num (.ofRat 4663)))]

theorem plainPackage_bound : ∃ w, jsonParse (rawText none plainPackage) = some w ∧
      digestOf w id = digestOf plainPackage id ∧
      (packagedNoDuplicateKeys (rawText none plainPackage) = true ↔
        (plainPackage.mapKeys (KeyScan.skimmed ∘ literal)).WellFormed) ∧
      (plainPackage.AllKeys (fun key => Unescaped (literal key)) →
        packagedNoDuplicateKeys (rawText none plainPackage) = true) :=
  fallback_bound (v := plainPackage) ⟨by decide,trivial,trivial,trivial⟩ id

end Fallback

end Canary
end BpsProtocol
