import SchemaToJava.Java.Generation
import SchemaToJava.Proofs.Outcomes

/-!
The stages from a text to its files. A text is parsed, types that differ only by case are merged,
the document is validated and bound, and files are generated from the package; all of it succeeds
exactly when every stage does.
-/
namespace SchemaToJava.Schema

open Reading Json Outcome

/-- A text is read as JSON to its end, with nothing after the document. -/
theorem readJson_eq_ok {α : Type} {read : Reader α} {text : String} {x : α} :
    readJson read text = .ok x ↔ (read jsonDepth (documentOf text).root).result = .ok x ∧
      (documentOf text).trailing = false := by
  unfold readJson
  constructor
  · intro h
    obtain ⟨found, hfound, h⟩ := bind_eq_ok.1 h
    split at h
    · cases h
    · next htrailing =>
      obtain rfl := pure_eq_ok.1 h
      exact ⟨hfound, eq_false_of_ne_true htrailing⟩
  · rintro ⟨hread, htrailing⟩
    refine bind_eq_ok.2 ⟨x, hread, ?_⟩
    rw [htrailing]
    rfl

theorem parseDocument_eq_ok {text : String} (hjson : isJson text = true) {d : PackageDocument} :
    parseDocument text = .ok d ↔ readJson readPackage text = .ok d := by
  unfold parseDocument
  rw [if_pos hjson]
  cases readJson readPackage text with
  | error f => exact ⟨nofun, nofun⟩
  | ok found => simp only [Except.ok.injEq]

/-- Loading goes through its stages: reading, merging, validation and binding. -/
theorem loadPackage_iff {text : String} {package : Package} {diagnostics : List Diagnostic} :
    loadPackage text = .ok (package, diagnostics) ↔ ∃ d, parseDocument text = .ok d ∧
      d.mergeCaseVariants.2 = diagnostics ∧ d.mergeCaseVariants.1.validate = .ok () ∧
      d.mergeCaseVariants.1.bind = .ok package := by
  unfold loadPackage
  cases parseDocument text with
  | error e => simp
  | ok d =>
    dsimp only
    rw [bind_eq_ok]
    constructor
    · rintro ⟨⟨⟩, hvalid, h⟩
      obtain ⟨bound, hbind, h⟩ := bind_eq_ok.1 h
      obtain ⟨rfl, hdiagnostics⟩ := Prod.mk.inj (pure_eq_ok.1 h)
      exact ⟨d, rfl, hdiagnostics, hvalid, hbind⟩
    · rintro ⟨found, hfound, hdiagnostics, hvalid, hbind⟩
      obtain rfl := Except.ok.inj hfound
      exact ⟨(), hvalid, bind_eq_ok.2 ⟨package, hbind, by rw [hdiagnostics]; rfl⟩⟩

end SchemaToJava.Schema

namespace SchemaToJava.Java

open Schema Package Outcome

/-- Files are generated from a text exactly if it can be loaded and its package generated. -/
theorem generateFromText_eq_ok {text : String} {settings : Settings} {files : FileSet}
    {diagnostics : List Diagnostic} :
    generateFromText text settings = .ok (files, diagnostics) ↔
      ∃ package, loadPackage text = .ok (package, diagnostics) ∧
        generate package settings = .ok files := by
  unfold generateFromText
  constructor
  · intro h
    obtain ⟨⟨package, noticed⟩, hload, h⟩ := bind_eq_ok.1 h
    obtain ⟨generated, hgenerated, h⟩ := bind_eq_ok.1 h
    obtain ⟨rfl, rfl⟩ := Prod.mk.inj (pure_eq_ok.1 h)
    exact ⟨package, mapError_eq_ok.1 hload, hgenerated⟩
  · rintro ⟨package, hload, hgenerated⟩
    exact bind_eq_ok.2 ⟨_, mapError_eq_ok.2 hload, bind_eq_ok.2 ⟨files, hgenerated, rfl⟩⟩

end SchemaToJava.Java
