import SchemaToJava.Proofs.AllowedErrors
import SchemaToJava.Proofs.DottedNames
import SchemaToJava.Proofs.MappingErrors
import SchemaToJava.Proofs.OwnReferences

/-!
What loading a package leaves unresolved. Generation reads no token that was not read before, and
looks up no type that was not found before, except for two: the token of the provider, which is made
from the name of the package, and a type of the package itself that is referred to by an address.
-/
namespace SchemaToJava

namespace Schema

open Outcome

/-- The token of a provider is well formed exactly if the name of its package has no colon. -/
theorem Token.parse_ofProvider {name : String} (hname : name.isEmpty = false) :
    Token.parse (Token.ofProvider name) =
      if ':' ∈ name.toList then .error (.invalidToken (Token.ofProvider name) .partCount)
      else .ok ⟨"pulumi", some "providers", name⟩ := by
  have hpieces : Text.piecesOf ':' (Token.ofProvider name) =
      "pulumi" :: "providers" :: Text.piecesOf ':' name := by
    have htext : (Token.ofProvider name).toList =
        "pulumi".toList ++ ':' :: ("providers".toList ++ ':' :: name.toList) :=
      String.toList_append
    have hpackage : ':' ∉ "pulumi".toList := by decide +kernel
    have hmodule : ':' ∉ "providers".toList := by decide +kernel
    rw [Text.piecesOf, htext, Text.pieces_append hpackage, Text.pieces_append hmodule]
    rfl
  unfold Token.parse
  rw [hpieces]
  split_ifs with hcolon
  · obtain ⟨first, second, rest, hname⟩ := Text.exists_pieces_of_mem hcolon
    rw [Text.piecesOf, hname]
    rfl
  · rw [Text.piecesOf, Text.pieces_of_notMem hcolon]
    have hmodule : Token.moduleOf "providers" = some "providers" := by decide +kernel
    simp only [List.map_cons, List.map_nil, String.ofList_toList, hname, hmodule]
    rfl

theorem name_of_validate {d : PackageDocument} (h : d.validate = .ok ()) :
    d.name.isEmpty = false := by
  unfold PackageDocument.validate at h
  split at h
  · cases h
  · next hname => exact Bool.eq_false_iff.2 hname

end Schema

namespace Java

open Package Schema Outcome

/-- The problems with names that loading a package does not report. -/
inductive Overlooked (d : PackageDocument) (package : Package) : GenerationError → Prop
  /-- The name of the package has a colon, so that the token of its provider has too many parts. -/
  | provider : ':' ∈ package.name.toList →
      (package.provider.isSome ∨ "#/provider" ∈ writtenReferences d) →
      Overlooked d package (.parse (.invalidToken (Token.ofProvider package.name) .partCount))
  /-- A reference names a type of the package by an address, and there is no such object type. -/
  | address {reference origin token : String} : reference ∈ writtenReferences d →
      NamesAt "/types/" reference origin token → origin.isEmpty = false →
      package.owns token = true → package.object? token = none →
      Overlooked d package (.unknownType token "object reference")

theorem not_parseToken_of_parse {token : String} {parsed : Token}
    (h : Token.parse token = .ok parsed) (e : GenerationError) :
    TypeMapper.parseToken token ≠ .error e := by
  unfold TypeMapper.parseToken
  rw [h]
  exact fun h => by cases h

section Bound

variable {d : PackageDocument} {m : TypeMapper}

/-- The enums of a bound package are those of its document. -/
theorem entry_of_mem_enums (h : IsBound d m.package) {e : EnumType}
    (he : e ∈ Generation.enums m.package) : (e.token, .enum e) ∈ m.package.types.entries ∧
      ∃ entry, (e.token, entry) ∈ d.types.entries ∧
        bindTypeEntry d e.token entry = .ok (.enum e) := by
  obtain ⟨⟨token, _⟩, hentry, rfl⟩ := List.mem_map.1 (Generation.mem_enums.1 he)
  obtain ⟨⟨name, entry⟩, hwritten, rfl, hbind⟩ := exists_left_of_mem h.types hentry
  obtain rfl := token_of_bindTypeEntry hbind
  exact ⟨hentry, entry, hwritten, hbind⟩

theorem parse_of_mem_enums (h : IsBound d m.package) {e : EnumType}
    (he : e ∈ Generation.enums m.package) : ∃ parsed, Token.parse e.token = .ok parsed :=
  h.parse_type (entry_of_mem_enums h he).1

theorem enumClass_of_mem_enums (h : IsBound d m.package) {e : EnumType}
    (he : e ∈ Generation.enums m.package) : ∃ name, m.enumClass e.token = .ok name := by
  obtain ⟨parsed, hparsed⟩ := parse_of_mem_enums h he
  exact ⟨_, bind_eq_ok.2 ⟨parsed, mapError_eq_ok.2 hparsed, rfl⟩⟩

theorem overlooked_of_ofProvider (hname : m.package.name.isEmpty = false)
    (hprovider : m.package.provider.isSome ∨ "#/provider" ∈ writtenReferences d)
    {e : GenerationError}
    (h : TypeMapper.parseToken (Token.ofProvider m.package.name) = .error e) :
    Overlooked d m.package e := by
  unfold TypeMapper.parseToken at h
  rw [Token.parse_ofProvider hname] at h
  split at h
  · next hcolon =>
    cases h
    exact .provider hcolon hprovider
  · cases h

/-- What stands in the type of a property of a bound package can be mapped, except for what loading
overlooks. -/
theorem overlooked_of_failsAt (h : IsBound d m.package) (hname : m.package.name.isEmpty = false)
    {n : ResolvedType} (hn : IsResolved d m.package n) {e : GenerationError}
    (hfails : m.FailsAt n e) : Overlooked d m.package e := by
  cases hn with
  | composed hcomposed => cases hcomposed <;> cases hfails
  | @object token o hget =>
    cases hfails with
    | object hparse =>
      obtain ⟨parsed, hparsed⟩ := h.parse_type (Dictionary.get?_eq_some_iff.1 hget)
      exact absurd hparse (not_parseToken_of_parse hparsed e)
    | missingObject _ hmissing => simp [object?, hget] at hmissing
  | foreignObject hwritten hnames horigin hparsed =>
    cases hfails with
    | object hparse => exact absurd hparse (not_parseToken_of_parse hparsed e)
    | missingObject howns hmissing => exact .address hwritten hnames horigin howns hmissing
  | enum hget =>
    cases hfails with
    | enum hparse =>
      obtain ⟨parsed, hparsed⟩ := h.parse_type (Dictionary.get?_eq_some_iff.1 hget)
      exact absurd hparse (not_parseToken_of_parse hparsed e)
    | missingEnum _ hmissing => simp [enum?, hget] at hmissing
  | named => cases hfails
  | provider hwritten =>
    cases hfails with
    | resource hparse => exact overlooked_of_ofProvider hname (.inr hwritten) hparse
  | resource _ hparsed =>
    cases hfails with
    | resource hparse => exact absurd hparse (not_parseToken_of_parse hparsed e)
  | foreignResource _ _ _ hparsed =>
    cases hfails with
    | resource hparse => exact absurd hparse (not_parseToken_of_parse hparsed e)

/-- Writing a file of a bound package fails for another reason than a name, or for one that loading
overlooks. -/
def boundDiscipline (d : PackageDocument) (m : TypeMapper) : Discipline m where
  toDraftFrame := requestFrame m
  admits t := ∀ o e, m.typeShape t o = .error e → Overlooked d m.package e
  raises e := e.isUnresolved = false ∨ Overlooked d m.package e
  raises_other hresolved _ _ := .inl hresolved
  raises_shape ht he := .inr (ht _ _ he)

theorem allows_of_parse {token : String} (h : ∃ parsed, Token.parse token = .ok parsed) :
    (boundDiscipline d m).Allows (TypeMapper.parseToken token) := by
  obtain ⟨parsed, hparsed⟩ := h
  exact fun e he => absurd he (not_parseToken_of_parse hparsed e)

/-- The discipline allows for every way in which the members of a bound package fail. -/
theorem covers_boundDiscipline (h : IsBound d m.package)
    (hname : m.package.name.isEmpty = false) : (boundDiscipline d m).Covers where
  properties p hp := by
    obtain ⟨t, htype, hresolved⟩ := exists_resolved h hp
    have ht : HasType m.package p t := ⟨htype, isNormal_of_isResolved hresolved⟩
    constructor
    · intro o e he
      obtain ⟨n, hn, hfails⟩ := TypeMapper.exists_failsAt_type ht he
      exact overlooked_of_failsAt h hname (hresolved n hn) hfails
    · intro o e he
      obtain ⟨n, hn, hfails⟩ := TypeMapper.exists_failsAt_inputType ht he
      exact overlooked_of_failsAt h hname (hresolved n hn) hfails
  resources r hr := by
    rcases List.mem_append.1 hr with hr | hr
    · intro e he
      have hprovider := Option.mem_toList.1 hr
      rcases h.provider_cases with ⟨-, hnone⟩ | ⟨r', hr', htoken⟩
      · rw [hprovider] at hnone
        cases hnone
      · obtain rfl := Option.some.inj (hprovider.symm.trans hr')
        rw [htoken, ← h.name] at he
        exact .inr (overlooked_of_ofProvider hname (.inl (by simp [hr'])) he)
    · exact allows_of_parse (h.parse_resource hr)
  functions f hf := allows_of_parse (h.parse_function hf)
  enums e he := allows_of_parse (parse_of_mem_enums h he)

end Bound

theorem isUnresolved_of_make {package : Package} {settings : Settings} {e : GenerationError}
    (h : TypeMapper.make package settings = .error e) : e.isUnresolved = false := by
  rw [languageOptions_of_make h]
  rfl

/-- Generating a package that was loaded fails for another reason than a token or a reference, or
for one of those that loading overlooks. -/
theorem overlooked_of_generate {text : String} {package : Package}
    {diagnostics : List Diagnostic} (hload : loadPackage text = .ok (package, diagnostics))
    {settings : Settings} {e : GenerationError} (h : generate package settings = .error e) :
    ∃ d, parseDocument text = .ok d ∧
      (e.isUnresolved = true → Overlooked d.mergeCaseVariants.1 package e) := by
  obtain ⟨d, hd, hvalid, hbind⟩ := stages_of_loadPackage hload
  refine ⟨d, hd, fun hunresolved => ?_⟩
  have hbound := isBound_of_bind hbind
  have hname : package.name.isEmpty = false := hbound.name ▸ name_of_validate hvalid
  suffices hraises : e.isUnresolved = false ∨ Overlooked d.mergeCaseVariants.1 package e by
    rcases hraises with hother | hoverlooked
    · rw [hunresolved] at hother
      cases hother
    · exact hoverlooked
  cases hm : TypeMapper.make package settings with
  | error failed =>
    unfold generate at h
    rw [hm] at h
    cases h
    exact .inl (isUnresolved_of_make hm)
  | ok m =>
    obtain rfl := Generation.package_of_make hm
    exact (covers_boundDiscipline hbound hname).allows_generate (fun _ => .inl rfl) hm e h

def problemOf (text : String) : Option GenerationError :=
  match loadPackage text with
  | .error _ => none
  | .ok (package, _) =>
    match generate package {} with
    | .error e => some e
    | .ok _ => none

theorem exists_of_problemOf {text : String} {e : GenerationError} (h : problemOf text = some e) :
    ∃ package diagnostics, loadPackage text = .ok (package, diagnostics) ∧
      generate package {} = .error e := by
  unfold problemOf at h
  split at h
  · cases h
  · next package diagnostics hload =>
    split at h
    · next failed hfailed =>
      cases h
      exact ⟨package, diagnostics, hload, hfailed⟩
    · cases h

/-- A configuration that refers to a missing type of its package by an address. -/
theorem overlooked_of_generate_of_address :
    let text := "\x7b\"name\": \"p\", \"config\": \x7b\"variables\": \x7b\"x\": " ++
      "\x7b\"$ref\": \"p.json#/types/p:m:X\"\x7d\x7d\x7d\x7d"
    ∃ package diagnostics e, loadPackage text = .ok (package, diagnostics) ∧
      generate package {} = .error e ∧
      e.message = "unknown type 'p:m:X' in 'object reference'" ∧
      ∃ d, parseDocument text = .ok d ∧ Overlooked d.mergeCaseVariants.1 package e := by
  intro text
  have hproblem : (problemOf text).map (fun e => (e.isUnresolved, e.message)) =
      some (true, "unknown type 'p:m:X' in 'object reference'") := by
    decide +kernel
  obtain ⟨e, he, hparts⟩ := Option.map_eq_some_iff.1 hproblem
  obtain ⟨hunresolved, hmessage⟩ := Prod.mk.inj hparts
  obtain ⟨package, diagnostics, hload, h⟩ := exists_of_problemOf he
  obtain ⟨d, hd, hoverlooked⟩ := overlooked_of_generate hload h
  exact ⟨package, diagnostics, e, hload, h, hmessage, d, hd, hoverlooked hunresolved⟩

/-- A provider whose token cannot be read is loaded, and so is a reference to a missing type of the
package itself that has an address; neither can be generated. -/
theorem not_resolved_of_provider_or_address :
    let reported : List (String × String) :=
      [("\x7b\"name\": \"a:b\", \"provider\": \x7b\x7d\x7d",
          "schema parse error: invalid token 'pulumi:providers:a:b': " ++
            "expected exactly three ':'-separated parts"),
        ("\x7b\"name\": \"p\", \"config\": \x7b\"variables\": \x7b\"x\": " ++
            "\x7b\"$ref\": \"p.json#/types/p:m:X\"\x7d\x7d\x7d\x7d",
          "unknown type 'p:m:X' in 'object reference'")]
    ∀ entry ∈ reported, ∃ package diagnostics e,
      loadPackage entry.1 = .ok (package, diagnostics) ∧ generate package {} = .error e ∧
        e.isUnresolved = true ∧ e.message = entry.2 := by
  intro reported entry hentry
  have hproblem : ∀ entry ∈ reported,
      (problemOf entry.1).map (fun e => (e.isUnresolved, e.message)) = some (true, entry.2) := by
    decide +kernel
  obtain ⟨e, he, hparts⟩ := Option.map_eq_some_iff.1 (hproblem entry hentry)
  obtain ⟨hunresolved, hmessage⟩ := Prod.mk.inj hparts
  obtain ⟨package, diagnostics, hload, h⟩ := exists_of_problemOf he
  exact ⟨package, diagnostics, e, hload, h, hunresolved, hmessage⟩

end Java

end SchemaToJava
