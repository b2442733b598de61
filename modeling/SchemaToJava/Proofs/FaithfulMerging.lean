import SchemaToJava.Proofs.BoundPackages
import SchemaToJava.Proofs.Representatives

/-!
Merging keeps what a document means. Its packages before and after agree in everything but the types
taken out and the tokens of those, which give way to the tokens that stand for them; and where the
one document cannot be bound, neither can the other.
-/
namespace SchemaToJava.Package

open Schema Outcome

variable {d d' : PackageDocument} {f rep : String → String} {token kept : String}

/-- The check passes exactly if every required name is declared. -/
theorem checkRequired_eq_ok {α : Type} {owner : String} {declared : Dictionary String α}
    {required : List String} {u : Unit} :
    checkRequired owner declared required = .ok u ↔ ∀ name ∈ required, name ∈ declared.keys := by
  unfold checkRequired
  split
  · next name hfind =>
    have hnot := List.find?_some hfind
    rw [Bool.not_eq_true', Dictionary.contains_eq_false_iff] at hnot
    have hmem := List.mem_of_find?_eq_some hfind
    simp only [reduceCtorEq, false_iff]
    exact fun h => hnot (h name hmem)
  · next hfind =>
    rw [List.find?_eq_none] at hfind
    simp only [Bool.not_eq_true', Bool.not_eq_false, Dictionary.contains_iff] at hfind
    simpa using hfind

/-- Where a type stands has no part in whether it can be bound. -/
theorem exists_bindType_iff {e : TypeExpr} (h : Leads d d' f rep e.withParts)
    (context context' : String) :
    (∃ t, bindType d context e = .ok t) ↔ ∃ t, bindType d context' e = .ok t := by
  have hfirst : (∃ t, bindType d' context (e.mapReferences f) = .ok t) ↔
      ∃ t, bindType d context e = .ok t := (follows_bindType e h).exists_iff
  have hsecond : (∃ t, bindType d' context (e.mapReferences f) = .ok t) ↔
      ∃ t, bindType d context' e = .ok t := (follows_bindType e h).exists_iff
  exact hfirst.symm.trans hsecond

/-- Properties are bound exactly if all required ones are declared and all types can be bound. -/
theorem exists_bindProperties_iff {owner : String} {properties : Properties}
    {required : List String} : (∃ ps, bindProperties d owner properties required = .ok ps) ↔
      (∀ name ∈ required, name ∈ properties.keys) ∧
        ∀ entry ∈ properties.entries,
          ∃ t, bindType d (owner ++ "." ++ entry.1) entry.2.type = .ok t := by
  have hproperty (entry : String × PropertyEntry) :
      (∃ p, bindProperty d owner required entry.1 entry.2 = .ok p) ↔
        ∃ t, bindType d (owner ++ "." ++ entry.1) entry.2.type = .ok t := by
    unfold bindProperty
    simp only [bind_eq_ok, pure_eq_ok]
    constructor
    · rintro ⟨p, t, ht, -⟩
      exact ⟨t, ht⟩
    · rintro ⟨t, ht⟩
      exact ⟨_, t, ht, rfl⟩
  unfold bindProperties
  simp only [bind_eq_ok, ← hproperty]
  rw [← exists_mapM]
  constructor
  · rintro ⟨ps, u, hrequired, hps⟩
    exact ⟨checkRequired_eq_ok.1 hrequired, ps, hps⟩
  · rintro ⟨hrequired, ps, hps⟩
    exact ⟨ps, (), checkRequired_eq_ok.2 hrequired, hps⟩

/-- Properties with the same names and types can be bound if the others can. -/
theorem exists_bindProperties_of_agree {owner owner' : String} {properties others : Properties}
    {required : List String} (hagree : List.Forall₂ (fun p q => p.1 = q.1 ∧ p.2.type = q.2.type)
      properties.entries others.entries) (hleads : Leads d d' f rep others.typeExprs)
    (h : ∃ ps, bindProperties d owner' others required = .ok ps) :
    ∃ ps, bindProperties d owner properties required = .ok ps := by
  rw [exists_bindProperties_iff] at h ⊢
  obtain ⟨hrequired, hall⟩ := h
  constructor
  · intro name hname
    obtain ⟨⟨_, q⟩, hq, rfl⟩ := List.mem_map.1 (hrequired name hname)
    obtain ⟨p, hp, heq, -⟩ := exists_left_of_mem hagree hq
    exact List.mem_map.2 ⟨p, hp, heq⟩
  · intro p hp
    obtain ⟨q, hq, -, htype⟩ := exists_right_of_mem hagree hp
    have hparts : Leads d d' f rep q.2.type.withParts := hleads.mono fun e he =>
      List.mem_flatMap.2 ⟨q.2, List.mem_map.2 ⟨q, hq, rfl⟩, he⟩
    rw [htype, exists_bindType_iff hparts _ (owner' ++ "." ++ q.1)]
    exact hall q hq

theorem type_eq_of_sameBody {p q : PropertyEntry} (h : p.sameBody q = true) : p.type = q.type := by
  simp only [PropertyEntry.sameBody, Bool.and_eq_true, TypeExpr.beq_iff] at h
  exact h.1.1.1.1.1.1

/-- A type can be bound if one with the same body can. -/
theorem exists_bindTypeEntry_of_sameBody {t u : TypeEntry} (hsame : t.sameBody u = true)
    (hagree : Text.lowercase token = Text.lowercase kept)
    (hleads : Leads d d' f rep (Properties.typeExprs u.object.properties))
    (h : ∃ b, bindTypeEntry d kept u = .ok b) : ∃ b, bindTypeEntry d token t = .ok b := by
  obtain ⟨hname, hrequired, htypes, helements⟩ := TypeEntry.sameBody_iff.1 hsame
  have hobject (hproperties : ∃ ps, bindObject d kept u.object = .ok ps) :
      ∃ ps, bindObject d token t.object = .ok ps := by
    unfold bindObject at hproperties ⊢
    rw [hrequired]
    refine exists_bindProperties_of_agree (htypes.imp fun p q hpq => ?_) hleads hproperties
    obtain ⟨hnames, hbodies⟩ := hpq
    exact ⟨hnames, type_eq_of_sameBody hbodies⟩
  obtain ⟨b, h⟩ := h
  unfold bindTypeEntry at h ⊢
  obtain ⟨parsed, hkept, h⟩ := bind_eq_ok.1 h
  obtain ⟨parsed', htoken⟩ := (exists_requireToken_iff hagree).2 ⟨parsed, hkept⟩
  simp only [bind_eq_ok, htoken, Except.ok.injEq, exists_eq_left']
  rw [hname]
  generalize t.elements = elements at helements ⊢
  generalize u.elements = others at helements h
  cases helements with
  | some _ => exact ⟨_, rfl⟩
  | none =>
    generalize u.object.typeName = typeName at h ⊢
    have hplain (h : ∃ ps, bindObject d kept u.object = .ok ps) :
        ∃ b, (bindObject d token t.object >>= fun ps =>
          pure (TypeDefinition.object ⟨token, t.object.description, ps⟩)) = .ok b := by
      obtain ⟨ps, hps⟩ := hobject h
      exact ⟨_, bind_eq_ok.2 ⟨ps, hps, rfl⟩⟩
    cases typeName with
    | none =>
      obtain ⟨ps, hps, -⟩ := bind_eq_ok.1 h
      exact hplain ⟨ps, hps⟩
    | some name =>
      dsimp only at h ⊢
      by_cases hnamed : name = "object"
      · rw [if_pos hnamed] at h ⊢
        obtain ⟨ps, hps, -⟩ := bind_eq_ok.1 h
        exact hplain ⟨ps, hps⟩
      · rw [if_neg hnamed] at h ⊢
        obtain ⟨p, hp, -⟩ := bind_eq_ok.1 h
        obtain ⟨p', hp'⟩ := (follows_primitiveNamed name token kept).exists_iff.1 ⟨p, hp⟩
        exact ⟨_, bind_eq_ok.2 ⟨p', hp', rfl⟩⟩

/-- What the types that remain are bound to. -/
theorem follows_bindTypeEntries (hleads : ∀ t ∈ d.types.values,
    Leads d d.merged (redirect d.renamings) d.representative
      (Properties.typeExprs t.object.properties)) :
    Follows (fun types => (types.filter fun entry => !decide (IsRemoved d entry.1)).map
        fun entry => (entry.1, entry.2.mapTokens d.representative))
      (bindTypeEntries d d.types.entries) (bindTypeEntries d.merged d.merged.types.entries) := by
  have hentry {entry : String × TypeEntry} (h : entry ∈ d.types.entries) :
      Leads d d.merged (redirect d.renamings) d.representative
        (Properties.typeExprs entry.2.object.properties) :=
    hleads entry.2 (List.mem_map.2 ⟨entry, h, rfl⟩)
  rw [entries_types_merged]
  refine Follows.trans (follows_mapM_filter ?_ ?_) (follows_mapM ?_)
  · rintro ⟨token, t⟩ ⟨_, b⟩ h
    obtain ⟨_, -, h⟩ := bind_eq_ok.1 h
    obtain ⟨rfl, -⟩ := Prod.mk.inj (pure_eq_ok.1 h)
    rfl
  · rintro ⟨token, t⟩ hmem hremoved
    rw [Bool.not_eq_false', decide_eq_true_eq] at hremoved
    obtain ⟨kept, hrenamed⟩ := isRemoved_iff.1 hremoved
    obtain ⟨u, hu⟩ := Dictionary.mem_keys_iff.1 hrenamed.variant.smallest.mem
    have hstays := hrenamed.variant.smallest.not_isRemoved
    have hmem' := Dictionary.get?_eq_some_iff.1 hu
    have hsame := hrenamed.sameBody t u (Dictionary.get?_eq_some_iff.2 hmem) hu
    refine ⟨(kept, u), hmem', by simpa using hstays, ?_⟩
    rintro ⟨_, h⟩
    obtain ⟨b, hb, -⟩ := bind_eq_ok.1 h
    obtain ⟨b', hb'⟩ := exists_bindTypeEntry_of_sameBody hsame hrenamed.variant.agree
      (hentry hmem') ⟨b, hb⟩
    exact ⟨_, bind_eq_ok.2 ⟨b', hb', rfl⟩⟩
  · rintro ⟨token, t⟩ hmem
    have hmem := (List.mem_filter.1 hmem).1
    exact (follows_bindTypeEntry (hentry hmem)).bind fun b _ => follows_ok rfl

/-- The package without the types that merging takes out of the document. -/
def withoutRemoved (d : PackageDocument) (p : Package) : Package :=
  { p with types := p.types.filter fun token _ => !decide (IsRemoved d token) }

/-- A package of the merged document, put together from the parts of one of the document. -/
theorem package_merged (d : PackageDocument) {types : List (String × TypeDefinition)}
    {resources : List Resource} {provider : Option Resource} {functions : List Function}
    {config : List Property} (h : Ascending types) :
    mapTokens d.representative (withoutRemoved d {
      name := d.name, version := d.version, description := d.description, homepage := d.homepage,
      repository := d.repository, license := d.license, publisher := d.publisher,
      pluginDownloadUrl := d.pluginDownloadUrl, types := .ofList types,
      resources, provider, functions, config, language := d.language }) = {
      name := d.merged.name, version := d.merged.version, description := d.merged.description,
      homepage := d.merged.homepage, repository := d.merged.repository,
      license := d.merged.license, publisher := d.merged.publisher,
      pluginDownloadUrl := d.merged.pluginDownloadUrl
      types := .ofList ((types.filter fun entry => !decide (IsRemoved d entry.1)).map
        fun entry => (entry.1, entry.2.mapTokens d.representative))
      resources := resources.map (Resource.mapTokens d.representative)
      provider := provider.map (Resource.mapTokens d.representative)
      functions := functions.map (Function.mapTokens d.representative)
      config := config.map (Property.mapTokens d.representative)
      language := d.merged.language } := by
  have hmapped : Ascending ((types.filter fun entry => !decide (IsRemoved d entry.1)).map
      fun entry => (entry.1, entry.2.mapTokens d.representative)) :=
    List.pairwise_map.2 (h.sublist List.filter_sublist)
  have htypes : ((Dictionary.ofList types).filter fun token _ =>
      !decide (IsRemoved d token)).mapValues (TypeDefinition.mapTokens d.representative) =
      Dictionary.ofList ((types.filter fun entry => !decide (IsRemoved d entry.1)).map
        fun entry => (entry.1, entry.2.mapTokens d.representative)) := by
    apply Dictionary.ext_entries
    rw [Dictionary.entries_ofList hmapped]
    change ((Dictionary.ofList types).entries.filter _).map _ = _
    rw [Dictionary.entries_ofList h]
  rw [← htypes]
  unfold mapTokens withoutRemoved
  rw [merged_eq]
  rfl

/-- What the merged document is bound to. -/
theorem follows_bind (hforeign : ∀ reference ∈ referencesIn d.typeExprs, ∀ token,
    NamesElsewhere reference token → ¬ IsRemoved d token) :
    Follows (fun p => mapTokens d.representative (withoutRemoved d p)) d.bind d.merged.bind := by
  have hleads := leads_merged hforeign
  have hfirst := hleads.mono (List.subset_append_left _ _)
  have hplaces := hfirst.mono (List.subset_append_left _ _)
  have hbefore := hplaces.mono (List.subset_append_left _ _)
  have hexprs := hbefore.mono (List.subset_append_right _ _)
  obtain ⟨hprovider, hresources, hfunctions, hconfig, hrequired⟩ := places_merged d
  unfold PackageDocument.bind
  rw [hprovider, hresources, hfunctions, hconfig, hrequired]
  have htypes := follows_bindTypeEntries fun t ht =>
    hexprs.mono fun e he => List.mem_flatMap.2 ⟨t, ht, he⟩
  refine htypes.bind fun types hbound => ?_
  refine (follows_bindResources (hfirst.mono (List.subset_append_right _ _))).bind
    fun resources _ => ?_
  refine (follows_bindOptional_provider (name_merged d)
    (hplaces.mono (List.subset_append_right _ _))).bind fun provider _ => ?_
  refine (follows_bindFunctions (hleads.mono (List.subset_append_right _ _))).bind
    fun functions _ => ?_
  refine (follows_bindProperties (hbefore.mono (List.subset_append_left _ _))).bind
    fun config _ => ?_
  exact follows_ok (package_merged d (ascending_of_bindTypeEntries hbound d.types.ascending))

end SchemaToJava.Package

namespace SchemaToJava.Schema

open Package

variable {d : PackageDocument} {token kept : String} {x : Diagnostic}

/-- Merging keeps the meaning of a document, and tells of each type that has a smaller variant. -/
structure MergesFaithfully (d : PackageDocument) : Prop where
  /-- The smallest token of its group stands for a type taken out. -/
  removed : ∀ token, IsRemoved d token → IsVariant d.types token (d.representative token)
  /-- Every other token stands for itself. -/
  others : ∀ token, ¬ IsRemoved d token → d.representative token = token
  binds_iff : (∃ package, d.merged.bind = .ok package) ↔ ∃ package, d.bind = .ok package
  agrees : ∀ package merged, d.bind = .ok package → d.merged.bind = .ok merged →
    (withoutRemoved d package).mapTokens d.representative = merged
  /-- Exactly the types that are not the smallest of their groups are reported. -/
  reported_iff : ∀ token, token ∈ d.mergeCaseVariants.2.map Diagnostic.token ↔
    token ∈ d.types.keys ∧ ¬ IsSmallest d.types token
  once : (d.mergeCaseVariants.2.map Diagnostic.token).Nodup
  told : ∀ x ∈ d.mergeCaseVariants.2,
    (IsRemoved d x.token ∧ x = .renamed x.token (d.smallestVariant x.token)) ∨
      (¬ IsRemoved d x.token ∧ x = .skipped x.token (d.smallestVariant x.token))
  /-- It is an information if the type is taken out, and a warning if it is not. -/
  lead : ∀ x ∈ d.mergeCaseVariants.2,
    ("info: ".toList <+: x.message.toList ↔ IsRemoved d x.token) ∧
      ("warning: ".toList <+: x.message.toList ↔ ¬ IsRemoved d x.token)

theorem isVariant_of_mem_caseDiagnostics (h : x ∈ d.caseDiagnostics) :
    ∃ kept, IsVariant d.types x.token kept := by
  obtain ⟨token, kept, t, body, hvariant, -, -, rfl⟩ := mem_caseDiagnostics.1 h
  refine ⟨kept, ?_⟩
  split <;> exact hvariant

/-- A finding tells that its type is renamed if the type is taken out, and else that it is not. -/
theorem told_of_mem_caseDiagnostics (h : x ∈ d.caseDiagnostics) :
    (IsRemoved d x.token ∧ x = .renamed x.token (d.smallestVariant x.token)) ∨
      (¬ IsRemoved d x.token ∧ x = .skipped x.token (d.smallestVariant x.token)) := by
  cases x with
  | renamed token kept =>
    have hrenamed := renamed_mem.1 h
    have hkept := smallestVariant_eq hrenamed.variant
    exact .inl ⟨isRemoved_iff.2 ⟨kept, hrenamed⟩, congrArg (Diagnostic.renamed token) hkept.symm⟩
  | skipped token kept =>
    obtain ⟨hvariant, hnot⟩ := skipped_mem.1 h
    have hkept := smallestVariant_eq hvariant
    have hstays : ¬ IsRemoved d token := by
      intro hremoved
      obtain ⟨other, hrenamed⟩ := isRemoved_iff.1 hremoved
      exact hnot (hrenamed.variant.kept_eq hvariant ▸ hrenamed)
    exact .inr ⟨hstays, congrArg (Diagnostic.skipped token) hkept.symm⟩

theorem prefix_toList_append (start rest : String) : start.toList <+: (start ++ rest).toList := by
  rw [String.toList_append]
  exact List.prefix_append _ _

theorem lead_renamed (token kept : String) :
    "info: ".toList <+: (Diagnostic.renamed token kept).message.toList ∧
      ¬ "warning: ".toList <+: (Diagnostic.renamed token kept).message.toList := by
  have hmessage : (Diagnostic.renamed token kept).message =
      "info: renamed type '" ++ (token ++ "' to '" ++ kept ++ "'") := by
    simp only [← String.append_assoc]
    rfl
  have hstart := prefix_toList_append "info: renamed type '" (token ++ "' to '" ++ kept ++ "'")
  rw [hmessage]
  constructor
  · exact List.IsPrefix.trans (by decide +kernel) hstart
  · intro h
    have hlead := List.prefix_of_prefix_length_le h hstart (by decide +kernel)
    exact absurd hlead (by decide +kernel)

theorem lead_skipped (token kept : String) :
    ¬ "info: ".toList <+: (Diagnostic.skipped token kept).message.toList ∧
      "warning: ".toList <+: (Diagnostic.skipped token kept).message.toList := by
  have hmessage : (Diagnostic.skipped token kept).message = "warning: skipped renaming type '" ++
      (token ++ "' to '" ++ kept ++ "': type bodies differ") := by
    simp only [← String.append_assoc]
    rfl
  have hstart := prefix_toList_append "warning: skipped renaming type '"
    (token ++ "' to '" ++ kept ++ "': type bodies differ")
  rw [hmessage]
  constructor
  · intro h
    have hlead := List.prefix_of_prefix_length_le h hstart (by decide +kernel)
    exact absurd hlead (by decide +kernel)
  · exact List.IsPrefix.trans (by decide +kernel) hstart

/-- The lead of the message says whether the type is taken out. -/
theorem lead_of_mem_caseDiagnostics (h : x ∈ d.caseDiagnostics) :
    ("info: ".toList <+: x.message.toList ↔ IsRemoved d x.token) ∧
      ("warning: ".toList <+: x.message.toList ↔ ¬ IsRemoved d x.token) := by
  rcases told_of_mem_caseDiagnostics h with ⟨hremoved, htold⟩ | ⟨hstays, htold⟩
  · obtain ⟨hinfo, hwarning⟩ := lead_renamed x.token (d.smallestVariant x.token)
    rw [← htold] at hinfo hwarning
    exact ⟨iff_of_true hinfo hremoved, iff_of_false hwarning (not_not.2 hremoved)⟩
  · obtain ⟨hinfo, hwarning⟩ := lead_skipped x.token (d.smallestVariant x.token)
    rw [← htold] at hinfo hwarning
    exact ⟨iff_of_false hinfo hstays, iff_of_true hwarning hstays⟩

/-- Merging is faithful if no reference names a removed type at another place. -/
theorem mergesFaithfully (hforeign : ∀ reference ∈ referencesIn d.typeExprs, ∀ token,
    NamesElsewhere reference token → ¬ IsRemoved d token) : MergesFaithfully d := by
  have hfollows := follows_bind hforeign
  have hsnd := mergeCaseVariants_snd d
  refine ⟨fun token hremoved => ?_, fun token => representative_eq_self, hfollows.exists_iff,
    fun package merged hpackage hmerged => ?_, fun token => ?_, hsnd ▸ nodup_caseDiagnostics,
    fun x hx => ?_, fun x hx => ?_⟩
  · obtain ⟨kept, hrenamed⟩ := isRemoved_iff.1 hremoved
    rw [representative_eq hrenamed]
    exact hrenamed.variant
  · obtain ⟨package', hpackage', heq⟩ := (hfollows merged).1 hmerged
    rw [hpackage] at hpackage'
    obtain rfl := Except.ok.inj hpackage'
    exact heq
  · rw [hsnd]
    constructor
    · intro h
      obtain ⟨x, hx, rfl⟩ := List.mem_map.1 h
      obtain ⟨kept, hvariant⟩ := isVariant_of_mem_caseDiagnostics hx
      exact ⟨hvariant.mem, hvariant.not_isSmallest⟩
    · rintro ⟨hmem, hnot⟩
      obtain ⟨kept, hvariant⟩ := exists_isVariant hmem hnot
      by_cases hrenamed : IsRenamed d token kept
      · exact List.mem_map.2 ⟨_, renamed_mem.2 hrenamed, rfl⟩
      · exact List.mem_map.2 ⟨_, skipped_mem.2 ⟨hvariant, hrenamed⟩, rfl⟩
  · rw [hsnd] at hx
    exact told_of_mem_caseDiagnostics hx
  · rw [hsnd] at hx
    exact lead_of_mem_caseDiagnostics hx

/-- Of four types in two groups one is taken out; it refers to itself, a resource refers to it with
its slash escaped, and another refers to a type of another package. -/
theorem mergesFaithfully_of_escaped :
    let referring (reference : String) (description : String) : ObjectEntry :=
      { properties := .ofList [("x", { type := { reference }, description })] }
    let d : PackageDocument := {
      name := "p"
      types := .ofList [("p:m/a:Foo", ⟨referring "#/types/p:m%2fa:foo" "large", none⟩),
        ("p:m/a:foo", ⟨referring "#/types/p:m%2fa:foo" "small", none⟩),
        ("p:m:BAR", { object := { typeName := "string" } }),
        ("p:m:bar", { object := { typeName := "integer" } })]
      resources := .ofList [("p:m:R", { object := referring "#/types/p:m%2Fa:foo" "" }),
        ("p:m:S", { object := referring "o.json#/types/o:m:foo" "" })] }
    IsRemoved d "p:m/a:foo" ∧ (∃ package, d.bind = .ok package) ∧ MergesFaithfully d := by
  intro referring d
  have hremoved : IsRemoved d "p:m/a:foo" := by decide +kernel
  have hbound : d.bind.isOk = true := by decide +kernel
  have hreferences : (referencesIn d.typeExprs).all (fun reference =>
      (splitFragment reference).all fun parts => parts.1.isEmpty ||
        (Text.afterLead "/types/" parts.2).all fun escaped =>
          !d.types.contains (unescapeToken escaped)) = true := by
    decide +kernel
  refine ⟨hremoved, ?_, mergesFaithfully fun reference hreference token hnames htoken => ?_⟩
  · cases hbind : d.bind with
    | ok package => exact ⟨package, rfl⟩
    | error e =>
      rw [hbind] at hbound
      cases hbound
  · obtain ⟨origin, fragment, escaped, hsplit, horigin, hescaped, rfl⟩ := hnames
    have hfound := List.all_eq_true.1 hreferences reference hreference
    rw [hsplit, Option.all_some] at hfound
    dsimp only at hfound
    rw [hescaped, Option.all_some, horigin, Bool.false_or, Bool.not_eq_true',
      Dictionary.contains_eq_false_iff] at hfound
    exact hfound htoken.1

end SchemaToJava.Schema
