import SchemaToJava.Proofs.MergedRecords
import SchemaToJava.Schema.Document.Reading

/-!
Package documents that are written and read again, record by record. What has been read into a
record is kept field by field, and the record is built up again from what is written of it.
-/
namespace SchemaToJava.Schema

open Json Reading

variable {depth : Nat} {n : Node}

section Types

def TypeExpr.toValue (t : TypeExpr) : Value := .object (membersOf t.written)

def unionValue (ts : List TypeExpr) : Value := .array (ts.map TypeExpr.toValue)

theorem optionValue_eq (o : Option TypeExpr) : optionValue o = o.map TypeExpr.toValue := by
  cases o with
  | none => rw [optionValue, Option.map_none]
  | some t => rw [optionValue, Option.map_some, TypeExpr.toValue]

theorem typeValues_eq (ts : List TypeExpr) : typeValues ts = ts.map TypeExpr.toValue := by
  induction ts with
  | nil => rw [typeValues, List.map_nil]
  | cons t ts ih => rw [typeValues, ih, List.map_cons, TypeExpr.toValue]

theorem alternatives_eq (o : Option (List TypeExpr)) : alternatives o = o.map unionValue := by
  cases o with
  | none => rw [alternatives, Option.map_none]
  | some ts => rw [alternatives, Option.map_some, typeValues_eq, unionValue]

/-- Every field of the type is written so that it can be read again. -/
structure TypeExpr.IsKept (depth : Nat) (t : TypeExpr) : Prop where
  typeName : KeptText "type" depth t.typeName
  reference : KeptText "$ref" depth t.reference
  items : KeptOption readType TypeExpr.toValue "items" depth t.items
  additional : KeptOption readType TypeExpr.toValue "additionalProperties" depth t.additional
  oneOf : KeptOption readTypes unionValue "oneOf" depth t.oneOf
  plain : KeptFlag "plain" depth t.plain

/-- The fields of a type are written as they are read, if those of the types inside it are. -/
theorem mirrors_typeFields (htype : Recovers (readType depth) TypeExpr.toValue depth)
    (htypes : Recovers (readTypes depth) unionValue depth) :
    Mirrors (typeFieldsAt depth) (TypeExpr.IsKept depth) TypeExpr.written depth where
  blank := ⟨kept_blank, kept_blank, kept_blank, kept_blank, kept_blank, kept_blank⟩
  keeps f hf n x acc hn hx hacc := by
    simp only [typeFieldsAt, typeFields, List.mem_cons, List.not_mem_nil, or_false] at hf
    rcases hf with rfl | rfl | rfl | rfl | rfl | rfl
    · exact { hacc with typeName := kept_text hn hx }
    · exact { hacc with reference := kept_text hn hx }
    · exact { hacc with items := kept_option htype (fun _ => nofun) hn hx }
    · exact { hacc with additional := kept_option htype (fun _ => nofun) hn hx }
    · exact { hacc with oneOf := kept_option htypes (fun _ => nofun) hn hx }
    · exact { hacc with plain := kept_flag hx }
  builds t ht := by
    obtain ⟨typeName, reference, items, additional, oneOf, plain⟩ := t
    rw [TypeExpr.written, optionValue_eq, optionValue_eq, alternatives_eq]
    exact .field ht.typeName rfl <|
      .field ht.reference rfl <|
      .field ht.items rfl <|
      .field ht.additional rfl <|
      .field ht.oneOf rfl <|
      .field ht.plain rfl .done
  required t name h := by cases h

theorem readType_eq (depth : Nat) : readType depth = recordOf typeFieldsAt depth := by
  cases depth <;> rfl

theorem readTypes_eq (depth : Nat) : readTypes depth = listOf readType depth := by
  cases depth <;> rfl

theorem recovers_readType (depth : Nat) : Recovers (readType depth) TypeExpr.toValue depth := by
  induction depth using Nat.strongRecOn with
  | _ depth ih =>
    have hmirrors : ∀ d < depth,
        Mirrors (typeFieldsAt d) (TypeExpr.IsKept d) TypeExpr.written d := by
      intro d hd
      have htypes : Recovers (readTypes d) unionValue d := by
        rw [readTypes_eq]
        exact recovers_listOf fun d' hd' => ih d' (Nat.lt_trans hd' hd)
      exact mirrors_typeFields (ih d hd) htypes
    rw [readType_eq]
    exact recovers_recordOf hmirrors

theorem mirrors_typeFieldsAt (depth : Nat) :
    Mirrors (typeFieldsAt depth) (TypeExpr.IsKept depth) TypeExpr.written depth := by
  refine mirrors_typeFields (recovers_readType depth) ?_
  rw [readTypes_eq]
  exact recovers_listOf fun d _ => recovers_readType d

end Types

section Properties

structure DefaultSources.IsKept (depth : Nat) (d : DefaultSources) : Prop where
  environment : KeptTexts "environment" depth d.environment

theorem mirrors_defaultSourcesFields (depth : Nat) : Mirrors (defaultSourcesFields depth)
    (DefaultSources.IsKept depth) DefaultSources.written depth where
  blank := ⟨kept_blank⟩
  keeps f hf n x acc hn hx hacc := by
    simp only [defaultSourcesFields, List.mem_cons, List.not_mem_nil, or_false] at hf
    subst hf
    exact ⟨kept_texts hn hx⟩
  builds d hd := .field hd.environment rfl .done
  required d name h := by cases h

/-- Of the type of a property nothing is read with its own fields. -/
structure PropertyEntry.IsKept (depth : Nat) (p : PropertyEntry) : Prop where
  type : p.type = {}
  description : KeptText "description" depth p.description
  constant : KeptValue "const" depth p.constant
  default : KeptValue "default" depth p.default
  defaultSources : KeptOption (recordOf defaultSourcesFields) DefaultSources.toValue "defaultInfo"
    depth p.defaultSources
  deprecation : KeptText "deprecationMessage" depth p.deprecation
  secret : KeptFlag "secret" depth p.secret
  language : KeptDictionary readValue id "language" depth p.language

theorem mirrors_propertyFields (depth : Nat) : Mirrors (propertyFields depth)
    (PropertyEntry.IsKept depth) PropertyEntry.written depth where
  blank := ⟨rfl, kept_blank, kept_blank, kept_blank, kept_blank, kept_blank, kept_blank,
    kept_blank⟩
  keeps f hf n x acc hn hx hacc := by
    have hsources : Recovers (recordOf defaultSourcesFields depth) DefaultSources.toValue depth :=
      recovers_recordOf fun d _ => mirrors_defaultSourcesFields d
    have hvalue : ∀ d < depth, Recovers (readValue d) id d := fun d _ => (recovers_toValue d).1
    simp only [propertyFields, List.mem_cons, List.not_mem_nil, or_false] at hf
    rcases hf with rfl | rfl | rfl | rfl | rfl | rfl | rfl
    · exact { hacc with description := kept_text hn hx }
    · exact { hacc with constant := kept_value hn hx }
    · exact { hacc with default := kept_value hn hx }
    · exact { hacc with defaultSources := kept_option hsources (fun _ => nofun) hn hx }
    · exact { hacc with deprecation := kept_text hn hx }
    · exact { hacc with secret := kept_flag hx }
    · exact { hacc with language := kept_dictionary hvalue hn hx }
  builds p hp := by
    obtain ⟨type, description, constant, default, sources, deprecation, secret, language⟩ := p
    obtain rfl : type = {} := hp.type
    exact .field hp.description rfl <|
      .field hp.constant rfl <|
      .field hp.default rfl <|
      .field hp.defaultSources rfl <|
      .field hp.deprecation rfl <|
      .field hp.secret rfl <|
      .field hp.language rfl .done
  required p name h := by cases h

/-- A property and its type are recovered from their common object. -/
theorem recovers_readProperty (depth : Nat) :
    Recovers (readProperty depth) PropertyEntry.toValue depth := by
  have hboth : ∀ d < depth, MirrorsBoth ⟨propertyFields d, typeFieldsAt d, d⟩
      (PropertyEntry.IsKept d) (TypeExpr.IsKept d) PropertyEntry.written TypeExpr.written := by
    intro d _
    refine ⟨mirrors_propertyFields d, mirrors_typeFieldsAt d, ?_⟩
    simp [Fields.names, propertyFields, typeFieldsAt, typeFields]
  exact recovers_map (recovers_mergedOf (fun _ => rfl) hboth) fun _ => rfl

end Properties

section Objects

structure ObjectEntry.IsKept (depth : Nat) (o : ObjectEntry) : Prop where
  description : KeptText "description" depth o.description
  typeName : KeptText "type" depth o.typeName
  properties : KeptDictionary readProperty PropertyEntry.toValue "properties" depth o.properties
  required : KeptTexts "required" depth o.required

/-- Reading and writing fit together, field by field. -/
theorem mirrors_objectFields (depth : Nat) : Mirrors (objectFields depth)
    (ObjectEntry.IsKept depth) ObjectEntry.written depth where
  blank := ⟨kept_blank, kept_blank, kept_blank, kept_blank⟩
  keeps f hf n x acc hn hx hacc := by
    have hproperty : ∀ d < depth, Recovers (readProperty d) PropertyEntry.toValue d :=
      fun d _ => recovers_readProperty d
    simp only [objectFields, List.mem_cons, List.not_mem_nil, or_false] at hf
    rcases hf with rfl | rfl | rfl | rfl
    · exact { hacc with description := kept_text hn hx }
    · exact { hacc with typeName := kept_text hn hx }
    · exact { hacc with properties := kept_dictionary hproperty hn hx }
    · exact { hacc with required := kept_texts hn hx }
  builds o ho :=
    .field ho.description rfl <|
    .field ho.typeName rfl <|
    .field ho.properties rfl <|
    .field ho.required rfl .done
  required o name h := by cases h

theorem recovers_readObjectEntry (depth : Nat) :
    Recovers (readObjectEntry depth) ObjectEntry.toValue depth :=
  recovers_recordOf fun d _ => mirrors_objectFields d

structure EnumEntry.IsKept (depth : Nat) (e : EnumEntry) : Prop where
  name : KeptText "name" depth e.name
  description : KeptText "description" depth e.description
  value : Kept (readValue depth) "value" (some ("value", e.value)) .null depth e.value
  deprecation : KeptText "deprecationMessage" depth e.deprecation

theorem mirrors_enumFields (depth : Nat) : Mirrors (enumFields depth)
    (EnumEntry.IsKept depth) EnumEntry.written depth where
  blank := by
    have hnull : Recovered (readValue depth) id depth .null := ⟨.null, by cases depth <;> rfl⟩
    exact ⟨kept_blank, kept_blank, kept_some hnull, kept_blank⟩
  keeps f hf n x acc hn hx hacc := by
    simp only [enumFields, List.mem_cons, List.not_mem_nil, or_false] at hf
    rcases hf with rfl | rfl | rfl | rfl
    · exact { hacc with name := kept_text hn hx }
    · exact { hacc with description := kept_text hn hx }
    · exact { hacc with value := kept_some ((recovers_toValue depth).1 n x hn hx) }
    · exact { hacc with deprecation := kept_text hn hx }
  builds e he :=
    .field he.name rfl <|
    .field he.description rfl <|
    .field he.value rfl <|
    .field he.deprecation rfl .done
  required e name h := by
    obtain rfl := List.mem_singleton.1 h
    exact ⟨e.value, by simp [EnumEntry.written]⟩

def elementsValue (es : List EnumEntry) : Value := .array (es.map EnumEntry.toValue)

/-- Of the object of a named type nothing is read with its own fields. -/
structure TypeEntry.IsKept (depth : Nat) (t : TypeEntry) : Prop where
  object : t.object = {}
  elements : KeptOption (listOf (recordOf enumFields)) elementsValue "enum" depth t.elements

theorem mirrors_typeEntryFields (depth : Nat) : Mirrors (typeEntryFields depth)
    (TypeEntry.IsKept depth) TypeEntry.written depth where
  blank := ⟨rfl, kept_blank⟩
  keeps f hf n x acc hn hx hacc := by
    have helements : Recovers (listOf (recordOf enumFields) depth) elementsValue depth :=
      recovers_listOf fun d _ => recovers_recordOf fun d _ => mirrors_enumFields d
    simp only [typeEntryFields, List.mem_cons, List.not_mem_nil, or_false] at hf
    subst hf
    exact { hacc with elements := kept_option helements (fun _ => nofun) hn hx }
  builds t ht := by
    obtain ⟨object, elements⟩ := t
    obtain rfl : object = {} := ht.object
    exact .field ht.elements rfl .done
  required t name h := by cases h

theorem recovers_readTypeEntry (depth : Nat) :
    Recovers (readTypeEntry depth) TypeEntry.toValue depth := by
  have hboth : ∀ d < depth, MirrorsBoth ⟨typeEntryFields d, objectFields d, d⟩
      (TypeEntry.IsKept d) (ObjectEntry.IsKept d) TypeEntry.written ObjectEntry.written := by
    intro d _
    refine ⟨mirrors_typeEntryFields d, mirrors_objectFields d, ?_⟩
    simp [Fields.names, typeEntryFields, objectFields]
  exact recovers_map (recovers_mergedOf (fun _ => rfl) hboth) fun _ => rfl

end Objects

section Resources

structure AliasEntry.IsKept (depth : Nat) (a : AliasEntry) : Prop where
  name : KeptText "name" depth a.name
  project : KeptText "project" depth a.project
  typeToken : KeptText "type" depth a.typeToken

theorem mirrors_aliasFields (depth : Nat) : Mirrors (aliasFields depth)
    (AliasEntry.IsKept depth) AliasEntry.written depth where
  blank := ⟨kept_blank, kept_blank, kept_blank⟩
  keeps f hf n x acc hn hx hacc := by
    simp only [aliasFields, List.mem_cons, List.not_mem_nil, or_false] at hf
    rcases hf with rfl | rfl | rfl
    · exact { hacc with name := kept_text hn hx }
    · exact { hacc with project := kept_text hn hx }
    · exact { hacc with typeToken := kept_text hn hx }
  builds a ha :=
    .field ha.name rfl <|
    .field ha.project rfl <|
    .field ha.typeToken rfl .done
  required a name h := by cases h

/-- Of the object of a resource nothing is read with its own fields. -/
structure ResourceEntry.IsKept (depth : Nat) (r : ResourceEntry) : Prop where
  object : r.object = {}
  inputs : KeptDictionary readProperty PropertyEntry.toValue "inputProperties" depth r.inputs
  requiredInputs : KeptTexts "requiredInputs" depth r.requiredInputs
  state : KeptOption readObjectEntry ObjectEntry.toValue "stateInputs" depth r.state
  aliases : Kept (listOf (recordOf aliasFields) depth) "aliases" (if r.aliases.isEmpty then none
    else some ("aliases", .array (r.aliases.map AliasEntry.toValue))) [] depth r.aliases
  deprecation : KeptText "deprecationMessage" depth r.deprecation
  isComponent : KeptFlag "isComponent" depth r.isComponent

theorem mirrors_resourceFields (depth : Nat) : Mirrors (resourceFields depth)
    (ResourceEntry.IsKept depth) ResourceEntry.written depth where
  blank := ⟨rfl, kept_blank, kept_blank, kept_blank, kept_blank, kept_blank, kept_blank⟩
  keeps f hf n x acc hn hx hacc := by
    have hproperty : ∀ d < depth, Recovers (readProperty d) PropertyEntry.toValue d :=
      fun d _ => recovers_readProperty d
    have halias : ∀ d < depth, Recovers (recordOf aliasFields d) AliasEntry.toValue d :=
      fun d _ => recovers_recordOf fun d _ => mirrors_aliasFields d
    simp only [resourceFields, List.mem_cons, List.not_mem_nil, or_false] at hf
    rcases hf with rfl | rfl | rfl | rfl | rfl | rfl
    · exact { hacc with inputs := kept_dictionary hproperty hn hx }
    · exact { hacc with requiredInputs := kept_texts hn hx }
    · exact { hacc with
        state := kept_option (recovers_readObjectEntry depth) (fun _ => nofun) hn hx }
    · exact { hacc with aliases := kept_list halias hn hx }
    · exact { hacc with deprecation := kept_text hn hx }
    · exact { hacc with isComponent := kept_flag hx }
  builds r hr := by
    obtain ⟨object, inputs, requiredInputs, state, aliases, deprecation, isComponent⟩ := r
    obtain rfl : object = {} := hr.object
    exact .field hr.inputs rfl <|
      .field hr.requiredInputs rfl <|
      .field hr.state rfl <|
      .field hr.aliases rfl <|
      .field hr.deprecation rfl <|
      .field hr.isComponent rfl .done
  required r name h := by cases h

theorem recovers_readResource (depth : Nat) :
    Recovers (readResource depth) ResourceEntry.toValue depth := by
  have hboth : ∀ d < depth, MirrorsBoth ⟨resourceFields d, objectFields d, d⟩
      (ResourceEntry.IsKept d) (ObjectEntry.IsKept d) ResourceEntry.written
      ObjectEntry.written := by
    intro d _
    refine ⟨mirrors_resourceFields d, mirrors_objectFields d, ?_⟩
    simp [Fields.names, resourceFields, objectFields]
  exact recovers_map (recovers_mergedOf (fun _ => rfl) hboth) fun _ => rfl

end Resources

section Packages

structure FunctionEntry.IsKept (depth : Nat) (f : FunctionEntry) : Prop where
  description : KeptText "description" depth f.description
  inputs : KeptOption readObjectEntry ObjectEntry.toValue "inputs" depth f.inputs
  outputs : KeptOption readObjectEntry ObjectEntry.toValue "outputs" depth f.outputs
  deprecation : KeptText "deprecationMessage" depth f.deprecation

theorem mirrors_functionFields (depth : Nat) : Mirrors (functionFields depth)
    (FunctionEntry.IsKept depth) FunctionEntry.written depth where
  blank := ⟨kept_blank, kept_blank, kept_blank, kept_blank⟩
  keeps f hf n x acc hn hx hacc := by
    have hobject := recovers_readObjectEntry depth
    simp only [functionFields, List.mem_cons, List.not_mem_nil, or_false] at hf
    rcases hf with rfl | rfl | rfl | rfl
    · exact { hacc with description := kept_text hn hx }
    · exact { hacc with inputs := kept_option hobject (fun _ => nofun) hn hx }
    · exact { hacc with outputs := kept_option hobject (fun _ => nofun) hn hx }
    · exact { hacc with deprecation := kept_text hn hx }
  builds f hf :=
    .field hf.description rfl <|
    .field hf.inputs rfl <|
    .field hf.outputs rfl <|
    .field hf.deprecation rfl .done
  required f name h := by cases h

structure ConfigSection.IsKept (depth : Nat) (c : ConfigSection) : Prop where
  properties : KeptDictionary readProperty PropertyEntry.toValue "variables" depth c.properties
  required : KeptTexts "required" depth c.required

theorem mirrors_configFields (depth : Nat) : Mirrors (configFields depth)
    (ConfigSection.IsKept depth) ConfigSection.written depth where
  blank := ⟨kept_blank, kept_blank⟩
  keeps f hf n x acc hn hx hacc := by
    have hproperty : ∀ d < depth, Recovers (readProperty d) PropertyEntry.toValue d :=
      fun d _ => recovers_readProperty d
    simp only [configFields, List.mem_cons, List.not_mem_nil, or_false] at hf
    rcases hf with rfl | rfl
    · exact { hacc with properties := kept_dictionary hproperty hn hx }
    · exact { hacc with required := kept_texts hn hx }
  builds c hc :=
    .field hc.properties rfl <|
    .field hc.required rfl .done
  required c name h := by cases h

theorem eq_blank_of_isEmpty {c : ConfigSection} (h : c.isEmpty = true) : c = {} := by
  obtain ⟨properties, required⟩ := c
  rw [ConfigSection.isEmpty, Bool.and_eq_true] at h
  obtain ⟨hproperties, hrequired⟩ := h
  obtain rfl : required = [] := List.isEmpty_iff.1 hrequired
  obtain rfl : properties = .empty := Dictionary.ext_entries (List.isEmpty_iff.1 hproperties)
  rfl

structure PackageDocument.IsKept (depth : Nat) (d : PackageDocument) : Prop where
  name : Kept (readText depth) "name" (some ("name", .string d.name)) "" depth d.name
  version : KeptText "version" depth d.version
  description : KeptText "description" depth d.description
  homepage : KeptText "homepage" depth d.homepage
  repository : KeptText "repository" depth d.repository
  license : KeptText "license" depth d.license
  publisher : KeptText "publisher" depth d.publisher
  pluginDownloadUrl : KeptText "pluginDownloadURL" depth d.pluginDownloadUrl
  config : Kept (recordOf configFields depth) "config" (if d.config.isEmpty then none
    else some ("config", d.config.toValue)) {} depth d.config
  types : KeptDictionary readTypeEntry TypeEntry.toValue "types" depth d.types
  provider : KeptOption readResource ResourceEntry.toValue "provider" depth d.provider
  resources : KeptDictionary readResource ResourceEntry.toValue "resources" depth d.resources
  functions : KeptDictionary (recordOf functionFields) FunctionEntry.toValue "functions" depth
    d.functions
  language : KeptDictionary readValue id "language" depth d.language

/-- The fields of a package are written as they are read. -/
theorem mirrors_packageFields (depth : Nat) : Mirrors (packageFields depth)
    (PackageDocument.IsKept depth) PackageDocument.written depth where
  blank := ⟨kept_some ⟨.string, rfl⟩, kept_blank, kept_blank, kept_blank, kept_blank, kept_blank,
    kept_blank, kept_blank, kept_blank, kept_blank, kept_blank, kept_blank, kept_blank,
    kept_blank⟩
  keeps f hf n x acc hn hx hacc := by
    have hconfig : Recovers (recordOf configFields depth) ConfigSection.toValue depth :=
      recovers_recordOf fun d _ => mirrors_configFields d
    have htype : ∀ d < depth, Recovers (readTypeEntry d) TypeEntry.toValue d :=
      fun d _ => recovers_readTypeEntry d
    have hresource : ∀ d, Recovers (readResource d) ResourceEntry.toValue d :=
      recovers_readResource
    have hfunction : ∀ d < depth, Recovers (recordOf functionFields d) FunctionEntry.toValue d :=
      fun d _ => recovers_recordOf fun d _ => mirrors_functionFields d
    have hvalue : ∀ d < depth, Recovers (readValue d) id d := fun d _ => (recovers_toValue d).1
    simp only [packageFields, List.mem_cons, List.not_mem_nil, or_false] at hf
    rcases hf with rfl | rfl | rfl | rfl | rfl | rfl | rfl | rfl | rfl | rfl | rfl | rfl | rfl | rfl
    · exact { hacc with name := kept_some (recovers_readText depth n x hn hx) }
    · exact { hacc with version := kept_text hn hx }
    · exact { hacc with description := kept_text hn hx }
    · exact { hacc with homepage := kept_text hn hx }
    · exact { hacc with repository := kept_text hn hx }
    · exact { hacc with license := kept_text hn hx }
    · exact { hacc with publisher := kept_text hn hx }
    · exact { hacc with pluginDownloadUrl := kept_text hn hx }
    · exact { hacc with config := kept_unless hconfig (fun _ => eq_blank_of_isEmpty) hn hx }
    · exact { hacc with types := kept_dictionary htype hn hx }
    · exact { hacc with provider := kept_option (hresource depth) (fun _ => nofun) hn hx }
    · exact { hacc with resources := kept_dictionary (fun d _ => hresource d) hn hx }
    · exact { hacc with functions := kept_dictionary hfunction hn hx }
    · exact { hacc with language := kept_dictionary hvalue hn hx }
  builds d hd :=
    .field hd.name rfl <|
    .field hd.version rfl <|
    .field hd.description rfl <|
    .field hd.homepage rfl <|
    .field hd.repository rfl <|
    .field hd.license rfl <|
    .field hd.publisher rfl <|
    .field hd.pluginDownloadUrl rfl <|
    .field hd.config rfl <|
    .field hd.types rfl <|
    .field hd.provider rfl <|
    .field hd.resources rfl <|
    .field hd.functions rfl <|
    .field hd.language rfl .done
  required d name h := by
    obtain rfl := List.mem_singleton.1 h
    exact ⟨.string d.name, List.mem_cons_self⟩

/-- A package document that has been read is read again from what is written of it. -/
theorem recovers_readPackage (depth : Nat) :
    Recovers (readPackage depth) PackageDocument.toValue depth :=
  recovers_recordOf fun d _ => mirrors_packageFields d

end Packages

end SchemaToJava.Schema
