import SchemaToJava.Proofs.KeptDocuments
import SchemaToJava.Proofs.ReorderedRecords
import SchemaToJava.Proofs.Rewordings

/-!
Package documents that are read from trees in another order. Every record of a document is read from
members in any order, so documents of trees that differ only in the order of members differ only in
the order of members inside the settings for the target languages.
-/
namespace SchemaToJava.Schema

open Reading Json

section Ordering

theorem beq_sorted (entries entries' : List (String × Value)) :
    (entries.map (fun entry => (entry.1, entry.2.sorted)) ==
      entries'.map fun entry => (entry.1, entry.2.sorted)) = (entries == entries') := by
  induction entries generalizing entries' with
  | nil => cases entries' <;> rfl
  | cons entry entries ih =>
    cases entries' with
    | nil => rfl
    | cons entry' entries' =>
      have hvalue : (entry.2.sorted == entry'.2.sorted) = (entry.2 == entry'.2) :=
        Value.same_sorted entry.2 entry'.2
      rw [List.map_cons, List.map_cons, List.cons_beq_cons, List.cons_beq_cons, ih]
      change ((entry.1 == entry'.1 && entry.2.sorted == entry'.2.sorted) && _) = _
      rw [hvalue]
      rfl

/-- The settings for the target languages with the members of their objects in a fixed order. -/
def Rewording.ordered : Rewording where
  description := id
  language l := l.mapValues Value.sorted
  same_language l l' := beq_sorted l.entries l'.entries
  javaName_language p := by
    unfold Package.javaName
    dsimp only
    rw [Dictionary.get?_mapValues]
    cases p.language.get? "java" with
    | none => rfl
    | some block =>
      dsimp only [Option.map_some, Option.bind_some]
      rw [Value.get?_sorted]
      cases block.get? "name" with
      | none => rfl
      | some name => exact Value.string?_sorted name

end Ordering

section Fields

variable {α : Type} {p : Place} {read : Node → Read α}

theorem Respects.optional (h : Respects p id read) : Respects p id (Reading.optional read) := by
  have hoption := respects_optional h
  rwa [Option.map_id] at hoption

theorem respects_list {item : Reader α} {depth : Nat}
    (h : ∀ d < depth, ∀ i, Respects (p.item i) id (item d)) :
    Respects p id (listOf item depth) := by
  have hlist := respects_listOf h
  rwa [List.map_id_fun] at hlist

theorem respects_optionalText (p : Place) (depth : Nat) :
    Respects p id (Reading.optional (readText depth)) := (respects_readText p depth).optional

theorem respects_texts (p : Place) (depth : Nat) : Respects p id (listOf readText depth) :=
  respects_list fun d _ i => respects_readText (p.item i) d

theorem respects_language (depth : Nat) : Respects .other
    (fun d : Dictionary String Value => d.mapValues Value.sorted) (dictionaryOf readValue depth) :=
  respects_dictionaryOf fun d _ _ => respects_sorted d

/-- The items of a record in an array are what the members of its object are. -/
theorem item_eq_member (p : Place) (hp : p ≠ .elements) (hvalue : p ≠ .value) {i : Nat}
    {name : String} (h : p.fieldNames[i]? = some name) : p.item i = p.member name := by
  unfold Place.item
  split
  · exact absurd rfl hp
  · exact absurd rfl hvalue
  · rw [h]
    rfl

end Fields

section Types

variable {p : Place}

/-- The fields of a type are read in any order, if the types inside it are. -/
theorem respectsFields_types (hp : p = .property ∨ p = .other) {depth : Nat}
    (htype : Respects .other id (readType depth)) (htypes : Respects .other id (readTypes depth)) :
    RespectsFields p id (typeFieldsAt depth) where
  reads := by
    have hitems : Place.other = p.member "items" := by rcases hp with rfl | rfl <;> rfl
    have hadditional : Place.other = p.member "additionalProperties" := by
      rcases hp with rfl | rfl <;> rfl
    have honeOf : Place.other = p.member "oneOf" := by rcases hp with rfl | rfl <;> rfl
    simp only [typeFieldsAt, typeFields, List.forall_mem_cons]
    exact ⟨respectsField (respects_optionalText _ 0) fun _ _ => rfl,
      respectsField (respects_optionalText _ 0) fun _ _ => rfl,
      respectsField (hitems ▸ htype.optional) fun _ _ => rfl,
      respectsField (hadditional ▸ htype.optional) fun _ _ => rfl,
      respectsField (honeOf ▸ htypes.optional) fun _ _ => rfl,
      respectsField (respects_readFlag _ 0) fun _ _ => rfl,
      List.forall_mem_nil _⟩
  apart := by simp [typeFieldsAt, typeFields]

theorem respects_readType (depth : Nat) : Respects .other id (readType depth) := by
  induction depth using Nat.strongRecOn with
  | _ depth ih =>
    -- the types inside a type are read one level deeper, and those in a union two levels
    have hfields : ∀ d < depth, RespectsFields .other id (typeFieldsAt d) := by
      intro d hd
      have htypes : Respects .other id (readTypes d) := by
        rw [readTypes_eq]
        exact respects_list fun d' hd' _ => ih d' (Nat.lt_trans hd' hd)
      exact respectsFields_types (.inr rfl) (ih d hd) htypes
    rw [readType_eq]
    exact respects_recordOf hfields fun _ _ _ _ _ => rfl

theorem respectsFields_propertyType (depth : Nat) :
    RespectsFields .property id (typeFieldsAt depth) := by
  refine respectsFields_types (.inl rfl) (respects_readType depth) ?_
  rw [readTypes_eq]
  exact respects_list fun d _ _ => respects_readType d

end Types

section Properties

theorem respectsFields_defaultSources (depth : Nat) :
    RespectsFields .other id (defaultSourcesFields depth) where
  reads := by
    simp only [defaultSourcesFields, List.forall_mem_cons]
    exact ⟨respectsField (respects_texts _ depth) fun _ _ => rfl,
      List.forall_mem_nil _⟩
  apart := by simp [defaultSourcesFields]

theorem respectsFields_property (depth : Nat) :
    RespectsFields .property (PropertyEntry.reworded .ordered) (propertyFields depth) where
  reads := by
    have hsources : Respects .other id (recordOf defaultSourcesFields depth) :=
      respects_recordOf (fun d _ => respectsFields_defaultSources d) fun _ _ _ _ _ => rfl
    simp only [propertyFields, List.forall_mem_cons]
    exact ⟨respectsField (respects_optionalText _ depth) fun _ _ => rfl,
      respectsField (respects_readValue depth).optional fun _ _ => rfl,
      respectsField (respects_readValue depth).optional fun _ _ => rfl,
      respectsField hsources.optional fun _ _ => rfl,
      respectsField (respects_optionalText _ depth) fun _ _ => rfl,
      respectsField (respects_readFlag _ depth) fun _ _ => rfl,
      respectsField (respects_language depth) fun _ _ => rfl,
      List.forall_mem_nil _⟩
  apart := by simp [propertyFields]

theorem respects_readProperty (depth : Nat) :
    Respects .property (PropertyEntry.reworded .ordered) (readProperty depth) := by
  have hboth : Respects .property (Prod.map (PropertyEntry.reworded .ordered) id)
      (mergedOf (fun d => ⟨propertyFields d, typeFieldsAt d, d⟩) depth) :=
    respects_mergedOf (fun d _ => respectsFields_property d)
      (fun d _ => respectsFields_propertyType d)
  exact respects_map hboth fun _ => rfl

theorem respects_properties (depth : Nat) : Respects .properties
    (fun d : Properties => d.mapValues (PropertyEntry.reworded .ordered))
    (dictionaryOf readProperty depth) :=
  respects_dictionaryOf fun d _ _ => respects_readProperty d

end Properties

section Objects

variable {p : Place}

theorem respectsFields_object (hp : p.member "properties" = .properties) (depth : Nat) :
    RespectsFields p (ObjectEntry.reworded .ordered) (objectFields depth) where
  reads := by
    simp only [objectFields, List.forall_mem_cons]
    exact ⟨respectsField (respects_optionalText _ depth) fun _ _ => rfl,
      respectsField (respects_optionalText _ depth) fun _ _ => rfl,
      respectsField (hp ▸ respects_properties depth) fun _ _ => rfl,
      respectsField (respects_texts _ depth) fun _ _ => rfl,
      List.forall_mem_nil _⟩
  apart := by simp [objectFields]

theorem respects_readObjectEntry (depth : Nat) :
    Respects .object (ObjectEntry.reworded .ordered) (readObjectEntry depth) :=
  respects_recordOf (fun d _ => respectsFields_object rfl d)
    fun _ _ _ _ => item_eq_member .object nofun nofun

theorem respects_optionalObject (depth : Nat) : Respects .object
    (Option.map (ObjectEntry.reworded .ordered)) (Reading.optional (readObjectEntry depth)) :=
  respects_optional (respects_readObjectEntry depth)

theorem respectsFields_enum (depth : Nat) :
    RespectsFields .element (EnumEntry.reworded .ordered) (enumFields depth) where
  reads := by
    simp only [enumFields, List.forall_mem_cons]
    exact ⟨respectsField (respects_optionalText _ depth) fun _ _ => rfl,
      respectsField (respects_optionalText _ depth) fun _ _ => rfl,
      respectsField (respects_readValue depth) fun _ _ => rfl,
      respectsField (respects_optionalText _ depth) fun _ _ => rfl,
      List.forall_mem_nil _⟩
  apart := by simp [enumFields]

theorem respects_element (depth : Nat) :
    Respects .element (EnumEntry.reworded .ordered) (recordOf enumFields depth) :=
  respects_recordOf (fun d _ => respectsFields_enum d)
    fun _ _ _ _ => item_eq_member .element nofun nofun

theorem respects_elements (depth : Nat) : Respects .elements
    (List.map (EnumEntry.reworded .ordered)) (listOf (recordOf enumFields) depth) :=
  respects_listOf fun d _ _ => respects_element d

theorem respectsFields_typeEntry (depth : Nat) :
    RespectsFields .typeEntry (TypeEntry.reworded .ordered) (typeEntryFields depth) where
  reads := by
    simp only [typeEntryFields, List.forall_mem_cons]
    exact ⟨respectsField (respects_optional (respects_elements depth)) fun _ _ => rfl,
      List.forall_mem_nil _⟩
  apart := by simp [typeEntryFields]

theorem respects_readTypeEntry (depth : Nat) :
    Respects .typeEntry (TypeEntry.reworded .ordered) (readTypeEntry depth) := by
  have hboth : Respects .typeEntry
      (Prod.map (TypeEntry.reworded .ordered) (ObjectEntry.reworded .ordered))
      (mergedOf (fun d => ⟨typeEntryFields d, objectFields d, d⟩) depth) :=
    respects_mergedOf (fun d _ => respectsFields_typeEntry d)
      (fun d _ => respectsFields_object rfl d)
  exact respects_map hboth fun _ => rfl

end Objects

section Resources

theorem respectsFields_alias (depth : Nat) : RespectsFields .other id (aliasFields depth) where
  reads := by
    simp only [aliasFields, List.forall_mem_cons]
    exact ⟨respectsField (respects_optionalText _ depth) fun _ _ => rfl,
      respectsField (respects_optionalText _ depth) fun _ _ => rfl,
      respectsField (respects_optionalText _ depth) fun _ _ => rfl,
      List.forall_mem_nil _⟩
  apart := by simp [aliasFields]

theorem respects_aliases (depth : Nat) :
    Respects .other id (listOf (recordOf aliasFields) depth) :=
  respects_list fun _ _ _ => respects_recordOf (fun d _ => respectsFields_alias d)
    fun _ _ _ _ _ => rfl

theorem respectsFields_resource (depth : Nat) :
    RespectsFields .resource (ResourceEntry.reworded .ordered) (resourceFields depth) where
  reads := by
    simp only [resourceFields, List.forall_mem_cons]
    exact ⟨respectsField (respects_properties depth) fun _ _ => rfl,
      respectsField (respects_texts _ depth) fun _ _ => rfl,
      respectsField (respects_optionalObject depth) fun _ _ => rfl,
      respectsField (respects_aliases depth) fun _ _ => rfl,
      respectsField (respects_optionalText _ depth) fun _ _ => rfl,
      respectsField (respects_readFlag _ depth) fun _ _ => rfl,
      List.forall_mem_nil _⟩
  apart := by simp [resourceFields]

theorem respects_readResource (depth : Nat) :
    Respects .resource (ResourceEntry.reworded .ordered) (readResource depth) := by
  have hboth : Respects .resource
      (Prod.map (ResourceEntry.reworded .ordered) (ObjectEntry.reworded .ordered))
      (mergedOf (fun d => ⟨resourceFields d, objectFields d, d⟩) depth) :=
    respects_mergedOf (fun d _ => respectsFields_resource d)
      (fun d _ => respectsFields_object rfl d)
  exact respects_map hboth fun _ => rfl

theorem respectsFields_function (depth : Nat) :
    RespectsFields .function (FunctionEntry.reworded .ordered) (functionFields depth) where
  reads := by
    simp only [functionFields, List.forall_mem_cons]
    exact ⟨respectsField (respects_optionalText _ depth) fun _ _ => rfl,
      respectsField (respects_optionalObject depth) fun _ _ => rfl,
      respectsField (respects_optionalObject depth) fun _ _ => rfl,
      respectsField (respects_optionalText _ depth) fun _ _ => rfl,
      List.forall_mem_nil _⟩
  apart := by simp [functionFields]

theorem respects_function (depth : Nat) :
    Respects .function (FunctionEntry.reworded .ordered) (recordOf functionFields depth) :=
  respects_recordOf (fun d _ => respectsFields_function d)
    fun _ _ _ _ => item_eq_member .function nofun nofun

end Resources

section Packages

theorem respectsFields_config (depth : Nat) :
    RespectsFields .config (ConfigSection.reworded .ordered) (configFields depth) where
  reads := by
    simp only [configFields, List.forall_mem_cons]
    exact ⟨respectsField (respects_properties depth) fun _ _ => rfl,
      respectsField (respects_texts _ depth) fun _ _ => rfl,
      List.forall_mem_nil _⟩
  apart := by simp [configFields]

theorem respectsFields_package (depth : Nat) :
    RespectsFields .package (PackageDocument.reworded .ordered) (packageFields depth) where
  reads := by
    have hconfig : Respects .config (ConfigSection.reworded .ordered)
        (recordOf configFields depth) :=
      respects_recordOf (fun d _ => respectsFields_config d)
        fun _ _ _ _ => item_eq_member .config nofun nofun
    have htypes : Respects .types
        (fun d : Dictionary String TypeEntry => d.mapValues (TypeEntry.reworded .ordered))
        (dictionaryOf readTypeEntry depth) :=
      respects_dictionaryOf fun d _ _ => respects_readTypeEntry d
    have hprovider : Respects .resource (Option.map (ResourceEntry.reworded .ordered))
        (Reading.optional (readResource depth)) := respects_optional (respects_readResource depth)
    have hresources : Respects .resources
        (fun d : Dictionary String ResourceEntry => d.mapValues (ResourceEntry.reworded .ordered))
        (dictionaryOf readResource depth) :=
      respects_dictionaryOf fun d _ _ => respects_readResource d
    have hfunctions : Respects .functions
        (fun d : Dictionary String FunctionEntry => d.mapValues (FunctionEntry.reworded .ordered))
        (dictionaryOf (recordOf functionFields) depth) :=
      respects_dictionaryOf fun d _ _ => respects_function d
    simp only [packageFields, List.forall_mem_cons]
    exact ⟨respectsField (respects_readText _ depth) fun _ _ => rfl,
      respectsField (respects_optionalText _ depth) fun _ _ => rfl,
      respectsField (respects_optionalText _ depth) fun _ _ => rfl,
      respectsField (respects_optionalText _ depth) fun _ _ => rfl,
      respectsField (respects_optionalText _ depth) fun _ _ => rfl,
      respectsField (respects_optionalText _ depth) fun _ _ => rfl,
      respectsField (respects_optionalText _ depth) fun _ _ => rfl,
      respectsField (respects_optionalText _ depth) fun _ _ => rfl,
      respectsField hconfig fun _ _ => rfl,
      respectsField htypes fun _ _ => rfl,
      respectsField hprovider fun _ _ => rfl,
      respectsField hresources fun _ _ => rfl,
      respectsField hfunctions fun _ _ => rfl,
      respectsField (respects_language depth) fun _ _ => rfl,
      List.forall_mem_nil _⟩
  apart := by simp [packageFields]

/-- A package document is read in any order, up to the order in its settings for languages. -/
theorem respects_readPackage (depth : Nat) :
    Respects .package (PackageDocument.reworded .ordered) (readPackage depth) :=
  respects_recordOf (fun d _ => respectsFields_package d)
    fun _ _ _ _ => item_eq_member .package nofun nofun

end Packages

end SchemaToJava.Schema
