import SchemaToJava.Dictionary
import SchemaToJava.Json.Value

/-!
Package documents as they are written, before any reference in them is followed: the types,
resources, functions and settings of a package, keyed by their tokens and names.
-/
namespace SchemaToJava.Schema

/-- A type as written: a name, a reference, or a shape made of further types. -/
structure TypeExpr where
  typeName : Option String := none
  reference : Option String := none
  /-- The type of the elements of an array. -/
  items : Option TypeExpr := none
  /-- The type of the values of a map. -/
  additional : Option TypeExpr := none
  /-- The alternatives of a union. -/
  oneOf : Option (List TypeExpr) := none
  /-- Whether the value is never wrapped as an input. -/
  plain : Bool := false
deriving Inhabited

mutual

/-- Whether two types are written alike. -/
def TypeExpr.same : TypeExpr → TypeExpr → Bool
  | ⟨typeName, reference, items, additional, oneOf, plain⟩,
    ⟨typeName', reference', items', additional', oneOf', plain'⟩ =>
    typeName == typeName' && reference == reference' && sameOption items items' &&
      sameOption additional additional' && sameAlternatives oneOf oneOf' && plain == plain'

def sameOption : Option TypeExpr → Option TypeExpr → Bool
  | none, none => true
  | some t, some u => t.same u
  | _, _ => false

def sameAlternatives : Option (List TypeExpr) → Option (List TypeExpr) → Bool
  | none, none => true
  | some ts, some us => sameList ts us
  | _, _ => false

def sameList : List TypeExpr → List TypeExpr → Bool
  | [], [] => true
  | t :: ts, u :: us => t.same u && sameList ts us
  | _, _ => false

end

instance : BEq TypeExpr := ⟨TypeExpr.same⟩

mutual

theorem TypeExpr.same_iff : (t u : TypeExpr) → (t.same u = true ↔ t = u)
  | ⟨typeName, reference, items, additional, oneOf, plain⟩,
    ⟨typeName', reference', items', additional', oneOf', plain'⟩ => by
    unfold TypeExpr.same
    simp only [Bool.and_eq_true, beq_iff_eq, sameOption_iff items items',
      sameOption_iff additional additional', sameAlternatives_iff oneOf oneOf',
      TypeExpr.mk.injEq, and_assoc]

theorem sameOption_iff : (t u : Option TypeExpr) → (sameOption t u = true ↔ t = u)
  | none, none => by simp [sameOption]
  | some t, some u => by rw [sameOption, TypeExpr.same_iff t u, Option.some.injEq]
  | none, some u => by simp [sameOption]
  | some t, none => by simp [sameOption]

theorem sameAlternatives_iff :
    (t u : Option (List TypeExpr)) → (sameAlternatives t u = true ↔ t = u)
  | none, none => by simp [sameAlternatives]
  | some ts, some us => by rw [sameAlternatives, sameList_iff ts us, Option.some.injEq]
  | none, some us => by simp [sameAlternatives]
  | some ts, none => by simp [sameAlternatives]

theorem sameList_iff : (ts us : List TypeExpr) → (sameList ts us = true ↔ ts = us)
  | [], [] => by simp [sameList]
  | t :: ts, u :: us => by
    rw [sameList, Bool.and_eq_true, TypeExpr.same_iff t u, sameList_iff ts us, List.cons.injEq]
  | [], u :: us => by simp [sameList]
  | t :: ts, [] => by simp [sameList]

end

theorem TypeExpr.beq_iff {t u : TypeExpr} : (t == u) = true ↔ t = u := TypeExpr.same_iff t u

/-- Where a default comes from other than a literal. -/
structure DefaultSources where
  /-- Environment variables, the first that is set being used. -/
  environment : List String := []
deriving BEq, Inhabited

/-- A property of an object, a resource, a function or the configuration. -/
structure PropertyEntry where
  type : TypeExpr := {}
  description : Option String := none
  constant : Option Json.Value := none
  default : Option Json.Value := none
  defaultSources : Option DefaultSources := none
  deprecation : Option String := none
  secret : Bool := false
  /-- Settings for the target languages. -/
  language : Dictionary String Json.Value := .empty
deriving Inhabited

structure ObjectEntry where
  description : Option String := none
  /-- `object`, or the primitive of an enum or an alias. -/
  typeName : Option String := none
  properties : Dictionary String PropertyEntry := .empty
  required : List String := []
deriving Inhabited

/-- An element of an enum. -/
structure EnumEntry where
  /-- The name, when it is not to be made from the value. -/
  name : Option String := none
  description : Option String := none
  value : Json.Value := .null
  deprecation : Option String := none
deriving Inhabited

/-- A named type: an object, an alias of a primitive, or an enum when elements are given. -/
structure TypeEntry where
  object : ObjectEntry := {}
  elements : Option (List EnumEntry) := none
deriving Inhabited

/-- A former identity of a resource. -/
structure AliasEntry where
  name : Option String := none
  project : Option String := none
  typeToken : Option String := none
deriving DecidableEq, Inhabited

/-- A resource. The properties of its object are what it puts out. -/
structure ResourceEntry where
  object : ObjectEntry := {}
  inputs : Dictionary String PropertyEntry := .empty
  requiredInputs : List String := []
  /-- What may be given to look an existing resource up. -/
  state : Option ObjectEntry := none
  aliases : List AliasEntry := []
  deprecation : Option String := none
  isComponent : Bool := false
deriving Inhabited

/-- A function that is called on the provider. -/
structure FunctionEntry where
  description : Option String := none
  inputs : Option ObjectEntry := none
  outputs : Option ObjectEntry := none
  deprecation : Option String := none
deriving Inhabited

structure ConfigSection where
  properties : Dictionary String PropertyEntry := .empty
  required : List String := []
deriving Inhabited

def ConfigSection.isEmpty (c : ConfigSection) : Bool :=
  c.properties.isEmpty && c.required.isEmpty

structure PackageDocument where
  name : String := ""
  version : Option String := none
  description : Option String := none
  homepage : Option String := none
  repository : Option String := none
  license : Option String := none
  publisher : Option String := none
  pluginDownloadUrl : Option String := none
  config : ConfigSection := {}
  types : Dictionary String TypeEntry := .empty
  provider : Option ResourceEntry := none
  resources : Dictionary String ResourceEntry := .empty
  functions : Dictionary String FunctionEntry := .empty
  language : Dictionary String Json.Value := .empty
deriving Inhabited

end SchemaToJava.Schema
