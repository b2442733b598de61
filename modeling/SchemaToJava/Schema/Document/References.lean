import SchemaToJava.Schema.Document

/-!
The types that a document mentions, outermost first, and the change of every reference in it. Both
go through the same places: the configuration, the named types, the provider, the resources and
the functions.
-/
namespace SchemaToJava.Schema

mutual

/-- A type and the types inside it. -/
def TypeExpr.withParts : TypeExpr → List TypeExpr
  | ⟨typeName, reference, items, additional, oneOf, plain⟩ =>
    ⟨typeName, reference, items, additional, oneOf, plain⟩ ::
      (optionParts items ++ optionParts additional ++ alternativeParts oneOf)

def optionParts : Option TypeExpr → List TypeExpr
  | none => []
  | some t => t.withParts

def alternativeParts : Option (List TypeExpr) → List TypeExpr
  | none => []
  | some ts => listParts ts

def listParts : List TypeExpr → List TypeExpr
  | [] => []
  | t :: ts => t.withParts ++ listParts ts

end

mutual

def TypeExpr.mapReferences (f : String → String) : TypeExpr → TypeExpr
  | ⟨typeName, reference, items, additional, oneOf, plain⟩ =>
    ⟨typeName, reference.map f, optionMapReferences f items, optionMapReferences f additional,
      alternativesMapReferences f oneOf, plain⟩

def optionMapReferences (f : String → String) : Option TypeExpr → Option TypeExpr
  | none => none
  | some t => some (t.mapReferences f)

def alternativesMapReferences (f : String → String) :
    Option (List TypeExpr) → Option (List TypeExpr)
  | none => none
  | some ts => some (listMapReferences f ts)

def listMapReferences (f : String → String) : List TypeExpr → List TypeExpr
  | [] => []
  | t :: ts => t.mapReferences f :: listMapReferences f ts

end

abbrev Properties := Dictionary String PropertyEntry

def Properties.typeExprs (ps : Properties) : List TypeExpr :=
  ps.values.flatMap fun p => p.type.withParts

def Properties.mapReferences (f : String → String) (ps : Properties) : Properties :=
  ps.mapValues fun p => { p with type := p.type.mapReferences f }

def ObjectEntry.mapReferences (f : String → String) (o : ObjectEntry) : ObjectEntry :=
  { o with properties := Properties.mapReferences f o.properties }

def ResourceEntry.typeExprs (r : ResourceEntry) : List TypeExpr :=
  Properties.typeExprs r.object.properties ++ Properties.typeExprs r.inputs ++
    (r.state.map fun s => Properties.typeExprs s.properties).getD []

def ResourceEntry.mapReferences (f : String → String) (r : ResourceEntry) : ResourceEntry :=
  { r with
    object := r.object.mapReferences f
    inputs := Properties.mapReferences f r.inputs
    state := r.state.map (ObjectEntry.mapReferences f) }

def FunctionEntry.typeExprs (fn : FunctionEntry) : List TypeExpr :=
  (fn.inputs.map fun o => Properties.typeExprs o.properties).getD [] ++
    (fn.outputs.map fun o => Properties.typeExprs o.properties).getD []

def FunctionEntry.mapReferences (f : String → String) (fn : FunctionEntry) : FunctionEntry :=
  { fn with
    inputs := fn.inputs.map (ObjectEntry.mapReferences f)
    outputs := fn.outputs.map (ObjectEntry.mapReferences f) }

def TypeEntry.mapReferences (f : String → String) (t : TypeEntry) : TypeEntry :=
  { t with object := t.object.mapReferences f }

def PackageDocument.typeExprs (d : PackageDocument) : List TypeExpr :=
  Properties.typeExprs d.config.properties ++
    d.types.values.flatMap (fun t => Properties.typeExprs t.object.properties) ++
    (d.provider.map ResourceEntry.typeExprs).getD [] ++
    d.resources.values.flatMap ResourceEntry.typeExprs ++
    d.functions.values.flatMap FunctionEntry.typeExprs

def PackageDocument.mapReferences (f : String → String) (d : PackageDocument) : PackageDocument :=
  { d with
    config := { d.config with properties := Properties.mapReferences f d.config.properties }
    types := d.types.mapValues (TypeEntry.mapReferences f)
    provider := d.provider.map (ResourceEntry.mapReferences f)
    resources := d.resources.mapValues (ResourceEntry.mapReferences f)
    functions := d.functions.mapValues (FunctionEntry.mapReferences f) }

end SchemaToJava.Schema
