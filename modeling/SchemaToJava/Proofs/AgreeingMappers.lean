import SchemaToJava.Java.Generation

/-!
Mappers of two packages that agree on what a class can depend on: the settings and the options, the
names of the packages, which tokens name their object types and enums, and the literals of the
enums. Such mappers give every type the same Java type, and the class of each member is written
alike whichever of the two is used.
-/
namespace SchemaToJava.Java

open Package

/-- Nothing that a class depends on differs between two mappers. -/
structure TypeMapper.Agrees (m m' : TypeMapper) : Prop where
  settings : m'.settings = m.settings
  options : m'.options = m.options
  name : m'.package.name = m.package.name
  version : m'.package.version = m.package.version
  download : m'.package.pluginDownloadUrl = m.package.pluginDownloadUrl
  object_isSome : ∀ token, (m'.package.object? token).isSome = (m.package.object? token).isSome
  enum_isNone : ∀ token, (m'.package.enum? token).isNone = (m.package.enum? token).isNone
  enumLiteral : ∀ name, (m'.enumByClass? name).map DefaultExpression.enumLiteral =
    (m.enumByClass? name).map DefaultExpression.enumLiteral

variable {m m' : TypeMapper} (h : m.Agrees m')
include h

namespace TypeMapper.Agrees

theorem root_eq : m'.root = m.root := by
  unfold root
  rw [h.options, h.name]

theorem moduleOfToken_eq : m'.moduleOfToken = m.moduleOfToken := by
  funext t
  unfold moduleOfToken optionsOf
  rw [h.options, h.settings, h.name]

theorem modulePackage_eq : m'.modulePackage = m.modulePackage := by
  funext token
  unfold modulePackage
  rw [h.moduleOfToken_eq]

theorem objectClass_eq : m'.objectClass = m.objectClass := by
  funext key direction
  unfold objectClass
  rw [h.moduleOfToken_eq]

theorem enumClass_eq : m'.enumClass = m.enumClass := by
  funext token
  unfold enumClass
  rw [h.moduleOfToken_eq]

theorem resourceClass_eq : m'.resourceClass = m.resourceClass := by
  funext token
  unfold resourceClass optionsOf
  rw [h.moduleOfToken_eq, h.options, h.settings, h.name]

theorem objectShape_eq : m'.objectShape = m.objectShape := by
  funext o key
  unfold objectShape owns
  simp only [h.objectClass_eq, h.name, h.object_isSome]

theorem enumShape_eq : m'.enumShape = m.enumShape := by
  funext token
  unfold enumShape owns
  simp only [h.enumClass_eq, h.name, h.enum_isNone]

omit h

mutual

/-- Agreeing mappers map every type alike. -/
theorem shape_eq (h : m.Agrees m') (o : ShapeOptions) (wrapped : Bool) :
    (t : ResolvedType) → m'.shape o wrapped t = m.shape o wrapped t
  | .input t => by
    unfold shape
    rw [shape_eq h o wrapped t, shape_eq h _ true t]
  | .optional t => by
    unfold shape
    rw [shape_eq h o wrapped t]
  | .array t => by
    unfold shape
    rw [shape_eq h _ wrapped t]
  | .map t => by
    unfold shape
    rw [shape_eq h _ wrapped t]
  | .object key => by
    unfold shape
    rw [h.objectShape_eq]
  | .enum token _ => by
    unfold shape
    rw [h.enumShape_eq]
  | .resource token => by
    unfold shape
    rw [h.resourceClass_eq]
  | .named _ t => by
    unfold shape
    exact shape_eq h o wrapped t
  | .union ts => by
    unfold shape
    rw [shapes_eq h _ wrapped ts]
  | .primitive p => by
    unfold shape
    rfl

theorem shapes_eq (h : m.Agrees m') (o : ShapeOptions) (wrapped : Bool) :
    (ts : List ResolvedType) → m'.shapes o wrapped ts = m.shapes o wrapped ts
  | [] => by
    unfold shapes
    rfl
  | t :: ts => by
    unfold shapes
    rw [shape_eq h o wrapped t, shapes_eq h o wrapped ts]

end

include h

theorem typeShape_eq : m'.typeShape = m.typeShape := by
  funext t o
  unfold typeShape
  rw [h.shape_eq]

end TypeMapper.Agrees

theorem Drafting.shape_congr : Drafting.shape m' = Drafting.shape m := by
  funext t o
  unfold Drafting.shape
  rw [h.typeShape_eq]

theorem Field.ofProperty_congr : Field.ofProperty m' = Field.ofProperty m := by
  funext o p
  unfold Field.ofProperty
  rw [Drafting.shape_congr h]

namespace DefaultExpression

theorem scalarLiteral_congr : scalarLiteral m' = scalarLiteral m := by
  funext property type value
  unfold scalarLiteral
  have hliteral := h.enumLiteral type.base
  cases hfound : m.enumByClass? type.base with
  | none =>
    rw [hfound, Option.map_none, Option.map_eq_none_iff] at hliteral
    rw [hliteral]
  | some e =>
    rw [hfound, Option.map_some, Option.map_eq_some_iff] at hliteral
    obtain ⟨e', hfound', heq⟩ := hliteral
    rw [hfound']
    simp only [heq]

theorem resolve_congr : resolve m' = resolve m := by
  funext property type value
  unfold resolve
  rw [scalarLiteral_congr h]

theorem literal_congr : literal m' = literal m := by
  funext property type value
  unfold literal
  rw [resolve_congr h]

theorem value_congr : value m' = value m := by
  funext p target source
  unfold value resolvingExpression
  rw [resolve_congr h]

end DefaultExpression

theorem EnumClass.emit_congr : EnumClass.emit m' = EnumClass.emit m := by
  funext e
  unfold emit
  rw [h.enumClass_eq, h.settings]

namespace Utilities

theorem folder_congr : folder m' = folder m := by
  unfold folder
  rw [h.root_eq]

theorem version_congr : version m' = version m := by
  unfold version
  rw [h.version]

theorem emit_congr : emit m' = emit m := by
  unfold emit text
  rw [h.root_eq, h.settings, h.download, folder_congr h]

theorem bundled_congr : bundled m' = bundled m := by
  unfold bundled pluginText
  rw [folder_congr h, version_congr h, h.name, h.download]

end Utilities

theorem ConfigClass.getter_congr : getter m' = getter m := by
  funext p
  unfold getter
  rw [Field.ofProperty_congr h, DefaultExpression.value_congr h]

theorem ConfigClass.emit_congr (hconfig : m'.package.config = m.package.config) :
    emit m' = emit m := by
  unfold emit text
  rw [getter_congr h, h.root_eq, h.settings, h.name, hconfig]

theorem InputClass.emit_congr (c : InputClass) : c.emit m' = c.emit m := by
  have hassignment : assignment m' = assignment m := by
    funext f
    unfold assignment
    rw [DefaultExpression.value_congr h]
  unfold emit text fields fieldsConstructor
  rw [Field.ofProperty_congr h, hassignment, h.settings]

theorem OutputClass.emit_congr (c : OutputClass) : c.emit m' = c.emit m := by
  unfold emit text fields
  rw [Field.ofProperty_congr h, h.settings]

namespace ResourceClass

theorem ofResource_congr : ofResource m' = ofResource m := by
  funext r
  unfold ofResource
  rw [h.resourceClass_eq, h.modulePackage_eq]

theorem constantSetters_congr : constantSetters m' = constantSetters m := by
  have hsetter : constantSetter m' = constantSetter m := by
    funext p value
    unfold constantSetter
    rw [Drafting.shape_congr h, DefaultExpression.literal_congr h]
  funext properties
  induction properties with
  | nil => rfl
  | cons p rest ih =>
    unfold constantSetters
    rw [hsetter, ih]

theorem text_congr : text m' = text m := by
  have houtput : outputText m' = outputText m := by
    funext p
    unfold outputText
    rw [Field.ofProperty_congr h]
  have harguments : makeArguments m' = makeArguments m := by
    funext c
    unfold makeArguments
    rw [constantSetters_congr h]
  have hoptions : makeOptions m' = makeOptions m := by
    funext c
    unfold makeOptions
    rw [h.root_eq, h.download]
  funext c
  unfold text
  rw [houtput, harguments, hoptions]

theorem emit_congr : emit m' = emit m := by
  funext r
  unfold emit
  simp only [ofResource_congr h, text_congr h, InputClass.emit_congr h, h.settings]

end ResourceClass

namespace FunctionsClass

theorem signature_congr : signature m' = signature m := by
  funext f
  unfold signature
  rw [h.moduleOfToken_eq]

theorem argumentFiles_congr : argumentFiles m' = argumentFiles m := by
  funext s
  unfold argumentFiles
  simp only [InputClass.emit_congr h, OutputClass.emit_congr h]

theorem text_congr : text m' = text m := by
  funext name signatures
  unfold text overloads
  rw [h.root_eq]

theorem emit_congr : emit m' = emit m := by
  funext name functions
  unfold emit
  rw [signature_congr h, text_congr h, argumentFiles_congr h, h.settings]

theorem group_congr : group m' = group m := by
  funext functions
  unfold group className
  rw [h.moduleOfToken_eq]

end FunctionsClass

end SchemaToJava.Java
