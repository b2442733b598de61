import SchemaToJava.Java.ConfigClass
import SchemaToJava.Java.InputClass
import SchemaToJava.Java.OutputClass
import SchemaToJava.Proofs.Discovery
import SchemaToJava.Proofs.FieldTypes

/-!
How optional properties come out in Java. A required property is mapped to a type that can neither
be missing nor optional. Otherwise an optional type stands around it, which a class replaces by a
mark at the root, and which a getter of the configuration keeps.
-/
namespace SchemaToJava.Java

open Package Outcome TypeMapper

/-- The root of the type stands for a value that is there, and that is known if nothing is an
input. -/
structure IsBare (known : Prop) (s : TypeShape) : Prop where
  isNullable : s.isNullable = false
  optional : s.base ≠ Library.optional
  output : known → s.base ≠ Library.output

section IsBare

variable {known : Prop} {s : TypeShape}

theorem IsBare.imp {known' : Prop} (h : IsBare known s) (himp : known' → known) :
    IsBare known' s :=
  ⟨h.isNullable, h.optional, fun hk => h.output (himp hk)⟩

theorem isBare_ofClass {base : QualifiedName} (h : base ∉ Library.generics) :
    IsBare known (.ofClass base) := by
  obtain ⟨hoptional, houtput, -⟩ := TypeShape.ne_of_notMem_generics h
  exact ⟨rfl, hoptional, fun _ => houtput⟩

theorem isBare_primitiveShape (p : Primitive) : IsBare known (primitiveShape p) := by
  cases p <;> exact isBare_ofClass (by decide)

/-- A comment is no annotation. -/
theorem isNullable_comment (text : String) :
    (TypeShape.object.annotated ("/* " ++ text ++ " */")).isNullable = false := by
  have hne : TypeShape.nullableMark ≠ "/* " ++ text ++ " */" := by
    intro heq
    have hchars := congrArg String.toList heq
    rw [String.toList_append, String.toList_append] at hchars
    cases (List.cons.inj hchars).1
  simpa [TypeShape.isNullable, TypeShape.annotated, TypeShape.object, TypeShape.ofClass] using hne

/-- An output is bare, as long as its value need not be known. -/
theorem isBare_output (h : IsBare known s) (hknown : ¬ known) : IsBare known s.output := by
  unfold TypeShape.output
  split
  · exact h
  · exact ⟨rfl, (by decide : Library.output ≠ Library.optional), fun hk => absurd hk hknown⟩

/-- A union of bare types is bare. -/
theorem isBare_unionShape {shapes : List TypeShape} (h : ∀ s ∈ shapes, IsBare known s) :
    IsBare known (unionShape shapes) := by
  have hmem := (distinctShapes_spec shapes).1
  unfold unionShape
  split
  · exact isBare_ofClass (by decide)
  · next s hs => exact h s (hmem s (by simp [hs]))
  · refine ⟨rfl, ?_, fun _ => ?_⟩
    · exact (by decide : Library.either ≠ Library.optional)
    · exact (by decide : Library.either ≠ Library.output)
  · refine ⟨isNullable_comment _, ?_, fun _ => ?_⟩
    · rw [TypeShape.base_annotated]
      exact (by decide : Library.object ≠ Library.optional)
    · rw [TypeShape.base_annotated]
      exact (by decide : Library.object ≠ Library.output)

end IsBare

variable {m : TypeMapper}

/-- A type in which nothing is optional is mapped to one whose root is bare. -/
theorem isBare_shape {o : ShapeOptions} {wrapped : Bool} {t : ResolvedType} {mapped : Mapped}
    (h : m.shape o wrapped t = .ok mapped) (hk : m.KeepsApart t)
    (hopt : ∀ u, ¬ (ResolvedType.optional u).IsNode t) :
    IsBare (∀ u, ¬ (ResolvedType.input u).IsNode t) mapped.shape := by
  replace h := maps_of_shape h
  induction h with
  | known _ _ ih =>
    have hbare := ih (fun token ht => hk token (.input ht)) fun u hu => hopt u (.input hu)
    exact hbare.imp fun hknown u hu => hknown u (.input hu)
  | later _ _ ih =>
    have hbare := ih (fun token ht => hk token (.input ht)) fun u hu => hopt u (.input hu)
    exact isBare_output (hbare.imp fun hknown u hu => hknown u (.input hu))
      fun hknown => hknown _ .root
  | optional => exact absurd .root (hopt _)
  | array =>
    exact ⟨rfl, (by decide : Library.list ≠ Library.optional),
      fun _ => (by decide : Library.list ≠ Library.output)⟩
  | map =>
    exact ⟨rfl, (by decide : Library.map ≠ Library.optional),
      fun _ => (by decide : Library.map ≠ Library.output)⟩
  | object h =>
    obtain ⟨base, hbase, hshape⟩ := base_objectShape h
    exact hshape ▸ isBare_ofClass hbase
  | enum h =>
    obtain ⟨base, hbase, hshape⟩ := base_enumShape h
    exact hshape ▸ isBare_ofClass hbase
  | resource h => exact isBare_ofClass (hk _ .root _ h)
  | named _ ih =>
    have hbare := ih (fun token ht => hk token (.named ht)) fun u hu => hopt u (.named hu)
    exact hbare.imp fun hknown u hu => hknown u (.named hu)
  | widened | primitive => exact isBare_primitiveShape _
  | union _ hlength _ ih =>
    refine isBare_unionShape (List.forall_mem_map.2 fun alternative hmem => ?_)
    obtain ⟨t, ht, hpair⟩ := exists_mem_zip hlength hmem
    have hbare := ih hpair (fun token hn => hk token (.union ht hn))
      fun u hu => hopt u (.union ht hu)
    exact hbare.imp fun hknown u hu => hknown u (.union ht hu)

section Root

variable {known : Prop} {s : TypeShape}

theorem isNullable_nullable (s : TypeShape) : s.nullable.isNullable = true := by
  unfold TypeShape.nullable TypeShape.annotated
  split
  · next h => exact h
  · simp [TypeShape.isNullable]

theorem nullableRoot_eq_self (h : s.base ≠ Library.optional) : nullableRoot s = s := by
  unfold nullableRoot
  split
  · next inner hinner => exact absurd (optional?_eq_some.1 hinner).1 h
  · rfl

theorem IsBare.optional_eq (h : IsBare known s) :
    s.optional = { base := Library.optional, parameters := [s] } := by
  rw [TypeShape.optional, if_neg]
  exact fun his => h.optional (TypeShape.is_eq_true_iff.1 his)

theorem IsBare.base_nullable_ne (h : IsBare known s) : s.nullable.base ≠ Library.optional := by
  rw [TypeShape.nullable, TypeShape.base_annotated]
  exact h.optional

/-- Where no optional type may stand at the root, a mark stands for it. -/
theorem IsBare.marked (h : IsBare known s) (o : ShapeOptions) :
    nullableRoot (optionalShape o s) = s.nullable := by
  unfold optionalShape
  dsimp only
  split
  · exact nullableRoot_eq_self h.base_nullable_ne
  · rw [h.optional_eq, nullableRoot, optional?_eq_some.2 ⟨rfl, rfl⟩]
    rfl

/-- A type that is known is optional at its root where collections need initializers. -/
theorem IsBare.kept (h : IsBare known s) (hknown : known) {o : ShapeOptions}
    (hinit : o.requireInitializers = true) :
    optionalShape o s = { base := Library.optional, parameters := [s] } := by
  have houtput : s.is Library.output = false :=
    Bool.eq_false_iff.2 fun his => h.output hknown (TypeShape.is_eq_true_iff.1 his)
  rw [← h.optional_eq]
  simp [optionalShape, houtput, hinit]

end Root

section Mapped

variable {o : ShapeOptions} {t u : ResolvedType} {required : Bool} {mapped : Mapped}

theorem shape_eq_ok (h : m.shape o false (if required then t else .optional t) = .ok mapped) :
    ∃ inner, m.shape o false t = .ok inner ∧
      mapped.shape = if required then inner.shape else optionalShape o inner.shape := by
  cases required with
  | true => exact ⟨mapped, h, rfl⟩
  | false =>
    rw [if_neg (by simp), shape] at h
    obtain ⟨inner, hinner, h⟩ := bind_eq_ok.1 h
    obtain rfl := pure_eq_ok.1 h
    exact ⟨inner, hinner, rfl⟩

/-- Without an optional root, an optional type is one that is marked as nullable. -/
theorem exists_inner_of_typeShape (h : m.typeShape u o = .ok mapped)
    (houter : o.outerOptional = false)
    (htype : o.typeOf u = if required then t else .optional t) (hk : m.KeepsApart t)
    (hopt : ∀ v, ¬ (ResolvedType.optional v).IsNode t) :
    ∃ inner, m.shape o false t = .ok inner ∧
      IsBare (∀ v, ¬ (ResolvedType.input v).IsNode t) inner.shape ∧
      mapped.shape = if required then inner.shape else inner.shape.nullable := by
  unfold typeShape at h
  obtain ⟨whole, hwhole, h⟩ := bind_eq_ok.1 h
  obtain rfl := pure_eq_ok.1 h
  change m.shape o false (o.typeOf u) = _ at hwhole
  rw [htype] at hwhole
  obtain ⟨inner, hinner, hshape⟩ := shape_eq_ok hwhole
  have hbare := isBare_shape hinner hk hopt
  refine ⟨inner, hinner, hbare, ?_⟩
  simp only [houter, Bool.false_eq_true, if_false, hshape]
  cases required with
  | true => exact nullableRoot_eq_self hbare.optional
  | false => exact hbare.marked o

theorem marks_of_typeShape (h : m.typeShape u o = .ok mapped) (houter : o.outerOptional = false)
    (htype : o.typeOf u = if required then t else .optional t) (hk : m.KeepsApart t)
    (hopt : ∀ v, ¬ (ResolvedType.optional v).IsNode t) :
    mapped.shape.base ≠ Library.optional ∧ mapped.shape.isNullable = !required := by
  obtain ⟨inner, -, hbare, hshape⟩ := exists_inner_of_typeShape h houter htype hk hopt
  rw [hshape]
  cases required with
  | true => exact ⟨hbare.optional, hbare.isNullable⟩
  | false => exact ⟨hbare.base_nullable_ne, isNullable_nullable inner.shape⟩

/-- With an optional root, a type that is known is optional there exactly if it is optional. -/
theorem keeps_of_typeShape (h : m.typeShape u o = .ok mapped) (houter : o.outerOptional = true)
    (hinit : o.requireInitializers = true)
    (htype : o.typeOf u = if required then t else .optional t) (hk : m.KeepsApart t)
    (hopt : ∀ v, ¬ (ResolvedType.optional v).IsNode t)
    (hin : ∀ v, ¬ (ResolvedType.input v).IsNode t) :
    mapped.shape.isNullable = false ∧ (mapped.shape.base = Library.optional ↔ required = false) := by
  unfold typeShape at h
  obtain ⟨whole, hwhole, h⟩ := bind_eq_ok.1 h
  obtain rfl := pure_eq_ok.1 h
  change m.shape o false (o.typeOf u) = _ at hwhole
  rw [htype] at hwhole
  obtain ⟨inner, hinner, hshape⟩ := shape_eq_ok hwhole
  have hbare := isBare_shape hinner hk hopt
  simp only [houter, if_true, hshape]
  cases required with
  | true =>
    rw [if_pos rfl]
    exact ⟨hbare.isNullable, by simp [hbare.optional]⟩
  | false =>
    rw [if_neg (by simp), hbare.kept hin hinit]
    exact ⟨rfl, by simp⟩

end Mapped

section Fields

variable {p : Property} {o : ShapeOptions}

/-- The expression of a variable ends as it has to for its property. -/
theorem canGive_value {target : TypeShape} {name expression : String}
    (h : CanGive (DefaultExpression.value m p target (.config name)) expression) :
    ∃ front, expression = front ++ DefaultExpression.finalCall (.config name) p.required := by
  change CanGive (DefaultExpression.resolvingExpression m p target (.config name)) _ at h
  unfold DefaultExpression.resolvingExpression at h
  obtain ⟨literal, -, h⟩ := canGive_bind h
  obtain ⟨call, -, h⟩ := canGive_bind h
  obtain rfl := canGive_pure h
  exact ⟨_, rfl⟩

theorem get_ne_require (front other : String) : front ++ ".get()" ≠ other ++ ".require()" := by
  intro heq
  have hchars := congrArg (fun text => text.toList.reverse) heq
  simp [String.toList_append] at hchars

/-- The expression ends in a call that gives an optional value. -/
def EndsInGet (expression : String) : Prop := ∃ front, expression = front ++ ".get()"

/-- The expression ends in a call that fails without a value. -/
def EndsInRequire (expression : String) : Prop := ∃ front, expression = front ++ ".require()"

theorem ends_iff {front name expression : String} {required : Bool}
    (h : expression = front ++ DefaultExpression.finalCall (.config name) required) :
    (EndsInGet expression ↔ required = false) ∧ (EndsInRequire expression ↔ required = true) := by
  cases required with
  | true =>
    refine ⟨iff_of_false ?_ (by simp), iff_of_true ⟨front, h⟩ rfl⟩
    rintro ⟨other, hother⟩
    exact get_ne_require other front (hother.symm.trans h)
  | false =>
    refine ⟨iff_of_true ⟨front, h⟩ rfl, iff_of_false ?_ (by simp)⟩
    rintro ⟨other, hother⟩
    exact get_ne_require front other (h.symm.trans hother)

end Fields

/-- The type of the field is not optional at its root, and is marked as nullable exactly if the
property is not required. -/
structure MarksOption (f : Field) : Prop where
  base_ne : f.shape.base ≠ Library.optional
  isNullable_iff : f.shape.isNullable = true ↔ f.property.required = false

/-- The type of a getter is never nullable; it is optional at its root exactly if the property is
not required, and then the expression of the getter ends accordingly. -/
structure KeepsOption (m : TypeMapper) (f : Field) : Prop where
  isNullable : f.shape.isNullable = false
  base_iff : f.shape.base = Library.optional ↔ f.property.required = false
  get_iff : ∀ expression,
    CanGive (DefaultExpression.value m f.property f.shape (.config "config")) expression →
      (EndsInGet expression ↔ f.shape.base = Library.optional) ∧
        (EndsInRequire expression ↔ f.shape.base ≠ Library.optional)

/-- Wherever a property has a field, what is optional about the field agrees with whether the
property is required. -/
structure AgreesWithRequired (m : TypeMapper) (p : Property) : Prop where
  output : ∀ (c : OutputClass) fields, CanGive (c.fields m) fields →
    ∀ f ∈ fields, f.property = p → MarksOption f
  input : ∀ (c : InputClass) fields, c.inputless = false → CanGive (c.fields m) fields →
    ∀ f ∈ fields, f.property = p.asInput → MarksOption f
  plainInput : ∀ (c : InputClass) fields, c.inputless = true → CanGive (c.fields m) fields →
    ∀ f ∈ fields, f.property = p ∨ f.property = p.asInput → MarksOption f
  getter : ∀ f, CanGive (Field.ofProperty m ConfigClass.shapeOptions p) f → KeepsOption m f

section Property

variable {p : Property} {t : ResolvedType}

theorem keepsApart_of_hasType (ht : HasType m.package p t) (hk : m.KeepsApart p.type) :
    m.KeepsApart t := by
  intro token hn
  refine hk token ?_
  rw [ht.type_eq]
  split
  · exact hn
  · exact .optional hn

/-- A field marks what is optional if its type is mapped from one in which nothing else is. -/
theorem marksOption_of_typeShape {f : Field} {o : ShapeOptions} {mapped : Mapped}
    (h : m.typeShape f.property.type o = .ok mapped) (hshape : mapped.shape = f.shape)
    (houter : o.outerOptional = false)
    (htype : o.typeOf f.property.type = if f.property.required then t else .optional t)
    (hk : m.KeepsApart t) (hopt : ∀ v, ¬ (ResolvedType.optional v).IsNode t) : MarksOption f := by
  obtain ⟨hbase, hnullable⟩ := marks_of_typeShape h houter htype hk hopt
  rw [hshape] at hbase hnullable
  exact ⟨hbase, by rw [hnullable, Bool.not_eq_true']⟩

/-- The type of an input tells whether the property is optional. -/
theorem marksOption_of_asInput {f : Field} {mapped : Mapped} (ht : HasType m.package p t)
    (hk : m.KeepsApart t) (hfp : f.property = p.asInput)
    (h : m.typeShape f.property.type { input := true } = .ok mapped)
    (hshape : mapped.shape = f.shape) : MarksOption f := by
  have htype : f.property.type = if f.property.required
      then (if p.plain then t else t.inputShape)
      else .optional (if p.plain then t else t.inputShape) := by
    rw [hfp]
    exact ht.inputType_eq
  refine marksOption_of_typeShape h hshape rfl htype ?_ ?_
  · split
    · exact hk
    · exact fun token hn => hk token (ht.isNormal.resource_inputShape hn)
  · split
    · exact ht.isNormal.optional
    · exact ht.isNormal.optional_inputShape

theorem marksOption_of_plain {f : Field} {mapped : Mapped} (ht : HasType m.package p t)
    (hk : m.KeepsApart t) (hfp : f.property = p ∨ f.property = p.asInput)
    (h : m.typeShape f.property.type { input := true, inputless := true } = .ok mapped)
    (hshape : mapped.shape = f.shape) : MarksOption f := by
  have htype : f.property.type.plainShape =
      if f.property.required then t else .optional t := by
    rcases hfp with hfp | hfp
    · rw [hfp, ht.plainShape_eq.1]
      exact ht.type_eq
    · rw [hfp]
      exact ht.plainShape_eq.2.trans ht.type_eq
  exact marksOption_of_typeShape h hshape rfl htype hk ht.isNormal.optional

end Property

/-- In every class, the fields of a bound package's properties agree with what is required. -/
theorem agreesWithRequired_of_bind {d : Schema.PackageDocument} (hbind : d.bind = .ok m.package)
    {p : Property} (hp : p ∈ m.package.allProperties) (hk : m.KeepsApart p.type) :
    AgreesWithRequired m p := by
  obtain ⟨t, ht⟩ := exists_hasType (isBound_of_bind hbind) hp
  have hbody := keepsApart_of_hasType ht hk
  refine ⟨fun c fields hc f hf hfp => ?_, fun c fields hin hc f hf hfp => ?_,
    fun c fields hin hc f hf hfp => ?_, fun f hf => ?_⟩
  · obtain ⟨mapped, h, hshape⟩ := canGive_fields hc hf
    subst hfp
    exact marksOption_of_typeShape h hshape rfl ht.type_eq hbody ht.isNormal.optional
  · obtain ⟨mapped, h, hshape⟩ := canGive_fields hc hf
    rw [hin] at h
    exact marksOption_of_asInput ht hbody hfp h hshape
  · obtain ⟨mapped, h, hshape⟩ := canGive_fields hc hf
    rw [hin] at h
    exact marksOption_of_plain ht hbody hfp h hshape
  · obtain ⟨rfl, mapped, h, hshape⟩ := canGive_ofProperty hf
    obtain ⟨hnullable, hbase⟩ :=
      keeps_of_typeShape h rfl rfl ht.type_eq hbody ht.isNormal.optional ht.isNormal.input
    rw [hshape] at hnullable hbase
    refine ⟨hnullable, hbase, fun expression hexpression => ?_⟩
    obtain ⟨front, hfront⟩ := canGive_value hexpression
    obtain ⟨hget, hrequire⟩ := ends_iff hfront
    rw [hget, hrequire, ne_eq, hbase, Bool.not_eq_false]
    exact ⟨Iff.rfl, Iff.rfl⟩

/-- A list that may be missing, as it comes out in each class and in the getter. -/
theorem agreesWithRequired_of_bind_of_list :
    let d : Schema.PackageDocument := {
      name := "p"
      config := { properties := .ofList [("x",
        { type := { typeName := "array", items := some { typeName := "integer" } } })] } }
    ∃ m : TypeMapper, d.bind = .ok m.package ∧ ∃ p ∈ m.package.allProperties,
      m.KeepsApart p.type ∧
      (m.typeShape p.type {}).toOption.map (·.shape.qualifiedText) =
        some "@javax.annotation.Nullable java.util.List<java.lang.Integer>" ∧
      (m.typeShape p.inputType { input := true }).toOption.map (·.shape.qualifiedText) =
        some ("@javax.annotation.Nullable " ++
          "com.pulumi.core.Output<java.util.List<java.lang.Integer>>") ∧
      (m.typeShape p.type ConfigClass.shapeOptions).toOption.map (·.shape.qualifiedText) =
        some "java.util.Optional<java.util.List<java.lang.Integer>>" ∧
      AgreesWithRequired m p := by
  intro d
  have hbound : d.bind.toOption.map (fun package => package.allProperties.map fun p =>
      let m : TypeMapper := ⟨package, {}, {}⟩
      ((m.typeShape p.type {}).toOption.map (·.shape.qualifiedText),
        (m.typeShape p.inputType { input := true }).toOption.map (·.shape.qualifiedText),
        (m.typeShape p.type ConfigClass.shapeOptions).toOption.map (·.shape.qualifiedText))) =
      some [(some "@javax.annotation.Nullable java.util.List<java.lang.Integer>",
        some ("@javax.annotation.Nullable " ++
          "com.pulumi.core.Output<java.util.List<java.lang.Integer>>"),
        some "java.util.Optional<java.util.List<java.lang.Integer>>")] := by
    decide +kernel
  have hreferences : referencesIn d.typeExprs = [] := by decide +kernel
  obtain ⟨package, hpackage, hmapped⟩ := Option.map_eq_some_iff.1 hbound
  have hbind : d.bind = .ok package := toOption_eq_some.1 hpackage
  obtain ⟨p, hp, htexts⟩ := List.map_eq_singleton_iff.1 hmapped
  obtain ⟨houtput, hrest⟩ := Prod.mk.inj htexts
  obtain ⟨hinput, hgetter⟩ := Prod.mk.inj hrest
  have hmem : p ∈ package.allProperties := by simp [hp]
  have hk : TypeMapper.KeepsApart ⟨package, {}, {}⟩ p.type := by
    intro token hn
    obtain ⟨reference, hwritten, -⟩ :=
      (isBound_of_bind hbind).refersWithin p hmem _ .resource hn
    rw [hreferences] at hwritten
    cases hwritten
  exact ⟨⟨package, {}, {}⟩, hbind, p, hmem, hk, houtput, hinput, hgetter,
    agreesWithRequired_of_bind hbind hmem hk⟩

end SchemaToJava.Java
