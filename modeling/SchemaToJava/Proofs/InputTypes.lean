import SchemaToJava.Proofs.NormalTypes
import SchemaToJava.Proofs.ShapeLaws

/-!
Types in normal form as inputs. Every level of the input shape is an input, which the plain shape
takes away again: where nothing is to be computed later, a property has the type that it is read
with.
-/
namespace SchemaToJava.Package

open ResolvedType

variable {package : Package}

theorem IsNormal.mono {s t : ResolvedType} (h : IsNormal package t)
    (hst : ∀ n : ResolvedType, n.IsNode s → n.IsNode t) : IsNormal package s where
  optional u hu := h.optional u (hst _ hu)
  input u hu := h.input u (hst _ hu)
  object key hkey := h.object key (hst _ hkey)
  enum token p hp := h.enum token p (hst _ hp)
  named token u hu := h.named token u (hst _ hu)

theorem IsNormal.array {t : ResolvedType} (h : IsNormal package (.array t)) : IsNormal package t :=
  h.mono fun _ => .array

theorem IsNormal.map {t : ResolvedType} (h : IsNormal package (.map t)) : IsNormal package t :=
  h.mono fun _ => .map

theorem IsNormal.union {ts : List ResolvedType} (h : IsNormal package (.union ts)) :
    ∀ t ∈ ts, IsNormal package t :=
  fun _ ht => h.mono fun _ => .union ht

/-- The input shape is an input around the whole. -/
theorem IsNormal.inputShape_eq {t : ResolvedType} (h : IsNormal package t) :
    t.inputShape = .input t.inputElement := by
  cases t with
  | optional u => exact absurd .root (h.optional u)
  | input u => exact absurd .root (h.input u)
  | _ => simp [inputShape, inputElement]

mutual

/-- There are no inputs in a type in normal form. -/
theorem IsNormal.isKnown : {t : ResolvedType} → IsNormal package t → t.isKnown = true
  | .array t, h => by rw [ResolvedType.isKnown, h.array.isKnown]
  | .map t, h => by rw [ResolvedType.isKnown, h.map.isKnown]
  | .object key, h => by rw [ResolvedType.isKnown, h.object key .root, Bool.not_false]
  | .union ts, h => by rw [ResolvedType.isKnown, areKnown_of_isNormal h.union]
  | .optional t, h => absurd .root (h.optional t)
  | .input t, h => absurd .root (h.input t)
  | .primitive _, _ | .enum _ _, _ | .resource _, _ | .named _ _, _ => by
    rw [ResolvedType.isKnown]

theorem areKnown_of_isNormal : {ts : List ResolvedType} → (∀ t ∈ ts, IsNormal package t) →
    areKnown ts = true
  | [], _ => by rw [areKnown]
  | t :: ts, h => by
    rw [areKnown, (h t List.mem_cons_self).isKnown,
      areKnown_of_isNormal fun u hu => h u (List.mem_cons_of_mem t hu), Bool.and_self]

end

/-- The type is an input, or the input shape of a part of another type without the input around
it. -/
def IsInputPart (n t : ResolvedType) : Prop :=
  (∃ u, n = .input u) ∨ ∃ s : ResolvedType, s.IsNode t ∧ n = s.inputElement

theorem IsInputPart.mono {n t u : ResolvedType} (h : IsInputPart n t)
    (htu : ∀ s : ResolvedType, s.IsNode t → s.IsNode u) : IsInputPart n u := by
  rcases h with h | ⟨s, hs, rfl⟩
  · exact .inl h
  · exact .inr ⟨s, htu s hs, rfl⟩

mutual

/-- All that stands in an input shape is an input, or comes from the type itself. -/
theorem isInputPart_of_isNode_inputElement {n : ResolvedType} : {t : ResolvedType} →
    IsNormal package t → n.IsNode t.inputElement → IsInputPart n t
  | .primitive p, _, hn => by
    cases hn
    exact .inr ⟨_, .root, rfl⟩
  | .array t, h, hn => by
    rw [inputElement, h.array.inputShape_eq] at hn
    cases hn with
    | root => exact .inr ⟨.array t, .root, by rw [inputElement, h.array.inputShape_eq]⟩
    | array hn =>
      cases hn with
      | root => exact .inl ⟨_, rfl⟩
      | input hn => exact (isInputPart_of_isNode_inputElement h.array hn).mono fun _ => .array
  | .map t, h, hn => by
    rw [inputElement, h.map.inputShape_eq] at hn
    cases hn with
    | root => exact .inr ⟨.map t, .root, by rw [inputElement, h.map.inputShape_eq]⟩
    | map hn =>
      cases hn with
      | root => exact .inl ⟨_, rfl⟩
      | input hn => exact (isInputPart_of_isNode_inputElement h.map hn).mono fun _ => .map
  | .object key, _, hn => by
    cases hn
    exact .inr ⟨.object key, .root, rfl⟩
  | .enum token p, _, hn => by
    cases hn
    exact .inr ⟨.enum token p, .root, rfl⟩
  | .resource token, _, hn => by
    cases hn
    exact .inr ⟨.resource token, .root, rfl⟩
  | .named token t, h, hn => by
    obtain ⟨-, p, rfl⟩ := h.named token t .root
    rw [inputElement] at hn
    cases hn with
    | root => exact .inr ⟨_, .root, rfl⟩
    | named hn =>
      cases hn
      exact .inr ⟨.primitive p, .named .root, rfl⟩
  | .union ts, h, hn => by
    rw [inputElement] at hn
    cases hn with
    | root => exact .inr ⟨.union ts, .root, by rw [inputElement]⟩
    | union hs hn =>
      obtain ⟨t, ht, hpart⟩ := isInputPart_of_isNode_inputElements h.union hs hn
      exact hpart.mono fun _ => .union ht
  | .optional t, h, _ => absurd .root (h.optional t)
  | .input t, h, _ => absurd .root (h.input t)

theorem isInputPart_of_isNode_inputElements {n : ResolvedType} : {ts : List ResolvedType} →
    {s : ResolvedType} → (∀ t ∈ ts, IsNormal package t) → s ∈ inputElements ts → n.IsNode s →
      ∃ t ∈ ts, IsInputPart n t
  | [], s, _, hs, _ => by
    rw [inputElements] at hs
    cases hs
  | t :: ts, s, h, hs, hn => by
    rw [inputElements] at hs
    rcases List.mem_cons.1 hs with rfl | hs
    · exact ⟨t, List.mem_cons_self, isInputPart_of_isNode_inputElement (h t List.mem_cons_self) hn⟩
    · obtain ⟨u, hu, hpart⟩ :=
        isInputPart_of_isNode_inputElements (fun u hu => h u (List.mem_cons_of_mem t hu)) hs hn
      exact ⟨u, List.mem_cons_of_mem t hu, hpart⟩

end

theorem isInputPart_of_isNode_inputShape {n t : ResolvedType} (h : IsNormal package t)
    (hn : n.IsNode t.inputShape) : IsInputPart n t := by
  rw [h.inputShape_eq] at hn
  cases hn with
  | root => exact .inl ⟨_, rfl⟩
  | input hn => exact isInputPart_of_isNode_inputElement h hn

/-- No part of an input shape is optional. -/
theorem IsNormal.optional_inputShape {t : ResolvedType} (h : IsNormal package t)
    (u : ResolvedType) : ¬ (ResolvedType.optional u).IsNode t.inputShape := by
  intro hn
  rcases isInputPart_of_isNode_inputShape h hn with ⟨v, hv⟩ | ⟨s, hs, heq⟩
  · cases hv
  · cases s <;> simp only [inputElement, reduceCtorEq] at heq
    exact h.optional _ hs

/-- The objects of an input shape are those whose properties are inputs. -/
theorem IsNormal.object_inputShape {t : ResolvedType} (h : IsNormal package t) {key : ObjectKey}
    (hn : (ResolvedType.object key).IsNode t.inputShape) : key.inputShape = true := by
  rcases isInputPart_of_isNode_inputShape h hn with ⟨v, hv⟩ | ⟨s, hs, heq⟩
  · cases hv
  · cases s <;> simp only [inputElement, reduceCtorEq] at heq
    cases heq
    rfl

theorem IsNormal.resource_inputShape {t : ResolvedType} (h : IsNormal package t) {token : String}
    (hn : (ResolvedType.resource token).IsNode t.inputShape) :
    (ResolvedType.resource token).IsNode t := by
  rcases isInputPart_of_isNode_inputShape h hn with ⟨v, hv⟩ | ⟨s, hs, heq⟩
  · cases hv
  · cases s <;> simp only [inputElement, reduceCtorEq] at heq
    cases heq
    exact hs

/-- The property has a type, which is in normal form and is optional unless the property is
required. -/
structure HasType (package : Package) (p : Property) (t : ResolvedType) : Prop where
  type_eq : p.type = if p.required then t else .optional t
  isNormal : IsNormal package t

theorem exists_hasType {d : Schema.PackageDocument} (h : IsBound d package) {p : Property}
    (hp : p ∈ package.allProperties) : ∃ t, HasType package p t := by
  obtain ⟨t, htype, hresolved⟩ := exists_resolved h hp
  exact ⟨t, htype, isNormal_of_isResolved hresolved⟩

variable {p : Property} {t : ResolvedType}

theorem HasType.inputType_eq (h : HasType package p t) :
    p.inputType = if p.required then (if p.plain then t else t.inputShape)
      else .optional (if p.plain then t else t.inputShape) := by
  rw [Property.inputType, h.type_eq]
  cases p.plain <;> cases p.required <;> simp [inputShape]

theorem HasType.isKnown (h : HasType package p t) : p.type.isKnown = true := by
  rw [h.type_eq]
  split
  · exact h.isNormal.isKnown
  · rw [ResolvedType.isKnown, h.isNormal.isKnown]

/-- Whether or not it is an input, a property has the type that it is read with where nothing is to
be computed later. -/
theorem HasType.plainShape_eq (h : HasType package p t) :
    p.type.plainShape = p.type ∧ p.inputType.plainShape = p.type := by
  have hself := plainShape_eq_self h.isKnown
  refine ⟨hself, ?_⟩
  unfold Property.inputType
  split
  · exact hself
  · rw [plainShape_inputShape, hself]

theorem HasType.input (h : HasType package p t) (u : ResolvedType) :
    ¬ (ResolvedType.input u).IsNode p.type := by
  rw [h.type_eq]
  split
  · exact h.isNormal.input u
  · intro hn
    cases hn with
    | optional hn => exact h.isNormal.input u hn

/-- The objects in the type of an input are those whose properties are inputs, unless the property
is plain. -/
theorem HasType.object_inputType (h : HasType package p t) {key : ObjectKey}
    (hn : (ResolvedType.object key).IsNode p.inputType) : key.inputShape = !p.plain := by
  have hbody : (ResolvedType.object key).IsNode (if p.plain then t else t.inputShape) := by
    rw [h.inputType_eq] at hn
    split at hn
    · exact hn
    · cases hn with
      | optional hn => exact hn
  cases hplain : p.plain with
  | true =>
    rw [if_pos hplain] at hbody
    exact h.isNormal.object key hbody
  | false =>
    rw [if_neg (by simp [hplain])] at hbody
    exact h.isNormal.object_inputShape hbody

end SchemaToJava.Package
