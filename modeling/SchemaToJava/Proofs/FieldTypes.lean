import SchemaToJava.Java.DefaultExpression
import SchemaToJava.Java.Field
import SchemaToJava.Proofs.Endings
import SchemaToJava.Proofs.QualifiedTypes

/-!
The types of fields. Whatever state a file is in, the type of a field is the one that the mapper
gives for its property, and the type of a default is that of the property or one of its two
alternatives. So all of them are made of classes that live in packages.
-/
namespace SchemaToJava.Java

open Package Outcome

variable {m : TypeMapper} {p : Property} {o : ShapeOptions}

/-- The file of a class is the draft that making its text leaves, with this text in the body. -/
theorem draftClass_eq (settings : Settings) (owner : QualifiedName) (body : Drafting String) :
    draftClass settings owner body =
      let run := body.run.run (.start settings owner)
      (fun text => Draft.finish { run.2 with body := run.2.body ++ text } settings) <$> run.1 := by
  unfold draftClass
  rw [ExceptT.run_bind, StateT.run_bind]
  generalize body.run.run (.start settings owner) = run
  obtain ⟨outcome, d⟩ := run
  cases outcome with
  | error e => rfl
  | ok text => rfl

/-- A file that is finished ends in the text of its body. -/
theorem run_of_draftClass {settings : Settings} {owner : QualifiedName} {body : Drafting String}
    {e : Emitted} (h : draftClass settings owner body = .ok e) :
    ∃ text d, body.run.run (.start settings owner) = (.ok text, d) ∧
      e = Draft.finish { d with body := d.body ++ text } settings := by
  rw [draftClass_eq] at h
  generalize body.run.run (.start settings owner) = run at h ⊢
  obtain ⟨outcome, d⟩ := run
  cases outcome with
  | error e => cases h
  | ok text => exact ⟨text, d, rfl, (Except.ok.inj h).symm⟩

theorem run_of_draftClass_eq_error {settings : Settings} {owner : QualifiedName}
    {body : Drafting String} {e : GenerationError} (h : draftClass settings owner body = .error e) :
    (body.run.run (.start settings owner)).1 = .error e := by
  rw [draftClass_eq] at h
  generalize body.run.run (.start settings owner) = run at h ⊢
  obtain ⟨outcome, d⟩ := run
  cases outcome with
  | error e => exact congrArg Except.error (Except.error.inj h)
  | ok text => cases h

theorem canGive_of_draftClass {settings : Settings} {owner : QualifiedName}
    {body : Drafting String} {e : Emitted} (h : draftClass settings owner body = .ok e) :
    ∃ text, CanGive body text ∧ ∃ front, e.file.text = front ++ text := by
  obtain ⟨text, d, hrun, rfl⟩ := run_of_draftClass h
  exact ⟨text, ⟨_, congrArg Prod.fst hrun⟩, _, (String.append_assoc ..).symm⟩

theorem canGive_shape {t : ResolvedType} {s : TypeShape} (h : CanGive (Drafting.shape m t o) s) :
    ∃ mapped, m.typeShape t o = .ok mapped ∧ mapped.shape = s := by
  unfold Drafting.shape at h
  split at h
  · next mapped hmapped =>
    obtain ⟨_, -, h⟩ := canGive_bind h
    exact ⟨mapped, hmapped, canGive_pure h⟩
  · exact absurd h not_canGive_throw

theorem canGive_ofProperty {f : Field} (h : CanGive (Field.ofProperty m o p) f) :
    f.property = p ∧ ∃ mapped, m.typeShape p.type o = .ok mapped ∧ mapped.shape = f.shape := by
  unfold Field.ofProperty at h
  obtain ⟨s, hs, h⟩ := canGive_bind h
  obtain rfl := canGive_pure h
  exact ⟨rfl, canGive_shape hs⟩

theorem canGive_fields {properties : List Property} {fields : List Field}
    (h : CanGive (properties.mapM (Field.ofProperty m o)) fields) {f : Field} (hf : f ∈ fields) :
    ∃ mapped, m.typeShape f.property.type o = .ok mapped ∧ mapped.shape = f.shape := by
  obtain ⟨q, -, hq⟩ := canGive_mapM h f hf
  obtain ⟨rfl, hmapped⟩ := canGive_ofProperty hq
  exact hmapped

/-- The type of a default is the type it is for, or one of its alternatives. -/
theorem canGive_resolve {property : String} {type : TypeShape} {value : Json.Value}
    {resolved : TypeShape × String}
    (h : CanGive (DefaultExpression.resolve m property type value) resolved) :
    resolved.1 = type ∨
      ∃ left right, type.either? = some (left, right) ∧
        (resolved.1 = left ∨ resolved.1 = right) := by
  unfold DefaultExpression.resolve at h
  split at h
  · obtain ⟨literal, -, h⟩ := canGive_bind h
    obtain rfl := canGive_pure h
    exact .inl rfl
  · next left right halternatives =>
    refine .inr ⟨left, right, halternatives, ?_⟩
    obtain ⟨either, -, h⟩ := canGive_bind h
    rcases canGive_tryCatch h with h | ⟨first, h⟩
    · obtain ⟨literal, -, h⟩ := canGive_bind h
      obtain rfl := canGive_pure h
      exact .inl rfl
    rcases canGive_tryCatch h with h | ⟨second, h⟩
    · obtain ⟨literal, -, h⟩ := canGive_bind h
      obtain rfl := canGive_pure h
      exact .inr rfl
    · exact absurd h not_canGive_throw

theorem isQualified_of_shape {t : ResolvedType} {s : TypeShape}
    (h : CanGive (Drafting.shape m t o) s) : s.IsQualified := by
  obtain ⟨mapped, hmapped, rfl⟩ := canGive_shape h
  exact TypeMapper.isQualified_typeShape hmapped

theorem isQualified_of_ofProperty {f : Field} (h : CanGive (Field.ofProperty m o p) f) :
    f.shape.IsQualified := by
  obtain ⟨-, mapped, hmapped, hshape⟩ := canGive_ofProperty h
  exact hshape ▸ TypeMapper.isQualified_typeShape hmapped

theorem isQualified_of_fields {properties : List Property} {fields : List Field}
    (h : CanGive (properties.mapM (Field.ofProperty m o)) fields) :
    ∀ f ∈ fields, f.shape.IsQualified := by
  intro f hf
  obtain ⟨mapped, hmapped, hshape⟩ := canGive_fields h hf
  exact hshape ▸ TypeMapper.isQualified_typeShape hmapped

theorem isQualified_of_resolve {property : String} {type : TypeShape} {value : Json.Value}
    {resolved : TypeShape × String} (htype : type.IsQualified)
    (h : CanGive (DefaultExpression.resolve m property type value) resolved) :
    resolved.1.IsQualified := by
  rcases canGive_resolve h with heq | ⟨left, right, halternatives, heq | heq⟩
  · exact heq ▸ htype
  · exact heq ▸ (htype.alternatives halternatives).1
  · exact heq ▸ (htype.alternatives halternatives).2

end SchemaToJava.Java
