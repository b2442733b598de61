import SchemaToJava.Proofs.Constructors
import SchemaToJava.Proofs.PropertyIdentifiers

/-!
What a class declares for its fields. Each field has its declaration and a getter without parameters,
both called like the identifier of its property, and a class to write also has a method without
parameters that makes a builder.
-/
namespace SchemaToJava.Java

open Package Outcome

theorem sourceLines_append (lines others : List String) :
    sourceLines (lines ++ others) = sourceLines lines ++ sourceLines others := by
  unfold sourceLines
  rw [List.map_append, String.join_append]

theorem sourceLines_eq_join (lines : List String) :
    sourceLines lines = String.join (lines.map fun line => sourceLines [line]) := by
  unfold sourceLines
  simp only [List.map_cons, List.map_nil, String.join_cons, String.join_nil, String.append_empty]

/-- Somewhere in the text there is a piece for each item, one after another. -/
def HasPieces {α : Type} (R : α → String → Prop) (xs : List α) (text : String) : Prop :=
  ∃ before pieces after, List.Forall₂ R xs pieces ∧ text = before ++ String.join pieces ++ after

def HasLine (line text : String) : Prop :=
  ∃ before after, text = before ++ sourceLines [line] ++ after

section HasPieces

variable {α : Type} {R S : α → String → Prop} {xs : List α} {text line : String}

theorem HasPieces.mono (h : HasPieces R xs text) (hRS : ∀ x piece, R x piece → S x piece) :
    HasPieces S xs text := by
  obtain ⟨before, pieces, after, hpieces, rfl⟩ := h
  exact ⟨before, pieces, after, hpieces.imp hRS, rfl⟩

theorem HasPieces.within (h : HasPieces R xs text) (front rest : String) :
    HasPieces R xs (front ++ text ++ rest) := by
  obtain ⟨before, pieces, after, hpieces, rfl⟩ := h
  exact ⟨front ++ before, pieces, after ++ rest, hpieces, by simp only [String.append_assoc]⟩

theorem HasLine.within (h : HasLine line text) (front rest : String) :
    HasLine line (front ++ text ++ rest) := by
  obtain ⟨before, after, rfl⟩ := h
  exact ⟨front ++ before, after ++ rest, by simp only [String.append_assoc]⟩

theorem hasLine_of_mem {lines : List String} (h : line ∈ lines) :
    HasLine line (sourceLines lines) := by
  obtain ⟨before, after, rfl⟩ := List.append_of_mem h
  refine ⟨sourceLines before, sourceLines after, ?_⟩
  rw [← sourceLines_append, ← sourceLines_append, List.append_assoc, List.singleton_append]

theorem HasLine.behind (h : HasLine line text) (front : String) : HasLine line (front ++ text) := by
  simpa using h.within front ""

theorem HasLine.before (h : HasLine line text) (rest : String) : HasLine line (text ++ rest) := by
  simpa using h.within "" rest

end HasPieces

/-- The text declares the field, with modifiers before its type. -/
def Field.IsHeld (modifiers : String) (f : Field) (text : String) : Prop :=
  ∃ type : String, HasLine s!"{modifiers}{type} {f.ident};" text

def Field.HasGetter (f : Field) (text : String) : Prop :=
  ∃ type : String, HasLine s!"    public {type} {f.ident}() \x7b" text

/-- The text declares the fields and their getters. -/
structure DeclaresFields (modifiers : String) (fields : List Field) (text : String) : Prop where
  held : HasPieces (Field.IsHeld modifiers) fields text
  getters : HasPieces Field.HasGetter fields text

theorem DeclaresFields.within {modifiers text : String} {fields : List Field}
    (h : DeclaresFields modifiers fields text) (front rest : String) :
    DeclaresFields modifiers fields (front ++ text ++ rest) :=
  ⟨h.held.within front rest, h.getters.within front rest⟩

variable {m : TypeMapper} {fields : List Field} {text : String}

namespace InputClass

variable {c : InputClass}

theorem hasGetter_of_getter {f : Field} (h : CanGive (getter f) text) : f.HasGetter text := by
  unfold getter at h
  split at h
  · obtain ⟨optional, -, h⟩ := canGive_bind h
    obtain ⟨type, -, h⟩ := canGive_bind h
    obtain rfl := canGive_pure h
    exact ⟨type, hasLine_of_mem List.mem_cons_self⟩
  · obtain ⟨type, -, h⟩ := canGive_bind h
    obtain rfl := canGive_pure h
    exact ⟨type, hasLine_of_mem List.mem_cons_self⟩

theorem declares_of_fieldText {importMarker : String} {f : Field}
    (h : CanGive (fieldText importMarker f) text) :
    f.IsHeld "    private " text ∧ f.HasGetter text := by
  unfold fieldText at h
  obtain ⟨type, -, h⟩ := canGive_bind h
  obtain ⟨getter, hgetter, h⟩ := canGive_bind h
  obtain rfl := canGive_pure h
  obtain ⟨returned, hline⟩ := hasGetter_of_getter hgetter
  refine ⟨⟨type, ?_⟩, returned, hline.behind _⟩
  exact (hasLine_of_mem (by simp)).within _ _

theorem hasLine_of_builder {name : String} (h : CanGive (builder name fields) text) :
    HasLine "    public static Builder builder() \x7b" text := by
  unfold InputClass.builder at h
  obtain ⟨objects, -, h⟩ := canGive_bind h
  obtain ⟨setters, -, h⟩ := canGive_bind h
  obtain ⟨missing, -, h⟩ := canGive_bind h
  obtain rfl := canGive_pure h
  exact ((hasLine_of_mem List.mem_cons_self).before _).before _

/-- The text of a class declares its fields, and a method that makes a builder. -/
theorem declaresFields_of_text (h : CanGive (c.text m) text) :
    ∃ fields, CanGive (c.fields m) fields ∧ DeclaresFields "    private " fields text ∧
      HasLine "    public static Builder builder() \x7b" text := by
  unfold InputClass.text at h
  obtain ⟨fields, hfields, h⟩ := canGive_bind h
  obtain ⟨base, -, h⟩ := canGive_bind h
  obtain ⟨importMarker, -, h⟩ := canGive_bind h
  obtain ⟨declarations, hdeclarations, h⟩ := canGive_bind h
  obtain ⟨constructor, -, h⟩ := canGive_bind h
  obtain ⟨builder, hbuilder, h⟩ := canGive_bind h
  obtain ⟨front, copying, htext⟩ : ∃ front copying,
      text = front ++ String.join declarations ++ copying ++ constructor ++ builder ++ "\x7d\n" :=
    ⟨_, _, (canGive_pure h).symm⟩
  have hpieces : List.Forall₂ (fun f piece => CanGive (fieldText importMarker f) piece) fields
      declarations := forall₂_of_canGive_mapM hdeclarations
  have hfieldPieces : HasPieces (fun f piece => CanGive (fieldText importMarker f) piece) fields
      text := ⟨front, declarations, copying ++ constructor ++ builder ++ "\x7d\n", hpieces, by
    rw [htext]
    simp only [String.append_assoc]⟩
  refine ⟨fields, hfields, ⟨hfieldPieces.mono fun f piece hf => (declares_of_fieldText hf).1,
    hfieldPieces.mono fun f piece hf => (declares_of_fieldText hf).2⟩, ?_⟩
  rw [htext]
  exact (hasLine_of_builder hbuilder).within _ _

end InputClass

namespace OutputClass

variable {c : OutputClass}

theorem hasGetter_of_getter {f : Field} (h : CanGive (getter f) text) : f.HasGetter text := by
  unfold getter at h
  obtain ⟨⟨type, value⟩, -, h⟩ := canGive_bind h
  obtain rfl := canGive_pure h
  exact ⟨type, (hasLine_of_mem List.mem_cons_self).behind _⟩

/-- The lines of the fields stand one after another. -/
theorem hasPieces_of_declarations (h : CanGive (declarations fields) text) :
    HasPieces (Field.IsHeld "    private final ") fields text := by
  unfold declarations at h
  obtain ⟨lines, hlines, h⟩ := canGive_bind h
  obtain rfl := canGive_pure h
  have hheld : List.Forall₂ (fun f line => f.IsHeld "    private final " (sourceLines [line]))
      fields lines := by
    refine (forall₂_of_canGive_mapM hlines).imp fun f line hline => ?_
    obtain ⟨parameter, hparameter, hline⟩ := canGive_bind hline
    obtain rfl := canGive_pure hline
    obtain ⟨type, -, hparameter⟩ := canGive_bind hparameter
    obtain rfl := canGive_pure hparameter
    refine ⟨type, hasLine_of_mem (List.mem_singleton.2 ?_)⟩
    simp only [String.append_assoc]
    rfl
  have hpieces : List.Forall₂ (Field.IsHeld "    private final ") fields
      (lines.map fun line => sourceLines [line]) := List.forall₂_map_right_iff.2 hheld
  cases hempty : lines.isEmpty with
  | true =>
    obtain rfl := List.isEmpty_iff.1 hempty
    exact ⟨"", _, "", hpieces, rfl⟩
  | false =>
    refine ⟨"", _, sourceLines [""], hpieces, ?_⟩
    rw [← sourceLines_eq_join, String.empty_append]
    exact sourceLines_append lines [""]

/-- The text of a class declares its fields. -/
theorem declaresFields_of_text (h : CanGive (c.text m) text) :
    ∃ fields, CanGive (c.fields m) fields ∧ DeclaresFields "    private final " fields text := by
  unfold OutputClass.text at h
  obtain ⟨fields, hfields, h⟩ := canGive_bind h
  obtain ⟨customType, -, h⟩ := canGive_bind h
  obtain ⟨objects, -, h⟩ := canGive_bind h
  obtain ⟨declarations, hdeclarations, h⟩ := canGive_bind h
  obtain ⟨constructor, -, h⟩ := canGive_bind h
  obtain ⟨getters, hgetters, h⟩ := canGive_bind h
  obtain ⟨front, htext⟩ : ∃ front,
      text = front ++ declarations ++ constructor ++ String.join getters ++ "\x7d\n" :=
    ⟨_, (canGive_pure h).symm⟩
  have hpieces : List.Forall₂ Field.HasGetter fields getters :=
    (forall₂_of_canGive_mapM hgetters).imp fun f getter hgetter => hasGetter_of_getter hgetter
  refine ⟨fields, hfields, ?_, ⟨front ++ declarations ++ constructor, getters, _, hpieces, htext⟩⟩
  have hheld := (hasPieces_of_declarations hdeclarations).within front
    (constructor ++ String.join getters ++ "\x7d\n")
  rw [htext]
  simpa only [String.append_assoc] using hheld

end OutputClass

end SchemaToJava.Java
