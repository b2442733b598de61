import SchemaToJava.Java.SourceFile
import SchemaToJava.Proofs.FieldTypes
import SchemaToJava.Proofs.ImportTable

/-!
Frames: relations between states that hold across a computation whatever its outcome. A frame
composes, so a computation keeps to it when each of its steps does. The text of a source file is
made in steps of two kinds: a class is referred to, and the classes that a type needs are noted. What
these keep to, every emitter keeps to, and it fails only as these may fail. Referring to a class that
lives in a package cannot fail.
-/
namespace SchemaToJava.Java

open Package Outcome

/-- A relation between the state before and the state after a computation. -/
structure Frame (σ : Type) where
  rel : σ → σ → Prop
  refl : ∀ s, rel s s
  trans : ∀ {s t u}, rel s t → rel t u → rel s u

namespace Frame

variable {σ ε α β : Type} (F : Frame σ)

/-- The computation keeps to the frame, also when it fails, and only fails as `E` says. -/
def Keeps (E : ε → Prop) (x : ExceptT ε (StateM σ) α) : Prop :=
  ∀ s, F.rel s (x.run.run s).2 ∧ ∀ e, (x.run.run s).1 = .error e → E e

theorem run_get_bind (f : σ → ExceptT ε (StateM σ) α) (s : σ) :
    (get >>= f : ExceptT ε (StateM σ) α).run.run s = (f s).run.run s := rfl

variable {F} {E : ε → Prop}

theorem keeps_pure (a : α) : F.Keeps E (pure a : ExceptT ε (StateM σ) α) :=
  fun s => ⟨F.refl s, fun _ h => by cases h⟩

theorem keeps_throw {e : ε} (he : E e) : F.Keeps E (throw e : ExceptT ε (StateM σ) α) :=
  fun s => ⟨F.refl s, fun _ h => Except.error.inj h ▸ he⟩

theorem keeps_modify {f : σ → σ} (h : ∀ s, F.rel s (f s)) :
    F.Keeps E (modify f : ExceptT ε (StateM σ) PUnit) :=
  fun s => ⟨h s, fun _ h => by cases h⟩

theorem Keeps.mono {E' : ε → Prop} {x : ExceptT ε (StateM σ) α} (hx : F.Keeps E x)
    (hE : ∀ e, E e → E' e) : F.Keeps E' x :=
  fun s => ⟨(hx s).1, fun e he => hE e ((hx s).2 e he)⟩

/-- What follows need only keep to the frame for what the first part can give. -/
theorem keeps_bind_of_canGive {x : ExceptT ε (StateM σ) α} {f : α → ExceptT ε (StateM σ) β}
    (hx : F.Keeps E x) (hf : ∀ a, CanGive x a → F.Keeps E (f a)) : F.Keeps E (x >>= f) := by
  intro s
  obtain ⟨hrel, herror⟩ := hx s
  have hgives : ∀ a, (x.run.run s).1 = .ok a → F.Keeps E (f a) := fun a ha => hf a ⟨s, ha⟩
  rw [ExceptT.run_bind, StateT.run_bind]
  generalize hr : x.run.run s = r at hrel herror hgives ⊢
  obtain ⟨outcome, t⟩ := r
  cases outcome with
  | error e => exact ⟨hrel, fun _ h => herror _ (congrArg Except.error (Except.error.inj h))⟩
  | ok a => exact ⟨F.trans hrel (hgives a rfl t).1, (hgives a rfl t).2⟩

theorem keeps_bind {x : ExceptT ε (StateM σ) α} {f : α → ExceptT ε (StateM σ) β}
    (hx : F.Keeps E x) (hf : ∀ a, F.Keeps E (f a)) : F.Keeps E (x >>= f) :=
  keeps_bind_of_canGive hx fun a _ => hf a

theorem keeps_map {x : ExceptT ε (StateM σ) α} {f : α → β} (hx : F.Keeps E x) :
    F.Keeps E (f <$> x) := by
  rw [← bind_pure_comp]
  exact keeps_bind hx fun a => keeps_pure (f a)

/-- An error that is caught is one that may occur. -/
theorem keeps_tryCatch {E' : ε → Prop} {x : ExceptT ε (StateM σ) α}
    {f : ε → ExceptT ε (StateM σ) α} (hx : F.Keeps E' x) (hf : ∀ e, E' e → F.Keeps E (f e)) :
    F.Keeps E (tryCatch x f) := by
  intro s
  obtain ⟨hrel, herror⟩ := hx s
  rw [ExceptT.run_tryCatch, StateT.run_bind]
  generalize hr : x.run.run s = r at hrel herror ⊢
  obtain ⟨outcome, t⟩ := r
  cases outcome with
  | error e => exact ⟨F.trans hrel (hf e (herror e rfl) t).1, (hf e (herror e rfl) t).2⟩
  | ok a => exact ⟨hrel, fun _ h => by cases h⟩

/-- A traversal keeps to the frame if each of its steps does. -/
theorem keeps_mapM {f : α → ExceptT ε (StateM σ) β} {xs : List α}
    (hf : ∀ a ∈ xs, F.Keeps E (f a)) : F.Keeps E (xs.mapM f) := by
  induction xs with
  | nil => exact keeps_pure []
  | cons x xs ih =>
    rw [List.mapM_cons]
    have hrest := ih fun a ha => hf a (List.mem_cons_of_mem x ha)
    exact keeps_bind (hf x List.mem_cons_self) fun y =>
      keeps_bind hrest fun ys => keeps_pure (y :: ys)

/-- A computation without a state fails as it does. -/
theorem keeps_lift (x : Except ε α) :
    F.Keeps (fun e => x = .error e) (liftM x : ExceptT ε (StateM σ) α) := by
  cases x with
  | ok a => exact keeps_pure a
  | error e => exact keeps_throw rfl

theorem keeps_optionMapM {f : α → ExceptT ε (StateM σ) β} (hf : ∀ a, F.Keeps E (f a))
    (x : Option α) : F.Keeps E (x.mapM f) := by
  cases x with
  | none => exact keeps_pure none
  | some a => exact keeps_map (hf a)

end Frame

/-- A frame of imports, to which a reference to a class of some package keeps. -/
structure ImportFrame extends Frame Imports where
  refer : ∀ (i : Imports) {name : QualifiedName}, name.isQualified = true →
    rel i ((i.claim name).note name)

namespace ImportFrame

open TypeShape (Importing IsQualifiedMark reference markCode code codes descriptor descriptors)
open Java.Frame

variable (F : ImportFrame)

/-- The computation keeps to the frame, and does not fail. -/
def Keeps {α : Type} (x : Importing α) : Prop := F.toFrame.Keeps (fun _ => False) x

theorem keeps_reference {name : QualifiedName} (h : name.isQualified = true) :
    F.Keeps (reference name) := by
  intro i
  have hpermits : i.permits name = true := by simp [Imports.permits, h]
  unfold reference
  rw [Frame.run_get_bind, Imports.reference_eq, if_pos hpermits]
  exact ⟨F.refer i h, fun _ h => by cases h⟩

theorem keeps_markCode {mark : String} (h : IsQualifiedMark mark) : F.Keeps (markCode mark) := by
  unfold markCode
  split
  · next name hname =>
    exact keeps_bind (F.keeps_reference (h name hname)) fun text => keeps_pure _
  · exact keeps_pure _

mutual

theorem keeps_code : {s : TypeShape} → s.IsQualified → F.Keeps s.code
  | ⟨base, parameters, annotations⟩, h => by
    unfold code
    refine keeps_bind (keeps_mapM fun mark hmark => F.keeps_markCode (h.marks mark hmark))
      fun marks => ?_
    refine keeps_bind (F.keeps_reference h.base) fun base => ?_
    exact keeps_bind (keeps_codes h.parameters) fun parts => keeps_pure _

theorem keeps_codes : {shapes : List TypeShape} → (∀ s ∈ shapes, s.IsQualified) →
    F.Keeps (codes shapes)
  | [], _ => keeps_pure []
  | s :: rest, h => by
    unfold codes
    refine keeps_bind (keeps_code (h s List.mem_cons_self)) fun text => ?_
    exact keeps_bind (keeps_codes fun t ht => h t (List.mem_cons_of_mem s ht))
      fun texts => keeps_pure _

end

mutual

theorem keeps_descriptor : {s : TypeShape} → s.IsQualified → F.Keeps s.descriptor
  | ⟨base, parameters, _⟩, h => by
    unfold descriptor
    refine keeps_bind (F.keeps_reference rfl) fun typeShape => ?_
    refine keeps_bind (F.keeps_reference h.base) fun literal => ?_
    refine keeps_bind (keeps_descriptors h.parameters) fun parts => ?_
    split
    · exact keeps_pure _
    · exact keeps_pure _

theorem keeps_descriptors : {shapes : List TypeShape} → (∀ s ∈ shapes, s.IsQualified) →
    F.Keeps (descriptors shapes)
  | [], _ => keeps_pure []
  | s :: rest, h => by
    unfold descriptors
    refine keeps_bind (keeps_descriptor (h s List.mem_cons_self)) fun text => ?_
    exact keeps_bind (keeps_descriptors fun t ht => h t (List.mem_cons_of_mem s ht))
      fun texts => keeps_pure _

end

end ImportFrame

/-- A frame of drafts, to which the steps of making the text of a file keep. -/
structure DraftFrame (m : TypeMapper) extends Frame Draft where
  refer : ∀ (d : Draft) {name : QualifiedName}, name.isQualified = true →
    rel d { d with imports := (d.imports.claim name).note name }
  need : ∀ (d : Draft) {t : ResolvedType} {o : ShapeOptions} {mapped : Mapped},
    m.typeShape t o = .ok mapped → rel d { d with needed := d.needed ++ mapped.needed }

namespace DraftFrame

variable {m : TypeMapper} (F : DraftFrame m)

/-- What a frame says of the imports of a draft. -/
def imports : ImportFrame where
  rel i j := ∀ d : Draft, d.imports = i → F.rel d { d with imports := j }
  refl _ d hd := hd ▸ F.refl d
  trans hij hjk d hd := F.trans (hij d hd) (hjk _ rfl)
  refer _ _ h d hd := hd ▸ F.refer d h

/-- The file is finished from a draft that the frame relates to the empty one, with a text added. -/
def Finishes (owner : QualifiedName) (e : Emitted) : Prop :=
  ∃ (d : Draft) (text : String), F.rel (.start m.settings owner) d ∧
    e = Draft.finish { d with body := d.body ++ text } m.settings

section Keeps

variable {E : GenerationError → Prop}

/-- A step on the imports of a file keeps to a frame that is one of imports. -/
theorem keeps_importing {α : Type} {act : TypeShape.Importing α} (hact : F.imports.Keeps act) :
    F.toFrame.Keeps E (Drafting.importing act) := by
  intro d
  obtain ⟨hrel, herror⟩ := hact d.imports
  have hd := hrel d rfl
  unfold Drafting.importing
  rw [Frame.run_get_bind]
  generalize hr : act.run.run d.imports = r at hd herror ⊢
  obtain ⟨outcome, imports⟩ := r
  cases outcome with
  | error e => exact (herror e rfl).elim
  | ok x => exact ⟨hd, fun _ h => by cases h⟩

theorem keeps_reference {name : QualifiedName} (h : name.isQualified = true) :
    F.toFrame.Keeps E (Drafting.reference name) :=
  F.keeps_importing (F.imports.keeps_reference h)

theorem keeps_code {s : TypeShape} (h : s.IsQualified) : F.toFrame.Keeps E (Drafting.code s) :=
  F.keeps_importing (F.imports.keeps_code h)

theorem keeps_descriptor {s : TypeShape} (h : s.IsQualified) :
    F.toFrame.Keeps E (Drafting.descriptor s) :=
  F.keeps_importing (F.imports.keeps_descriptor h)

variable {F} {owner : QualifiedName} {body : Drafting String}

theorem finishes_draftClass {e : Emitted} (hbody : F.toFrame.Keeps E body)
    (h : draftClass m.settings owner body = .ok e) : F.Finishes owner e := by
  obtain ⟨text, d, hrun, rfl⟩ := run_of_draftClass h
  have hdraft := (hbody (.start m.settings owner)).1
  rw [hrun] at hdraft
  exact ⟨d, text, hdraft, rfl⟩

/-- A file fails as its body may fail. -/
theorem error_of_draftClass {e : GenerationError} (hbody : F.toFrame.Keeps E body)
    (h : draftClass m.settings owner body = .error e) : E e :=
  (hbody (.start m.settings owner)).2 e (run_of_draftClass_eq_error h)

end Keeps

end DraftFrame

/-- The error is that a token or a reference of the package leads nowhere. -/
def GenerationError.isUnresolved : GenerationError → Bool
  | .parse _ => true
  | .unknownType _ _ => true
  | _ => false

/-- The error is about the generator's own work, or stands for such errors. -/
def GenerationError.isInternal : GenerationError → Bool
  | .unqualifiedImport _ => true
  | .queueEmpty => true
  | .eitherDefault _ first second => first.isInternal || second.isInternal
  | _ => false

def GenerationError.isDuplicate : GenerationError → Bool
  | .duplicateFile _ => true
  | _ => false

/-- A frame of drafts, and the errors with which writing a file may fail: whatever is wrong with
something else of the package than a name, and whatever the types of its fields cannot be mapped
for. The paths of other files have no part in it. -/
structure Discipline (m : TypeMapper) extends DraftFrame m where
  /-- The types that fields may have. -/
  admits : ResolvedType → Prop
  raises : GenerationError → Prop
  raises_other : ∀ {e}, e.isUnresolved = false → e.isInternal = false → e.isDuplicate = false →
    raises e
  raises_shape : ∀ {t o e}, admits t → m.typeShape t o = .error e → raises e

/-- The discipline of a frame that leaves open which types there are and what may fail. -/
def DraftFrame.lenient {m : TypeMapper} (F : DraftFrame m) : Discipline m where
  toDraftFrame := F
  admits _ := True
  raises _ := True
  raises_other _ _ _ := trivial
  raises_shape _ _ := trivial

namespace Discipline

open Java.Frame

variable {m : TypeMapper} (D : Discipline m) {α : Type}

/-- The computation keeps to the discipline. -/
def Keeps (x : Drafting α) : Prop := D.toFrame.Keeps D.raises x

/-- The discipline in which fields have no types, and nothing else than what every discipline allows
may fail. -/
def strict : Discipline m where
  toDraftFrame := D.toDraftFrame
  admits _ := False
  raises e := e.isUnresolved = false ∧ e.isInternal = false ∧ e.isDuplicate = false
  raises_other hresolved hreported hwritten := ⟨hresolved, hreported, hwritten⟩
  raises_shape ht := ht.elim

theorem keeps_of_strict {x : Drafting α} (h : D.strict.Keeps x) : D.Keeps x :=
  Frame.Keeps.mono h fun _ he => D.raises_other he.1 he.2.1 he.2.2

theorem keeps_pure (a : α) : D.Keeps (pure a) := Frame.keeps_pure a

theorem keeps_throw {e : GenerationError} (hresolved : e.isUnresolved = false)
    (hreported : e.isInternal = false) (hwritten : e.isDuplicate = false) :
    D.Keeps (throw e : Drafting α) :=
  Frame.keeps_throw (D.raises_other hresolved hreported hwritten)

theorem keeps_reference {name : QualifiedName} (h : name.isQualified = true) :
    D.Keeps (Drafting.reference name) := D.toDraftFrame.keeps_reference h

theorem keeps_code {s : TypeShape} (h : s.IsQualified) : D.Keeps (Drafting.code s) :=
  D.toDraftFrame.keeps_code h

theorem keeps_descriptor {s : TypeShape} (h : s.IsQualified) : D.Keeps (Drafting.descriptor s) :=
  D.toDraftFrame.keeps_descriptor h

theorem keeps_shape {t : ResolvedType} (ht : D.admits t) (o : ShapeOptions) :
    D.Keeps (Drafting.shape m t o) := by
  unfold Drafting.shape
  split
  · next mapped hmapped =>
    exact keeps_bind (keeps_modify fun d => D.need d hmapped) fun _ => D.keeps_pure _
  · next e he => exact Frame.keeps_throw (D.raises_shape ht he)

/-- The computation only fails with what may be raised. -/
def Allows (x : Except GenerationError α) : Prop := ∀ e, x = .error e → D.raises e

section Allows

variable {D} {β : Type}

theorem allows_ok (a : α) : D.Allows (.ok a) := fun _ h => by cases h

theorem allows_error {e : GenerationError} (he : D.raises e) :
    D.Allows (.error e : Except GenerationError α) :=
  fun _ h => Except.error.inj h ▸ he

theorem allows_bind {x : Except GenerationError α} {f : α → Except GenerationError β}
    (hx : D.Allows x) (hf : ∀ a, x = .ok a → D.Allows (f a)) : D.Allows (x >>= f) := by
  intro e h
  rcases bind_eq_error.1 h with h | ⟨a, ha, h⟩
  · exact hx e h
  · exact hf a ha e h

theorem allows_mapM {f : α → Except GenerationError β} {xs : List α}
    (hf : ∀ x ∈ xs, D.Allows (f x)) : D.Allows (xs.mapM f) := by
  induction xs with
  | nil => exact allows_ok []
  | cons x xs ih =>
    rw [List.mapM_cons]
    have hrest := ih fun y hy => hf y (List.mem_cons_of_mem x hy)
    exact allows_bind (hf x List.mem_cons_self) fun _ _ => allows_bind hrest fun _ _ => allows_ok _

theorem allows_foldlM {f : β → α → Except GenerationError β} {xs : List α}
    (hf : ∀ x ∈ xs, ∀ b, D.Allows (f b x)) (b : β) : D.Allows (xs.foldlM f b) := by
  induction xs generalizing b with
  | nil => exact allows_ok b
  | cons x xs ih =>
    rw [List.foldlM_cons]
    exact allows_bind (hf x List.mem_cons_self b) fun c _ =>
      ih (fun y hy => hf y (List.mem_cons_of_mem x hy)) c

theorem allows_draftClass {owner : QualifiedName} {body : Drafting String} (hbody : D.Keeps body) :
    D.Allows (draftClass m.settings owner body) :=
  fun _ h => DraftFrame.error_of_draftClass hbody h

end Allows

end Discipline

end SchemaToJava.Java
