import SchemaToJava.Java.Generation
import SchemaToJava.Proofs.Outcomes

/-!
The classes of a package whose files are written. Each file is drafted by itself, from the text of
its class. What is emitted for a resource, for the functions of a class or for an object type is one
file for each of its classes, in their order.
-/
namespace SchemaToJava.Java

open Package Outcome

/-- A class with a file of its own. -/
structure ClassBody where
  /-- The classes that are declared inside it. -/
  members : List String := []
  name : QualifiedName
  text : Drafting String

def ClassBody.draft (settings : Settings) (b : ClassBody) : Except GenerationError Emitted :=
  draftClass settings b.name b.text

/-- Every class to write declares its builder inside it. -/
def InputClass.body (m : TypeMapper) (c : InputClass) : ClassBody where
  members := ["Builder"]
  name := c.name
  text := c.text m

def OutputClass.body (m : TypeMapper) (c : OutputClass) : ClassBody where
  name := c.name
  text := c.text m

namespace ResourceClass

def stateBodies (m : TypeMapper) (c : ResourceClass) : List ClassBody :=
  match c.state, c.resource.state with
  | some name, some properties => [(argumentsClass name properties).body m]
  | _, _ => []

/-- The class of a resource, that of its arguments, and that of its state if it has one. -/
def bodies (m : TypeMapper) (c : ResourceClass) : List ClassBody :=
  { name := c.name, text := c.text m } ::
    (argumentsClass c.arguments c.resource.inputs).body m :: c.stateBodies m

/-- A resource has a class of its state exactly if it has a state. -/
theorem ofResource_eq_ok {m : TypeMapper} {r : Resource} {c : ResourceClass}
    (h : ofResource m r = .ok c) :
    c.resource = r ∧ m.resourceClass r.token = .ok c.name ∧ c.state.isSome = r.state.isSome := by
  unfold ofResource at h
  obtain ⟨name, hname, h⟩ := bind_eq_ok.1 h
  obtain ⟨state, hstate, h⟩ := bind_eq_ok.1 h
  obtain rfl := pure_eq_ok.1 h
  refine ⟨rfl, hname, ?_⟩
  cases hr : r.state with
  | none =>
    rw [hr] at hstate
    obtain rfl := pure_eq_ok.1 hstate
    rfl
  | some properties =>
    rw [hr, Option.mapM_some, map_eq_pure_bind] at hstate
    obtain ⟨name, -, hstate⟩ := bind_eq_ok.1 hstate
    obtain rfl := pure_eq_ok.1 hstate
    rfl

/-- Emitting a resource is drafting its classes. -/
theorem emit_eq_ok {m : TypeMapper} {r : Resource} {es : List Emitted} :
    emit m r = .ok es ↔ ∃ c, ofResource m r = .ok c ∧
      (c.bodies m).mapM (ClassBody.draft m.settings) = .ok es := by
  unfold emit
  rw [bind_eq_ok]
  refine exists_congr fun c => and_congr_right fun hc => ?_
  obtain ⟨rfl, -, -⟩ := ofResource_eq_ok hc
  unfold bodies stateBodies
  simp only [List.mapM_cons]
  cases c.state with
  | none => simp; rfl
  | some name =>
    cases c.resource.state with
    | none => simp; rfl
    | some properties => simp; rfl

end ResourceClass

namespace FunctionSignature

/-- The classes of a function's arguments, as they may come later and as they are known. -/
def argumentBodies (m : TypeMapper) (s : FunctionSignature) : List ClassBody :=
  match s.function.inputs with
  | some inputs =>
    let properties := inputs.map Property.asInput
    let base := Library.invokeArgs
    [({ name := s.arguments, properties, base } : InputClass).body m,
      ({ name := s.plainArguments, properties, base, inputless := true } : InputClass).body m]
  | none => []

def resultBodies (m : TypeMapper) (s : FunctionSignature) : List ClassBody :=
  match s.function.outputs with
  | some properties => [({ name := s.result, properties } : OutputClass).body m]
  | none => []

def bodies (m : TypeMapper) (s : FunctionSignature) : List ClassBody :=
  s.argumentBodies m ++ s.resultBodies m

end FunctionSignature

namespace FunctionsClass

theorem function_of_signature {m : TypeMapper} {f : Package.Function} {s : FunctionSignature}
    (h : signature m f = .ok s) : s.function = f := by
  obtain ⟨t, -, h⟩ := bind_eq_ok.1 h
  obtain rfl := pure_eq_ok.1 h
  rfl

/-- The class of some functions and the classes of each of them. -/
def bodies (m : TypeMapper) (name : QualifiedName) (signatures : List FunctionSignature) :
    List ClassBody :=
  { name, text := text m name signatures } :: signatures.flatMap (FunctionSignature.bodies m)

theorem argumentFiles_eq (m : TypeMapper) (s : FunctionSignature) :
    argumentFiles m s = (s.bodies m).mapM (ClassBody.draft m.settings) := by
  unfold argumentFiles FunctionSignature.bodies FunctionSignature.argumentBodies
    FunctionSignature.resultBodies
  cases s.function.inputs with
  | none =>
    cases s.function.outputs with
    | none => rfl
    | some properties => simp; rfl
  | some inputs =>
    cases s.function.outputs with
    | none => simp; rfl
    | some properties => simp; rfl

/-- What is emitted for some functions is the drafts of their classes. -/
theorem exists_bodies_of_emit {m : TypeMapper} {name : QualifiedName}
    {functions : List Package.Function} {es : List Emitted} (h : emit m name functions = .ok es) :
    ∃ signatures, functions.mapM (signature m) = .ok signatures ∧
      (bodies m name signatures).mapM (ClassBody.draft m.settings) = .ok es := by
  unfold emit at h
  obtain ⟨members, hmembers, h⟩ := bind_eq_ok.1 h
  obtain ⟨main, hmain, h⟩ := bind_eq_ok.1 h
  obtain rfl := pure_eq_ok.1 h
  obtain ⟨signatures, hsignatures, hmembers⟩ := mapM_bind_eq_ok.1 hmembers
  have hparts : List.Forall₂ (fun s member => s = member.1 ∧
      (s.bodies m).mapM (ClassBody.draft m.settings) = .ok member.2) signatures members := by
    refine (mapM_eq_ok.1 hmembers).imp fun s member hs => ?_
    obtain ⟨files, hfiles, hs⟩ := bind_eq_ok.1 hs
    obtain rfl := pure_eq_ok.1 hs
    exact ⟨rfl, argumentFiles_eq m s ▸ hfiles⟩
  obtain rfl : signatures = members.map Prod.fst := by
    rw [← map_eq_map_of_forall₂ (f := id) (hparts.imp fun _ _ hs => hs.1), List.map_id]
  refine ⟨_, hsignatures, mapM_eq_ok.2 (.cons hmain (mapM_eq_ok.1 ?_))⟩
  rw [List.flatMap_def, List.flatMap_def]
  refine mapM_flatten_eq_ok (mapM_eq_ok.2 ?_)
  exact List.forall₂_map_left_iff.2 (List.forall₂_map_right_iff.2 (hparts.imp fun _ _ hs => hs.2))

end FunctionsClass

namespace EnumClass

def body (name : QualifiedName) (e : EnumType) : ClassBody where
  name
  text := text name e

theorem emit_eq (m : TypeMapper) (e : EnumType) :
    emit m e = m.enumClass e.token >>= fun name => (body name e).draft m.settings := rfl

end EnumClass

def ConfigClass.body (m : TypeMapper) : ClassBody where
  name := m.root.append "Config"
  text := text m

def Utilities.body (m : TypeMapper) : ClassBody where
  name := m.root.append utilitiesClass
  text := text m

namespace Generation

def objectBody (m : TypeMapper) (r : ClassRequest) : Except GenerationError ClassBody := do
  match m.package.object? r.source.token with
  | none => throw (.unknownType r.source.token r.name.dotted)
  | some o =>
    match r.direction with
    | .output => return (⟨r.name, o.description, o.properties⟩ : OutputClass).body m
    | .input =>
      let inputShape := r.source.inputShape
      return InputClass.body m {
        name := r.name
        description := o.description
        properties := o.propertiesFor inputShape
        base := if inputShape then Library.resourceArgs else Library.invokeArgs
        inputless := !inputShape }

theorem objectClass_eq (m : TypeMapper) (r : ClassRequest) :
    objectClass m r = objectBody m r >>= ClassBody.draft m.settings := by
  unfold objectClass objectBody
  cases m.package.object? r.source.token with
  | none => rfl
  | some o =>
    cases r.direction with
    | output => rfl
    | input => rfl

end Generation

end SchemaToJava.Java
