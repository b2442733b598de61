import SchemaToJava.Proofs.FieldMembers
import SchemaToJava.Proofs.InputFiles

/-!
The methods of the functions of a class. A function has two families of them, called by its name and
by its name with `Plain` behind it, and the classes of its arguments are its own. So two functions
share a method only where both can be called without arguments, and then by their names.
-/
namespace SchemaToJava.Java

open Package Outcome

/-- A method, as far as it is told from others: its name and the classes of its parameters. -/
structure FunctionMethod where
  name : String
  parameters : List QualifiedName
deriving DecidableEq

namespace FunctionSignature

/-- The names of the families of overloads, each with the class of its arguments. -/
def families (s : FunctionSignature) : List (String × QualifiedName) :=
  [(s.method, s.arguments), (s.method ++ "Plain", s.plainArguments)]

def isCallable (s : FunctionSignature) : Bool :=
  FunctionsClass.isCallableWithoutArguments s.function

def methods (s : FunctionSignature) : List FunctionMethod :=
  (if s.isCallable then s.families.map fun family => ⟨family.1, []⟩ else []) ++
    s.families.map (fun family => ⟨family.1, [family.2]⟩) ++
    s.families.map fun family => ⟨family.1, [family.2, Library.invokeOptions]⟩

def NamesMeet (s t : FunctionSignature) : Prop :=
  s.method = t.method ∨ s.method = t.method ++ "Plain" ∨ t.method = s.method ++ "Plain"

variable {s t : FunctionSignature} {method : FunctionMethod}

/-- The methods of a function: up to three for each of its families of overloads. -/
theorem mem_methods_iff : method ∈ s.methods ↔ ∃ family ∈ s.families, method.name = family.1 ∧
    (s.isCallable = true ∧ method.parameters = [] ∨ method.parameters = [family.2] ∨
      method.parameters = [family.2, Library.invokeOptions]) := by
  obtain ⟨name, parameters⟩ := method
  have hempty : (⟨name, parameters⟩ : FunctionMethod) ∈
      (if s.isCallable then s.families.map fun family => ⟨family.1, []⟩ else []) ↔
        s.isCallable = true ∧ ∃ family ∈ s.families, name = family.1 ∧ parameters = [] := by
    rw [List.mem_ite_nil_right, List.mem_map]
    simp only [FunctionMethod.mk.injEq, eq_comm]
  unfold methods
  rw [List.mem_append, List.mem_append, hempty, List.mem_map, List.mem_map]
  simp only [FunctionMethod.mk.injEq]
  constructor
  · rintro ((⟨hcall, family, hmem, hname, hnil⟩ | ⟨family, hmem, hname, hone⟩) |
      ⟨family, hmem, hname, htwo⟩)
    · exact ⟨family, hmem, hname, .inl ⟨hcall, hnil⟩⟩
    · exact ⟨family, hmem, hname.symm, .inr (.inl hone.symm)⟩
    · exact ⟨family, hmem, hname.symm, .inr (.inr htwo.symm)⟩
  · rintro ⟨family, hmem, hname, ⟨hcall, hnil⟩ | hone | htwo⟩
    · exact .inl (.inl ⟨hcall, family, hmem, hname, hnil⟩)
    · exact .inl (.inr ⟨family, hmem, hname.symm, hone.symm⟩)
    · exact .inr ⟨family, hmem, hname.symm, htwo.symm⟩

theorem namesMeet_iff : NamesMeet s t ↔
    ∃ family ∈ s.families, ∃ other ∈ t.families, family.1 = other.1 := by
  simp only [NamesMeet, families, List.mem_cons, List.not_mem_nil, or_false,
    exists_eq_or_imp, exists_eq_left, String.append_left_inj]
  rw [eq_comm (a := t.method)]
  tauto

end FunctionSignature

namespace FunctionsClass

open Drafting (reference)

variable {m : TypeMapper} {s : FunctionSignature} {text : String}

/-- The text declares the method, with a name behind the class of each parameter. -/
def Declares (method : FunctionMethod) (text : String) : Prop :=
  ∃ (returns : String) (parameters : List String),
    List.Forall₂ (fun c parameter => ∃ type name : String, CanGive (reference c) type ∧
      parameter = type ++ " " ++ name) method.parameters parameters ∧
    HasLine ("    public static " ++ returns ++ " " ++ method.name ++ "(" ++
      ", ".intercalate parameters ++ ") \x7b") text

section Overloads

variable {f : Package.Function} {invokeOptions : String} {family : OverloadFamily}
  {c : QualifiedName}

theorem declares_emptyOverload :
    Declares ⟨family.method, []⟩ (emptyOverload f invokeOptions family) := by
  refine ⟨family.returns, [], .nil, (hasLine_of_mem ?_).behind _⟩
  exact List.mem_cons.2 (.inl (by simp [String.append_assoc, toString]))

theorem declares_argumentsOverload (hc : CanGive (reference c) family.arguments) :
    Declares ⟨family.method, [c]⟩ (argumentsOverload f invokeOptions family) := by
  refine ⟨family.returns, [family.arguments ++ " " ++ "args"],
    .cons ⟨family.arguments, "args", hc, rfl⟩ .nil, (hasLine_of_mem ?_).behind _⟩
  exact List.mem_cons.2 (.inl (by simp [String.append_assoc, toString]))

theorem declares_optionsOverload {callee call : String}
    (hc : CanGive (reference c) family.arguments)
    (hoptions : CanGive (reference Library.invokeOptions) invokeOptions) :
    Declares ⟨family.method, [c, Library.invokeOptions]⟩
      (optionsOverload f invokeOptions callee call family) := by
  refine ⟨family.returns, [family.arguments ++ " " ++ "args", invokeOptions ++ " " ++ "options"],
    .cons ⟨family.arguments, "args", hc, rfl⟩
      (.cons ⟨invokeOptions, "options", hoptions, rfl⟩ .nil), (hasLine_of_mem ?_).behind _⟩
  exact List.mem_cons.2 (.inl (by simp [String.append_assoc, toString]))

end Overloads

/-- The overloads of a function declare its methods one after another. -/
theorem exists_pieces_of_overloads (h : CanGive (overloads m s) text) :
    ∃ pieces, List.Forall₂ Declares s.methods pieces ∧ text = String.join pieces := by
  unfold overloads at h
  obtain ⟨output, -, h⟩ := canGive_bind h
  obtain ⟨future, -, h⟩ := canGive_bind h
  obtain ⟨invokeOptions, hoptions, h⟩ := canGive_bind h
  obtain ⟨deployment, -, h⟩ := canGive_bind h
  obtain ⟨utilities, -, h⟩ := canGive_bind h
  obtain ⟨result, -, h⟩ := canGive_bind h
  obtain ⟨resultDescriptor, -, h⟩ := canGive_bind h
  obtain ⟨arguments, harguments, h⟩ := canGive_bind h
  obtain ⟨plainArguments, hplain, h⟩ := canGive_bind h
  have hfamilies (returns plainReturns : String) : List.Forall₂
      (fun pair (family : OverloadFamily) =>
        family.method = pair.1 ∧ CanGive (reference pair.2) family.arguments) s.families
      [⟨s.method, returns, arguments, "invoke"⟩,
        ⟨s.method ++ "Plain", plainReturns, plainArguments, "invokeAsync"⟩] :=
    .cons ⟨rfl, harguments⟩ (.cons ⟨rfl, hplain⟩ .nil)
  refine ⟨_, List.rel_append (List.rel_append ?_ ?_) ?_, (canGive_pure h).symm⟩
  · unfold FunctionSignature.isCallable
    split
    · refine List.forall₂_map_left_iff.2 (List.forall₂_map_right_iff.2 ?_)
      exact (hfamilies _ _).imp fun pair family ⟨hname, _⟩ => hname ▸ declares_emptyOverload
    · exact .nil
  · refine List.forall₂_map_left_iff.2 (List.forall₂_map_right_iff.2 ?_)
    exact (hfamilies _ _).imp fun pair family ⟨hname, hclass⟩ =>
      hname ▸ declares_argumentsOverload hclass
  · refine List.forall₂_map_left_iff.2 (List.forall₂_map_right_iff.2 ?_)
    exact (hfamilies _ _).imp fun pair family ⟨hname, hclass⟩ =>
      hname ▸ declares_optionsOverload hclass hoptions

/-- Pieces of pieces are pieces. -/
theorem exists_pieces_flatMap {α β : Type} {R : β → String → Prop} {f : α → List β} {xs : List α}
    {texts : List String} (h : List.Forall₂ (fun x text => ∃ pieces,
      List.Forall₂ R (f x) pieces ∧ text = String.join pieces) xs texts) :
    ∃ pieces, List.Forall₂ R (xs.flatMap f) pieces ∧ String.join texts = String.join pieces := by
  induction h with
  | nil => exact ⟨[], .nil, rfl⟩
  | @cons x text xs texts hx _ ih =>
    obtain ⟨first, hfirst, rfl⟩ := hx
    obtain ⟨rest, hrest, htexts⟩ := ih
    refine ⟨first ++ rest, List.rel_append hfirst hrest, ?_⟩
    rw [String.join_cons, String.join_append, htexts]

/-- The text of a class declares the methods of all its functions. -/
theorem hasPieces_of_text {name : QualifiedName} {signatures : List FunctionSignature}
    (h : CanGive (FunctionsClass.text m name signatures) text) :
    HasPieces Declares (signatures.flatMap FunctionSignature.methods) text := by
  unfold FunctionsClass.text at h
  obtain ⟨texts, htexts, h⟩ := canGive_bind h
  obtain ⟨pieces, hpieces, hjoin⟩ := exists_pieces_flatMap
    ((forall₂_of_canGive_mapM htexts).imp fun s text hs => exists_pieces_of_overloads hs)
  exact ⟨_, pieces, _, hpieces, hjoin ▸ (canGive_pure h).symm⟩

theorem exists_main_of_emit {name : QualifiedName} {group : List Package.Function}
    {es : List Emitted} (h : FunctionsClass.emit m name group = .ok es) :
    ∃ signatures, group.mapM (signature m) = .ok signatures ∧ ∃ main ∈ es,
      main.file.path = classPath name ∧
      HasPieces Declares (signatures.flatMap FunctionSignature.methods) main.file.text := by
  obtain ⟨signatures, hsignatures, hdrafts⟩ := exists_bodies_of_emit h
  obtain ⟨main, hmem, hmain⟩ := exists_of_mem_of_mapM hdrafts List.mem_cons_self
  have hfinishes := (requestFrame m).finishes_draft
    ((requestFrame m).keeps_functionsBodies hsignatures _ List.mem_cons_self) hmain
  obtain ⟨body, hbody, front, hfront⟩ := canGive_of_draftClass hmain
  have hpieces := (hasPieces_of_text hbody).within front ""
  rw [String.append_empty, ← hfront] at hpieces
  exact ⟨signatures, hsignatures, main, hmem, hfinishes.path_eq, hpieces⟩

end FunctionsClass

namespace FunctionSignature

variable {m : TypeMapper} {f g : Package.Function} {s t : FunctionSignature}

/-- A function's arguments have classes of its own, or the one for no arguments. -/
theorem class_of_mem_families {family : String × QualifiedName}
    (h : FunctionsClass.signature m f = .ok s) (hfamily : family ∈ s.families) :
    family.2 ∈ s.argumentNames ∧ family.2 ≠ Library.invokeArgs ∨
      s.isCallable = true ∧ family.2 = Library.invokeArgs := by
  have hclass : family.2 = s.arguments ∨ family.2 = s.plainArguments := by
    rcases List.mem_cons.1 hfamily with rfl | hfamily
    · exact .inl rfl
    · exact .inr (congrArg Prod.snd (List.mem_singleton.1 hfamily))
  obtain ⟨token, -, h⟩ := bind_eq_ok.1 h
  obtain rfl := pure_eq_ok.1 h
  unfold argumentNames isCallable FunctionsClass.isCallableWithoutArguments
  dsimp only at hclass ⊢
  cases hinputs : f.inputs with
  | none =>
    simp only [hinputs, Option.isSome_none, Bool.false_eq_true, if_false, or_self] at hclass
    exact .inr ⟨rfl, hclass⟩
  | some inputs =>
    simp only [hinputs, Option.isSome_some, if_true] at hclass ⊢
    refine .inl ⟨by simp [hclass], ?_⟩
    -- they live in a package for inputs, and that one does not
    have hinputs (module : QualifiedName) (base : String) :
        (module.append inputsSegment).append base ≠ Library.invokeArgs := by
      intro heq
      have hlast := congrArg (fun name : QualifiedName => name.segments.getLast?) heq
      simp [QualifiedName.append, inputsSegment, Library.invokeArgs] at hlast
    rcases hclass with hclass | hclass
    · exact hclass ▸ hinputs _ _
    · exact hclass ▸ hinputs _ _

/-- Functions with arguments of their own share a method only if none of them need be given. -/
theorem shares_iff (hs : FunctionsClass.signature m f = .ok s)
    (ht : FunctionsClass.signature m g = .ok t)
    (hdisjoint : List.Disjoint s.argumentNames t.argumentNames) :
    (∃ method ∈ s.methods, method ∈ t.methods) ↔
      s.isCallable = true ∧ t.isCallable = true ∧ NamesMeet s t := by
  constructor
  · rintro ⟨method, hmethod, hother⟩
    obtain ⟨family, hfamily, hname, hparameters⟩ := mem_methods_iff.1 hmethod
    obtain ⟨other, hmem, hname', hparameters'⟩ := mem_methods_iff.1 hother
    have hmeet : NamesMeet s t :=
      namesMeet_iff.2 ⟨family, hfamily, other, hmem, hname.symm.trans hname'⟩
    have hshared : (s.isCallable = true ∧ t.isCallable = true) ∨ family.2 = other.2 := by
      rcases hparameters with ⟨hscall, hnil⟩ | hone | htwo
      · rcases hparameters' with ⟨htcall, -⟩ | hone | htwo
        · exact .inl ⟨hscall, htcall⟩
        · simp [hnil] at hone
        · simp [hnil] at htwo
      · exact .inr (by simpa [hone] using hparameters')
      · exact .inr (by simpa [htwo] using hparameters')
    rcases hshared with ⟨hscall, htcall⟩ | hclass
    · exact ⟨hscall, htcall, hmeet⟩
    · rcases class_of_mem_families hs hfamily with ⟨hown, hne⟩ | ⟨hscall, heq⟩
      · rcases class_of_mem_families ht hmem with ⟨hown', -⟩ | ⟨-, heq'⟩
        · exact absurd (hclass ▸ hown') (hdisjoint hown)
        · exact absurd (hclass.trans heq') hne
      · rcases class_of_mem_families ht hmem with ⟨-, hne⟩ | ⟨htcall, -⟩
        · exact absurd (hclass.symm.trans heq) hne
        · exact ⟨hscall, htcall, hmeet⟩
  · rintro ⟨hscall, htcall, hmeet⟩
    obtain ⟨family, hfamily, other, hmem, hname⟩ := namesMeet_iff.1 hmeet
    exact ⟨⟨family.1, []⟩, mem_methods_iff.2 ⟨family, hfamily, rfl, .inl ⟨hscall, rfl⟩⟩,
      mem_methods_iff.2 ⟨other, hmem, hname, .inl ⟨htcall, rfl⟩⟩⟩

end FunctionSignature

end SchemaToJava.Java
