import SchemaToJava.Proofs.InputFiles

/-!
The classes to read that are generated for a package: those of the results of its functions and of
its object types as they are requested. Each has a file.
-/
namespace SchemaToJava.Java

open Package Outcome

def ClassRequest.outputClass (r : ClassRequest) (o : ObjectType) : OutputClass :=
  ⟨r.name, o.description, o.properties⟩

/-- The class is one of the classes to read that are generated for the package, given which classes
of object types are requested. -/
inductive IsOutputClass (m : TypeMapper) (requested : ClassRequest → Prop) : OutputClass → Prop
  | result {f : Package.Function} {s : FunctionSignature} {outputs : List Property} :
      f ∈ m.package.functions → FunctionsClass.signature m f = .ok s → f.outputs = some outputs →
      IsOutputClass m requested { name := s.result, properties := outputs }
  | object {r : ClassRequest} {o : ObjectType} : requested r → r.direction = .output →
      m.package.object? r.source.token = some o → IsOutputClass m requested (r.outputClass o)

/-- A class to read is one of the classes of the package. -/
theorem IsOutputClass.isClassBody {m : TypeMapper} {requested : ClassRequest → Prop}
    {bodies : List ClassBody} (hbodies : Generation.memberBodies m = .ok bodies) {c : OutputClass}
    (hc : IsOutputClass m requested c) : Generation.IsClassBody m requested (c.body m) := by
  cases hc with
  | @result f s outputs hf hs houtputs =>
    obtain rfl := FunctionsClass.function_of_signature hs
    refine .member (Generation.isMemberBody_of_signature hbodies hf hs ?_)
    simp [FunctionSignature.bodies, FunctionSignature.resultBodies, houtputs]
  | @object r o hrequested hdirection ho =>
    refine .object hrequested ?_
    unfold Generation.objectBody
    rw [ho, hdirection]
    rfl

end SchemaToJava.Java
