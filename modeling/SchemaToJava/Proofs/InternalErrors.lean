import SchemaToJava.Proofs.AllowedErrors
import SchemaToJava.Proofs.MappingErrors

/-!
Generation never fails for a reason of its own. All classes that its sources refer to live in
packages, whatever the options of the packages are, so that each of them can be imported; a class is
only taken from the queue while one is pending; and what is taken from it is an object type of the
package. What is left are failures that tell of the package or of its options.
-/
namespace SchemaToJava.Java

open Package Outcome

/-- A type that cannot be mapped is no internal failure. -/
theorem TypeMapper.FailsAt.isInternal {m : TypeMapper} {n : ResolvedType} {e : GenerationError}
    (h : m.FailsAt n e) : e.isInternal = false := by
  have hparse : ∀ {token : String}, parseToken token = .error e → e.isInternal = false := by
    intro token h
    unfold parseToken at h
    cases hp : Schema.Token.parse token with
    | ok t =>
      rw [hp] at h
      cases h
    | error failed =>
      rw [hp] at h
      cases h
      rfl
  cases h with
  | object h => exact hparse h
  | enum h => exact hparse h
  | resource h => exact hparse h
  | missingObject => rfl
  | missingEnum => rfl

/-- Writing a file fails for any reason but an internal one. -/
def reportingDiscipline (m : TypeMapper) : Discipline m where
  toDraftFrame := requestFrame m
  admits _ := True
  raises e := e.isInternal = false
  raises_other _ hreported _ := hreported
  raises_shape _ h := by
    obtain ⟨n, -, hfails⟩ := TypeMapper.exists_failsAt_of_typeShape h
    exact hfails.isInternal

theorem allows_parseToken (m : TypeMapper) (token : String) :
    (reportingDiscipline m).Allows (TypeMapper.parseToken token) := fun _ h =>
  (TypeMapper.FailsAt.resource h : m.FailsAt (.resource token) _).isInternal

theorem covers_reportingDiscipline (m : TypeMapper) : (reportingDiscipline m).Covers where
  properties _ _ := ⟨trivial, trivial⟩
  resources r _ := allows_parseToken m r.token
  functions f _ := allows_parseToken m f.token
  enums e _ := allows_parseToken m e.token

namespace Generation

variable {m : TypeMapper}

/-- Where a run of the loop stands after some turns, it goes on without a failure of its own. -/
structure GoesOn (m : TypeMapper) (p : Progress) : Prop where
  /-- Whichever class is taken next, its object type is found. -/
  finds : ∀ (r : ClassRequest) (queue : ClassQueue), p.queue.Takes r queue →
    ∃ o, m.package.object? r.source.token = some o
  /-- As long as a class is pending, one can be taken. -/
  takes : p.queue.isEmpty ≠ true → ∃ r queue, p.queue.pop = .ok (r, queue) ∧ p.queue.Takes r queue
  fails : p.queue.isEmpty ≠ true → ∀ e, turn m p = .error e → e.isInternal = false

/-- A run that keeps track has no failure of its own. -/
theorem Tracks.goesOn {members : List Emitted} {done : List Rendered} {p : Progress}
    (h : Tracks m members done p) : GoesOn m p where
  finds r queue htakes := by
    have hpending : r ∈ p.queue.pending := htakes.pending.mem_iff.2 List.mem_cons_self
    exact Option.isSome_iff_exists.1 (h.pendingServes r hpending).isObject
  takes hpending := by
    obtain ⟨r, queue, hpop⟩ := ClassQueue.exists_pop hpending
    exact ⟨r, queue, hpop, ClassQueue.takes_pop hpop⟩
  fails hpending := (covers_reportingDiscipline m).allows_turn (fun _ => rfl) h hpending

/-- Generating a package fails for no internal reason, neither as a whole nor anywhere in the loop
over its object classes. -/
structure NeverInternal (package : Package) (settings : Settings) : Prop where
  reports : ∀ e, generate package settings = .error e → e.isInternal = false
  goesOn : ∀ (m : TypeMapper) (start : Progress), TypeMapper.make package settings = .ok m →
    members m {} = .ok start → ∀ (taken : List Rendered) (p : Progress), Run m start taken p →
      m.package = package ∧ GoesOn m p

/-- No package and no settings lead generation into an internal error. -/
theorem neverInternal (package : Package) (settings : Settings) :
    NeverInternal package settings where
  reports e h := by
    cases hm : TypeMapper.make package settings with
    | error failed =>
      unfold generate at h
      rw [hm] at h
      cases h
      rw [languageOptions_of_make hm]
      rfl
    | ok m =>
      obtain rfl := package_of_make hm
      exact (covers_reportingDiscipline m).allows_generate (fun _ => rfl) hm e h
  goesOn m start hm hstart taken p hrun := by
    obtain ⟨members, hmembers, -⟩ := members_eq_ok.1 hstart
    exact ⟨package_of_make hm, ((tracks_members hmembers hstart).run hrun).goesOn⟩

end Generation

end SchemaToJava.Java
