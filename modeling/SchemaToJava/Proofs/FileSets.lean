import Mathlib.Data.List.Induction
import SchemaToJava.Java.FileSet
import SchemaToJava.Proofs.Dictionaries
import SchemaToJava.Proofs.Outcomes

/-!
Sets of generated files. A set holds a list of files when its entries are those files in some
order; since no path is written twice, a file can be added exactly when the longer list still has a
set that holds it.
-/
namespace SchemaToJava.Java.FileSet

open Outcome

/-- The files of the set are the listed ones, in any order. -/
def Holds (files : FileSet) (listed : List SourceFile) : Prop :=
  files.entries.Perm (listed.map fun f => (f.path, f.text))

variable {files files' : FileSet} {listed : List SourceFile}

theorem Holds.perm (h : files.Holds listed) {others : List SourceFile}
    (hperm : listed.Perm others) : files.Holds others :=
  List.Perm.trans h (hperm.map _)

/-- What a set holds determines it. -/
theorem Holds.eq (h : files.Holds listed) (h' : files'.Holds listed) : files = files' :=
  Dictionary.ext_perm (List.Perm.trans h (List.Perm.symm h'))

theorem Holds.keys_perm (h : files.Holds listed) :
    files.keys.Perm (listed.map SourceFile.path) := by
  have hmap := List.Perm.map Prod.fst h
  rwa [List.map_map] at hmap

theorem Holds.nodup (h : files.Holds listed) : (listed.map SourceFile.path).Nodup :=
  h.keys_perm.nodup_iff.1 files.nodup_keys

theorem Holds.get?_iff (h : files.Holds listed) {path text : String} :
    files.get? path = some text ↔ ⟨path, text⟩ ∈ listed := by
  rw [Dictionary.get?_eq_some_iff, h.mem_iff, List.mem_map]
  constructor
  · rintro ⟨file, hfile, hentry⟩
    obtain ⟨rfl, rfl⟩ := Prod.mk.inj hentry
    exact hfile
  · exact fun hfile => ⟨_, hfile, rfl⟩

theorem holds_empty : FileSet.Holds .empty [] := .refl _

/-- A file is added exactly if the outcome holds it beside the others. -/
theorem add_eq_ok (h : files.Holds listed) {f : SourceFile} :
    files.add f = .ok files' ↔ files'.Holds (listed ++ [f]) := by
  have hperm : (listed ++ [f]).Perm (f :: listed) := List.perm_append_comm
  have hadded (hnew : files.contains f.path = false) :
      FileSet.Holds (Dictionary.insert files f.path f.text) (listed ++ [f]) := by
    have hcons : FileSet.Holds (Dictionary.insert files f.path f.text) (f :: listed) :=
      (Dictionary.insert_perm hnew f.text).trans (List.Perm.cons _ h)
    exact hcons.perm hperm.symm
  unfold add
  split
  · next hused =>
    constructor
    · intro hadd
      cases hadd
    · intro hheld
      have hmem := h.keys_perm.mem_iff.1 (Dictionary.contains_iff.1 hused)
      have hnodup := (hheld.perm hperm).nodup
      rw [List.map_cons, List.nodup_cons] at hnodup
      exact absurd hmem hnodup.1
  · next hnew =>
    have hadded := hadded (Bool.eq_false_iff.2 hnew)
    constructor
    · rintro ⟨⟩
      exact hadded
    · intro hheld
      rw [hadded.eq hheld]

/-- A file can be added when its path is new. -/
theorem exists_add (h : files.Holds listed) {f : SourceFile}
    (hnodup : ((listed ++ [f]).map SourceFile.path).Nodup) :
    ∃ files' : FileSet, files.add f = .ok files' := by
  unfold add
  split
  · next hused =>
    have hmem := h.keys_perm.mem_iff.1 (Dictionary.contains_iff.1 hused)
    rw [List.map_append, List.nodup_append] at hnodup
    exact absurd rfl (hnodup.2.2 _ hmem f.path (by simp))
  · exact ⟨_, rfl⟩

/-- Files with distinct paths make a set. -/
theorem exists_holds {listed : List SourceFile} (hnodup : (listed.map SourceFile.path).Nodup) :
    ∃ files : FileSet, files.Holds listed := by
  induction listed using List.reverseRecOn with
  | nil => exact ⟨_, holds_empty⟩
  | append_singleton listed f ih =>
    have hprefix := hnodup
    rw [List.map_append, List.nodup_append] at hprefix
    obtain ⟨files, hfiles⟩ := ih hprefix.1
    obtain ⟨files', hadded⟩ := exists_add hfiles hnodup
    exact ⟨files', (add_eq_ok hfiles).1 hadded⟩

theorem addAll_append (files : FileSet) (added others : List SourceFile) :
    files.addAll (added ++ others) = files.addAll added >>= fun files => files.addAll others :=
  List.foldlM_append

/-- Files are added exactly if the outcome holds them beside the others. -/
theorem addAll_eq_ok (h : files.Holds listed) {added : List SourceFile} :
    files.addAll added = .ok files' ↔ files'.Holds (listed ++ added) := by
  induction added generalizing files listed with
  | nil =>
    rw [addAll, List.foldlM_nil, pure_eq_ok, List.append_nil]
    constructor
    · rintro rfl
      exact h
    · exact h.eq
  | cons f rest ih =>
    rw [addAll, List.foldlM_cons, bind_eq_ok, List.append_cons]
    constructor
    · rintro ⟨middle, hmiddle, hrest⟩
      exact (ih ((add_eq_ok h).1 hmiddle)).1 hrest
    · intro hheld
      have hnodup := hheld.nodup
      rw [List.map_append, List.nodup_append] at hnodup
      obtain ⟨middle, hmiddle⟩ := exists_add h hnodup.1
      exact ⟨middle, hmiddle, (ih ((add_eq_ok h).1 hmiddle)).2 hheld⟩

end SchemaToJava.Java.FileSet
