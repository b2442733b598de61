import SchemaToJava.Java.Imports
import SchemaToJava.Java.Doc
import SchemaToJava.Proofs.Dictionaries
import SchemaToJava.Proofs.DottedNames

/-!
The imports of a file over a whole sequence of requests. A short name keeps the class that it was
bound to first, so every text that was ever given for a class stays right. The texts given for
different classes differ, and a class with a short text is the file's own, needs no import, or is
imported on one line. The lines are in the order of the names they import, which is not always the
order of the lines as texts.
-/
namespace SchemaToJava.Java.Imports

open Std

/-- What the rest of a file asks of its imports. -/
inductive Request where
  | bind (name : QualifiedName)
  | reference (name : QualifiedName)
  | importStatic (member : QualifiedName)
deriving DecidableEq, Repr

def Request.name : Request → QualifiedName
  | bind name => name
  | reference name => name
  | importStatic member => member

/-- Grants a request; binding a name gives no text. -/
def grant (i : Imports) : Request → Except GenerationError (Option String × Imports)
  | .bind name => do return (none, ← i.bind name)
  | .reference name => do
    let (text, i) ← i.reference name
    return (some text, i)
  | .importStatic member => do
    let (text, i) ← i.importStatic member
    return (some text, i)

/-- A request and what came of it. -/
structure Answer where
  request : Request
  outcome : Except GenerationError (Option String)

def Answer.isGranted (a : Answer) : Bool :=
  match a.outcome with
  | .ok _ => true
  | .error _ => false

/-- Answers a request. One that is refused changes nothing. -/
def answer (i : Imports) (r : Request) : Answer × Imports :=
  match i.grant r with
  | .ok (text, i) => (⟨r, .ok text⟩, i)
  | .error e => (⟨r, .error e⟩, i)

def answers (i : Imports) : List Request → List Answer × Imports
  | [] => ([], i)
  | r :: rest =>
    let (first, i) := i.answer r
    let (later, i) := i.answers rest
    (first :: later, i)

def importLine (name : String) : String := "import " ++ name ++ ";"

def regularLines (i : Imports) : List String := i.imported.map importLine

def staticLines (i : Imports) : List String :=
  i.statics.keys.map fun member => "import static " ++ member.dotted ++ ";"

/-- The blank line between static and regular imports, where there are both. -/
def gap (i : Imports) : String :=
  if i.staticLines.isEmpty || i.regularLines.isEmpty then "" else "\n"

/-- The text is made of the static lines, the gap and the regular lines. -/
theorem text_eq (i : Imports) :
    i.text = sourceLines i.staticLines ++ i.gap ++ sourceLines i.regularLines := by
  have hend : ";" ++ "\n" = ";\n" := by decide
  simp only [text, gap, staticLines, regularLines, sourceLines, importLine, List.map_map,
    Function.comp_def, List.isEmpty_map, String.append_assoc, hend]

/-- The later table keeps every binding of the earlier one. -/
structure ExtendsTo (i j : Imports) : Prop where
  owner : j.owner = i.owner
  implicit : j.implicit = i.implicit
  bound : ∀ {short name}, i.names.get? short = some name → j.names.get? short = some name

theorem ExtendsTo.refl (i : Imports) : i.ExtendsTo i := ⟨rfl, rfl, id⟩

theorem ExtendsTo.trans {i j k : Imports} (h : i.ExtendsTo j) (h' : j.ExtendsTo k) :
    i.ExtendsTo k :=
  ⟨h'.owner.trans h.owner, h'.implicit.trans h.implicit, fun hn => h'.bound (h.bound hn)⟩

/-- What a claim binds: the short name of the class, unless that is bound already. -/
theorem get?_claim (i : Imports) (name : QualifiedName) (short : String) :
    (i.claim name).names.get? short =
      if short = name.base ∧ i.names.get? short = none then some name else i.names.get? short := by
  unfold claim Dictionary.contains
  by_cases hs : short = name.base
  · subst hs
    cases hget : i.names.get? name.base with
    | none => simp [Dictionary.get?_insert_self]
    | some old => simp [hget]
  · cases hget : i.names.get? name.base with
    | none => simp [hs, Dictionary.get?_insert_of_ne _ hs]
    | some old => simp [hs]

theorem claim_extends (i : Imports) (name : QualifiedName) : i.ExtendsTo (i.claim name) := by
  refine ⟨?_, ?_, ?_⟩
  · unfold claim
    split <;> rfl
  · unfold claim
    split <;> rfl
  · intro short bound h
    rw [get?_claim, if_neg (by simp [h]), h]

theorem note_extends (i : Imports) (name : QualifiedName) : i.ExtendsTo (i.note name) :=
  ⟨rfl, rfl, id⟩

/-- After a claim the short name of the class is bound. -/
theorem claim_binds (i : Imports) (name : QualifiedName) :
    ∃ bound, (i.claim name).names.get? name.base = some bound := by
  rw [get?_claim]
  cases i.names.get? name.base <;> simp

def permits (i : Imports) (name : QualifiedName) : Bool := i.isImplicit name || name.isQualified

theorem reference_eq (i : Imports) (name : QualifiedName) :
    i.reference name =
      if i.permits name then .ok ((i.claim name).textOf name, (i.claim name).note name)
      else .error (.unqualifiedImport name.dotted) := by
  unfold reference bind permits
  cases himplicit : i.isImplicit name <;> cases hqualified : name.isQualified <;> rfl

/-- What an answer leaves behind: a refused request nothing, any other a claim of its class, which
may be noted, or one more static member. -/
theorem answer_cases (i : Imports) (r : Request) :
    (∃ e, i.answer r = (⟨r, .error e⟩, i)) ∨
      ∃ text j, i.answer r = (⟨r, .ok text⟩, j) ∧
        ((∃ given, j = { i.claim r.name with given }) ∨ ∃ statics, j = { i with statics }) := by
  cases r with
  | bind name =>
    by_cases h : name.isQualified
    · exact .inr ⟨none, i.claim name, by simp [answer, grant, bind, h], .inl ⟨_, rfl⟩⟩
    · exact .inl ⟨.unqualifiedImport name.dotted, by simp [answer, grant, bind, h]⟩
  | reference name =>
    by_cases h : i.permits name
    · exact .inr ⟨some ((i.claim name).textOf name), (i.claim name).note name,
        by simp [answer, grant, reference_eq, h], .inl ⟨_, rfl⟩⟩
    · exact .inl ⟨.unqualifiedImport name.dotted, by simp [answer, grant, reference_eq, h]⟩
  | importStatic member =>
    by_cases h : member.isQualified
    · exact .inr ⟨some member.base, { i with statics := i.statics.insert member () },
        by simp [answer, grant, importStatic, h], .inr ⟨_, rfl⟩⟩
    · exact .inl ⟨.unqualifiedImport member.dotted, by simp [answer, grant, importStatic, h]⟩

theorem answer_extends (i : Imports) (r : Request) : i.ExtendsTo (i.answer r).2 := by
  obtain ⟨e, h⟩ | ⟨text, j, h, ⟨given, rfl⟩ | ⟨statics, rfl⟩⟩ := i.answer_cases r
  · exact h ▸ .refl i
  · have hclaim := i.claim_extends r.name
    exact h ▸ ⟨hclaim.owner, hclaim.implicit, hclaim.bound⟩
  · exact h ▸ ⟨rfl, rfl, id⟩

theorem answers_cons (i : Imports) (r : Request) (rest : List Request) :
    i.answers (r :: rest) =
      ((i.answer r).1 :: ((i.answer r).2.answers rest).1, ((i.answer r).2.answers rest).2) := rfl

theorem answers_extends (i : Imports) (rs : List Request) : i.ExtendsTo (i.answers rs).2 := by
  induction rs generalizing i with
  | nil => exact .refl i
  | cons r rest ih => exact (i.answer_extends r).trans (ih _)

theorem textOf_eq_of_extends {i j : Imports} (h : i.ExtendsTo j) {name bound : QualifiedName}
    (hb : i.names.get? name.base = some bound) : j.textOf name = i.textOf name := by
  rw [textOf, textOf, h.bound hb, hb]

theorem permits_eq_of_extends {i j : Imports} (h : i.ExtendsTo j) (name : QualifiedName) :
    j.permits name = i.permits name := by
  rw [permits, permits, isImplicit, isImplicit, h.implicit]

/-- The text for a class that was asked for at any moment is the text that the final table has for
it, and by then its short name is bound. A class that was refused once is refused always. -/
theorem outcome_of_mem {i : Imports} {rs : List Request} {name : QualifiedName}
    {outcome : Except GenerationError (Option String)}
    (ha : ⟨.reference name, outcome⟩ ∈ (i.answers rs).1) :
    if i.permits name then
      outcome = .ok (some ((i.answers rs).2.textOf name)) ∧
        ∃ bound, (i.answers rs).2.names.get? name.base = some bound
    else outcome = .error (.unqualifiedImport name.dotted) := by
  induction rs generalizing i with
  | nil => cases ha
  | cons r rest ih =>
    rw [answers_cons] at ha ⊢
    rcases List.mem_cons.1 ha with hfirst | hlater
    · obtain ⟨bound, hbound⟩ := i.claim_binds name
      have hr : r = .reference name := by
        obtain ⟨e, h⟩ | ⟨text, j, h, -⟩ := i.answer_cases r
        · rw [h] at hfirst
          cases hfirst
          rfl
        · rw [h] at hfirst
          cases hfirst
          rfl
      subst hr
      by_cases h : i.permits name
      · have hanswer : i.answer (.reference name) =
            (⟨.reference name, .ok (some ((i.claim name).textOf name))⟩,
              (i.claim name).note name) := by
          simp [answer, grant, reference_eq, h]
        rw [hanswer] at hfirst ⊢
        cases hfirst
        have hext := ((i.claim name).note_extends name).trans
          (((i.claim name).note name).answers_extends rest)
        rw [if_pos h, textOf_eq_of_extends hext hbound]
        exact ⟨rfl, bound, hext.bound hbound⟩
      · rw [if_neg h]
        simp [answer, grant, reference_eq, h] at hfirst
        exact hfirst
    · have hstep := ih hlater
      rwa [permits_eq_of_extends (i.answer_extends r)] at hstep

theorem granted_of_mem {i : Imports} {rs : List Request} {name : QualifiedName} {text : String}
    (ha : ⟨.reference name, .ok (some text)⟩ ∈ (i.answers rs).1) :
    i.permits name = true ∧ (i.answers rs).2.textOf name = text := by
  have h := outcome_of_mem ha
  split at h
  · next hpermits =>
    cases h.1
    exact ⟨hpermits, rfl⟩
  · cases h

/-- Proper names with the same text are the same. -/
theorem textOf_inj {i : Imports} {a b : QualifiedName} (ha : a.IsProper) (hb : b.IsProper)
    (h : i.textOf a = i.textOf b) : a = b := by
  unfold textOf at h
  split at h <;> split at h
  · next hga hgb =>
    rw [h, hgb] at hga
    exact (Option.some.inj hga).symm
  · exact absurd h (ha.base_ne_dotted hb)
  · exact absurd h.symm (hb.base_ne_dotted ha)
  · exact ha.dotted_inj hb h

/-- A proper name whose text is short is bound to its short name. -/
theorem get?_of_textOf_eq_base {i : Imports} {name : QualifiedName} (hname : name.IsProper)
    (h : i.textOf name = name.base) : i.names.get? name.base = some name := by
  unfold textOf at h
  split at h
  · assumption
  · exact absurd h.symm (hname.base_ne_dotted hname)

/-- Each short name stands for a class that has it: the file's own class or a proper name. -/
structure IsConsistent (i : Imports) : Prop where
  base : ∀ {short name}, i.names.get? short = some name → name.base = short
  proper : ∀ {short name}, i.names.get? short = some name → name ≠ i.owner → name.IsProper

/-- At first only the file's own class is bound. -/
theorem get?_forOwner {owner : QualifiedName} {implicit : List String} {short : String}
    {name : QualifiedName} (h : (forOwner owner implicit).names.get? short = some name) :
    short = owner.base ∧ name = owner := by
  by_cases hs : short = owner.base
  · subst hs
    have hget : some owner = some name := (Dictionary.get?_insert_self ..).symm.trans h
    exact ⟨rfl, (Option.some.inj hget).symm⟩
  · have hget : Dictionary.empty.get? short = some name :=
      (Dictionary.get?_insert_of_ne _ hs owner).symm.trans h
    cases hget

theorem forOwner_consistent (owner : QualifiedName) (implicit : List String) :
    (forOwner owner implicit).IsConsistent := by
  constructor
  · intro short name h
    obtain ⟨rfl, rfl⟩ := get?_forOwner h
    rfl
  · intro short name h hne
    exact absurd (get?_forOwner h).2 hne

/-- Claiming a short name keeps the table consistent. -/
theorem claim_consistent {i : Imports} (h : i.IsConsistent) {name : QualifiedName}
    (hname : name.IsProper) : (i.claim name).IsConsistent := by
  have howner := (i.claim_extends name).owner
  constructor
  · intro short bound hb
    rw [get?_claim] at hb
    split at hb
    · next hfree =>
      cases hb
      exact hfree.1.symm
    · exact h.base hb
  · intro short bound hb hne
    rw [get?_claim] at hb
    split at hb
    · cases hb
      exact hname
    · exact h.proper hb (howner ▸ hne)

theorem answer_consistent {i : Imports} (h : i.IsConsistent) {r : Request}
    (hr : (i.answer r).1.isGranted → r.name.IsProper) :
    (i.answer r).2.IsConsistent := by
  obtain ⟨e, ha⟩ | ⟨text, j, ha, ⟨given, rfl⟩ | ⟨statics, rfl⟩⟩ := i.answer_cases r
  · exact ha ▸ h
  · rw [ha] at hr ⊢
    have hclaim := claim_consistent h (hr rfl)
    exact ⟨hclaim.base, hclaim.proper⟩
  · exact ha ▸ ⟨h.base, h.proper⟩

theorem answers_consistent {i : Imports} (h : i.IsConsistent) {rs : List Request}
    (hrs : ∀ a ∈ (i.answers rs).1, a.isGranted → a.request.name.IsProper) :
    (i.answers rs).2.IsConsistent := by
  induction rs generalizing i with
  | nil => exact h
  | cons r rest ih =>
    rw [answers_cons] at hrs ⊢
    have hrequest : (i.answer r).1.request = r := by
      obtain ⟨e, ha⟩ | ⟨text, j, ha, -⟩ := i.answer_cases r <;> rw [ha]
    refine ih (answer_consistent h fun hg => ?_) fun a ha => hrs a (List.mem_cons_of_mem _ ha)
    exact hrequest ▸ hrs _ List.mem_cons_self hg

theorem mem_imported_iff {i : Imports} {text : String} :
    text ∈ i.imported ↔ ∃ short name, i.names.get? short = some name ∧ name ≠ i.owner ∧
      i.isImplicit name = false ∧ name.dotted = text := by
  simp only [imported, Dictionary.mem_keys_ofList, List.map_map, List.mem_map, List.mem_filter,
    Dictionary.mem_values_iff, Function.comp_apply, Bool.and_eq_true, bne_iff_ne, ne_eq,
    Bool.not_eq_true']
  constructor
  · rintro ⟨name, ⟨⟨short, hget⟩, hne, himplicit⟩, htext⟩
    exact ⟨short, name, hget, hne, himplicit, htext⟩
  · rintro ⟨short, name, hget, hne, himplicit, htext⟩
    exact ⟨name, ⟨⟨short, hget⟩, hne, himplicit⟩, htext⟩

/-- The imported names ascend. -/
theorem imported_ascending (i : Imports) : i.imported.Pairwise (· < ·) := by
  refine List.pairwise_map.2 ((Dictionary.ofList _).ascending.imp ?_)
  intro a b h
  exact compareOfLessAndEq_eq_lt.1 h

/-- No two imported names have the same short name. -/
theorem imported_base_ne {i : Imports} (h : i.IsConsistent) :
    i.imported.Pairwise fun a b =>
      (QualifiedName.ofDotted a).base ≠ (QualifiedName.ofDotted b).base := by
  refine i.imported_ascending.imp_of_mem ?_
  intro a b ha hb hlt heq
  obtain ⟨short, name, hget, hne, -, rfl⟩ := mem_imported_iff.1 ha
  obtain ⟨short', name', hget', hne', -, rfl⟩ := mem_imported_iff.1 hb
  rw [(h.proper hget hne).ofDotted_dotted, (h.proper hget' hne').ofDotted_dotted,
    h.base hget, h.base hget'] at heq
  subst heq
  cases hget.symm.trans hget'
  exact String.lt_irrefl _ hlt

theorem importLine_injective : Function.Injective importLine := by
  intro a b h
  simpa [importLine] using h

/-- The line of an imported name occurs once. -/
theorem count_importLine {i : Imports} {name : String} (h : name ∈ i.imported) :
    i.regularLines.count (importLine name) = 1 := by
  refine List.count_eq_one_of_mem ?_ (List.mem_map_of_mem h)
  exact (i.imported_ascending.imp String.ne_of_lt).map importLine fun _ _ hne =>
    importLine_injective.ne hne

/-- What holds of the answers that a file got and of the imports that it ends with. -/
structure Accord (owner : QualifiedName) (implicit : List String) (all : List Answer)
    (final : Imports) : Prop where
  /-- A class that was referred to once has the same text at every other reference. -/
  stable : ∀ {name text outcome}, ⟨.reference name, .ok (some text)⟩ ∈ all →
    ⟨.reference name, outcome⟩ ∈ all → outcome = .ok (some text)
  /-- Different classes have different texts. -/
  distinct : ∀ {name other text}, ⟨.reference name, .ok (some text)⟩ ∈ all →
    ⟨.reference other, .ok (some text)⟩ ∈ all → name = other
  /-- A class with a short text is the one that its short name stands for, and is known to the file
  or imported on one line. -/
  short : ∀ {name}, ⟨.reference name, .ok (some name.base)⟩ ∈ all →
    final.resolve name.base = name ∧
      (name = owner ∨ implicit.contains name.packageName = true ∨
        final.regularLines.count (importLine name.dotted) = 1)
  /-- The text is made of the static lines, the gap and the regular lines. -/
  layout : final.text =
    sourceLines final.staticLines ++ final.gap ++ sourceLines (final.imported.map importLine)
  /-- The names on the regular lines ascend, and no two of them have the same short name. -/
  ordered : final.imported.Pairwise fun a b =>
    a < b ∧ (QualifiedName.ofDotted a).base ≠ (QualifiedName.ofDotted b).base

/-- However a file asks for classes with proper names, and however many requests are refused, its
references agree with each other and with its imports. -/
theorem answers_accord (owner : QualifiedName) (implicit : List String) (requests : List Request)
    (hnames : ∀ a ∈ ((forOwner owner implicit).answers requests).1,
      a.isGranted → a.request.name.IsProper) :
    Accord owner implicit ((forOwner owner implicit).answers requests).1
      ((forOwner owner implicit).answers requests).2 := by
  have hext := (forOwner owner implicit).answers_extends requests
  have hconsistent := answers_consistent (forOwner_consistent owner implicit) hnames
  constructor
  · intro name text outcome ha hb
    obtain ⟨hpermits, htext⟩ := granted_of_mem ha
    have h := outcome_of_mem hb
    rw [if_pos hpermits, htext] at h
    exact h.1
  · intro name other text ha hb
    have heq := (granted_of_mem ha).2.trans (granted_of_mem hb).2.symm
    exact textOf_inj (hnames _ ha rfl) (hnames _ hb rfl) heq
  · intro name ha
    have hname : name.IsProper := hnames _ ha rfl
    have hget := get?_of_textOf_eq_base hname (granted_of_mem ha).2
    refine ⟨by rw [resolve, hget, Option.getD_some], ?_⟩
    by_cases howner : name = owner
    · exact .inl howner
    by_cases himplicit : implicit.contains name.packageName = true
    · exact .inr (.inl himplicit)
    refine .inr (.inr (count_importLine (mem_imported_iff.2 ⟨_, name, hget, ?_, ?_, rfl⟩)))
    · exact hext.owner ▸ howner
    · rw [isImplicit, hext.implicit]
      exact Bool.not_eq_true _ ▸ himplicit
  · exact text_eq _
  · exact (imported_ascending _).and (imported_base_ne hconsistent)

/-- Two classes of one short name, a class of the file's own short name, one that needs no import,
a static member, and a name outside any package, which is refused. -/
theorem answers_accord_of_conflict :
    let owner : QualifiedName := ⟨["com", "pulumi", "pkg"], "Owner"⟩
    let requests : List Request :=
      [.bind ⟨["a"], "A"⟩, .reference ⟨["b"], "A"⟩, .reference ⟨[], "A"⟩, .reference ⟨["a"], "A"⟩,
        .reference ⟨["b"], "Owner"⟩, .reference ⟨["java", "lang"], "String"⟩,
        .importStatic ⟨["a", "A"], "of"⟩]
    let run := (forOwner owner ["java.lang"]).answers requests
    (∀ a ∈ run.1, a.isGranted → a.request.name.IsProper) ∧
      run.2.text = "import static a.A.of;\n\nimport a.A;\n" ∧
      Accord owner ["java.lang"] run.1 run.2 := by
  intro owner requests run
  have hnames : ∀ a ∈ run.1, a.isGranted → a.request.name.IsProper := by decide +kernel
  exact ⟨hnames, by decide +kernel, answers_accord owner ["java.lang"] requests hnames⟩

/-- As texts, the import lines of two classes need not ascend: a digit comes before the semicolon
that ends the shorter name. -/
theorem regularLines_not_ascending :
    let requests : List Request := [.reference ⟨["a"], "A"⟩, .reference ⟨["a"], "A1"⟩]
    let run := (forOwner ⟨["com", "pulumi", "pkg"], "Owner"⟩ ["java.lang"]).answers requests
    (∀ r ∈ requests, r.name.IsProper) ∧
      run.2.regularLines = ["import a.A;", "import a.A1;"] ∧
      run.2.text = sourceLines run.2.regularLines ∧
      ¬ run.2.regularLines.Pairwise (· < ·) := by
  decide +kernel

end SchemaToJava.Java.Imports
