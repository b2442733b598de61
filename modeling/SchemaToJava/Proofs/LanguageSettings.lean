import SchemaToJava.Proofs.AgreeingMappers
import SchemaToJava.Proofs.ReorderedDocuments

/-!
The settings for the target languages in a package. Only the options for Java are taken from them,
and these are read from a record, so neither the settings for other languages nor the order of
members in those for Java reach a generated file.
-/
namespace SchemaToJava.Schema

open Reading Json Java

section Options

theorem respects_textEntries (p : Place) (depth : Nat) :
    Respects p id (dictionaryOf readText depth) := by
  have hentries : Respects p (fun d : Dictionary String String => d.mapValues id)
      (dictionaryOf readText depth) :=
    respects_dictionaryOf fun d _ name => respects_readText (p.member name) d
  have hid : (fun d : Dictionary String String => d.mapValues id) = id :=
    funext fun _ => Dictionary.mapValues_eq_self fun _ => rfl
  rwa [hid] at hentries

theorem respectsFields_options (depth : Nat) :
    RespectsFields .other id (PackageOptions.fields depth) where
  reads := by
    simp only [PackageOptions.fields, List.forall_mem_cons]
    exact ⟨respectsField (respects_textEntries _ depth) fun _ _ => rfl,
      respectsField (respects_optionalText _ depth) fun _ _ => rfl,
      respectsField (respects_optionalText _ depth) fun _ _ => rfl,
      respectsField (respects_textEntries _ depth) fun _ _ => rfl,
      List.forall_mem_nil _⟩
  apart := by simp [PackageOptions.fields]

/-- Options are read from a tree in any order. -/
theorem result_of_reordered {n n' : Node} (h : Reordered .other n n') {options : PackageOptions}
    (hn : (recordOf PackageOptions.fields 2 n).result = .ok options) :
    (recordOf PackageOptions.fields 2 n').result = .ok options := by
  have hrecord : Respects .other id (recordOf PackageOptions.fields 2) :=
    respects_recordOf (fun d _ => respectsFields_options d) fun _ _ _ _ _ => rfl
  obtain ⟨options', hn', hsame⟩ := hrecord h (gives_of_result hn)
  obtain rfl : options' = options := hsame
  exact congrArg Read.result hn'

theorem recordOfValue_of_sorted {v w : Value} (hv : v.IsTidy) (hw : w.IsTidy)
    (hsorted : w.sorted = v.sorted) {options : PackageOptions}
    (h : recordOfValue PackageOptions.fields v = .ok options) :
    recordOfValue PackageOptions.fields w = .ok options := by
  -- the sorted value is an order of both
  have hmiddle := result_of_reordered (reordered_sorted hv).1 h
  rw [← hsorted] at hmiddle
  exact result_of_reordered (reordered_sorted hw).2 hmiddle

def IsTidyLanguage (language : Dictionary String Value) : Prop :=
  ∀ entry ∈ language.entries, entry.2.IsTidy

/-- The order of members in the settings for Java does not matter to the options. -/
theorem ofPackage_of_sorted {p : Package} {language : Dictionary String Value}
    (hp : IsTidyLanguage p.language) (hlanguage : IsTidyLanguage language)
    (hsorted : language.mapValues Value.sorted = p.language.mapValues Value.sorted)
    {options : PackageOptions} (h : PackageOptions.ofPackage p = .ok options) :
    PackageOptions.ofPackage { p with language } = .ok options := by
  have hblock : (language.mapValues Value.sorted).get? "java" =
      (p.language.mapValues Value.sorted).get? "java" := by rw [hsorted]
  rw [Dictionary.get?_mapValues, Dictionary.get?_mapValues] at hblock
  unfold PackageOptions.ofPackage at h ⊢
  dsimp only
  cases hjava : p.language.get? "java" with
  | none =>
    rw [hjava, Option.map_none, Option.map_eq_none_iff] at hblock
    rw [hjava] at h
    rw [hblock]
    exact h
  | some block =>
    rw [hjava, Option.map_some] at hblock
    obtain ⟨block', hjava', hsame⟩ := Option.map_eq_some_iff.1 hblock
    rw [hjava] at h
    rw [hjava']
    dsimp only at h ⊢
    cases hread : recordOfValue PackageOptions.fields block with
    | error f =>
      rw [hread] at h
      cases h
    | ok found =>
      have htidy : block.IsTidy := hp _ (Dictionary.get?_eq_some_iff.1 hjava)
      have htidy' : block'.IsTidy := hlanguage _ (Dictionary.get?_eq_some_iff.1 hjava')
      rw [recordOfValue_of_sorted htidy htidy' hsame hread]
      rw [hread] at h
      exact h

end Options

section Tidiness

theorem isPlain_ofValue {v : Value} {depth : Nat} (h : v.FitsIn depth) :
    (Node.ofValue v).IsPlain := by
  induction h with
  | null | bool | string =>
    rw [Node.ofValue]
    exact .scalar (.ofAtom trivial)
  | number hn =>
    rw [Node.ofValue]
    exact .scalar (.ofAtom hn)
  | array _ ih =>
    rw [Node.ofValue, ofItems_eq]
    refine .list fun n hn => ?_
    obtain ⟨x, hx, rfl⟩ := List.mem_map.1 hn
    exact ih x hx
  | object _ ih =>
    rw [Node.ofValue, ofMembers_eq]
    refine .table (fun m hm => ?_) fun m hm => ?_
    · obtain ⟨member, -, rfl⟩ := List.mem_map.1 hm
      exact .scalar (.ofAtom trivial)
    · obtain ⟨member, hmember, rfl⟩ := List.mem_map.1 hm
      exact ih member hmember

/-- The settings of a document that has been read are tidy. -/
theorem isTidyLanguage_of_gives {n : Node} (hn : n.IsPlain) {depth : Nat} {d : PackageDocument}
    (h : Gives (readPackage (depth + 1) n) d) : IsTidyLanguage d.language := by
  have hkept : PackageDocument.IsKept depth d := by
    have hmirrors : ∀ f ∈ belowDepth packageFields (depth + 1),
        Mirrors f (PackageDocument.IsKept depth) PackageDocument.written depth := by
      rintro _ ⟨⟩
      exact mirrors_packageFields depth
    exact (gives_recordIn hmirrors hn h).2
  have hlanguage := hkept.language
  -- what is written of the settings is read again, and values that have been read are tidy
  cases hfield : dictionaryField "language" id d.language with
  | none =>
    intro entry hentry
    rw [hlanguage.absent hfield] at hentry
    cases hentry
  | some member =>
    obtain ⟨-, hfits, hread⟩ := hlanguage.present member hfield
    have hgives : Gives (dictionaryIn (belowDepth readValue depth) (Node.ofValue member.2))
        d.language := by
      change Gives (dictionaryOf readValue depth (Node.ofValue member.2)) d.language
      rw [hread, gives_pure]
    obtain ⟨read, hvalue, hall⟩ := gives_dictionaryIn (isPlain_ofValue hfits) hgives
    cases depth with
    | zero => cases hvalue
    | succ depth =>
      obtain rfl := Option.some.inj hvalue
      intro entry hentry
      obtain ⟨m, hm, hentry⟩ := hall entry hentry
      exact isTidy_of_gives hm hentry

end Tidiness

end SchemaToJava.Schema

namespace SchemaToJava.Java

open Package Json Outcome

section Generation

def TypeMapper.withLanguage (m : TypeMapper) (language : Dictionary String Value) : TypeMapper :=
  { m with package := { m.package with language } }

variable (m : TypeMapper) (language : Dictionary String Value)

theorem TypeMapper.agrees_withLanguage : m.Agrees (m.withLanguage language) :=
  ⟨rfl, rfl, rfl, rfl, rfl, fun _ => rfl, fun _ => rfl, fun _ => rfl⟩

theorem objectClass_withLanguage :
    Generation.objectClass (m.withLanguage language) = Generation.objectClass m := by
  have hagrees := m.agrees_withLanguage language
  funext r
  unfold Generation.objectClass
  simp only [InputClass.emit_congr hagrees, OutputClass.emit_congr hagrees]
  rfl

theorem drain_withLanguage (limit : Nat) (p : Generation.Progress) :
    Generation.drain (m.withLanguage language) limit p = Generation.drain m limit p := by
  induction limit generalizing p with
  | zero => rfl
  | succ limit ih =>
    unfold Generation.drain
    simp only [objectClass_withLanguage, ih]

theorem members_withLanguage (p : Generation.Progress) :
    Generation.members (m.withLanguage language) p = Generation.members m p := by
  have hagrees := m.agrees_withLanguage language
  have hconfig : ConfigClass.emit (m.withLanguage language) = ConfigClass.emit m :=
    ConfigClass.emit_congr hagrees rfl
  unfold Generation.members
  rw [ResourceClass.emit_congr hagrees, FunctionsClass.group_congr hagrees,
    FunctionsClass.emit_congr hagrees, EnumClass.emit_congr hagrees, hconfig,
    Utilities.emit_congr hagrees, Utilities.bundled_congr hagrees]
  rfl

/-- Settings that give the same options give the same files. -/
theorem generate_withLanguage {package : Package} {language : Dictionary String Value}
    {settings : Settings} {files : FileSet}
    (hoptions : ∀ options, PackageOptions.ofPackage package = .ok options →
      PackageOptions.ofPackage { package with language } = .ok options)
    (h : generate package settings = .ok files) :
    generate { package with language } settings = .ok files := by
  unfold generate TypeMapper.make PackageOptions.effective at h ⊢
  obtain ⟨m, hm, h⟩ := bind_eq_ok.1 h
  obtain ⟨effective, heffective, hm⟩ := bind_eq_ok.1 hm
  obtain ⟨options, hread, heffective⟩ := bind_eq_ok.1 heffective
  obtain rfl := pure_eq_ok.1 hm
  refine bind_eq_ok.2 ⟨TypeMapper.withLanguage ⟨package, effective, settings⟩ language, ?_, ?_⟩
  · exact bind_eq_ok.2 ⟨effective, bind_eq_ok.2 ⟨options, hoptions options hread, heffective⟩, rfl⟩
  · simp only [members_withLanguage, drain_withLanguage]
    exact h

end Generation

end SchemaToJava.Java
