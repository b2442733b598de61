import SchemaToJava.Proofs.ClosedShapes
import SchemaToJava.Proofs.DottedNames
import SchemaToJava.Proofs.LowerCase

/-!
The characters of names. The text of a Java type has separators: blanks and stars around comments,
commas and angle brackets around parameters, dots inside names, and the sign of an annotation. A
class or package that is named after something in a schema never has one of them in its name, in
whichever script this is written. So only the packages that the options give need to be asked for
that.
-/
namespace SchemaToJava

namespace Text

def separators : List Char := [' ', '*', ',', '.', '/', '<', '>', '@']

def IsUnbroken (cs : List Char) : Prop := ∀ c ∈ cs, c ∉ separators

instance (cs : List Char) : Decidable (IsUnbroken cs) := List.decidableBAll _ cs

theorem IsUnbroken.append {cs ds : List Char} (hcs : IsUnbroken cs) (hds : IsUnbroken ds) :
    IsUnbroken (cs ++ ds) := by
  intro c hc
  rcases List.mem_append.1 hc with hc | hc
  · exact hcs c hc
  · exact hds c hc

theorem isUnbroken_flatMap {α : Type} {f : α → List Char} {xs : List α}
    (h : ∀ x ∈ xs, IsUnbroken (f x)) : IsUnbroken (xs.flatMap f) := by
  intro c hc
  obtain ⟨x, hx, hc⟩ := List.mem_flatMap.1 hc
  exact h x hx c hc

theorem toNat_ofNat (n : Nat) : (Char.ofNat n).toNat = n ∨ (Char.ofNat n).toNat = 0 := by
  by_cases hvalid : n.isValidChar
  · rw [Char.ofNat, dif_pos hvalid]
    exact .inl rfl
  · rw [Char.ofNat, dif_neg hvalid]
    exact .inr rfl

/-- A character with a property that no separator has is none of them. -/
theorem notMem_separators_of {p : Char → Bool} (hnone : separators.any p = false) {c : Char}
    (h : p c = true) : c ∉ separators :=
  fun hmem => List.any_eq_false.1 hnone c hmem h

/-- All separators come before the letters. -/
theorem ofNat_notMem_separators {n : Nat} (h : 0x41 ≤ n) : Char.ofNat n ∉ separators := by
  refine notMem_separators_of (p := fun c => c.toNat == 0 || decide (0x41 ≤ c.toNat)) (by decide) ?_
  rcases toNat_ofNat n with hn | hn <;> simp [hn, h]

theorem notMem_separators_of_isAlphanumeric {c : Char} (h : isAlphanumeric c = true) :
    c ∉ separators :=
  notMem_separators_of (by decide) h

section Case

/-- A case map does not lead to separators, if no image of a letter is one. -/
theorem isUnbroken_caseImage {expansions : List (Nat × List Nat)}
    {shifts : List (Nat × Nat × Nat × Int)} {c : Char}
    (hexpansions : ∀ entry ∈ expansions, ∀ n ∈ entry.2, 0x41 ≤ n)
    (hshifts : ∀ entry ∈ shifts, 0x41 ≤ (entry.1 : Int) + entry.2.2.2) (hc : c ∉ separators) :
    IsUnbroken (caseImage expansions shifts c) := by
  intro x hx
  rcases mem_caseImage hx with ⟨entry, hentry, n, hn, rfl⟩ | ⟨entry, hentry, hlo, -, rfl⟩ | rfl
  · exact ofNat_notMem_separators (hexpansions entry hentry n hn)
  · have hshift := hshifts entry hentry
    exact ofNat_notMem_separators (by omega)
  · exact hc

theorem forall_ascii {P : Char → Prop} (h : ∀ n < 0x80, P (Char.ofNat n)) {c : Char}
    (hc : c.toNat < 0x80) : P c := by
  rw [← Char.ofNat_toNat c]
  exact h c.toNat hc

theorem isUnbroken_toUpper {c : Char} (hc : c ∉ separators) : IsUnbroken (toUpper c) := by
  unfold toUpper
  split
  · next hascii =>
    intro x hx
    obtain rfl := List.mem_singleton.1 hx
    exact forall_ascii (P := fun c => c ∉ separators → c.toUpper ∉ separators) (by decide) hascii hc
  · exact isUnbroken_caseImage (by decide +kernel) (by decide +kernel) hc

theorem isUnbroken_toLower {c : Char} (hc : c ∉ separators) : IsUnbroken (toLower c) := by
  unfold toLower
  split
  · next hascii =>
    intro x hx
    obtain rfl := List.mem_singleton.1 hx
    exact forall_ascii (P := fun c => c ∉ separators → c.toLower ∉ separators) (by decide) hascii hc
  · exact isUnbroken_caseImage (by decide) (by decide +kernel) hc

end Case

section Words

theorem all_of_mem_stretches {p : Char → Bool} {cs word : List Char} (h : word ∈ stretches p cs) :
    ∀ c ∈ word, p c = true := by
  fun_induction stretches p cs generalizing word with
  | case1 => cases h
  | case2 c rest hc d first later hlater _ _ ih =>
    rcases List.mem_cons.1 h with rfl | h
    · exact List.forall_mem_cons.2 ⟨hc, ih (hlater ▸ List.mem_cons_self)⟩
    · exact ih (hlater ▸ List.mem_cons_of_mem first h)
  | case3 c rest hc d first later hlater _ _ ih =>
    rcases List.mem_cons.1 h with rfl | h
    · exact List.forall_mem_singleton.2 hc
    · exact ih (hlater ▸ h)
  | case4 c rest hc _ ih =>
    rcases List.mem_cons.1 h with rfl | h
    · exact List.forall_mem_singleton.2 hc
    · exact ih h
  | case5 c rest _ ih => exact ih h

/-- The words have no other characters than those before and after the cut. -/
theorem mem_of_mem_cutByCase {seen : CaseSeen} {word cs cut : List Char}
    (h : cut ∈ cutByCase seen word cs) : ∀ c ∈ cut, c ∈ word ∨ c ∈ cs := by
  fun_induction cutByCase seen word cs with
  | case1 => cases h
  | case2 => grind
  | case3 => grind
  | case4 seen word c d rest _ ih => grind
  | case5 => grind
  | case6 => grind

theorem isUnbroken_of_mem_words {s : String} {word : List Char} (h : word ∈ words s) :
    IsUnbroken word := by
  obtain ⟨stretch, hstretch, hword⟩ := List.mem_flatMap.1 h
  intro c hc
  refine notMem_separators_of_isAlphanumeric (all_of_mem_stretches hstretch c ?_)
  exact (mem_of_mem_cutByCase hword c hc).resolve_left List.not_mem_nil

theorem isUnbroken_lowerWord {word : List Char} (h : IsUnbroken word) :
    IsUnbroken (lowerWord word) := by
  fun_induction lowerWord word with
  | case1 => exact h
  | case2 => decide
  | case3 c rest _ ih =>
    have hfirst := isUnbroken_toLower (h c List.mem_cons_self)
    exact hfirst.append (ih fun d hd => h d (List.mem_cons_of_mem c hd))

theorem isUnbroken_capitalizedWord {word : List Char} (h : IsUnbroken word) :
    IsUnbroken (capitalizedWord word) := by
  cases word with
  | nil => exact h
  | cons c rest =>
    have hfirst := isUnbroken_toUpper (h c List.mem_cons_self)
    exact hfirst.append (isUnbroken_lowerWord fun d hd => h d (List.mem_cons_of_mem c hd))

/-- Camel-casing leaves no separator. -/
theorem isUnbroken_upperCamel (s : String) : IsUnbroken (upperCamel s).toList := by
  rw [upperCamel, String.toList_ofList]
  exact isUnbroken_flatMap fun word hword =>
    isUnbroken_capitalizedWord (isUnbroken_of_mem_words hword)

end Words

theorem mem_of_mem_pieces {sep : Char} {cs piece : List Char} (h : piece ∈ pieces sep cs) :
    ∀ c ∈ piece, c ∈ cs := by
  induction cs generalizing piece with
  | nil =>
    obtain rfl : piece = [] := List.mem_singleton.1 h
    exact fun c hc => hc
  | cons d rest ih =>
    intro c hc
    rw [pieces] at h
    split at h
    · rcases List.mem_cons.1 h with rfl | h
      · cases hc
      · exact List.mem_cons_of_mem d (ih h c hc)
    · obtain ⟨first, later, hpieces⟩ := List.exists_cons_of_ne_nil (pieces_ne_nil sep rest)
      rw [hpieces] at h ih
      rcases List.mem_cons.1 h with rfl | h
      · rcases List.mem_cons.1 hc with rfl | hc
        · exact List.mem_cons_self
        · exact List.mem_cons_of_mem d (ih List.mem_cons_self c hc)
      · exact List.mem_cons_of_mem d (ih (List.mem_cons_of_mem first h) c hc)

/-- The text has only letters and digits, underscores and dots. -/
def IsPackageText (s : String) : Prop :=
  ∀ c ∈ s.toList, isAlphanumeric c = true ∨ c = '_' ∨ c = '.'

instance (s : String) : Decidable (IsPackageText s) := List.decidableBAll _ s.toList

theorem IsPackageText.isUnbroken_of_mem {s piece : String} (h : IsPackageText s)
    (hpiece : piece ∈ piecesOf '.' s) : IsUnbroken piece.toList := by
  have hdot := notMem_of_mem_piecesOf hpiece
  obtain ⟨cs, hcs, rfl⟩ := List.mem_map.1 hpiece
  rw [String.toList_ofList] at hdot ⊢
  intro c hc
  rcases h c (mem_of_mem_pieces hcs c hc) with hletter | rfl | rfl
  · exact notMem_separators_of_isAlphanumeric hletter
  · decide
  · exact (hdot hc).elim

end Text

namespace Java

open Package Outcome Text

namespace Identifier

theorem isUnbroken_escape {ident : String} (h : IsUnbroken ident.toList) :
    IsUnbroken (escape ident).toList := by
  unfold escape
  split
  · decide
  · split
    · rw [String.toList_append]
      exact IsUnbroken.append (by decide) h
    · split
      · rw [String.toList_append]
        exact IsUnbroken.append h (by decide)
      · exact h

theorem lt_of_isWordChar {c : Char} (h : isWordChar c = true) : c.toNat < 0x80 := by
  have hbelow {d : Char} (hd : d.toNat < 0x80) (h : c.val ≤ d.val) :
      c.toNat < 0x80 := Nat.lt_of_le_of_lt (UInt32.le_iff_toNat_le.1 h) hd
  rcases Bool.or_eq_true_iff.1 h with hletter | hunderscore
  · rcases Bool.or_eq_true_iff.1 hletter with halpha | hdigit
    · rcases Bool.or_eq_true_iff.1 halpha with hupper | hlower
      · exact hbelow (d := 'Z') (by decide) (of_decide_eq_true hupper).2
      · have hrange := Bool.and_eq_true_iff.1 hlower
        exact hbelow (d := 'z') (by decide) (of_decide_eq_true hrange.2)
    · have hrange := Bool.and_eq_true_iff.1 hdigit
      exact hbelow (d := '9') (by decide) (of_decide_eq_true hrange.2)
  · obtain rfl := eq_of_beq hunderscore
    decide

theorem notMem_separators_of_isWordChar {c : Char} (h : isWordChar c = true) : c ∉ separators :=
  notMem_separators_of (by decide) h

/-- The identifier of a class has no separator. -/
theorem isUnbroken_ofClass (name : String) : IsUnbroken (ofClass name).toList := by
  refine isUnbroken_escape ?_
  split
  · next hplain =>
    have hword := List.all_eq_true.1 (Bool.and_eq_true_iff.1 hplain).2
    unfold mapFirst
    split
    · decide
    · next first rest hname =>
      rw [hname] at hword
      rw [String.toList_ofList]
      have hfirst := hword first List.mem_cons_self
      refine List.forall_mem_cons.2 ⟨?_, fun c hc => ?_⟩
      · exact forall_ascii (P := fun c => c ∉ separators → c.toUpper ∉ separators) (by decide)
          (lt_of_isWordChar hfirst) (notMem_separators_of_isWordChar hfirst)
      · exact notMem_separators_of_isWordChar (hword c (List.mem_cons_of_mem first hc))
  · exact isUnbroken_upperCamel name

/-- The segment of a package or module has no separator. -/
theorem isUnbroken_packageSegment (name : String) : IsUnbroken (packageSegment name).toList := by
  refine isUnbroken_escape ?_
  rw [String.toList_ofList]
  intro c hc
  obtain ⟨d, hd, rfl⟩ := List.mem_map.1 hc
  have hword := (List.mem_filter.1 hd).2
  exact forall_ascii (P := fun c => c ∉ separators → c.toLower ∉ separators) (by decide)
    (lt_of_isWordChar hword) (notMem_separators_of_isWordChar hword)

end Identifier

namespace QualifiedName

/-- No part of the name has a separator in it. -/
structure IsUnbroken (name : QualifiedName) : Prop where
  segments : ∀ s ∈ name.segments, Text.IsUnbroken s.toList
  base : Text.IsUnbroken name.base.toList

instance (name : QualifiedName) : Decidable name.IsUnbroken :=
  decidable_of_iff
    ((∀ s ∈ name.segments, Text.IsUnbroken s.toList) ∧ Text.IsUnbroken name.base.toList)
    ⟨fun h => ⟨h.1, h.2⟩, fun h => ⟨h.segments, h.base⟩⟩

variable {name : QualifiedName}

theorem IsUnbroken.append (h : name.IsUnbroken) {base : String}
    (hbase : Text.IsUnbroken base.toList) : (name.append base).IsUnbroken := by
  refine ⟨fun s hs => ?_, hbase⟩
  unfold QualifiedName.append at hs
  dsimp only at hs
  split at hs
  · exact h.segments s hs
  · rcases List.mem_append.1 hs with hs | hs
    · exact h.segments s hs
    · rw [List.mem_singleton.1 hs]
      exact h.base

theorem IsUnbroken.foldl (h : name.IsUnbroken) (segment : String → String) {parts : List String}
    (hparts : ∀ part ∈ parts, Text.IsUnbroken (segment part).toList) :
    (parts.foldl (fun name part => name.append (segment part)) name).IsUnbroken := by
  induction parts generalizing name with
  | nil => exact h
  | cons part parts ih =>
    exact ih (h.append (hparts part List.mem_cons_self))
      fun other hother => hparts other (List.mem_cons_of_mem part hother)

theorem IsUnbroken.dotted (h : name.IsUnbroken) :
    ∀ c ∈ name.dotted.toList, c ∉ separators ∨ c = '.' := by
  intro c hc
  simp only [QualifiedName.dotted, String.toList_append, String.toList_join] at hc
  rcases List.mem_append.1 hc with hc | hc
  · obtain ⟨part, hpart, hc⟩ := List.mem_flatMap.1 hc
    obtain ⟨segment, hsegment, rfl⟩ := List.mem_map.1 hpart
    rw [String.toList_append] at hc
    rcases List.mem_append.1 hc with hc | hc
    · exact .inl (h.segments segment hsegment c hc)
    · exact .inr (List.mem_singleton.1 hc)
  · exact .inl (h.base c hc)

theorem IsUnbroken.dotted_inj {a b : QualifiedName} (ha : a.IsUnbroken)
    (hb : b.IsUnbroken) (h : a.dotted = b.dotted) : a = b := by
  have hread {name : QualifiedName} (hname : name.IsUnbroken) :
      ofDotted name.dotted = name :=
    ofDotted_dotted (fun hdot => hname.base '.' hdot (by decide))
      fun s hs hdot => hname.segments s hs '.' hdot (by decide)
  rw [← hread ha, h, hread hb]

theorem isUnbroken_ofDotted {s : String} (h : IsPackageText s) : (ofDotted s).IsUnbroken where
  segments _ hpart := h.isUnbroken_of_mem ((List.dropLast_sublist _).subset hpart)
  base := h.isUnbroken_of_mem (List.getLast_mem _)

end QualifiedName

open Identifier

/-- The packages that the options give are written with letters and digits, underscores and dots. -/
structure PackageOptions.HasPlainNames (o : PackageOptions) : Prop where
  base : IsPackageText o.base
  packages : ∀ {module text}, o.packages.get? module = some text → IsPackageText text

/-- The options of the package, and those of all others, give such packages only. -/
structure TypeMapper.HasPlainNames (m : TypeMapper) : Prop where
  own : m.options.HasPlainNames
  foreign : ∀ {name o}, m.settings.foreignPackages.get? name = some o → o.HasPlainNames

namespace PackageOptions.HasPlainNames

variable {o : PackageOptions}

theorem isUnbroken_root (h : o.HasPlainNames) (packageName : String) :
    (o.root packageName).IsUnbroken :=
  (QualifiedName.isUnbroken_ofDotted h.base).append (isUnbroken_packageSegment packageName)

theorem isUnbroken_module (h : o.HasPlainNames) (packageName : String) (name : Option String) :
    (o.module packageName name).IsUnbroken := by
  have hroot := h.isUnbroken_root packageName
  unfold module
  dsimp only
  split
  · exact hroot
  · split
    · next given hgiven =>
      exact hroot.foldl id fun part hpart => (h.packages hgiven).isUnbroken_of_mem hpart
    · exact hroot.foldl packageSegment fun part _ => isUnbroken_packageSegment part

end PackageOptions.HasPlainNames

namespace TypeMapper.HasPlainNames

variable {m : TypeMapper}

theorem optionsOf (h : m.HasPlainNames) (packageName : String) :
    (m.optionsOf packageName).HasPlainNames := by
  unfold TypeMapper.optionsOf
  split
  · exact h.own
  · cases hforeign : m.settings.foreignPackages.get? packageName with
    | none => exact ⟨by decide, fun hgiven => by cases hgiven⟩
    | some o => exact h.foreign hforeign

theorem isUnbroken_moduleOfToken (h : m.HasPlainNames) (t : Schema.Token) :
    (m.moduleOfToken t).IsUnbroken := (h.optionsOf t.package).isUnbroken_module _ _

/-- The classes that the mapping starts from have no separators in their names. -/
theorem isUnbroken_of_assigns (h : m.HasPlainNames) {base : QualifiedName}
    (hbase : m.Assigns base) : base.IsUnbroken := by
  cases hbase with
  | primitive p => cases p <;> decide
  | @object key direction r hr =>
    obtain ⟨t, -, hr⟩ := bind_eq_ok.1 hr
    have hmodule := h.isUnbroken_moduleOfToken t
    have hname := isUnbroken_ofClass t.name
    cases direction with
    | output =>
      obtain rfl := pure_eq_ok.1 hr
      exact (hmodule.append (by decide)).append hname
    | input =>
      obtain rfl := pure_eq_ok.1 hr
      refine (hmodule.append (by decide)).append ?_
      rw [String.toList_append]
      refine hname.append ?_
      split
      · decide
      · decide
  | enum hname =>
    obtain ⟨t, -, hname⟩ := bind_eq_ok.1 hname
    obtain rfl := pure_eq_ok.1 hname
    exact ((h.isUnbroken_moduleOfToken t).append (by decide)).append (isUnbroken_ofClass t.name)
  | resource hname =>
    obtain ⟨t, -, hname⟩ := bind_eq_ok.1 hname
    split at hname
    · obtain rfl := pure_eq_ok.1 hname
      exact ((h.optionsOf t.name).isUnbroken_root t.name).append (by decide)
    · obtain rfl := pure_eq_ok.1 hname
      exact (h.isUnbroken_moduleOfToken t).append (isUnbroken_ofClass t.name)

end TypeMapper.HasPlainNames

end Java

end SchemaToJava
