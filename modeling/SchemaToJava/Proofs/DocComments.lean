import SchemaToJava.Java.Doc
import SchemaToJava.Proofs.CaseTokens
import SchemaToJava.Proofs.CodeUnits
import SchemaToJava.Proofs.FieldMembers

/-!
Documentation comments read back. The sign that ends a comment is taken out of what is told in it,
as it stands there; but Java takes in escapes of code units inside of comments too. So a line can end
the comment by an escape for one of the two characters, or make the source unreadable by an escape
that is malformed. A comment is kept whole just if no line does one of these, and none does without a
backslash in front of a `u`.
-/
namespace SchemaToJava.Java.Doc

open CodeUnit

def closing : List CodeUnit := units ['*', '/']

/-- Cuts at the first sign that ends a comment. -/
def untilClosing : List CodeUnit → Option (List CodeUnit × List CodeUnit)
  | [] => none
  | u :: us =>
    if u = ofChar '*' ∧ us.head? = some (ofChar '/') then some ([], us.tail)
    else (untilClosing us).map fun (inside, rest) => (u :: inside, rest)

/-- The inside of the comment that a source starts with, and the rest of the source. -/
def comment? : List CodeUnit → Option (List CodeUnit × List CodeUnit)
  | u :: v :: us => if u = ofChar '/' ∧ v = ofChar '*' then untilClosing us else none
  | _ => none

def spaces (width : Nat) : String := String.ofList (List.replicate width ' ')

def markLines (indent : String) (deprecated : Bool) : List String :=
  if deprecated then [indent ++ "@Deprecated"] else []

/-- What a source may be that documents a declaration: nothing, or a single comment that is closed
on a line of its own, and behind this line the annotation. -/
inductive IsDocumentation (indent : String) : (deprecated : Bool) → (source : List Char) → Prop
  | nothing : IsDocumentation indent false []
  | comment {deprecated : Bool} {source : List Char} {us before : List CodeUnit}
      (htranslate : translate source = some us)
      (hcomment : comment? (us.dropWhile (· == ofChar ' ')) =
        some (before ++ units ("\n" ++ indent ++ " ").toList,
          units ("\n" ++ sourceLines (markLines indent deprecated)).toList)) :
      IsDocumentation indent deprecated source

/-- What a comment tells about a declaration. -/
def told (description deprecation : Option String) : List (List Char) :=
  (description.elim [] fun text => Text.lines (Text.trim text.toList)) ++
    deprecation.elim [] fun text => Text.lines text.toList

def written (cs : List Char) : List Char := commentSafe (Text.trimEnd cs)

/-- The source can be read, and does not end a comment. -/
def IsHarmless (cs : List Char) : Prop := ∃ us, translate cs = some us ∧ ¬ closing <:+: us

section Closing

variable {us inside rest : List CodeUnit}

theorem closing_eq : closing = [ofChar '*', ofChar '/'] := units_of_ascii (by simp)

/-- The first sign that ends a comment is found. -/
theorem untilClosing_append (h : ¬ closing <:+: inside) (rest : List CodeUnit) :
    untilClosing (inside ++ closing ++ rest) = some (inside, rest) := by
  rw [closing_eq] at h ⊢
  induction inside with
  | nil => rfl
  | cons u inside ih =>
    rw [Text.pair_infix_cons_iff, not_or] at h
    have hopen : ¬ (u = ofChar '*' ∧
        (inside ++ [ofChar '*', ofChar '/'] ++ rest).head? = some (ofChar '/')) := by
      rintro ⟨hstar, hslash⟩
      cases inside with
      | nil => exact absurd (Option.some.inj hslash) (by decide)
      | cons v inside => exact h.1 ⟨hstar, hslash⟩
    rw [List.cons_append, List.cons_append, untilClosing, if_neg hopen, ih h.2]
    rfl

/-- What is cut off ends with the first sign that ends a comment. -/
theorem of_untilClosing (h : untilClosing us = some (inside, rest)) :
    us = inside ++ closing ++ rest ∧ ¬ closing <:+: inside := by
  rw [closing_eq]
  induction us generalizing inside with
  | nil => cases h
  | cons u us ih =>
    rw [untilClosing] at h
    by_cases hclose : u = ofChar '*' ∧ us.head? = some (ofChar '/')
    · rw [if_pos hclose] at h
      cases h
      obtain ⟨rfl, hslash⟩ := hclose
      obtain ⟨tail, rfl⟩ := List.head?_eq_some_iff.1 hslash
      exact ⟨rfl, fun hmem => by simpa using List.IsInfix.length_le hmem⟩
    · rw [if_neg hclose] at h
      obtain ⟨⟨before, after⟩, hcut, heq⟩ := Option.map_eq_some_iff.1 h
      cases heq
      obtain ⟨rfl, hnot⟩ := ih hcut
      refine ⟨rfl, fun hmem => ?_⟩
      rcases Text.pair_infix_cons_iff.1 hmem with ⟨hstar, hslash⟩ | hmem
      · refine hclose ⟨hstar, ?_⟩
        obtain ⟨tail, rfl⟩ := List.head?_eq_some_iff.1 hslash
        rfl
      · exact hnot hmem

end Closing

section Harmless

variable {cs ds : List Char}

theorem isHarmless_of_unmarked (hmark : ¬ ['\\', 'u'] <:+: cs) (hclose : ¬ ['*', '/'] <:+: cs) :
    IsHarmless cs := by
  refine ⟨units cs, translate_of_unmarked hmark, fun h => hclose ?_⟩
  rw [closing_eq] at h
  exact pair_infix_of_units (by decide) (by decide) h

theorem isHarmless_of_notMem (hbackslash : '\\' ∉ cs) (hslash : '/' ∉ cs) : IsHarmless cs :=
  isHarmless_of_unmarked (fun h => hbackslash (h.subset (by simp)))
    fun h => hslash (h.subset (by simp))

/-- A space keeps what stands before it apart. -/
theorem isHarmless_space_iff (hbackslash : '\\' ∉ cs) (hslash : '/' ∉ cs) :
    IsHarmless (cs ++ ' ' :: ds) ↔ IsHarmless ds := by
  have hbackslash : '\\' ∉ cs ++ [' '] := by simp [hbackslash]
  have hunits : units (cs ++ [' ']) = units cs ++ [ofChar ' '] := by
    have hspace : units [' '] = [ofChar ' '] := units_of_ascii (by simp)
    rw [units_append, hspace]
  have hstart {us : List CodeUnit} : closing <:+: units (cs ++ [' ']) ++ us ↔ closing <:+: us := by
    have hslash : ofChar '/' ∉ units (cs ++ [' ']) := by
      rw [ofChar_mem_units (by decide)]
      simp [hslash]
    have hinside : ¬ closing <:+: units (cs ++ [' ']) := fun h => hslash (h.subset (by decide))
    rw [hunits] at hinside ⊢
    rw [closing_eq] at hinside ⊢
    rw [Text.pair_infix_append_iff, List.getLast?_concat]
    have hstar : ofChar ' ' ≠ ofChar '*' := by decide
    simp [hinside, hstar]
  have happend : cs ++ ' ' :: ds = cs ++ [' '] ++ ds := by simp
  unfold IsHarmless
  rw [happend, translate_append hbackslash]
  constructor
  · rintro ⟨us, hus, hnot⟩
    obtain ⟨vs, hvs, rfl⟩ := Option.map_eq_some_iff.1 hus
    exact ⟨vs, hvs, fun h => hnot (hstart.2 h)⟩
  · rintro ⟨us, hus, hnot⟩
    exact ⟨_, Option.map_eq_some_iff.2 ⟨us, hus, rfl⟩, fun h => hnot (hstart.1 h)⟩

/-- Lines are harmless just if each of them is, since no escape and no sign reaches over the end of
one. -/
theorem isHarmless_newline_iff :
    IsHarmless (cs ++ '\n' :: ds) ↔ IsHarmless cs ∧ IsHarmless ds := by
  have hend {us vs : List CodeUnit} : closing <:+: us ++ ofChar '\n' :: vs ↔
      closing <:+: us ∨ closing <:+: vs := by
    rw [closing_eq, Text.pair_infix_append_iff, Text.pair_infix_cons_iff]
    have hstar : ofChar '\n' ≠ ofChar '*' ∧ ofChar '\n' ≠ ofChar '/' := by decide
    simp [hstar]
  constructor
  · rintro ⟨us, hus, hnot⟩
    rw [translate_line] at hus
    obtain ⟨vs, hvs, hus⟩ := Option.bind_eq_some_iff.1 hus
    obtain ⟨ws, hws, rfl⟩ := Option.map_eq_some_iff.1 hus
    rw [hend, not_or] at hnot
    exact ⟨⟨vs, hvs, hnot.1⟩, ws, hws, hnot.2⟩
  · rintro ⟨⟨vs, hvs, hv⟩, ws, hws, hw⟩
    refine ⟨vs ++ ofChar '\n' :: ws, ?_, fun h => (hend.1 h).elim hv hw⟩
    rw [translate_line, hvs, Option.bind_some, hws]
    rfl

theorem toList_sourceLines_nil : (sourceLines []).toList = [] := by simp [sourceLines]

theorem toList_sourceLines_cons (line : String) (lines : List String) :
    (sourceLines (line :: lines)).toList = line.toList ++ '\n' :: (sourceLines lines).toList := by
  simp [sourceLines]

theorem isHarmless_sourceLines_iff (lines : List String) :
    IsHarmless (sourceLines lines).toList ↔ ∀ line ∈ lines, IsHarmless line.toList := by
  induction lines with
  | nil =>
    rw [toList_sourceLines_nil]
    refine iff_of_true (isHarmless_of_notMem ?_ ?_) fun line hline => absurd hline List.not_mem_nil
    · exact List.not_mem_nil
    · exact List.not_mem_nil
  | cons line lines ih =>
    rw [toList_sourceLines_cons, isHarmless_newline_iff, ih, List.forall_mem_cons]

end Harmless

section Written

variable {cs ds : List Char}

/-- How a line is made safe: each sign that ends a comment is replaced, and nothing else. -/
inductive MadeSafe : List Char → List Char → Prop
  | nil : MadeSafe [] []
  | closing {cs ds : List Char} (h : MadeSafe cs ds) :
      MadeSafe ('*' :: '/' :: cs) (['*', '&', '#', '4', '7', ';'] ++ ds)
  | other {c : Char} {cs ds : List Char} (hopen : ¬ (c = '*' ∧ cs.head? = some '/'))
      (h : MadeSafe cs ds) : MadeSafe (c :: cs) (c :: ds)

/-- Going from left to right, every sign that ends a comment is replaced. -/
theorem madeSafe_commentSafe : (cs : List Char) → MadeSafe cs (commentSafe cs)
  | [] => by
    unfold commentSafe
    rw [Text.replaceAll]
    exact .nil
  | c :: cs => by
    by_cases hclose : c = '*' ∧ cs.head? = some '/'
    · obtain ⟨rfl, hhead⟩ := hclose
      obtain ⟨after, rfl⟩ := List.head?_eq_some_iff.1 hhead
      have hsafe : commentSafe ('*' :: '/' :: after) =
          ['*', '&', '#', '4', '7', ';'] ++ commentSafe after :=
        Text.replaceAll_append (List.cons_ne_nil '*' ['/']) after
      rw [hsafe]
      exact .closing (madeSafe_commentSafe after)
    · have hprefix : ¬ ['*', '/'] <+: c :: cs := by
        rintro ⟨after, heq⟩
        simp only [List.cons_append, List.nil_append, List.cons.injEq] at heq
        exact hclose ⟨heq.1.symm, by rw [← heq.2]; rfl⟩
      have hsafe : commentSafe (c :: cs) = c :: commentSafe cs := Text.replaceAll_cons hprefix
      rw [hsafe]
      exact .other hclose (madeSafe_commentSafe cs)

/-- What stands first stays there. -/
theorem MadeSafe.head?_eq (h : MadeSafe cs ds) : ds.head? = cs.head? := by
  cases h <;> rfl

/-- The line does not end a comment as it stands. -/
theorem MadeSafe.not_closing (h : MadeSafe cs ds) : ¬ ['*', '/'] <:+: ds := by
  induction h with
  | nil => simp
  | closing h ih =>
    rw [Text.pair_infix_append_iff]
    simp [Text.pair_infix_cons_iff, ih]
  | other hopen h ih =>
    rw [Text.pair_infix_cons_iff, h.head?_eq]
    exact fun hmem => hmem.elim hopen ih

/-- No mark of an escape comes into the line. -/
theorem MadeSafe.marked (h : MadeSafe cs ds) (hmark : ['\\', 'u'] <:+: ds) :
    ['\\', 'u'] <:+: cs := by
  induction h with
  | nil => exact hmark
  | closing h ih =>
    rw [Text.pair_infix_append_iff] at hmark
    simp only [Text.pair_infix_cons_iff] at hmark ⊢
    simp at hmark
    exact .inr (.inr (ih hmark))
  | other hopen h ih =>
    rw [Text.pair_infix_cons_iff, h.head?_eq] at hmark
    exact Text.pair_infix_cons_iff.2 (hmark.imp_right ih)

theorem trimEnd_infix_self (cs : List Char) : Text.trimEnd cs <:+: cs := by
  unfold Text.trimEnd
  have hsuffix : cs.reverse.dropWhile Text.isBlank <:+ cs.reverse := List.dropWhile_suffix _
  rw [← List.reverse_prefix, List.reverse_reverse] at hsuffix
  exact hsuffix.isInfix

theorem isHarmless_written (h : ¬ ['\\', 'u'] <:+: cs) : IsHarmless (written cs) := by
  have hsafe := madeSafe_commentSafe (Text.trimEnd cs)
  refine isHarmless_of_unmarked (fun hmark => h ?_) hsafe.not_closing
  exact (hsafe.marked hmark).trans (trimEnd_infix_self cs)

/-- A line of a text stands in it as it is. -/
theorem infix_of_mem_linesAfter {before cs line : List Char}
    (h : line ∈ Text.linesAfter before cs) : line <:+: before.reverse ++ cs := by
  induction cs generalizing before with
  | nil =>
    unfold Text.linesAfter at h
    split at h
    · cases h
    · obtain rfl := List.mem_singleton.1 h
      exact List.infix_append' [] _ []
  | cons c cs ih =>
    unfold Text.linesAfter at h
    split at h
    · rcases List.mem_cons.1 h with rfl | h
      · refine List.IsInfix.trans ?_ (List.prefix_append before.reverse (c :: cs)).isInfix
        unfold Text.withoutReturn
        split
        · exact (List.dropLast_prefix _).isInfix
        · exact List.infix_rfl
      · exact (ih h).trans ⟨before.reverse ++ [c], [], by simp⟩
    · simpa using ih h

/-- A line is part of its text. -/
theorem infix_of_mem_lines (h : ds ∈ Text.lines cs) : ds <:+: cs := infix_of_mem_linesAfter h

end Written

section Whole

variable {width : Nat} {description deprecation : Option String}

theorem toList_spaces (width : Nat) : (spaces width).toList = List.replicate width ' ' :=
  String.toList_ofList

theorem notMem_spaces {c : Char} (h : c ≠ ' ') : c ∉ (spaces width).toList := by
  rw [toList_spaces]
  exact fun hmem => h (List.eq_of_mem_replicate hmem)

theorem isHarmless_fixed {text : String} (hbackslash : '\\' ∉ text.toList)
    (hslash : '/' ∉ text.toList) : IsHarmless (spaces width ++ text).toList := by
  rw [String.toList_append]
  apply isHarmless_of_notMem
  · simp [notMem_spaces, hbackslash]
  · simp [notMem_spaces, hslash]

theorem isHarmless_line_iff (cs : List Char) :
    IsHarmless (line (spaces width) cs).toList ↔ IsHarmless (written cs) := by
  unfold line written
  cases commentSafe (Text.trimEnd cs) with
  | nil => exact iff_of_true (isHarmless_fixed (by decide) (by decide)) ⟨[], rfl, by decide⟩
  | cons c cs =>
    have hline : (spaces width ++ " * " ++ String.ofList (c :: cs)).toList =
        ((spaces width).toList ++ [' ', '*']) ++ ' ' :: c :: cs := by
      simp
    simp only [hline]
    apply isHarmless_space_iff
    · simp [notMem_spaces]
    · simp [notMem_spaces]

/-- The description without blanks around it, unless it is blank altogether. -/
def described (description : Option String) : Option (List Char) :=
  (description.map fun text => Text.trim text.toList).filter fun cs => !cs.isEmpty

def insideLines (indent : String) (description deprecation : Option String) : List String :=
  descriptionLines indent (described description) ++
    deprecationLines indent (described description).isSome deprecation

theorem descriptionLines_described (indent : String) (description : Option String) :
    descriptionLines indent (described description) =
      (description.elim [] fun text => Text.lines (Text.trim text.toList)).map (line indent) := by
  cases description with
  | none => rfl
  | some text =>
    have hfilter : described (some text) =
        if !(Text.trim text.toList).isEmpty then some (Text.trim text.toList) else none :=
      Option.filter_some
    rw [hfilter, Option.elim_some]
    by_cases hblank : Text.trim text.toList = []
    · simp [hblank, descriptionLines, Text.lines, Text.linesAfter]
    · simp [hblank, descriptionLines]

/-- The lines inside of a comment are harmless just if those of the texts are. -/
theorem isHarmless_insideLines_iff (width : Nat) {description deprecation : Option String} :
    IsHarmless (sourceLines (insideLines (spaces width) description deprecation)).toList ↔
      ∀ cs ∈ told description deprecation, IsHarmless (written cs) := by
  have hlines (lines : List (List Char)) :
      (∀ text ∈ lines.map (line (spaces width)), IsHarmless text.toList) ↔
        ∀ cs ∈ lines, IsHarmless (written cs) := by
    simp only [List.forall_mem_map, isHarmless_line_iff]
  have hdeprecation (apart : Bool) : (∀ text ∈ deprecationLines (spaces width) apart deprecation,
      IsHarmless text.toList) ↔ ∀ cs ∈ deprecation.elim [] fun text =>
        Text.lines text.toList, IsHarmless (written cs) := by
    cases deprecation with
    | none => simp [deprecationLines]
    | some text =>
      have hfirst : IsHarmless (spaces width ++ " *").toList :=
        isHarmless_fixed (by decide) (by decide)
      have hsecond : IsHarmless (spaces width ++ " * @deprecated").toList :=
        isHarmless_fixed (by decide) (by decide)
      rw [Option.elim_some, ← hlines]
      cases apart with
      | true =>
        change (∀ text ∈ _ :: _ :: _, _) ↔ _
        rw [List.forall_mem_cons, List.forall_mem_cons]
        exact ⟨fun h => h.2.2, fun h => ⟨hfirst, hsecond, h⟩⟩
      | false =>
        change (∀ text ∈ _ :: _, _) ↔ _
        rw [List.forall_mem_cons]
        exact ⟨fun h => h.2, fun h => ⟨hsecond, h⟩⟩
  rw [isHarmless_sourceLines_iff, insideLines, told, descriptionLines_described]
  simp only [List.forall_mem_append, hlines, hdeprecation]

/-- The text of a comment: its opening, the lines inside of it, its end and the annotation. -/
theorem toList_text (h : (described description).isSome || deprecation.isSome) :
    (text (spaces width) description deprecation).toList =
      ((spaces width).toList ++ "/**\n".toList) ++
        ((sourceLines (insideLines (spaces width) description deprecation)).toList ++
          ((spaces width ++ " ").toList ++ '*' :: '/' ::
            ("\n" ++ sourceLines (markLines (spaces width) deprecation.isSome)).toList)) := by
  have hsome : ¬ ((described description).isNone && deprecation.isNone) = true := by
    intro hnone
    obtain ⟨hdescription, hdeprecation⟩ := Bool.and_eq_true_iff.1 hnone
    rw [Option.isNone_iff_eq_none.1 hdescription, Option.isNone_iff_eq_none.1 hdeprecation] at h
    cases h
  have htext : text (spaces width) description deprecation =
      sourceLines ((spaces width ++ "/**") :: descriptionLines (spaces width) (described description)
        ++ deprecationLines (spaces width) (described description).isSome deprecation ++
          [spaces width ++ " */"] ++ markLines (spaces width) deprecation.isSome) := if_neg hsome
  rw [htext]
  simp [insideLines, sourceLines]

/-- Where nothing is told there is no text. -/
theorem text_eq_empty (width : Nat) {description deprecation : Option String}
    (h : ((described description).isSome || deprecation.isSome) = false) :
    text (spaces width) description deprecation = "" ∧ deprecation = none ∧
      told description deprecation = [] := by
  obtain ⟨hdescription, hdeprecation⟩ := Bool.or_eq_false_iff.1 h
  have hdescription := Option.not_isSome_iff_eq_none.1 (Bool.eq_false_iff.1 hdescription)
  have hdeprecation := Option.not_isSome_iff_eq_none.1 (Bool.eq_false_iff.1 hdeprecation)
  refine ⟨if_pos ?_, hdeprecation, ?_⟩
  · change ((described description).isNone && deprecation.isNone) = true
    rw [hdescription, hdeprecation]
    rfl
  · have hlines := descriptionLines_described "" description
    rw [hdescription] at hlines
    rw [told, List.map_eq_nil_iff.1 hlines.symm, hdeprecation]
    rfl

end Whole

section Reading

variable {width : Nat} {us inside rest : List CodeUnit}

theorem translate_sourceLines_append (lines : List String) (cs : List Char) :
    translate ((sourceLines lines).toList ++ cs) =
      (translate (sourceLines lines).toList).bind fun us => (translate cs).map (us ++ ·) := by
  induction lines with
  | nil =>
    rw [toList_sourceLines_nil]
    exact Option.map_id'.symm
  | cons line lines ih =>
    rw [toList_sourceLines_cons, List.append_assoc, List.cons_append, translate_line, translate_line,
      ih]
    simp [Option.bind_assoc, Option.map_bind, Option.bind_map, Function.comp_def]

/-- Lines end with the end of a line. -/
theorem ends_of_translate_sourceLines {lines : List String}
    (h : translate (sourceLines lines).toList = some us) :
    us = [] ∨ ∃ before, us = before ++ [ofChar '\n'] := by
  induction lines generalizing us with
  | nil =>
    rw [toList_sourceLines_nil] at h
    exact .inl (Option.some.inj h).symm
  | cons line lines ih =>
    rw [toList_sourceLines_cons, translate_line] at h
    obtain ⟨vs, hvs, h⟩ := Option.bind_eq_some_iff.1 h
    obtain ⟨ws, hws, rfl⟩ := Option.map_eq_some_iff.1 h
    rcases ih hws with rfl | ⟨before, rfl⟩
    · exact .inr ⟨vs, rfl⟩
    · exact .inr ⟨vs ++ ofChar '\n' :: before, by simp⟩

theorem dropWhile_spaces (width : Nat) (us : List CodeUnit) :
    (units (spaces width).toList ++ ofChar '/' :: us).dropWhile (· == ofChar ' ') =
      ofChar '/' :: us := by
  rw [toList_spaces]
  induction width with
  | zero => rfl
  | succ width ih =>
    rw [List.replicate_succ, units_cons, unitsOf_of_lt (by decide)]
    exact ih

/-- The inside of a comment, given the units of the lines in it. -/
def framed (width : Nat) (us : List CodeUnit) : List CodeUnit :=
  units ['*', '\n'] ++ us ++ units (spaces width ++ " ").toList

/-- Whatever is told stands between the opening of the comment and its end, with all escapes taken
in. -/
theorem translate_text (width : Nat) {description deprecation : Option String}
    (h : (described description).isSome || deprecation.isSome) :
    (translate (text (spaces width) description deprecation).toList).map
        (fun us => comment? (us.dropWhile (· == ofChar ' '))) =
      (translate (sourceLines (insideLines (spaces width) description deprecation)).toList).map
        fun us => untilClosing (framed width us ++ closing ++
          units ("\n" ++ sourceLines (markLines (spaces width) deprecation.isSome)).toList) := by
  generalize hrest : ("\n" ++ sourceLines (markLines (spaces width) deprecation.isSome)).toList =
    rest
  have hstart : '\\' ∉ (spaces width).toList ++ "/**\n".toList := by simp [notMem_spaces]
  have hend : '\\' ∉ (spaces width ++ " ").toList ++ '*' :: '/' :: rest := by
    rw [← hrest]
    cases deprecation <;> simp [notMem_spaces, markLines, sourceLines]
  have hopening : units "/**\n".toList = ofChar '/' :: ofChar '*' :: units ['*', '\n'] := by
    rw [units_of_ascii (by simp), units_of_ascii (by simp)]
    rfl
  have hclosing : units ('*' :: '/' :: rest) = closing ++ units rest := by
    rw [closing, ← units_append]
    rfl
  rw [toList_text h, hrest, translate_append hstart, translate_sourceLines_append,
    translate_eq_units hend]
  cases translate (sourceLines (insideLines (spaces width) description deprecation)).toList with
  | none => rfl
  | some us =>
    simp only [Option.bind_some, Option.map_some, units_append, hopening, hclosing, framed,
      List.append_assoc, List.cons_append, dropWhile_spaces, comment?, and_self, if_true]

/-- The frame of a line does not end the comment. -/
theorem not_closing_framed (h : ¬ closing <:+: us) : ¬ closing <:+: framed width us := by
  have hopening : units ['*', '\n'] = [ofChar '*', ofChar '\n'] := units_of_ascii (by simp)
  have hslash : ofChar '/' ∉ units (spaces width ++ " ").toList := by
    rw [ofChar_mem_units (by decide)]
    simp [notMem_spaces]
  rw [closing_eq] at h ⊢
  unfold framed
  rw [Text.pair_infix_append_iff, hopening, List.cons_append, Text.pair_infix_cons_iff,
    List.singleton_append, Text.pair_infix_cons_iff]
  rintro ((⟨-, hfeed⟩ | ⟨hfeed, -⟩ | hinside) | ⟨-, hhead⟩ | hend)
  · exact absurd (Option.some.inj hfeed) (by decide)
  · exact absurd hfeed (by decide)
  · exact h hinside
  · exact hslash (List.mem_of_head? hhead)
  · exact hslash (hend.subset (by simp))

/-- The end of the comment is on a line of its own. -/
theorem exists_framed_eq (width : Nat) {lines : List String}
    (h : translate (sourceLines lines).toList = some us) :
    ∃ before, framed width us = before ++ units ("\n" ++ spaces width ++ " ").toList := by
  have hfeed : unitsOf '\n' = [ofChar '\n'] := unitsOf_of_lt (by decide)
  rcases ends_of_translate_sourceLines h with rfl | ⟨before, rfl⟩
  · exact ⟨units ['*'], by simp [framed, String.toList_append]⟩
  · exact ⟨units ['*', '\n'] ++ before, by simp [framed, String.toList_append, hfeed]⟩

/-- The comment is kept whole just if no line that is told does harm in it. -/
theorem isDocumentation_iff (width : Nat) (description deprecation : Option String) :
    IsDocumentation (spaces width) deprecation.isSome
        (text (spaces width) description deprecation).toList ↔
      ∀ cs ∈ told description deprecation, IsHarmless (written cs) := by
  by_cases htold : (described description).isSome || deprecation.isSome
  · have hread := translate_text width htold
    rw [← isHarmless_insideLines_iff width]
    constructor
    · intro h
      generalize hsource : (text (spaces width) description deprecation).toList = source at h hread
      generalize deprecation.isSome = deprecated at h hread
      cases h with
      | nothing =>
        rw [toList_text htold] at hsource
        simp at hsource
      | comment htranslate hcomment =>
        rw [htranslate] at hread
        obtain ⟨us, hus, hcut⟩ := Option.map_eq_some_iff.1 hread.symm
        obtain ⟨heq, hnot⟩ := of_untilClosing (hcut.trans hcomment)
        have hinside := List.append_cancel_right (List.append_cancel_right heq)
        refine ⟨us, hus, fun hclose => hnot (hclose.trans ?_)⟩
        rw [← hinside]
        exact ⟨units ['*', '\n'], units (spaces width ++ " ").toList, rfl⟩
    · rintro ⟨us, hus, hnot⟩
      rw [hus] at hread
      obtain ⟨vs, hvs, hcomment⟩ := Option.map_eq_some_iff.1 hread
      obtain ⟨before, hbefore⟩ := exists_framed_eq width hus
      dsimp only at hcomment
      rw [untilClosing_append (not_closing_framed hnot), hbefore] at hcomment
      exact .comment hvs hcomment
  · obtain ⟨htext, rfl, hnone⟩ := text_eq_empty width (Bool.eq_false_iff.2 htold)
    rw [htext, hnone]
    exact iff_of_true .nothing fun cs hcs => absurd hcs List.not_mem_nil

end Reading

/-- How a comment may fail: it is read as one exactly if no line does harm in it, and where no text
has a backslash in front of a `u` no line does. -/
structure KeepsComment (width : Nat) (description deprecation : Option String) : Prop where
  whole_iff : IsDocumentation (spaces width) deprecation.isSome
      (text (spaces width) description deprecation).toList ↔
    ∀ cs ∈ told description deprecation, IsHarmless (written cs)
  of_unmarked : (∀ text ∈ description.toList ++ deprecation.toList,
      ¬ ['\\', 'u'] <:+: text.toList) →
    IsDocumentation (spaces width) deprecation.isSome
      (text (spaces width) description deprecation).toList

/-- A line that is told is part of one of the texts. -/
theorem exists_infix_of_mem_told {description deprecation : Option String} {cs : List Char}
    (h : cs ∈ told description deprecation) :
    ∃ text ∈ description.toList ++ deprecation.toList, cs <:+: text.toList := by
  rcases List.mem_append.1 h with h | h
  · cases description with
    | none => cases h
    | some text =>
      refine ⟨text, by simp, (infix_of_mem_lines h).trans ?_⟩
      refine (trimEnd_infix_self _).trans ?_
      exact (List.dropWhile_suffix _).isInfix
  · cases deprecation with
    | none => cases h
    | some text => exact ⟨text, by simp, infix_of_mem_lines h⟩

/-- A comment is read back as one, whole, exactly if no line of it does harm. -/
theorem keepsComment (width : Nat) (description deprecation : Option String) :
    KeepsComment width description deprecation where
  whole_iff := isDocumentation_iff width description deprecation
  of_unmarked h := by
    rw [isDocumentation_iff]
    intro cs hcs
    obtain ⟨text, htext, hinfix⟩ := exists_infix_of_mem_told hcs
    exact isHarmless_written fun hmark => h text htext (hmark.trans hinfix)

/-- An escaped star in front of a slash ends the comment early, and a path with a backslash before a
`u` cannot be read. -/
theorem not_whole_of_escaped_star_or_path :
    ¬ IsDocumentation (spaces 0) false (text (spaces 0) (some "a \\u002a/ b") none).toList ∧
      ¬ IsDocumentation (spaces 4) false (text (spaces 4) (some "C:\\users") none).toList := by
  have hstar := (isDocumentation_iff 0 (some "a \\u002a/ b") none).not.2
  have hpath := (isDocumentation_iff 4 (some "C:\\users") none).not.2
  refine ⟨hstar fun h => ?_, hpath fun h => ?_⟩
  · obtain ⟨us, hus, hnot⟩ := h "a \\u002a/ b".toList (by decide)
    have hread : (translate (written "a \\u002a/ b".toList)) = some (units "a */ b".toList) := by
      decide +kernel
    cases hread.symm.trans hus
    exact hnot ⟨units ['a', ' '], units [' ', 'b'], by decide⟩
  · obtain ⟨us, hus, -⟩ := h "C:\\users".toList (by decide)
    have hread : translate (written "C:\\users".toList) = none := by decide +kernel
    cases hread.symm.trans hus

end SchemaToJava.Java.Doc
