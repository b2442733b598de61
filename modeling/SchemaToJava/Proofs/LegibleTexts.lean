import SchemaToJava.Proofs.NameCharacters
import SchemaToJava.Proofs.ShapeParts

/-!
Types that can be read off their texts. Where no name has a separator in it and no comment has a
star, the text of a type shows where each annotation, each name and each parameter ends: two such
types with the same text are the same. The types of a package are of this kind, comments included,
if the packages that its options give are written with letters and digits, underscores and dots.
-/
namespace SchemaToJava.Java

open Text

/-- A list that is cut where `p` first fails is cut in one way. -/
theorem append_inj_of_stops {α : Type} {p : α → Prop} {xs ys xs' ys' : List α}
    (hxs : ∀ x ∈ xs, p x) (hxs' : ∀ x ∈ xs', p x) (hys : ∀ y ∈ ys.head?, ¬ p y)
    (hys' : ∀ y ∈ ys'.head?, ¬ p y) (h : xs ++ ys = xs' ++ ys') : xs = xs' ∧ ys = ys' := by
  induction xs generalizing xs' with
  | nil =>
    cases xs' with
    | nil => exact ⟨rfl, h⟩
    | cons x xs' =>
      obtain rfl : ys = x :: (xs' ++ ys') := h
      exact absurd (hxs' x List.mem_cons_self) (hys x rfl)
  | cons x xs ih =>
    cases xs' with
    | nil =>
      obtain rfl : x :: (xs ++ ys) = ys' := h
      exact absurd (hxs x List.mem_cons_self) (hys' x rfl)
    | cons x' xs' =>
      rw [List.cons_append, List.cons_append, List.cons.injEq] at h
      obtain ⟨rfl, h⟩ := h
      obtain ⟨rfl, rfl⟩ := ih (fun y hy => hxs y (List.mem_cons_of_mem x hy))
        (fun y hy => hxs' y (List.mem_cons_of_mem x hy)) h
      exact ⟨rfl, rfl⟩

theorem forall_head?_append {α : Type} {p : α → Prop} {xs ys : List α} (hxs : ∀ x ∈ xs, p x)
    (hys : ∀ y ∈ ys.head?, p y) : ∀ x ∈ (xs ++ ys).head?, p x := by
  cases xs with
  | nil => exact hys
  | cons x xs =>
    intro y hy
    obtain rfl : x = y := Option.some.inj hy
    exact hxs x List.mem_cons_self

namespace TypeShape

/-- The mark of a type that may be missing, or a comment that only ends where it says so. -/
inductive IsLegibleMark : String → Prop
  | nullable : IsLegibleMark nullableMark
  | comment {text : String} (h : '*' ∉ text.toList) : IsLegibleMark ("/* " ++ text ++ " */")

/-- No class in the type has a separator in its name, and the marks are legible. -/
def IsLegible : TypeShape → Prop := HasParts QualifiedName.IsUnbroken IsLegibleMark

theorem IsLegibleMark.exists_cons {mark : String} (h : IsLegibleMark mark) :
    ∃ c rest, mark.toList = c :: rest ∧ (c = '@' ∨ c = '/') := by
  cases h with
  | nullable => exact ⟨'@', "javax.annotation.Nullable".toList, by decide, .inl rfl⟩
  | @comment text h =>
    refine ⟨'/', ("* " ++ text ++ " */").toList, ?_, .inr rfl⟩
    simp only [String.toList_append]
    rfl

/-- A mark ends before a blank that can be told from those inside it. -/
theorem IsLegibleMark.inj {mark mark' : String} (hmark : IsLegibleMark mark)
    (hmark' : IsLegibleMark mark') {cs cs' : List Char}
    (h : mark.toList ++ ' ' :: cs = mark'.toList ++ ' ' :: cs') : mark = mark' ∧ cs = cs' := by
  cases hmark with
  | nullable =>
    cases hmark' with
    | nullable => exact ⟨rfl, (List.cons.inj (List.append_cancel_left h)).2⟩
    | comment htext =>
      simp only [String.toList_append, List.append_assoc] at h
      exact absurd (List.cons.inj h).1 (by decide)
  | @comment text htext =>
    cases hmark' with
    | nullable =>
      simp only [String.toList_append, List.append_assoc] at h
      exact absurd (List.cons.inj h).1 (by decide)
    | @comment text' htext' =>
      have hbody (text : String) (cs : List Char) :
          ("/* " ++ text ++ " */").toList ++ ' ' :: cs =
            "/* ".toList ++ ((text.toList ++ [' ']) ++ '*' :: '/' :: ' ' :: cs) := by
        simp
      have hplain {text : String} (htext : '*' ∉ text.toList) :
          ∀ c ∈ text.toList ++ [' '], c ≠ '*' := by
        rintro c hc rfl
        rcases List.mem_append.1 hc with hc | hc
        · exact htext hc
        · exact absurd (List.mem_singleton.1 hc) (by decide)
      rw [hbody, hbody] at h
      obtain ⟨htexts, hrest⟩ := append_inj_of_stops (hplain htext) (hplain htext') (by simp)
        (by simp) (List.append_cancel_left h)
      obtain rfl : text = text' := String.toList_inj.1 (List.append_cancel_right htexts)
      exact ⟨rfl, by simpa using hrest⟩

/-- The characters of marks, each of which is followed by a blank. -/
def markChars (marks : List String) : List Char := marks.flatMap fun mark => mark.toList ++ [' ']

/-- Marks are told apart from each other and from what is behind them. -/
theorem markChars_inj {marks marks' : List String} {cs cs' : List Char}
    (hmarks : ∀ mark ∈ marks, IsLegibleMark mark) (hmarks' : ∀ mark ∈ marks', IsLegibleMark mark)
    (hcs : ∀ c ∈ cs.head?, c ≠ '@' ∧ c ≠ '/') (hcs' : ∀ c ∈ cs'.head?, c ≠ '@' ∧ c ≠ '/')
    (h : markChars marks ++ cs = markChars marks' ++ cs') : marks = marks' ∧ cs = cs' := by
  have hstarts {mark : String} (hmark : IsLegibleMark mark) (rest ds : List Char)
      (hds : ∀ c ∈ ds.head?, c ≠ '@' ∧ c ≠ '/') : mark.toList ++ rest ≠ ds := by
    rintro rfl
    obtain ⟨c, later, hchars, hc⟩ := hmark.exists_cons
    obtain ⟨hat, hslash⟩ := hds c (by simp [hchars])
    exact hc.elim hat hslash
  have hcons (mark : String) (marks : List String) (ds : List Char) :
      markChars (mark :: marks) ++ ds = mark.toList ++ ' ' :: (markChars marks ++ ds) := by
    simp [markChars]
  induction marks generalizing marks' with
  | nil =>
    cases marks' with
    | nil => exact ⟨rfl, h⟩
    | cons mark' marks' =>
      rw [hcons] at h
      exact (hstarts (hmarks' mark' List.mem_cons_self) _ cs hcs h.symm).elim
  | cons mark marks ih =>
    cases marks' with
    | nil =>
      rw [hcons] at h
      exact (hstarts (hmarks mark List.mem_cons_self) _ cs' hcs' h).elim
    | cons mark' marks' =>
      rw [hcons, hcons] at h
      obtain ⟨rfl, hrest⟩ :=
        (hmarks mark List.mem_cons_self).inj (hmarks' mark' List.mem_cons_self) h
      obtain ⟨rfl, rfl⟩ := ih (fun other hother => hmarks other (List.mem_cons_of_mem mark hother))
        (fun other hother => hmarks' other (List.mem_cons_of_mem mark hother)) hrest
      exact ⟨rfl, rfl⟩

/-- The characters of parameters after the first one, each of which is led by a comma. -/
def laterChars (ps : List TypeShape) : List Char :=
  ps.flatMap fun p => ',' :: p.qualifiedText.toList

def parameterChars : List TypeShape → List Char
  | [] => []
  | p :: ps => '<' :: (p.qualifiedText.toList ++ (laterChars ps ++ ['>']))

theorem qualifiedTexts_eq (ps : List TypeShape) : qualifiedTexts ps = ps.map qualifiedText := by
  induction ps with
  | nil => rfl
  | cons p ps ih => rw [qualifiedTexts, ih, List.map_cons]

theorem toList_qualifiedText (base : QualifiedName) (ps : List TypeShape) (marks : List String) :
    (qualifiedText ⟨base, ps, marks⟩).toList =
      markChars marks ++ (base.dotted.toList ++ parameterChars ps) := by
  rw [qualifiedText, String.toList_append, qualifiedTexts_eq]
  congr 1
  · simp [markChars, List.flatMap_map]
  · unfold withParameters
    cases ps with
    | nil => simp [parameterChars]
    | cons p ps =>
      rw [List.map_cons, List.isEmpty_cons, if_neg Bool.false_ne_true]
      simp only [String.toList_append, toList_intercalate_cons, List.flatMap_map, parameterChars,
        laterChars, List.append_assoc]
      rfl

/-- What may follow the text of a type: nothing, a comma or the end of parameters. -/
def EndsType (cs : List Char) : Prop := ∀ c ∈ cs.head?, c = ',' ∨ c = '>'

theorem endsType_laterChars (ps : List TypeShape) (cs : List Char) :
    EndsType (laterChars ps ++ '>' :: cs) := by
  cases ps with
  | nil => simp [EndsType, laterChars]
  | cons p ps => simp [EndsType, laterChars]

/-- The marks and the class of a type are told apart from each other and from its parameters. -/
theorem IsLegible.root_inj {s t : TypeShape} (hs : s.IsLegible) (ht : t.IsLegible)
    {cs ds : List Char} (hcs : EndsType cs) (hds : EndsType ds)
    (h : s.qualifiedText.toList ++ cs = t.qualifiedText.toList ++ ds) :
    s.base = t.base ∧ s.annotations = t.annotations ∧
      parameterChars s.parameters ++ cs = parameterChars t.parameters ++ ds := by
  have hends (ps : List TypeShape) {cs : List Char} (hcs : EndsType cs) :
      ∀ c ∈ (parameterChars ps ++ cs).head?, c = '<' ∨ c = ',' ∨ c = '>' := by
    cases ps with
    | nil => exact fun c hc => .inr (hcs c hc)
    | cons p ps => exact fun c hc => .inl (Option.some.inj hc).symm
  -- Neither a name nor what follows it starts like a mark.
  have hhead {name : QualifiedName} (hname : name.IsUnbroken) (ps : List TypeShape)
      {cs : List Char} (hcs : EndsType cs) :
      ∀ c ∈ (name.dotted.toList ++ (parameterChars ps ++ cs)).head?, c ≠ '@' ∧ c ≠ '/' := by
    refine forall_head?_append (fun c hc => ?_) fun c hc => ?_
    · rcases hname.dotted c hc with hplain | rfl
      · constructor <;> rintro rfl <;> exact hplain (by decide)
      · decide
    · rcases hends ps hcs c hc with rfl | rfl | rfl <;> decide
  have hstop (ps : List TypeShape) {cs : List Char} (hcs : EndsType cs) :
      ∀ c ∈ (parameterChars ps ++ cs).head?, ¬ (c ∉ separators ∨ c = '.') := by
    intro c hc
    rcases hends ps hcs c hc with rfl | rfl | rfl <;> decide
  obtain ⟨base, ps, marks⟩ := s
  obtain ⟨base', ps', marks'⟩ := t
  rw [toList_qualifiedText, toList_qualifiedText, List.append_assoc, List.append_assoc,
    List.append_assoc, List.append_assoc] at h
  obtain ⟨hmarks, hrest⟩ := markChars_inj hs.marks ht.marks (hhead hs.base ps hcs)
    (hhead ht.base ps' hds) h
  obtain ⟨hbase, hparameters⟩ := append_inj_of_stops hs.base.dotted ht.base.dotted (hstop ps hcs)
    (hstop ps' hds) hrest
  exact ⟨hs.base.dotted_inj ht.base (String.toList_inj.1 hbase), hmarks, hparameters⟩

mutual

/-- The text of a type shows where it ends, and what the type is. -/
theorem IsLegible.inj_of_endsType : {s t : TypeShape} → s.IsLegible → t.IsLegible →
    {cs ds : List Char} → EndsType cs → EndsType ds →
      s.qualifiedText.toList ++ cs = t.qualifiedText.toList ++ ds → s = t ∧ cs = ds
  | ⟨base, [], marks⟩, ⟨base', [], marks'⟩, hs, ht, cs, ds, hcs, hds, h => by
    obtain ⟨rfl, rfl, hrest⟩ := hs.root_inj ht hcs hds h
    exact ⟨rfl, hrest⟩
  | ⟨base, [], marks⟩, ⟨base', p' :: ps', marks'⟩, hs, ht, cs, ds, hcs, hds, h => by
    obtain ⟨rfl, rfl, hrest⟩ := hs.root_inj ht hcs hds h
    obtain rfl : cs = _ := hrest
    exact absurd hcs (by simp [EndsType, parameterChars])
  | ⟨base, p :: ps, marks⟩, ⟨base', [], marks'⟩, hs, ht, cs, ds, hcs, hds, h => by
    obtain ⟨rfl, rfl, hrest⟩ := hs.root_inj ht hcs hds h
    obtain rfl : _ = ds := hrest
    exact absurd hds (by simp [EndsType, parameterChars])
  | ⟨base, p :: ps, marks⟩, ⟨base', p' :: ps', marks'⟩, hs, ht, cs, ds, hcs, hds, h => by
    obtain ⟨rfl, rfl, hrest⟩ := hs.root_inj ht hcs hds h
    have hps := hs.parameters
    have hps' := ht.parameters
    simp only [parameterChars, List.cons_append, List.append_assoc, List.cons.injEq,
      true_and] at hrest
    obtain ⟨rfl, hlater⟩ := inj_of_endsType (hps p List.mem_cons_self) (hps' p' List.mem_cons_self)
      (endsType_laterChars ps cs) (endsType_laterChars ps' ds) hrest
    obtain ⟨rfl, rfl⟩ := laterChars_inj (fun q hq => hps q (List.mem_cons_of_mem p hq))
      (fun q hq => hps' q (List.mem_cons_of_mem p hq)) hlater
    exact ⟨rfl, rfl⟩

/-- The texts of parameters up to the closing bracket determine the parameters and the rest. -/
theorem IsLegible.laterChars_inj : {ps ps' : List TypeShape} → (∀ p ∈ ps, p.IsLegible) →
    (∀ p ∈ ps', p.IsLegible) → {cs ds : List Char} →
      laterChars ps ++ '>' :: cs = laterChars ps' ++ '>' :: ds → ps = ps' ∧ cs = ds
  | [], [], _, _, cs, ds, h => ⟨rfl, (List.cons.inj h).2⟩
  | [], p' :: ps', _, _, cs, ds, h => absurd (List.cons.inj h).1 (by decide)
  | p :: ps, [], _, _, cs, ds, h => absurd (List.cons.inj h).1 (by decide)
  | p :: ps, p' :: ps', hps, hps', cs, ds, h => by
    have hcons (q : TypeShape) (qs : List TypeShape) (es : List Char) :
        laterChars (q :: qs) ++ '>' :: es =
          ',' :: (q.qualifiedText.toList ++ (laterChars qs ++ '>' :: es)) := by
      simp [laterChars]
    rw [hcons, hcons] at h
    obtain ⟨rfl, hlater⟩ := inj_of_endsType (hps p List.mem_cons_self) (hps' p' List.mem_cons_self)
      (endsType_laterChars ps cs) (endsType_laterChars ps' ds) (List.cons.inj h).2
    obtain ⟨rfl, rfl⟩ := laterChars_inj (fun q hq => hps q (List.mem_cons_of_mem p hq))
      (fun q hq => hps' q (List.mem_cons_of_mem p hq)) hlater
    exact ⟨rfl, rfl⟩

end

/-- The text of a type determines the type. -/
theorem IsLegible.qualifiedText_inj {s t : TypeShape} (hs : s.IsLegible) (ht : t.IsLegible)
    (h : s.qualifiedText = t.qualifiedText) : s = t := by
  have hends : EndsType [] := fun c hc => by cases hc
  exact (hs.inj_of_endsType ht hends hends (by rw [h])).1

section SimpleText

theorem notMem_intercalate {c : Char} {sep : String} (hsep : c ∉ sep.toList) {texts : List String}
    (h : ∀ text ∈ texts, c ∉ text.toList) : c ∉ (sep.intercalate texts).toList := by
  cases texts with
  | nil => simp
  | cons text texts =>
    rw [toList_intercalate_cons, List.mem_append, List.mem_flatMap, not_or]
    refine ⟨h text List.mem_cons_self, ?_⟩
    rintro ⟨other, hother, hc⟩
    rcases List.mem_append.1 hc with hc | hc
    · exact hsep hc
    · exact h other (List.mem_cons_of_mem text hother) hc

mutual

/-- The short text of a type has no star, as it has no comments. -/
theorem IsLegible.star_notMem : {s : TypeShape} → s.IsLegible → '*' ∉ s.simpleText.toList
  | ⟨base, ps, marks⟩, h => by
    have hbase : '*' ∉ base.base.toList := fun hstar => h.base.base '*' hstar (by decide)
    have htexts : '*' ∉ (",".intercalate (simpleTexts ps)).toList :=
      notMem_intercalate (by decide) (star_notMem_texts h.parameters)
    unfold simpleText withParameters
    split
    · exact hbase
    · simp only [String.toList_append, List.mem_append, not_or]
      exact ⟨⟨⟨hbase, by decide⟩, htexts⟩, by decide⟩

theorem IsLegible.star_notMem_texts : {ps : List TypeShape} → (∀ p ∈ ps, p.IsLegible) →
    ∀ text ∈ simpleTexts ps, '*' ∉ text.toList
  | [], _, text, htext => absurd htext List.not_mem_nil
  | p :: ps, h, text, htext => by
    rcases List.mem_cons.1 htext with rfl | htext
    · exact star_notMem (h p List.mem_cons_self)
    · exact star_notMem_texts (fun q hq => h q (List.mem_cons_of_mem p hq)) text htext

end

end SimpleText

end TypeShape

/-- The types of a package can be read off their texts. -/
theorem TypeMapper.HasPlainNames.shapeClosed_isLegible {m : TypeMapper} (h : m.HasPlainNames) :
    m.ShapeClosed TypeShape.IsLegible := by
  refine shapeClosed_hasParts h.isUnbroken_of_assigns (by decide) .nullable fun hshapes => ?_
  refine .comment (TypeShape.notMem_intercalate (by decide) fun text htext => ?_)
  obtain ⟨s, hs, rfl⟩ := List.mem_map.1 htext
  exact TypeShape.IsLegible.star_notMem (hshapes s hs)

end SchemaToJava.Java
