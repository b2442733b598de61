import SchemaToJava.Proofs.DottedNames
import SchemaToJava.Proofs.Frames
import SchemaToJava.Proofs.RelatedRuns

/-!
The fronts of Java files: the line that names the package, and the import declarations after it.
They are read off the text of a file. In a generated file the body starts with a comment, an
annotation or a modifier, none of which is an import, so the front does not depend on it.
-/
namespace SchemaToJava.Java

open Outcome

structure FileFront where
  packageLine : List Char
  /-- The lines of the import declarations and the blank ones among them. -/
  importBlock : List (List Char)
deriving DecidableEq, Repr

def isImportLine (line : List Char) : Bool :=
  line.isEmpty || (Text.dropLead "import ".toList line).isSome

/-- What stands in every file of a run before the line that names the package. -/
def preamble (settings : Settings) : String := header settings.toolName ++ "\n"

/-- The front that lines start with: the first one, and after a blank line the import
declarations. -/
def FileFront.ofLines (lines : List (List Char)) : FileFront :=
  ⟨lines.headD [], (lines.drop 2).takeWhile isImportLine⟩

def frontOf (settings : Settings) (text : String) : FileFront :=
  .ofLines (Text.pieces '\n' (text.toList.drop (preamble settings).toList.length))

/-- The text starts as a class does: with a comment, an annotation or a modifier. -/
def StartsClass (text : String) : Prop :=
  ∃ c ∈ ['/', '@', 'p'], text.toList.head? = some c

namespace Draft

/-- The text of the finished file between the preamble and the body. -/
def frontText (d : Draft) : String :=
  let imports := d.imports.text
  s!"package {d.imports.owner.packageName};\n\n" ++
    if imports.isEmpty then "" else imports ++ "\n"

theorem text_finish (d : Draft) (settings : Settings) :
    (d.finish settings).file.text = preamble settings ++ (d.frontText ++ d.body) := by
  unfold finish frontText preamble
  simp only [String.append_assoc]

theorem exists_frontText (d : Draft) : ∃ block,
    d.frontText.toList = ("package " ++ d.imports.owner.packageName ++ ";").toList ++
      '\n' :: (block ++ ['\n']) := by
  unfold frontText
  by_cases h : d.imports.text.isEmpty
  · refine ⟨[], ?_⟩
    simp [h, toString]
  · refine ⟨'\n' :: d.imports.text.toList, ?_⟩
    simp [h, toString]

end Draft

/-- No line that starts a class is taken for an import. -/
theorem takeWhile_isImportLine_body {body : String} (h : StartsClass body) :
    (Text.pieces '\n' body.toList).takeWhile isImportLine = [] := by
  obtain ⟨c, hc, hhead⟩ := h
  obtain ⟨rest, htext⟩ := List.head?_eq_some_iff.1 hhead
  have hline : c ≠ '\n' ∧ c ≠ 'i' := by
    constructor
    · rintro rfl
      simp at hc
    · rintro rfl
      simp at hc
  have hfirst : ∃ first later, Text.pieces '\n' body.toList = (c :: first) :: later := by
    obtain ⟨first, later, hpieces⟩ := List.exists_cons_of_ne_nil (Text.pieces_ne_nil '\n' rest)
    refine ⟨first, later, ?_⟩
    rw [htext, Text.pieces, if_neg hline.1, hpieces]
  obtain ⟨first, later, hpieces⟩ := hfirst
  have hnot : isImportLine (c :: first) = false := by
    unfold isImportLine
    simp [Text.dropLead, hline.2.symm]
  rw [hpieces, List.takeWhile_cons_of_neg (by simp [hnot])]

/-- Lines after the import declarations do not belong to the front. -/
theorem FileFront.ofLines_append {lines later : List (List Char)} (hlines : 2 ≤ lines.length)
    (hlater : later.takeWhile isImportLine = []) : ofLines (lines ++ later) = ofLines lines := by
  have hne : lines ≠ [] := List.ne_nil_of_length_pos (Nat.lt_of_lt_of_le (by decide) hlines)
  obtain ⟨first, rest, rfl⟩ := List.exists_cons_of_ne_nil hne
  unfold ofLines
  rw [List.drop_append_of_le_length hlines, List.takeWhile_append, hlater, List.append_nil]
  split
  · next hall =>
    rw [(List.takeWhile_prefix _).eq_of_length hall]
    rfl
  · rfl

/-- The front of a finished file is told by its imports alone, whatever class it declares. -/
theorem exists_frontOf_finish (settings : Settings) (imports : Imports) :
    ∃ front, ∀ d : Draft, d.imports = imports → StartsClass d.body →
      frontOf settings (d.finish settings).file.text = front := by
  obtain ⟨block, hblock⟩ := Draft.exists_frontText ⟨imports, "", []⟩
  let package := ("package " ++ imports.owner.packageName ++ ";").toList
  let lines := Text.pieces '\n' package ++ Text.pieces '\n' block
  refine ⟨.ofLines lines, ?_⟩
  rintro d rfl hbody
  have htext : (d.finish settings).file.text.toList.drop (preamble settings).toList.length =
      package ++ '\n' :: (block ++ '\n' :: d.body.toList) := by
    have hfront : d.frontText.toList = package ++ '\n' :: (block ++ ['\n']) := hblock
    rw [d.text_finish, String.toList_append, List.drop_left, String.toList_append, hfront]
    simp
  have hlength : 2 ≤ lines.length := by
    have hpackage := List.length_pos_iff.2 (Text.pieces_ne_nil '\n' package)
    have hrest := List.length_pos_iff.2 (Text.pieces_ne_nil '\n' block)
    have hlength : lines.length = _ := List.length_append
    omega
  unfold frontOf
  rw [htext, Text.pieces_append_sep, Text.pieces_append_sep, ← List.append_assoc]
  exact FileFront.ofLines_append hlength (takeWhile_isImportLine_body hbody)

/-- The body of a file stays as it is while its text is made. -/
def quietFrame (m : TypeMapper) : DraftFrame m where
  rel d e := e.body = d.body
  refl _ := rfl
  trans hst htu := htu.trans hst
  refer _ _ _ := rfl
  need _ _ _ _ _ := rfl

def Emitted.outline (settings : Settings) (e : Emitted) : String × FileFront × List ClassRequest :=
  (e.file.path, frontOf settings e.file.text, e.needed)

/-- Files with texts that are made alike have the same outline. -/
theorem related_draftClass {m : TypeMapper} {owner : QualifiedName} {x x' : Drafting String}
    (hquiet : (quietFrame m).lenient.Keeps x)
    (h : Drafting.Related (fun text text' => StartsClass text ∧ StartsClass text') x x') :
    Related (fun e e' => e.outline m.settings = e'.outline m.settings)
      (draftClass m.settings owner x) (draftClass m.settings owner x') := by
  obtain ⟨hresult, hdraft⟩ := h (.start m.settings owner)
  have hbody := (hquiet (.start m.settings owner)).1
  rw [draftClass_eq, draftClass_eq]
  generalize x.run.run (.start m.settings owner) = run at hresult hdraft hbody ⊢
  generalize x'.run.run (.start m.settings owner) = run' at hresult hdraft ⊢
  obtain ⟨result, d⟩ := run
  obtain ⟨result', d'⟩ := run'
  obtain rfl : d = d' := hdraft
  have hbody : d.body = "" := hbody
  obtain ⟨front, hfront⟩ := exists_frontOf_finish m.settings d.imports
  have houtline (text : String) (htext : StartsClass text) :
      (Draft.finish { d with body := d.body ++ text } m.settings).outline m.settings =
        (sourceRoot ++ "/" ++ d.imports.owner.filePath, front, d.needed) := by
    have hbody : StartsClass (d.body ++ text) := by simpa [hbody] using htext
    unfold Emitted.outline
    rw [hfront { d with body := d.body ++ text } rfl hbody]
    rfl
  cases hresult with
  | error e => exact .error e
  | ok hstarts => exact .ok ((houtline _ hstarts.1).trans (houtline _ hstarts.2).symm)

end SchemaToJava.Java
