import Mathlib.Tactic.Common
import SchemaToJava.Json.Tree

/-!
What stands in the tree of a JSON text. Every scalar is nothing but its value or is unusable, no
number in it is an integer beyond 64 bits or is infinite, and nothing refers to another place; the
tokens have these properties and building the tree keeps them.
-/
namespace SchemaToJava

open Reading Floating

/-- An integer is within the range of words of 64 bits, signed or not. -/
def Json.Number.Fits : Json.Number → Prop
  | .int i => -(twoTo 63 : Int) ≤ i ∧ i < twoTo 64
  | .float _ => True

namespace Reading

def Atom.Fits : Atom → Prop
  | .number n => n.Fits
  | .unbounded => False
  | _ => True

/-- The scalar is nothing but a value that JSON can write, or it is unusable. -/
inductive Scalar.IsPlain : Scalar → Prop
  | ofAtom {a : Atom} : a.Fits → IsPlain (.ofAtom a)
  | flawed {f : Fault} : IsPlain (.flawed f)

/-- All scalars in the tree are plain, and it has no alias. -/
inductive Node.IsPlain : Node → Prop
  | scalar {s : Scalar} : s.IsPlain → IsPlain (.scalar s)
  | list {items : List Node} {brokenOff : Option Fault} {typed positional : Bool} :
      (∀ n ∈ items, IsPlain n) → IsPlain (.list items brokenOff typed positional)
  | table {members : List (Node × Node)} {brokenOff : Option Fault} {typed : Bool} :
      (∀ m ∈ members, IsPlain m.1) → (∀ m ∈ members, IsPlain m.2) →
      IsPlain (.table members brokenOff typed)
  | broken {strict lax : Fault} : IsPlain (.broken strict lax)

end Reading

namespace Json

inductive Token.IsPlain : Token → Prop
  | openList : IsPlain .openList
  | closeList : IsPlain .closeList
  | openTable : IsPlain .openTable
  | closeTable : IsPlain .closeTable
  | colon : IsPlain .colon
  | comma : IsPlain .comma
  | text {s : Scalar} : s.IsPlain → IsPlain (.text s)
  | atom {s : Scalar} : s.IsPlain → IsPlain (.atom s)
  | brokenText {strict lax : Fault} : IsPlain (.brokenText strict lax)
  | broken {strict lax : Fault} : IsPlain (.broken strict lax)

theorem takeFitting_lt {significand : Nat} (h : significand < twoTo 64) (digits : List Nat) :
    (takeFitting significand digits).1 < twoTo 64 := by
  induction digits generalizing significand with
  | nil => exact h
  | cons d rest ih =>
    rw [takeFitting]
    split
    · next hfits => exact ih hfits
    · exact h

/-- The value of a numeral is within the range of its kind. -/
theorem fits_of_value {n : Numeral} {number : Number} (h : n.value = some number) :
    number.Fits := by
  have hlt : (takeFitting 0 n.whole).1 < twoTo 64 := takeFitting_lt (by decide) n.whole
  have hwords : twoTo 64 = 2 * twoTo 63 := by decide
  unfold Numeral.value at h
  dsimp only at h
  split at h
  · next hexact =>
    obtain rfl := Option.some.inj h
    simp only [Bool.and_eq_true, Bool.or_eq_true, Bool.not_eq_true', decide_eq_true_eq] at hexact
    unfold Number.Fits
    dsimp only
    split
    · next hnegative =>
      obtain ⟨-, hsign | ⟨-, hle⟩⟩ := hexact
      · rw [hnegative] at hsign
        cases hsign
      · omega
    · omega
  · obtain ⟨x, -, rfl⟩ := Option.map_eq_some_iff.1 h
    trivial

theorem isPlain_numberToken (n : Numeral) : (numberToken n).IsPlain := by
  unfold numberToken
  refine .atom ?_
  split
  · next number hvalue => exact .ofAtom (fits_of_value hvalue)
  · exact .flawed

theorem isPlain_digitMissing (rest : List Char) : (digitMissing rest).1.IsPlain := .broken

theorem isPlain_scanTail (negative : Bool) (whole : List Nat) (fraction : Option (List Nat))
    (cs : List Char) : (scanTail negative whole fraction cs).1.IsPlain := by
  have hpower (cs : List Char) : (scanPower negative whole fraction cs).1.IsPlain := by
    unfold scanPower
    dsimp only
    split <;> dsimp only <;> split
    all_goals first | exact isPlain_digitMissing _ | exact isPlain_numberToken _
  unfold scanTail
  split
  · exact hpower _
  · exact hpower _
  · exact isPlain_numberToken _

/-- The token of a number is plain, also where the number is flawed. -/
theorem isPlain_scanNumber (negative : Bool) (first : Char) (rest : List Char) :
    (scanNumber negative first rest).1.IsPlain := by
  have hfraction (whole : List Nat) (cs : List Char) :
      (scanFraction negative whole cs).1.IsPlain := by
    unfold scanFraction
    split
    · dsimp only
      split
      · exact isPlain_digitMissing _
      · exact isPlain_scanTail _ _ _ _
    · exact isPlain_scanTail _ _ _ _
  unfold scanNumber
  split
  · split
    · exact .broken
    · exact hfraction _ _
  · exact hfraction _ _

theorem isPlain_scanText (q : Quoted) (cs : List Char) : (scanText q cs).1.IsPlain := by
  have hclose (q : Quoted) : q.close.IsPlain := by
    unfold Quoted.close
    dsimp only
    split
    · exact .text (.ofAtom trivial)
    · exact .text .flawed
  fun_induction scanText q cs <;> first | assumption | exact hclose _ | exact .brokenText

theorem isPlain_scanWord {value : Atom} (h : value.Fits) (word cs : List Char) :
    (scanWord value word cs).1.IsPlain := by
  fun_induction scanWord value word cs <;>
    first | assumption | exact .atom (.ofAtom h) | exact .broken

/-- The scanner makes plain tokens only. -/
theorem isPlain_scanToken (c : Char) (rest : List Char) : (scanToken c rest).1.IsPlain := by
  unfold scanToken
  split
  · exact .openList
  · exact .closeList
  · exact .openTable
  · exact .closeTable
  · exact .colon
  · exact .comma
  · exact isPlain_scanText _ _
  · exact isPlain_scanWord (by trivial) _ _
  · exact isPlain_scanWord (by trivial) _ _
  · exact isPlain_scanWord (by trivial) _ _
  · unfold scanNegative
    split
    · split
      · exact isPlain_scanNumber _ _ _
      · exact isPlain_digitMissing _
    · exact isPlain_digitMissing _
  · split
    · exact isPlain_scanNumber _ _ _
    · exact .broken

/-- The tokens of every text are plain. -/
theorem isPlain_tokens (cs : List Char) : ∀ token ∈ tokens cs, token.IsPlain := by
  fun_induction tokens cs with
  | case1 => simp
  | case2 c rest hspace ih => exact ih
  | case3 c rest hspace hlength ih =>
    intro token htoken
    rcases List.mem_cons.1 htoken with rfl | hlater
    · exact isPlain_scanToken c rest
    · exact ih token hlater

inductive Frame.IsPlain : Frame → Prop
  | list {items : List Node} : (∀ n ∈ items, n.IsPlain) → IsPlain (.list items)
  | table {members : List (Node × Node)} : (∀ m ∈ members, m.1.IsPlain) →
      (∀ m ∈ members, m.2.IsPlain) → IsPlain (.table members)
  | member {members : List (Node × Node)} {key : Node} : (∀ m ∈ members, m.1.IsPlain) →
      (∀ m ∈ members, m.2.IsPlain) → key.IsPlain → IsPlain (.member members key)

theorem Frame.IsPlain.put {n : Node} (hn : n.IsPlain) {frame : Frame} (h : frame.IsPlain) :
    (frame.put n).IsPlain := by
  cases h with
  | list hitems => exact .list (List.forall_mem_cons.2 ⟨hn, hitems⟩)
  | table hkeys hvalues => exact .table hkeys hvalues
  | member hkeys hvalues hkey =>
    exact .table (List.forall_mem_cons.2 ⟨hkey, hkeys⟩) (List.forall_mem_cons.2 ⟨hn, hvalues⟩)

theorem Frame.IsPlain.withKey {members : List (Node × Node)} (h : (Frame.table members).IsPlain)
    {key : Node} (hkey : key.IsPlain) : (Frame.member members key).IsPlain := by
  cases h with
  | table hkeys hvalues => exact .member hkeys hvalues hkey

/-- A container of plain entries is plain when it ends, or breaks off. -/
theorem Frame.IsPlain.close {frame : Frame} (h : frame.IsPlain) (brokenOff : Option Fault) :
    (frame.close brokenOff).IsPlain := by
  cases h with
  | list hitems => exact .list fun n hn => hitems n (List.mem_reverse.1 hn)
  | table hkeys hvalues =>
    exact .table (fun m hm => hkeys m (List.mem_reverse.1 hm))
      fun m hm => hvalues m (List.mem_reverse.1 hm)
  | member hkeys hvalues hkey =>
    exact .table (fun m hm => hkeys m (List.mem_reverse.1 hm))
      fun m hm => hvalues m (List.mem_reverse.1 hm)

theorem isPlain_enclose {n : Node} (hn : n.IsPlain) {stack : List Frame}
    (hstack : ∀ frame ∈ stack, frame.IsPlain) : (enclose n stack).IsPlain := by
  induction stack generalizing n with
  | nil => exact hn
  | cons frame outer ih =>
    obtain ⟨hframe, houter⟩ := List.forall_mem_cons.1 hstack
    exact ih ((hframe.put hn).close none) houter

/-- A tree that ends in the middle is plain, if the containers that are open are. -/
theorem isPlain_endWith {awaited : Awaited} {stack : List Frame} (strict lax : Fault)
    (hstack : ∀ frame ∈ stack, frame.IsPlain) : (endWith strict lax awaited stack).IsPlain := by
  have hkey {members : List (Node × Node)} {outer : List Frame}
      (hstack : ∀ frame ∈ .table members :: outer, frame.IsPlain) :
      (enclose (.table ((.broken strict lax, .broken strict lax) :: members).reverse none)
        outer).IsPlain := by
    obtain ⟨hframe, houter⟩ := List.forall_mem_cons.1 hstack
    have hbroken : (Node.broken strict lax).IsPlain := .broken
    exact isPlain_enclose (((hframe.withKey hbroken).put hbroken).close none) houter
  unfold endWith
  split
  · unfold breakOff
    split
    · exact .broken
    · obtain ⟨hframe, houter⟩ := List.forall_mem_cons.1 hstack
      exact isPlain_enclose (hframe.close _) houter
  · exact hkey hstack
  · exact hkey hstack
  · exact isPlain_enclose .broken hstack

/-- A finished value goes into the innermost open container, or is the document. -/
private theorem isPlain_complete {rest : List Token} {n : Node} {stack : List Frame}
    (hn : n.IsPlain) (hstack : ∀ frame ∈ stack, frame.IsPlain)
    (hbuild : ∀ {stack : List Frame}, (∀ frame ∈ stack, frame.IsPlain) →
      (build .separator stack rest).root.IsPlain) :
    (match stack with
      | [] => (⟨n, !rest.isEmpty⟩ : Document)
      | frame :: outer => build .separator (frame.put n :: outer) rest).root.IsPlain := by
  cases stack with
  | nil => exact hn
  | cons frame outer =>
    obtain ⟨hframe, houter⟩ := List.forall_mem_cons.1 hstack
    exact hbuild (List.forall_mem_cons.2 ⟨hframe.put hn, houter⟩)

/-- The tree of plain tokens is plain. -/
theorem isPlain_build {awaited : Awaited} {stack : List Frame} {ts : List Token}
    (hts : ∀ token ∈ ts, token.IsPlain) (hstack : ∀ frame ∈ stack, frame.IsPlain) :
    (build awaited stack ts).root.IsPlain := by
  induction ts generalizing awaited stack with
  | nil => exact isPlain_endWith _ _ hstack
  | cons token rest ih =>
    obtain ⟨htoken, hrest⟩ := List.forall_mem_cons.1 hts
    have hfail (strict lax : Fault) : (endWith strict lax awaited stack).IsPlain :=
      isPlain_endWith strict lax hstack
    have hopen {frame : Frame} (awaited : Awaited) (hframe : frame.IsPlain) :
        (build awaited (frame :: stack) rest).root.IsPlain :=
      ih hrest (List.forall_mem_cons.2 ⟨hframe, hstack⟩)
    have hkey {s : Scalar} {members : List (Node × Node)} {outer : List Frame} (hs : s.IsPlain)
        (hstack : ∀ frame ∈ .table members :: outer, frame.IsPlain) :
        (build .colon (.member members (.scalar s) :: outer) rest).root.IsPlain := by
      obtain ⟨hframe, houter⟩ := List.forall_mem_cons.1 hstack
      exact ih hrest (List.forall_mem_cons.2 ⟨hframe.withKey (.scalar hs), houter⟩)
    have hclose {frame : Frame} {outer : List Frame} (hstack : ∀ f ∈ frame :: outer, f.IsPlain) :
        (frame.close none).IsPlain ∧ ∀ f ∈ outer, f.IsPlain := by
      obtain ⟨hframe, houter⟩ := List.forall_mem_cons.1 hstack
      exact ⟨hframe.close none, houter⟩
    have hscalar {s : Scalar} (h : token = .text s ∨ token = .atom s) : s.IsPlain := by
      rcases h with rfl | rfl
      · cases htoken with
        | text hs => exact hs
      · cases htoken with
        | atom hs => exact hs
    unfold build
    dsimp only
    split
    iterate 2 exact isPlain_complete (.scalar (hscalar (.inl rfl))) hstack (ih hrest)
    iterate 2 exact isPlain_complete (.scalar (hscalar (.inr rfl))) hstack (ih hrest)
    iterate 2 exact hopen .firstItem (.list (by simp))
    iterate 2 exact hopen .firstKey (.table (by simp) (by simp))
    iterate 6 exact hfail _ _
    iterate 2 exact hkey (hscalar (.inl rfl)) hstack
    iterate 3 exact ih hrest hstack
    iterate 4 exact isPlain_complete (hclose hstack).1 (hclose hstack).2 (ih hrest)
    exact hfail _ _

/-- The tree of every JSON text is plain. -/
theorem isPlain_documentOf (text : String) : (documentOf text).root.IsPlain :=
  isPlain_build (isPlain_tokens text.toList) (by simp)

end Json

end SchemaToJava
