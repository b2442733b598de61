import Mathlib.Data.List.Infix
import SchemaToJava.Proofs.DottedNames
import SchemaToJava.Proofs.LowerCase
import SchemaToJava.Schema.CaseVariants
import SchemaToJava.Schema.Token

/-!
Tokens that differ by case alone. They are cut at the same places, so all of them are well formed if
one is; and if one is what an escaped token stands for, then none of them has anything escaped in
it, so each can be written into a reference as it is.
-/
namespace SchemaToJava

namespace Text

/-- A capital letter is 32 places before its small letter, and no other character changes. -/
theorem toLower_cases (c : Char) : c.toLower = c ∨
    (0x41 ≤ c.toNat ∧ c.toLower.toNat = c.toNat + 32) := by
  by_cases hupper : c.val ≥ 'A'.val ∧ c.val ≤ 'Z'.val
  · right
    unfold Char.toLower
    rw [dif_pos hupper]
    have hlo := UInt32.le_iff_toNat_le.1 hupper.1
    have hhi := UInt32.le_iff_toNat_le.1 hupper.2
    simp only [Char.toNat, UInt32.toNat_add]
    simp at *
    omega
  · left
    unfold Char.toLower
    rw [dif_neg hupper]

/-- A character before the small letters is the lower-case form of itself alone. -/
theorem eq_of_toLower_eq {c x : Char} (h : c.toLower = x) (hx : x.toNat < 0x61) : c = x := by
  rcases toLower_cases c with heq | ⟨hlo, hshift⟩
  · exact heq.symm.trans h
  · rw [h] at hshift
    omega

theorem toNat_lt_of_isEarly_toLower {c : Char} (h : IsEarly c.toLower) : c.toNat < 0x80 := by
  obtain ⟨-, hlt⟩ := h
  rcases toLower_cases c with heq | ⟨-, hshift⟩
  · rw [heq] at hlt
    omega
  · omega

/-- A text starts with an early character in lower case if it starts with one of that form. -/
theorem lowercaseAfter_eq_cons {before cs t : List Char} {y : Char} (hy : IsEarly y) :
    lowercaseAfter before cs = y :: t ↔
      ∃ c rest, cs = c :: rest ∧ c.toLower = y ∧ lowercaseAfter (c :: before) rest = t := by
  cases cs with
  | nil => simp [lowercaseAfter]
  | cons c rest =>
    obtain ⟨image, himage, heq⟩ := lowercaseAfter_cons before c rest
    rw [heq]
    constructor
    · intro h
      obtain ⟨z, zs, rfl⟩ := List.exists_cons_of_ne_nil himage.ne_nil
      obtain ⟨rfl, -⟩ := List.cons.inj h
      obtain ⟨hsingle, hlower⟩ := himage.early z List.mem_cons_self hy
      rw [hsingle] at h
      exact ⟨c, rest, rfl, hlower, (List.cons.inj h).2⟩
    · rintro ⟨c', rest', hcons, rfl, rfl⟩
      obtain ⟨rfl, rfl⟩ := List.cons.inj hcons
      rw [himage.of_ascii (toNat_lt_of_isEarly_toLower hy)]
      rfl

/-- The separators of a text are in the same places in lower case. -/
theorem isEmpty_pieces_lowercaseAfter {sep : Char} (hsep : 0 < sep.toNat ∧ sep.toNat < 0x41)
    (before cs : List Char) : (pieces sep (lowercaseAfter before cs)).map List.isEmpty =
      (pieces sep cs).map List.isEmpty := by
  have hearly : IsEarly sep := ⟨hsep.1, by omega⟩
  have hcons {c : Char} {rest : List Char} (hc : c ≠ sep) :
      (pieces sep (c :: rest)).map List.isEmpty =
        false :: ((pieces sep rest).map List.isEmpty).tail := by
    rw [pieces, if_neg hc]
    split
    · next hnil => exact absurd hnil (pieces_ne_nil sep rest)
    · next hpieces => simp [hpieces]
  have happend {image rest : List Char} (hne : image ≠ []) (hnot : sep ∉ image) :
      (pieces sep (image ++ rest)).map List.isEmpty =
        false :: ((pieces sep rest).map List.isEmpty).tail := by
    induction image with
    | nil => exact absurd rfl hne
    | cons z zs ih =>
      simp only [List.mem_cons, not_or] at hnot
      rw [List.cons_append, hcons (Ne.symm hnot.1)]
      cases zs with
      | nil => rfl
      | cons y ys => rw [ih (by simp) hnot.2, List.tail_cons]
  induction cs generalizing before with
  | nil => simp [lowercaseAfter]
  | cons c rest ih =>
    by_cases hc : c = sep
    · subst hc
      have hself : c.toLower = c := by
        rcases toLower_cases c with heq | ⟨hlo, -⟩
        · exact heq
        · omega
      rw [(lowercaseAfter_eq_cons hearly).2 ⟨c, rest, rfl, hself, rfl⟩]
      simp [pieces, ih]
    · obtain ⟨image, himage, heq⟩ := lowercaseAfter_cons before c rest
      have hnot : sep ∉ image := fun hmem =>
        hc (eq_of_toLower_eq (himage.early sep hmem hearly).2 (by omega))
      rw [heq, happend himage.ne_nil hnot, ih, hcons hc]

def slashEscape (x : Char) : List Char := ['%', '2', x]

theorem slashEscape_prefix_iff {x : Char} {cs : List Char} :
    slashEscape x <+: cs ↔ ∃ rest, cs = '%' :: '2' :: x :: rest := by
  constructor
  · rintro ⟨rest, rfl⟩
    exact ⟨rest, rfl⟩
  · rintro ⟨rest, rfl⟩
    exact ⟨rest, rfl⟩

/-- Lower-casing brings in no escape that was not there in either case. -/
theorem slashEscape_prefix_lowercaseAfter {before cs : List Char} :
    slashEscape 'f' <+: lowercaseAfter before cs ↔
      slashEscape 'f' <+: cs ∨ slashEscape 'F' <+: cs := by
  have hpercent : IsEarly '%' := by decide
  have htwo : IsEarly '2' := by decide
  have hsmall : IsEarly 'f' := by decide
  have hf {c : Char} (h : c.toLower = 'f') : c = 'f' ∨ c = 'F' := by
    rcases toLower_cases c with heq | ⟨-, hshift⟩
    · exact .inl (heq.symm.trans h)
    · rw [h] at hshift
      have hcode : c.toNat = 'F'.toNat := by
        change 0x66 = _ at hshift
        change _ = 0x46
        omega
      exact .inr (Char.toNat_inj.1 hcode)
  have hlower {x : Char} (hx : x.toLower = 'f') (rest : List Char) :
      slashEscape 'f' <+: lowercaseAfter before ('%' :: '2' :: x :: rest) := by
    refine slashEscape_prefix_iff.2 ⟨lowercaseAfter (x :: '2' :: '%' :: before) rest, ?_⟩
    exact (lowercaseAfter_eq_cons hpercent).2 ⟨_, _, rfl, rfl,
      (lowercaseAfter_eq_cons htwo).2 ⟨_, _, rfl, rfl,
        (lowercaseAfter_eq_cons hsmall).2 ⟨_, _, rfl, hx, rfl⟩⟩⟩
  constructor
  · intro h
    obtain ⟨t, ht⟩ := slashEscape_prefix_iff.1 h
    obtain ⟨a, rest, rfl, ha, ht⟩ := (lowercaseAfter_eq_cons hpercent).1 ht
    obtain ⟨b, rest, rfl, hb, ht⟩ := (lowercaseAfter_eq_cons htwo).1 ht
    obtain ⟨c, rest, rfl, hc, -⟩ := (lowercaseAfter_eq_cons hsmall).1 ht
    obtain rfl := eq_of_toLower_eq ha (by decide)
    obtain rfl := eq_of_toLower_eq hb (by decide)
    rcases hf hc with rfl | rfl
    · exact .inl (slashEscape_prefix_iff.2 ⟨rest, rfl⟩)
    · exact .inr (slashEscape_prefix_iff.2 ⟨rest, rfl⟩)
  · rintro (h | h)
    · obtain ⟨rest, rfl⟩ := slashEscape_prefix_iff.1 h
      exact hlower (by decide) rest
    · obtain ⟨rest, rfl⟩ := slashEscape_prefix_iff.1 h
      exact hlower (by decide) rest

/-- An escape does not start in characters that have no percent sign. -/
theorem slashEscape_infix_append {x : Char} {image rest : List Char} (h : '%' ∉ image) :
    slashEscape x <:+: image ++ rest ↔ slashEscape x <:+: rest := by
  induction image with
  | nil => rfl
  | cons z zs ih =>
    simp only [List.mem_cons, not_or] at h
    rw [List.cons_append, List.infix_cons_iff, ih h.2, or_iff_right]
    intro hprefix
    obtain ⟨t, ht⟩ := slashEscape_prefix_iff.1 hprefix
    exact h.1 (List.cons.inj ht).1.symm

/-- A slash is escaped in a text exactly if it is in lower case. -/
theorem slashEscape_infix_lowercaseAfter {before cs : List Char} :
    slashEscape 'f' <:+: lowercaseAfter before cs ↔
      slashEscape 'f' <:+: cs ∨ slashEscape 'F' <:+: cs := by
  induction cs generalizing before with
  | nil => simp [lowercaseAfter, slashEscape]
  | cons c rest ih =>
    obtain ⟨image, himage, heq⟩ := lowercaseAfter_cons before c rest
    obtain ⟨z, zs, rfl⟩ := List.exists_cons_of_ne_nil himage.ne_nil
    have hnot : '%' ∉ zs := by
      intro hmem
      have hsingle := (himage.early '%' (List.mem_cons_of_mem z hmem) (by decide)).1
      rw [(List.cons.inj hsingle).2] at hmem
      exact absurd hmem List.not_mem_nil
    have hprefix : slashEscape 'f' <+: lowercaseAfter before (c :: rest) ↔ _ :=
      slashEscape_prefix_lowercaseAfter
    rw [heq, List.cons_append] at hprefix
    rw [heq, List.cons_append, List.infix_cons_iff, slashEscape_infix_append hnot, hprefix, ih,
      List.infix_cons_iff, List.infix_cons_iff]
    tauto

/-- A text loses its start exactly when it starts so. -/
theorem dropLead_eq_some {lead cs rest : List Char} :
    dropLead lead cs = some rest ↔ cs = lead ++ rest := by
  induction lead generalizing cs with
  | nil => simp [dropLead]
  | cons l lead ih =>
    cases cs with
    | nil => simp [dropLead]
    | cons c cs =>
      rw [dropLead]
      split
      · next heq =>
        subst heq
        simp [ih]
      · next hne =>
        simp [Ne.symm hne]

theorem afterLead_eq_some {lead s rest : String} :
    afterLead lead s = some rest ↔ s = lead ++ rest := by
  rw [afterLead, Option.map_eq_some_iff, ← String.toList_inj, String.toList_append]
  simp only [dropLead_eq_some]
  constructor
  · rintro ⟨cs, h, rfl⟩
    rw [h, String.toList_ofList]
  · intro h
    exact ⟨rest.toList, h, String.ofList_toList⟩

theorem replaceAll_append {find replacement : List Char} (hne : find ≠ []) (after : List Char) :
    replaceAll find replacement (find ++ after) =
      replacement ++ replaceAll find replacement after := by
  obtain ⟨f, fs, rfl⟩ := List.exists_cons_of_ne_nil hne
  have hdrop : dropLead (f :: fs) (f :: (fs ++ after)) = some after := dropLead_eq_some.2 rfl
  rw [List.cons_append, replaceAll, hdrop]
  simp

theorem replaceAll_cons {find replacement rest : List Char} {c : Char}
    (hnot : ¬ find <+: c :: rest) :
    replaceAll find replacement (c :: rest) = c :: replaceAll find replacement rest := by
  rw [replaceAll]
  split
  · next after hafter => exact absurd ⟨after, (dropLead_eq_some.1 hafter).symm⟩ hnot
  · rfl

/-- A text in which there is nothing to replace stays as it is. -/
theorem replaceAll_of_not_infix {find replacement cs : List Char} (h : ¬ find <:+: cs) :
    replaceAll find replacement cs = cs := by
  induction cs with
  | nil => rw [replaceAll]
  | cons c rest ih =>
    rw [List.infix_cons_iff, not_or] at h
    rw [replaceAll_cons h.1, ih h.2]

/-- What starts otherwise than the replacement was there before. -/
theorem eq_cons_of_replaceAll {x z : Char} {cs t : List Char} (hz : z ≠ '/')
    (h : replaceAll (slashEscape x) ['/'] cs = z :: t) :
    ∃ rest, cs = z :: rest ∧ ¬ slashEscape x <+: cs ∧
      replaceAll (slashEscape x) ['/'] rest = t := by
  by_cases hprefix : slashEscape x <+: cs
  · obtain ⟨after, rfl⟩ := hprefix
    rw [replaceAll_append (by simp [slashEscape])] at h
    exact absurd (List.cons.inj h).1.symm hz
  · cases cs with
    | nil =>
      rw [replaceAll] at h
      cases h
    | cons c rest =>
      rw [replaceAll_cons hprefix] at h
      obtain ⟨rfl, rfl⟩ := List.cons.inj h
      exact ⟨rest, rfl, hprefix, rfl⟩

/-- Slashes put in the place of escapes complete no other escape. -/
theorem slashEscape_of_infix_replaceAll {x y : Char} (hy : y ≠ '/') : {cs : List Char} →
    slashEscape y <:+: replaceAll (slashEscape x) ['/'] cs → y ≠ x ∧ slashEscape y <:+: cs
  | [], h => by
    rw [replaceAll] at h
    exact absurd h (by simp [slashEscape])
  | c :: rest, h => by
    by_cases hprefix : slashEscape x <+: c :: rest
    · obtain ⟨after, hafter⟩ := hprefix
      have hshort : after.length ≤ rest.length := by
        have hlength := congrArg List.length hafter
        simp only [slashEscape, List.length_append, List.length_cons, List.length_nil] at hlength
        omega
      rw [← hafter, replaceAll_append (by simp [slashEscape]),
        slashEscape_infix_append (by decide)] at h
      obtain ⟨hne, hslash⟩ := slashEscape_of_infix_replaceAll hy h
      exact ⟨hne, hafter ▸ List.infix_append_of_infix_right hslash⟩
    · rw [replaceAll_cons hprefix, List.infix_cons_iff] at h
      rcases h with h | h
      · rw [← replaceAll_cons hprefix] at h
        obtain ⟨t, ht⟩ := slashEscape_prefix_iff.1 h
        obtain ⟨rest₁, h₁, -, ht⟩ := eq_cons_of_replaceAll (by decide) ht
        obtain ⟨rest₂, rfl, -, ht⟩ := eq_cons_of_replaceAll (by decide) ht
        obtain ⟨rest₃, rfl, -, -⟩ := eq_cons_of_replaceAll hy ht
        rw [h₁] at hprefix ⊢
        have hthere : slashEscape y <+: '%' :: '2' :: y :: rest₃ :=
          slashEscape_prefix_iff.2 ⟨rest₃, rfl⟩
        refine ⟨?_, hthere.isInfix⟩
        rintro rfl
        exact hprefix hthere
      · obtain ⟨hne, hslash⟩ := slashEscape_of_infix_replaceAll hy h
        exact ⟨hne, List.infix_cons hslash⟩
termination_by cs => cs.length

end Text

namespace Schema

open Text

theorem toList_unescapeToken (token : String) : (unescapeToken token).toList =
    replaceAll (slashEscape 'f') ['/'] (replaceAll (slashEscape 'F') ['/'] token.toList) :=
  String.toList_ofList

/-- What an escaped token stands for has nothing escaped in it, and no token that differs from it
by case alone has. -/
theorem unescapeToken_eq_self {token kept : String}
    (h : lowercase (unescapeToken token) = lowercase kept) : unescapeToken kept = kept := by
  have hnone : ¬ (slashEscape 'f' <:+: (unescapeToken token).toList ∨
      slashEscape 'F' <:+: (unescapeToken token).toList) := by
    rw [toList_unescapeToken]
    rintro (hslash | hslash)
    · exact (slashEscape_of_infix_replaceAll (by decide) hslash).1 rfl
    · have hinner := (slashEscape_of_infix_replaceAll (by decide) hslash).2
      exact (slashEscape_of_infix_replaceAll (by decide) hinner).1 rfl
  have hlower : lowercaseAfter [] (unescapeToken token).toList = lowercaseAfter [] kept.toList :=
    String.ofList_injective h
  rw [← slashEscape_infix_lowercaseAfter, hlower, slashEscape_infix_lowercaseAfter, not_or] at hnone
  rw [← String.toList_inj, toList_unescapeToken, replaceAll_of_not_infix hnone.2,
    replaceAll_of_not_infix hnone.1]

/-- A token is well formed if it has three parts of which the outer two are not empty. -/
theorem exists_parse_iff {token : String} : (∃ t, Token.parse token = .ok t) ↔
    ∃ b, (pieces ':' token.toList).map List.isEmpty = [false, b, false] := by
  have hparts : (piecesOf ':' token).map String.isEmpty =
      (pieces ':' token.toList).map List.isEmpty := by
    rw [piecesOf, List.map_map]
    refine List.map_congr_left fun cs _ => ?_
    rw [Function.comp_apply, Bool.eq_iff_iff, String.isEmpty_iff, List.isEmpty_iff,
      ← String.toList_eq_nil_iff, String.toList_ofList]
  rw [← hparts]
  unfold Token.parse
  split
  · next package module name hpieces =>
    simp only [hpieces, List.map_cons, List.map_nil]
    split
    · next hempty => simp [hempty]
    · split
      · next hempty => simp [hempty]
      · next hpackage hname => simp [hpackage, hname]
  · next hother =>
    constructor
    · rintro ⟨t, ht⟩
      cases ht
    · rintro ⟨b, hb⟩
      have hthree := congrArg List.length hb
      rw [List.length_map, List.length_cons, List.length_cons, List.length_singleton] at hthree
      obtain ⟨package, module, name, hpieces⟩ := List.length_eq_three.1 hthree
      exact absurd hpieces (hother package module name)

/-- Tokens that differ by case alone are all well formed if one is. -/
theorem exists_parse_of_lowercase {token kept : String} (h : lowercase token = lowercase kept) :
    (∃ t, Token.parse token = .ok t) ↔ ∃ t, Token.parse kept = .ok t := by
  have hlower : lowercaseAfter [] token.toList = lowercaseAfter [] kept.toList :=
    String.ofList_injective h
  have hsep : 0 < (':').toNat ∧ (':').toNat < 0x41 := by decide
  rw [exists_parse_iff, exists_parse_iff, ← isEmpty_pieces_lowercaseAfter hsep [],
    hlower, isEmpty_pieces_lowercaseAfter hsep]

end Schema

end SchemaToJava
