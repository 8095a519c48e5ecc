import Waymark.Specifier
import Waymark.Script.Imports
/-!
# Imports in style sheets

An `@import` rule names another sheet, quoted or in `url(…)`, and runs to the
first semicolon after the name.

## Main results

* `text_ruleAt?` — a rule found is exactly the text it was found in.
* `text_rules` — the pieces of a sheet, put together again, are the sheet.
-/

namespace Waymark.Stylesheet

/-- An `@import` rule: its text and the sheet it names. -/
structure ImportRule where
  text : List Char
  href : List Char
  deriving DecidableEq, Repr

/-- A piece of a sheet: a character, or a rule that imports another sheet. -/
inductive Piece where
  | char (c : Char)
  | rule (r : ImportRule)
  deriving DecidableEq, Repr

/-- The text of a piece. -/
def Piece.text : Piece → List Char
  | .char c => [c]
  | .rule r => r.text

/-- Whether a character may stand in the name of a sheet. -/
def inHref (c : Char) : Bool :=
  !(Script.isQuote c || c = ')' || c = ';' || Text.isBlank c)

/-- The start of a rule. -/
def ruleWord : List Char := "@import".toList

/-- The name at the start of a text, and what follows. -/
def href? (s : List Char) : Option (List Char × List Char) :=
  if s.takeWhile inHref = [] then none else some (s.takeWhile inHref, s.dropWhile inHref)

/-- The name at the start of a text, in a quote or not. -/
def quotedHref? (s : List Char) : Option (List Char × List Char) :=
  match s with
  | q :: rest => if Script.isQuote q then href? rest else href? s
  | [] => none

/-- The name at the start of a text, in `url(` or not. -/
def namedSheet? (s : List Char) : Option (List Char × List Char) :=
  ((List.isPrefixOf? "url(".toList s).bind fun rest =>
    quotedHref? (rest.dropWhile Text.isBlank)).or (quotedHref? s)

/-- The rule at the start of a text, and what follows it. -/
def ruleAt? (s : List Char) : Option (ImportRule × List Char) :=
  match List.isPrefixOf? ruleWord s with
  | none => none
  | some rest =>
    if rest.takeWhile Text.isBlank = [] then none
    else match namedSheet? (rest.dropWhile Text.isBlank) with
      | none => none
      | some (href, after) =>
        match Text.cut ';' after with
        | none => none
        | some (_, after) => some (⟨s.take (s.length - after.length), href⟩, after)

/-- What is left behind an address is an end of the text. -/
theorem isSuffix_of_href? {s href after : List Char} (h : href? s = some (href, after)) :
    after <:+ s := by
  unfold href? at h
  split at h
  · simp at h
  · simp only [Option.some.injEq, Prod.mk.injEq] at h
    exact h.2 ▸ List.dropWhile_suffix _

/-- What is left behind a quoted one is an end of the text. -/
theorem isSuffix_of_quotedHref? {s href after : List Char}
    (h : quotedHref? s = some (href, after)) : after <:+ s := by
  unfold quotedHref? at h
  split at h
  · split at h
    · exact (isSuffix_of_href? h).trans (List.suffix_cons _ _)
    · exact isSuffix_of_href? h
  · simp at h

theorem isSuffix_of_namedSheet? {s href after : List Char}
    (h : namedSheet? s = some (href, after)) : after <:+ s := by
  simp only [namedSheet?, Option.or_eq_some_iff, Option.bind_eq_some_iff] at h
  rcases h with ⟨rest, hp, h⟩ | ⟨_, h⟩
  · refine (isSuffix_of_quotedHref? h).trans ((List.dropWhile_suffix _).trans ?_)
    rw [Text.eq_append_of_isPrefixOf? hp]
    exact List.suffix_append _ _
  · exact isSuffix_of_quotedHref? h

/-- A rule is what stands before the end of the text that it leaves. -/
theorem isSuffix_of_ruleAt? {s after : List Char} {r : ImportRule}
    (h : ruleAt? s = some (r, after)) :
    after <:+ s ∧ after.length < s.length ∧ r.text = s.take (s.length - after.length) := by
  unfold ruleAt? at h
  split at h
  · simp at h
  · rename_i rest hp
    split at h
    · simp at h
    · split at h
      · simp at h
      · rename_i href mid hn
        split at h
        · simp at h
        · rename_i before tail hcut
          simp only [Option.some.injEq, Prod.mk.injEq] at h
          obtain ⟨rfl, rfl⟩ := h
          have hmid : tail <:+ mid := by
            rw [Text.eq_of_cut hcut]
            exact (List.suffix_cons _ _).trans (List.suffix_append _ _)
          have hs : tail <:+ rest :=
            hmid.trans ((isSuffix_of_namedSheet? hn).trans (List.dropWhile_suffix _))
          have hlen := hs.length_le
          rw [Text.eq_append_of_isPrefixOf? hp]
          refine ⟨hs.trans (List.suffix_append _ _), ?_, rfl⟩
          have : ruleWord.length = 7 := rfl
          rw [List.length_append]
          omega

/-- A rule and what is left behind it make up the text. -/
theorem text_ruleAt? {s after : List Char} {r : ImportRule}
    (h : ruleAt? s = some (r, after)) : s = r.text ++ after := by
  obtain ⟨⟨front, rfl⟩, _, ht⟩ := isSuffix_of_ruleAt? h
  rw [ht]
  simp

/-- The pieces of a sheet. -/
def rules (s : List Char) : List Piece :=
  match s with
  | [] => []
  | c :: rest =>
    match _h : ruleAt? (c :: rest) with
    | some (r, after) => .rule r :: rules after
    | none => .char c :: rules rest
termination_by s.length
decreasing_by
  · exact (isSuffix_of_ruleAt? _h).2.1
  · simp

/-- The pieces of a sheet make up its text. -/
theorem text_rules (s : List Char) : (rules s).flatMap Piece.text = s := by
  fun_induction rules s with
  | case1 => simp
  | case2 c rest r after h ih => simp [Piece.text, ih, ← text_ruleAt? h]
  | case3 c rest h ih => simp [Piece.text, ih]

end Waymark.Stylesheet
