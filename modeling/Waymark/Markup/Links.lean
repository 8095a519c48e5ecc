import Waymark.Text.Blank
import Waymark.Text.Word
/-!
# Links of a page

The targets that a page declares with `<link href=…>` and `<script src=…>`, in
document order.  Tags and attributes are known by their shape; letters match in
either case, and so do the two characters outside ASCII that fold to `k` and `s`.

## Main results

* `folds_self` — every letter matches itself.
* `isSuffix_targetIn` — what a tag leaves is the end of the text it was found in.
-/

namespace Waymark.Markup

/-- Whether a character is the letter `letter` in some case. -/
def folds (letter c : Char) : Bool :=
  c.toLower = letter || (letter = 'k' && c.toNat = 0x212A) || (letter = 's' && c.toNat = 0x17F)

theorem folds_self {letter : Char} (h : letter.toLower = letter) : folds letter letter = true := by
  simp [folds, h]

/-- What follows a word in any case, and the last character of the word. -/
def afterWord? (word s : List Char) : Option (List Char) :=
  match word, s with
  | [], s => some s
  | _ :: _, [] => none
  | w :: word, c :: s => if folds w c then afterWord? word s else none

/-- Whether a character is a quote. -/
def isQuote (c : Char) : Bool := c = '"' || c = '\''

/-- The quoted value after an equals sign. -/
def quotedValue? (s : List Char) : Option (List Char × List Char) :=
  match s.dropWhile Text.isBlank with
  | '=' :: s =>
    match s.dropWhile Text.isBlank with
    | q :: s =>
      let value := s.takeWhile (!isQuote ·)
      match s.dropWhile (!isQuote ·) with
      | _ :: rest => if isQuote q && !value.isEmpty then some (value, rest) else none
      | [] => none
    | [] => none
  | _ => none

/-- The target of the attribute at the start of a text. -/
def target? (s : List Char) : Option (List Char × List Char) :=
  ["href", "src"].findSome? fun name => (afterWord? name.toList s).bind quotedValue?

/-- The first target before the tag ends, and what follows it; without a target, what the tag ends
with. -/
def targetIn (prev : Option Char) (s : List Char) : Option (List Char) × List Char :=
  match if Text.isWordAt prev then none else target? s with
  | some (target, rest) => (some target, rest)
  | none =>
    match s with
    | [] => (none, [])
    | c :: rest => if c = '>' then (none, c :: rest) else targetIn (some c) rest

/-- What follows the name of a tag that declares a target. -/
def afterTagName? (s : List Char) : Option (Option Char × List Char) :=
  match s with
  | '<' :: s =>
    ["link", "script"].findSome? fun name =>
      match afterWord? name.toList s with
      | some rest => if Text.isWordAt rest.head? then none else some (name.toList.getLast?, rest)
      | none => none
  | _ => none

/-- What is left behind a word is an end of the text. -/
theorem isSuffix_afterWord? {word s rest : List Char} (h : afterWord? word s = some rest) :
    rest <:+ s := by
  induction word generalizing s with
  | nil => exact Option.some.inj h ▸ List.suffix_rfl
  | cons w word ih =>
    cases s with
    | nil => simp [afterWord?] at h
    | cons c s =>
      simp only [afterWord?] at h
      split at h
      · exact (ih h).trans (List.suffix_cons _ _)
      · simp at h

/-- What is left behind a value is an end of the text. -/
theorem isSuffix_quotedValue? {s value rest : List Char}
    (h : quotedValue? s = some (value, rest)) : rest <:+ s := by
  unfold quotedValue? at h
  split at h
  · rename_i s' hs
    have hs' : s' <:+ s := (List.suffix_cons _ _).trans (hs ▸ List.dropWhile_suffix _)
    split at h
    · rename_i q s'' hq
      have hs'' : s'' <:+ s' := (List.suffix_cons _ _).trans (hq ▸ List.dropWhile_suffix _)
      dsimp only at h
      split at h
      · rename_i c r hr
        split at h
        · simp only [Option.some.injEq, Prod.mk.injEq] at h
          have hr' : r <:+ s'' := (List.suffix_cons _ _).trans (hr ▸ List.dropWhile_suffix _)
          exact h.2 ▸ (hr'.trans (hs''.trans hs'))
        · simp at h
      · simp at h
    · simp at h
  · simp at h

theorem isSuffix_target? {s target rest : List Char} (h : target? s = some (target, rest)) :
    rest <:+ s := by
  unfold target? at h
  obtain ⟨name, -, h⟩ := List.exists_of_findSome?_eq_some h
  obtain ⟨after, ha, hq⟩ := Option.bind_eq_some_iff.1 h
  exact (isSuffix_quotedValue? hq).trans (isSuffix_afterWord? ha)

/-- What is left behind a tag is an end of the text. -/
theorem isSuffix_targetIn (prev : Option Char) (s : List Char) : (targetIn prev s).2 <:+ s := by
  fun_induction targetIn prev s with
  | case1 prev s target rest h =>
    split at h
    · simp at h
    · exact isSuffix_target? h
  | case2 => exact List.suffix_rfl
  | case3 => exact List.suffix_rfl
  | case4 prev c rest _ _ ih => exact ih.trans (List.suffix_cons _ _)

/-- The name of a tag takes characters, so the search for links ends. -/
theorem length_afterTagName? {s rest : List Char} {prev : Option Char}
    (h : afterTagName? s = some (prev, rest)) : rest.length < s.length := by
  unfold afterTagName? at h
  split at h
  · obtain ⟨name, -, h⟩ := List.exists_of_findSome?_eq_some h
    split at h
    · rename_i after ha
      split at h
      · simp at h
      · simp only [Option.some.injEq, Prod.mk.injEq] at h
        have := (isSuffix_afterWord? ha).length_le
        simp only [List.length_cons]
        rw [← h.2]
        omega
    · simp at h
  · simp at h

/-- The targets of a text.  A tag that declares none is left behind whole: what stands in it
declares none either. -/
def linksFrom (s : List Char) : List String :=
  match s with
  | [] => []
  | c :: rest =>
    match _h : afterTagName? (c :: rest) with
    | some (prev, inside) =>
      match _ht : targetIn prev inside with
      | (some target, after) => String.ofList target :: linksFrom after
      | (none, after) => linksFrom after
    | none => linksFrom rest
termination_by s.length
decreasing_by
  · have h₁ := length_afterTagName? _h
    have h₂ := (isSuffix_targetIn prev inside).length_le
    rw [_ht] at h₂
    exact Nat.lt_of_le_of_lt h₂ h₁
  · have h₁ := length_afterTagName? _h
    have h₂ := (isSuffix_targetIn prev inside).length_le
    rw [_ht] at h₂
    exact Nat.lt_of_le_of_lt h₂ h₁
  · simp

/-- The targets that a page declares. -/
def links (html : String) : List String := linksFrom html.toList

end Waymark.Markup
