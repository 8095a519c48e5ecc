/-!
# Globs

Patterns for file names: `?` and `*` stay within a segment, `**` between slashes
spans segments, brackets list characters and braces alternatives.

A pattern is matched against the octets of a name, so `?` takes one octet and a
character of several octets in brackets lists each of them.

## Main results

* `GlobError.message` — the wording of every refusal.
* `length_passOne`, `length_passMany`, `length_passSlashes` — every place of a name keeps its mark.
-/

namespace Waymark

/-- Why a text is no glob. -/
inductive GlobError where
  | unclosedClass
  | invalidRange (low high : Char)
  | unopenedGroup
  | unclosedGroup
  | danglingEscape
  deriving DecidableEq, Repr

/-- A brace, named here since it stands in several messages. -/
def GlobError.openBrace : String := String.singleton (Char.ofNat 0x7B)

/-- The closing brace. -/
def GlobError.closeBrace : String := String.singleton (Char.ofNat 0x7D)

/-- The wording of a refusal. -/
def GlobError.message : GlobError → String
  | .unclosedClass => "unclosed character class; missing ']'"
  | .invalidRange low high =>
    "invalid range; '" ++ String.singleton low ++ "' > '" ++ String.singleton high ++ "'"
  | .unopenedGroup =>
    "unopened alternate group; missing '" ++ openBrace ++ "' (maybe escape '" ++ closeBrace ++
      "' with '[" ++ closeBrace ++ "]'?)"
  | .unclosedGroup =>
    "unclosed alternate group; missing '" ++ closeBrace ++ "' (maybe escape '" ++ openBrace ++
      "' with '[" ++ openBrace ++ "]'?)"
  | .danglingEscape => "dangling '\\'"

namespace Glob

/-! ## Patterns -/

/-- A part of a pattern. -/
inductive Token where
  /-- A character that stands for itself. -/
  | literal (c : Char)
  /-- Anything but a slash. -/
  | any
  /-- Any number of octets, none of them a slash. -/
  | star
  /-- Nothing, or directories, at the start of a pattern. -/
  | deepStart
  /-- Everything below a directory. -/
  | deepEnd
  /-- A slash, or directories between two slashes. -/
  | deepMiddle
  /-- One of the characters listed, or none of them. -/
  | oneOf (negated : Bool) (ranges : List (Char × Char))
  /-- One of several patterns. -/
  | choice (branches : List (List Token))

/-- A group of alternatives that is still open: the tokens before it, and its branches so far. -/
structure OpenGroup where
  outside : List Token
  branches : List (List Token)

/-- Where a reader stands: in the tokens of the innermost open branch, last token first. -/
structure Reader where
  tokens : List Token
  groups : List OpenGroup

/-- The character class a reader is in. -/
structure OpenClass where
  negated : Bool
  first : Bool
  inRange : Bool
  ranges : List (Char × Char)

namespace Reader

/-- Adds a token. -/
def push (r : Reader) (t : Token) : Reader := { r with tokens := t :: r.tokens }

/-- Opens a group of alternatives. -/
def openGroup (r : Reader) : Reader := ⟨[], ⟨r.tokens, []⟩ :: r.groups⟩

/-- Closes the innermost group. -/
def closeGroup (r : Reader) : Except GlobError Reader :=
  match r.groups with
  | [] => .error .unopenedGroup
  | g :: groups =>
    let branches := g.branches ++ [r.tokens.reverse]
    .ok ⟨.choice branches :: g.outside, groups⟩

/-- Begins the next branch; outside a group a comma stands for itself. -/
def comma (r : Reader) : Reader :=
  match r.groups with
  | [] => r.push (.literal ',')
  | g :: groups => ⟨[], { g with branches := g.branches ++ [r.tokens.reverse] } :: groups⟩

/-- Puts a span of directories in place of the token before it.  A span swallows the slash it
follows; one that follows another span changes nothing. -/
def span (r : Reader) (atEnd : Bool) : Reader :=
  match r.tokens with
  | .deepStart :: ts => { r with tokens := .deepStart :: ts }
  | .deepEnd :: ts => { r with tokens := .deepEnd :: ts }
  | _ :: ts => { r with tokens := (if atEnd then .deepEnd else .deepMiddle) :: ts }
  | [] => { r with tokens := [if atEnd then .deepEnd else .deepMiddle] }

end Reader

/-- What two stars stand for. -/
inductive Stars where
  /-- Two single stars. -/
  | single
  /-- A span at the start, with or without a slash after it. -/
  | start
  /-- A span that ends the pattern or its branch. -/
  | atEnd
  /-- A span before a slash. -/
  | middle

/-- What two stars stand for after the character `prev` and before the character `next`. -/
def classifyStars (r : Reader) (prev next : Option Char) : Stars :=
  if r.tokens.isEmpty then
    if next.all (· = '/') then .start else .single
  else if prev ≠ some '/' ∧ (r.groups.isEmpty ∨ (prev ≠ some ',' ∧ prev ≠ some '\x7b')) then
    .single
  else match next with
    | none => .atEnd
    | some '/' => .middle
    | some c => if (c = ',' ∨ c = '\x7d') ∧ !r.groups.isEmpty then .atEnd else .single

/-- Ends a range at a character, which must not come before its start. -/
def closeRange (ranges : List (Char × Char)) (c : Char) :
    Except GlobError (List (Char × Char)) :=
  match ranges with
  | (low, _) :: rs => if c < low then .error (.invalidRange low c) else .ok ((low, c) :: rs)
  | [] => .ok [(c, c)]

/-- One character of a class other than the bracket that closes it.  Ranges are kept last
first. -/
def classChar (k : OpenClass) (c : Char) : Except GlobError OpenClass :=
  if c = '-' ∧ !k.first ∧ !k.inRange then .ok { k with inRange := true }
  else if k.inRange then
    (closeRange k.ranges c).map fun ranges => { k with ranges, inRange := false }
  else .ok { k with first := false, ranges := (c, c) :: k.ranges }

/-- The token of a class at its closing bracket.  A hyphen just before it stands for itself. -/
def classToken (k : OpenClass) : Token :=
  let ranges := if k.inRange then ('-', '-') :: k.ranges else k.ranges
  .oneOf k.negated ranges.reverse

/-- Reads a pattern.  `prev` is the character before, and `cls` the class that is open. -/
def readFrom (prev : Option Char) (cls : Option OpenClass) (r : Reader) :
    List Char → Except GlobError Reader
  | [] => if cls.isSome then .error .unclosedClass else .ok r
  | c :: s =>
    match cls with
    | some k =>
      if c = ']' ∧ !k.first then readFrom (some c) none (r.push (classToken k)) s
      else do
        let k ← classChar k c
        readFrom (some c) (some { k with first := false }) r s
    | none =>
      match c with
      | '?' => readFrom (some c) none (r.push .any) s
      | '*' =>
        if s.head? = some '*' then
          let rest := s.drop 1
          match classifyStars r prev rest.head? with
          | .single => readFrom (some '*') none ((r.push .star).push .star) rest
          | .atEnd => readFrom (some '*') none (r.span true) rest
          | .start => readFrom rest.head? none (r.push .deepStart) (rest.drop 1)
          | .middle => readFrom rest.head? none (r.span false) (rest.drop 1)
        else readFrom (some c) none (r.push .star) s
      | '[' =>
        if s.head? = some '!' ∨ s.head? = some '^' then
          readFrom s.head? (some ⟨true, true, false, []⟩) r (s.drop 1)
        else readFrom (some c) (some ⟨false, true, false, []⟩) r s
      | '\x7b' => readFrom (some c) none r.openGroup s
      | '\x7d' => do
        let r ← r.closeGroup
        readFrom (some c) none r s
      | ',' => readFrom (some c) none r.comma s
      | '\\' =>
        match s.head? with
        | some d => readFrom (some d) none (r.push (.literal d)) (s.drop 1)
        | none => .error .danglingEscape
      | c => readFrom (some c) none (r.push (.literal c)) s
termination_by s => s.length
decreasing_by all_goals (simp only [List.length_cons, List.length_drop]; omega)

/-- The tokens of a pattern. -/
def parse (pattern : List Char) : Except GlobError (List Token) := do
  let r ← readFrom none none ⟨[], []⟩ pattern
  if r.groups.isEmpty then return r.tokens.reverse else throw .unclosedGroup

/-! ## Matching

What has been taken of a name is kept for all ways at once: a mark for each place of the name,
its end included, that tells whether the tokens so far can end there.  A token moves the marks
in one pass, so a match takes no more steps than tokens times octets.
-/

/-- The octet of a slash. -/
def slash : UInt8 := 0x2F

/-- Moves marks over one octet that satisfies `p`. -/
def passOne (p : UInt8 → Bool) (s : List UInt8) (marks : List Bool) : List Bool :=
  false :: List.zipWith (fun b mark => mark && p b) s marks

/-- Moves marks over any number of octets that satisfy `p`; `here` marks the first place as
well. -/
def passMany (p : UInt8 → Bool) (here : Bool) : List UInt8 → List Bool → List Bool
  | b :: s, mark :: marks => (mark || here) :: passMany p ((mark || here) && p b) s marks
  | [], mark :: _ => [mark || here]
  | _, [] => []

/-- Leaves marks where they are and moves them behind every slash further on; `seen` tells that a
mark came before, and `here` that it came before a slash at this place. -/
def passSlashes (seen here : Bool) : List UInt8 → List Bool → List Bool
  | b :: s, mark :: marks =>
    (mark || here) :: passSlashes (seen || mark) ((seen || mark) && b = slash) s marks
  | [], mark :: _ => [mark || here]
  | _, [] => []

/-- The marks of either. -/
def either (a b : List Bool) : List Bool := List.zipWith (· || ·) a b

/-- One character passed: there is still one mark for each place. -/
theorem length_passOne {p : UInt8 → Bool} {s : List UInt8} {marks : List Bool}
    (h : marks.length = s.length + 1) : (passOne p s marks).length = s.length + 1 := by
  simp [passOne, h]

/-- Any number of characters passed. -/
theorem length_passMany {p : UInt8 → Bool} {here : Bool} {s : List UInt8} {marks : List Bool}
    (h : marks.length = s.length + 1) : (passMany p here s marks).length = s.length + 1 := by
  induction s generalizing here marks with
  | nil =>
    match marks, h with
    | [_], _ => simp [passMany]
  | cons b s ih =>
    match marks, h with
    | mark :: marks, h =>
      simp only [List.length_cons, Nat.add_right_cancel_iff] at h
      simp [passMany, ih h]

/-- Directories passed. -/
theorem length_passSlashes {seen here : Bool} {s : List UInt8} {marks : List Bool}
    (h : marks.length = s.length + 1) : (passSlashes seen here s marks).length = s.length + 1 := by
  induction s generalizing seen here marks with
  | nil =>
    match marks, h with
    | [_], _ => simp [passSlashes]
  | cons b s ih =>
    match marks, h with
    | mark :: marks, h =>
      simp only [List.length_cons, Nat.add_right_cancel_iff] at h
      simp [passSlashes, ih h]

/-- The octet ranges that a list of characters and ranges stands for.  The last octet of a
range's first character and the first octet of its last are the ends of the octet range. -/
def octetRanges (range : Char × Char) : List (UInt8 × UInt8) :=
  let (low, high) := range
  let octets (c : Char) := String.utf8EncodeChar c
  if low = high then (octets low).map fun b => (b, b)
  else
    let before := (octets low).dropLast.map fun b => (b, b)
    let after := ((octets high).drop 1).map fun b => (b, b)
    match (octets low).getLast?, (octets high).head? with
    | some a, some b => before ++ (a, b) :: after
    | _, _ => before ++ after

mutual

/-- Whether a token takes nothing because all its branches are empty. -/
def isVoid : Token → Bool
  | .choice branches => allBranchesVoid branches
  | _ => false

/-- Whether all tokens take nothing. -/
def allVoid : List Token → Bool
  | [] => true
  | t :: ts => isVoid t && allVoid ts

/-- Whether all branches take nothing. -/
def allBranchesVoid : List (List Token) → Bool
  | [] => true
  | b :: bs => allVoid b && allBranchesVoid bs

end

/-- Moves marks over characters that stand for themselves. -/
def passLiteral (c : Char) (s : List UInt8) (marks : List Bool) : List Bool :=
  (String.utf8EncodeChar c).foldl (fun marks b => passOne (· = b) s marks) marks

/-- Whether an octet is among those of a class. -/
def inClass (negated : Bool) (ranges : List (UInt8 × UInt8)) (b : UInt8) : Bool :=
  ranges.any (fun (lo, hi) => lo ≤ b && b ≤ hi) != negated

mutual

/-- Moves marks over a token. -/
def pass (s : List UInt8) (t : Token) (marks : List Bool) : List Bool :=
  match t with
  | .literal c => passLiteral c s marks
  | .any => passOne (· ≠ slash) s marks
  | .star => passMany (· ≠ slash) false s marks
  | .deepStart => passSlashes false false s marks
  | .deepEnd => passMany (fun _ => true) false s (passOne (· = slash) s marks)
  | .deepMiddle => passSlashes false false s (passOne (· = slash) s marks)
  | .oneOf negated ranges => passOne (inClass negated (ranges.flatMap octetRanges)) s marks
  | .choice branches => if allBranchesVoid branches then marks else passAny s branches marks

/-- Moves marks over tokens in a row. -/
def passAll (s : List UInt8) (ts : List Token) (marks : List Bool) : List Bool :=
  match ts with
  | [] => marks
  | t :: ts => passAll s ts (pass s t marks)

/-- Moves marks over one of several branches.  A branch that takes nothing is no branch. -/
def passAny (s : List UInt8) (branches : List (List Token)) (marks : List Bool) : List Bool :=
  match branches with
  | [] => List.replicate (s.length + 1) false
  | b :: bs =>
    let others := passAny s bs marks
    if allVoid b then others else either (passAll s b marks) others

end

/-- Whether the tokens take the whole list.  Characters in front are taken off both. -/
def isMatch : List Token → List UInt8 → Bool
  | .literal c :: ts, s => (List.isPrefixOf? (String.utf8EncodeChar c) s).any (isMatch ts)
  | ts, s => (passAll s ts (true :: List.replicate s.length false)).getLast? = some true

end Glob
end Waymark
