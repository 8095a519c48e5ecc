import Waymark.Proofs.Text.Utf8
import Waymark.Route.Glob
import Waymark.Text.Pieces
/-!
# The directory in front of a glob

A glob that begins with a directory, up to the slash before its first star, matches
nothing outside of the directory.  The characters of the directory are read as tokens
that stand for themselves.  The slash behind them stays as it is too, or is swallowed by
a span of directories, which begins with a slash itself.  Nothing that is read later
touches the tokens below the last one, so they stand there when the reader is done
(`Keeps`).

## Main results

* `keeps_readFrom` — what has been read in front stays.
* `exists_of_isMatch_literals` — a name that is matched begins with the characters in front.
* `exists_of_isMatch` — behind them it goes on with a slash.
-/

namespace Waymark

namespace Text.Utf8

/-- What the octets of a text begin with, the text begins with. -/
theorem decodeLossy_encode_append (s : List Char) (rest : List UInt8) :
    decodeLossy (encode s ++ rest) = s ++ decodeLossy rest := by
  induction s with
  | nil => rfl
  | cons c s ih =>
    obtain ⟨b, tail, hc, hread⟩ := readChar_encode c (encode s ++ rest)
    have hcons : encode (c :: s) ++ rest = b :: (tail ++ (encode s ++ rest)) := by
      rw [encode, List.flatMap_cons, hc, List.cons_append, List.cons_append, List.append_assoc]
      rfl
    rw [hcons, decodeLossy, hread]
    simp [ih]

theorem decodeLossy_slash (rest : List UInt8) :
    decodeLossy (0x2F :: rest) = '/' :: decodeLossy rest := by
  have hread : readChar 0x2F rest = (some '/', rest) := if_pos (by decide)
  rw [decodeLossy, hread]
  rfl

end Text.Utf8

namespace Glob

/-! ## Reading -/

/-- The tokens outside of all groups, last token first. -/
def Reader.outer (r : Reader) : List Token := (r.groups.getLast?.map (·.outside)).getD r.tokens

/-- Whether a token begins with a slash, where the tokens after it are `top`. -/
inductive BeginsSlash (top : List Token) : Token → Prop where
  | slash (hne : top ≠ []) : BeginsSlash top (.literal '/')
  | deepMiddle : BeginsSlash top .deepMiddle
  | deepEnd : BeginsSlash top .deepEnd

/-- Tokens, last one first, that begin with given ones and go on with a slash. -/
def Extends (front tokens : List Token) : Prop :=
  ∃ top sep, tokens = top ++ sep :: front ∧ BeginsSlash top sep

/-- What a reader has read begins with given tokens and goes on with a slash. -/
def Keeps (front : List Token) (r : Reader) : Prop := Extends front r.outer

section
variable {front tokens : List Token} {r : Reader}

theorem BeginsSlash.cons {top : List Token} {sep : Token} (h : BeginsSlash top sep)
    {top' : List Token} (hne : top' ≠ []) : BeginsSlash top' sep := by
  cases h with
  | slash => exact .slash hne
  | deepMiddle => exact .deepMiddle
  | deepEnd => exact .deepEnd

theorem Extends.cons (h : Extends front tokens) (t : Token) : Extends front (t :: tokens) := by
  obtain ⟨top, sep, rfl, hsep⟩ := h
  exact ⟨t :: top, sep, rfl, hsep.cons (List.cons_ne_nil t top)⟩

/-- A span takes the place of the last token, unless that is a span itself. -/
theorem span_cons (t : Token) (ts : List Token) (gs : List OpenGroup) (atEnd : Bool) :
    ∃ t', Reader.span ⟨t :: ts, gs⟩ atEnd = ⟨t' :: ts, gs⟩ ∧
      (t' = t ∨ t' = .deepEnd ∨ t' = .deepMiddle) := by
  unfold Reader.span
  split
  · rename_i heq
    exact ⟨.deepStart, by rw [(List.cons.inj heq).2], Or.inl (List.cons.inj heq).1.symm⟩
  · rename_i heq
    exact ⟨.deepEnd, by rw [(List.cons.inj heq).2], Or.inr (Or.inl rfl)⟩
  · rename_i heq
    obtain ⟨-, rfl⟩ := List.cons.inj heq
    cases atEnd with
    | true => exact ⟨.deepEnd, rfl, Or.inr (Or.inl rfl)⟩
    | false => exact ⟨.deepMiddle, rfl, Or.inr (Or.inr rfl)⟩
  · rename_i heq
    cases heq

theorem Extends.span {gs : List OpenGroup} (h : Extends front tokens) (atEnd : Bool) :
    Extends front (Reader.span ⟨tokens, gs⟩ atEnd).tokens ∧
      (Reader.span ⟨tokens, gs⟩ atEnd).groups = gs := by
  obtain ⟨top, sep, rfl, hsep⟩ := h
  cases top with
  | nil =>
    obtain ⟨t', hspan, ht'⟩ := span_cons sep front gs atEnd
    rw [List.nil_append, hspan]
    refine ⟨⟨[], t', rfl, ?_⟩, rfl⟩
    rcases ht' with rfl | rfl | rfl
    · exact hsep
    · exact .deepEnd
    · exact .deepMiddle
  | cons t top =>
    obtain ⟨t', hspan, -⟩ := span_cons t (top ++ sep :: front) gs atEnd
    rw [List.cons_append, hspan]
    exact ⟨⟨t' :: top, sep, rfl, hsep.cons (List.cons_ne_nil t' top)⟩, rfl⟩

theorem outer_of_nil (h : r.groups = []) : r.outer = r.tokens := by
  rw [Reader.outer, h]
  rfl

theorem outer_of_cons {gs : List OpenGroup} {g : OpenGroup} (h : r.groups = g :: gs) :
    r.outer = (((g :: gs).getLast (List.cons_ne_nil g gs))).outside := by
  rw [Reader.outer, h, List.getLast?_eq_some_getLast (List.cons_ne_nil g gs)]
  rfl

/-- What is done inside of a group leaves the tokens outside alone. -/
theorem Keeps.of_groups {r' : Reader} (h : Keeps front r) {g : OpenGroup} {gs : List OpenGroup}
    (hgroups : r.groups = g :: gs) {g' : OpenGroup} (hgroups' : r'.groups = g' :: gs)
    (houtside : g'.outside = g.outside) : Keeps front r' := by
  unfold Keeps at h ⊢
  rw [outer_of_cons hgroups] at h
  rw [outer_of_cons hgroups']
  cases gs with
  | nil =>
    rw [List.getLast_singleton] at h ⊢
    rwa [houtside]
  | cons other gs => exact h

theorem Keeps.push (h : Keeps front r) (t : Token) : Keeps front (r.push t) := by
  cases hgroups : r.groups with
  | nil =>
    have hgroups' : (r.push t).groups = [] := hgroups
    rw [Keeps, outer_of_nil hgroups] at h
    rw [Keeps, outer_of_nil hgroups']
    exact h.cons t
  | cons g gs => exact h.of_groups hgroups (show (r.push t).groups = g :: gs from hgroups) rfl

theorem Keeps.span (h : Keeps front r) (atEnd : Bool) : Keeps front (r.span atEnd) := by
  cases hgroups : r.groups with
  | nil =>
    rw [Keeps, outer_of_nil hgroups] at h
    obtain ⟨hkeeps, hsame⟩ : Extends front (r.span atEnd).tokens ∧
      (r.span atEnd).groups = r.groups := h.span atEnd
    rw [Keeps, outer_of_nil (hsame.trans hgroups)]
    exact hkeeps
  | cons g gs =>
    have hsame : (r.span atEnd).groups = r.groups := by
      unfold Reader.span
      split
      · rfl
      · rfl
      · rfl
      · rfl
    exact h.of_groups hgroups (hsame.trans hgroups) rfl

theorem Keeps.openGroup (h : Keeps front r) : Keeps front r.openGroup := by
  cases hgroups : r.groups with
  | nil =>
    have hgroups' : r.openGroup.groups = [⟨r.tokens, []⟩] := by
      rw [Reader.openGroup, hgroups]
    rw [Keeps, outer_of_nil hgroups] at h
    rw [Keeps, outer_of_cons hgroups']
    exact h
  | cons g gs =>
    have hgroups' : r.openGroup.groups = ⟨r.tokens, []⟩ :: g :: gs := by
      rw [Reader.openGroup, hgroups]
    rw [Keeps, outer_of_cons hgroups] at h
    rw [Keeps, outer_of_cons hgroups']
    exact h

theorem Keeps.closeGroup {r' : Reader} (h : Keeps front r) (hclose : r.closeGroup = .ok r') :
    Keeps front r' := by
  unfold Reader.closeGroup at hclose
  split at hclose
  · cases hclose
  · rename_i g gs hgroups
    obtain rfl := Except.ok.inj hclose
    rw [Keeps, outer_of_cons hgroups] at h
    cases gs with
    | nil =>
      rw [Keeps, outer_of_nil rfl]
      exact Extends.cons h _
    | cons other gs =>
      unfold Keeps
      rwa [outer_of_cons rfl]

theorem Keeps.comma (h : Keeps front r) : Keeps front r.comma := by
  unfold Reader.comma
  split
  · exact h.push _
  · rename_i g gs hgroups
    exact h.of_groups hgroups rfl rfl

/-- What has been read in front stays. -/
theorem keeps_readFrom {prev : Option Char} {cls : Option OpenClass} {s : List Char} {r' : Reader}
    (h : Keeps front r) (hread : readFrom prev cls r s = .ok r') : Keeps front r' := by
  fun_induction readFrom prev cls r s with
  | case1 => cases hread
  | case2 =>
    obtain rfl := Except.ok.inj hread
    exact h
  | case3 _ _ _ _ _ _ ih => exact ih (h.push _) hread
  | case4 _ _ c _ k _ ih =>
    -- one more character of a class
    cases hclass : classChar k c with
    | error e =>
      rw [hclass] at hread
      cases hread
    | ok next =>
      rw [hclass] at hread
      exact ih next h hread
  | case5 _ _ _ ih => exact ih (h.push _) hread
  | case6 _ _ _ _ _ _ ih => exact ih ((h.push _).push _) hread
  | case7 _ _ _ _ _ _ ih => exact ih (h.span true) hread
  | case8 _ _ _ _ _ _ ih => exact ih (h.push _) hread
  | case9 _ _ _ _ _ _ ih => exact ih (h.span false) hread
  | case10 _ _ _ _ ih => exact ih (h.push _) hread
  | case11 _ _ _ _ ih => exact ih h hread
  | case12 _ _ _ _ ih => exact ih h hread
  | case13 _ _ _ ih => exact ih h.openGroup hread
  | case14 _ r _ ih =>
    cases hclose : r.closeGroup with
    | error e =>
      rw [hclose] at hread
      cases hread
    | ok closed =>
      rw [hclose] at hread
      exact ih closed (h.closeGroup hclose) hread
  | case15 _ _ _ ih => exact ih h.comma hread
  | case16 _ _ _ _ _ ih => exact ih (h.push _) hread
  | case17 => cases hread
  | case18 _ _ _ _ _ _ _ _ _ _ _ ih => exact ih (h.push _) hread

/-! ## The directory in front -/

/-- Whether a character stands for itself wherever it stands in a glob, outside of classes. -/
def IsLiteral (c : Char) : Prop := c ∉ ['?', '*', '[', '\x7b', '\x7d', ',', '\\']

instance (c : Char) : Decidable (IsLiteral c) := inferInstanceAs (Decidable (c ∉ _))

theorem readFrom_literal {c : Char} (h : IsLiteral c) (prev : Option Char) (r : Reader)
    (s : List Char) :
    readFrom prev none r (c :: s) = readFrom (some c) none (r.push (.literal c)) s := by
  have hne {d : Char} (hd : d ∈ ['?', '*', '[', '\x7b', '\x7d', ',', '\\']) : c ≠ d :=
    fun heq => h (heq ▸ hd)
  rw [readFrom]
  · exact hne (by decide)
  · exact hne (by decide)
  · exact hne (by decide)
  · exact hne (by decide)
  · exact hne (by decide)
  · exact hne (by decide)
  · exact hne (by decide)

/-- Characters that stand for themselves are read as tokens, last one first. -/
theorem readFrom_literals {lits : List Char} (h : ∀ c ∈ lits, IsLiteral c) (prev : Option Char)
    (ts : List Token) (s : List Char) :
    readFrom prev none ⟨ts, []⟩ (lits ++ s) =
      readFrom (lits.getLast?.or prev) none ⟨(lits.map Token.literal).reverse ++ ts, []⟩ s := by
  induction lits generalizing prev ts with
  | nil => rfl
  | cons c lits ih =>
    rw [List.cons_append, readFrom_literal (h c (List.mem_cons_self ..))]
    have hrest := ih (fun d hd => h d (List.mem_cons_of_mem _ hd)) (some c) (.literal c :: ts)
    have hpush : (Reader.mk ts []).push (.literal c) = ⟨.literal c :: ts, []⟩ := rfl
    have hlast : lits.getLast?.or (some c) = (c :: lits).getLast?.or prev := by
      cases lits with
      | nil => rfl
      | cons d lits =>
        rw [List.getLast?_eq_some_getLast (List.cons_ne_nil d lits),
          List.getLast?_eq_some_getLast (List.cons_ne_nil c (d :: lits)),
          List.getLast_cons (List.cons_ne_nil d lits)]
        rfl
    rw [hpush, hrest, hlast, List.map_cons, List.reverse_cons, List.append_assoc,
      List.singleton_append]

/-- The slash in front of a star stays, or is swallowed by a span. -/
theorem keeps_readFrom_star {prev : Option Char} {s : List Char} {r' : Reader}
    (h : readFrom prev none ⟨.literal '/' :: front, []⟩ ('*' :: s) = .ok r') : Keeps front r' := by
  have hslash (top : List Token) (hne : top ≠ []) :
      Keeps front ⟨top ++ .literal '/' :: front, []⟩ := ⟨top, _, rfl, .slash hne⟩
  rw [readFrom] at h
  split at h
  · dsimp only at h
    split at h
    · exact keeps_readFrom (hslash [.star, .star] (List.cons_ne_nil _ _)) h
    · exact keeps_readFrom (r := ⟨.deepEnd :: front, []⟩) ⟨[], _, rfl, .deepEnd⟩ h
    · exact keeps_readFrom (hslash [.deepStart] (List.cons_ne_nil _ _)) h
    · exact keeps_readFrom (r := ⟨.deepMiddle :: front, []⟩) ⟨[], _, rfl, .deepMiddle⟩ h
  · exact keeps_readFrom (hslash [.star] (List.cons_ne_nil _ _)) h

/-- The tokens of a glob that begins with a directory and has its first star right behind. -/
theorem exists_of_parse {dir s : List Char} {tokens : List Token} (hdir : ∀ c ∈ dir, IsLiteral c)
    (h : parse (dir ++ '/' :: '*' :: s) = .ok tokens) :
    ∃ sep rest, tokens = dir.map Token.literal ++ sep :: rest ∧ BeginsSlash rest sep := by
  have hlits : ∀ c ∈ dir ++ ['/'], IsLiteral c := by
    intro c hc
    rcases List.mem_append.1 hc with hc | hc
    · exact hdir c hc
    · rw [List.mem_singleton.1 hc]
      decide
  have hread := readFrom_literals hlits none [] ('*' :: s)
  have hfront : ((dir ++ ['/']).map Token.literal).reverse ++ [] =
      .literal '/' :: (dir.map Token.literal).reverse := by
    simp
  rw [hfront, List.append_assoc, List.singleton_append] at hread
  unfold parse at h
  rw [hread] at h
  cases hrest : readFrom ((dir ++ ['/']).getLast?.or none) none
      ⟨.literal '/' :: (dir.map Token.literal).reverse, []⟩ ('*' :: s) with
  | error e =>
    rw [hrest] at h
    cases h
  | ok r =>
    rw [hrest] at h
    have hkeeps := keeps_readFrom_star hrest
    dsimp only [Bind.bind, Except.bind] at h
    split at h
    · rename_i hgroups
      rw [Keeps, outer_of_nil (List.isEmpty_iff.1 hgroups)] at hkeeps
      obtain ⟨top, sep, htokens, hsep⟩ := hkeeps
      obtain rfl := Except.ok.inj h
      refine ⟨sep, top.reverse, by rw [htokens]; simp, ?_⟩
      cases hsep with
      | slash hne => exact .slash (fun hnil => hne (List.reverse_eq_nil_iff.1 hnil))
      | deepMiddle => exact .deepMiddle
      | deepEnd => exact .deepEnd
    · cases h

end

/-! ## Matching -/

/-- Marks that mark nothing. -/
def Unmarked (marks : List Bool) : Prop := ∀ mark ∈ marks, mark = false

theorem Unmarked.nil : Unmarked [] := fun _ hmark => absurd hmark List.not_mem_nil

theorem Unmarked.cons {marks : List Bool} (h : Unmarked marks) : Unmarked (false :: marks) := by
  intro mark hmark
  rcases List.mem_cons.1 hmark with rfl | hmark
  · rfl
  · exact h mark hmark

theorem Unmarked.head_tail {mark : Bool} {marks : List Bool} (h : Unmarked (mark :: marks)) :
    mark = false ∧ Unmarked marks :=
  ⟨h mark (List.mem_cons_self ..), fun m hm => h m (List.mem_cons_of_mem _ hm)⟩

theorem unmarked_replicate (n : Nat) : Unmarked (List.replicate n false) :=
  fun _ hmark => List.eq_of_mem_replicate hmark

section
variable {s : List UInt8} {marks : List Bool}

theorem unmarked_zipWith {α : Type} {f : α → Bool → Bool} (hf : ∀ a, f a false = false)
    {as : List α} (h : Unmarked marks) : Unmarked (List.zipWith f as marks) := by
  induction as generalizing marks with
  | nil => exact Unmarked.nil
  | cons a as ih =>
    cases marks with
    | nil => exact Unmarked.nil
    | cons mark marks =>
      obtain ⟨rfl, hrest⟩ := h.head_tail
      rw [List.zipWith_cons_cons, hf]
      exact (ih hrest).cons

theorem unmarked_passOne {p : UInt8 → Bool} (h : Unmarked marks) : Unmarked (passOne p s marks) :=
  (unmarked_zipWith (fun b => Bool.false_and (p b)) h).cons

theorem unmarked_passMany {p : UInt8 → Bool} (h : Unmarked marks) :
    Unmarked (passMany p false s marks) := by
  induction s generalizing marks with
  | nil =>
    cases marks with
    | nil => exact Unmarked.nil
    | cons mark marks =>
      obtain ⟨rfl, -⟩ := h.head_tail
      exact Unmarked.nil.cons
  | cons b s ih =>
    cases marks with
    | nil => exact Unmarked.nil
    | cons mark marks =>
      obtain ⟨rfl, hrest⟩ := h.head_tail
      exact (ih hrest).cons

theorem unmarked_passSlashes (h : Unmarked marks) : Unmarked (passSlashes false false s marks) := by
  induction s generalizing marks with
  | nil =>
    cases marks with
    | nil => exact Unmarked.nil
    | cons mark marks =>
      obtain ⟨rfl, -⟩ := h.head_tail
      exact Unmarked.nil.cons
  | cons b s ih =>
    cases marks with
    | nil => exact Unmarked.nil
    | cons mark marks =>
      obtain ⟨rfl, hrest⟩ := h.head_tail
      exact (ih hrest).cons

theorem unmarked_passLiteral {c : Char} (h : Unmarked marks) :
    Unmarked (passLiteral c s marks) := by
  unfold passLiteral
  induction String.utf8EncodeChar c generalizing marks with
  | nil => exact h
  | cons b bs ih => exact ih (unmarked_passOne h)

theorem unmarked_either {others : List Bool} (h : Unmarked marks) (h' : Unmarked others) :
    Unmarked (either marks others) := by
  unfold either
  induction marks generalizing others with
  | nil => exact Unmarked.nil
  | cons mark marks ih =>
    cases others with
    | nil => exact Unmarked.nil
    | cons other others =>
      obtain ⟨rfl, hrest⟩ := h.head_tail
      obtain ⟨rfl, hrest'⟩ := h'.head_tail
      exact (ih hrest hrest').cons

end

/-- No token marks anything where nothing is marked. -/
theorem unmarked_pass (s : List UInt8) :
    (∀ t marks, Unmarked marks → Unmarked (pass s t marks)) ∧
      (∀ branches marks, Unmarked marks → Unmarked (passAny s branches marks)) ∧
      ∀ ts marks, Unmarked marks → Unmarked (passAll s ts marks) := by
  apply pass.mutual_induct
  case case1 =>
    intro marks c h
    rw [pass]
    exact unmarked_passLiteral h
  case case2 =>
    intro marks h
    rw [pass]
    exact unmarked_passOne h
  case case3 =>
    intro marks h
    rw [pass]
    exact unmarked_passMany h
  case case4 =>
    intro marks h
    rw [pass]
    exact unmarked_passSlashes h
  case case5 =>
    intro marks h
    rw [pass]
    exact unmarked_passMany (unmarked_passOne h)
  case case6 =>
    intro marks h
    rw [pass]
    exact unmarked_passSlashes (unmarked_passOne h)
  case case7 =>
    intro marks negated ranges h
    rw [pass]
    exact unmarked_passOne h
  case case8 =>
    intro marks branches hvoid h
    rw [pass, if_pos hvoid]
    exact h
  case case9 =>
    intro marks branches hvoid ih h
    rw [pass, if_neg hvoid]
    exact ih h
  case case10 =>
    intro marks h
    rw [passAny]
    exact unmarked_replicate _
  case case11 =>
    intro marks b bs hvoid ih h
    rw [passAny, if_pos hvoid]
    exact ih h
  case case12 =>
    intro marks b bs hvoid ih ih' h
    rw [passAny, if_neg hvoid]
    exact unmarked_either (ih' h) (ih h)
  case case13 =>
    intro marks h
    rw [passAll]
    exact h
  case case14 =>
    intro marks t ts ih ih' h
    rw [passAll]
    exact ih' (ih h)

/-- Before anything is taken, a slash is taken only if it comes first. -/
theorem unmarked_passOne_slash {s : List UInt8} (h : s.head? ≠ some slash) :
    Unmarked (passOne (· = slash) s (true :: List.replicate s.length false)) := by
  cases s with
  | nil => exact Unmarked.nil.cons
  | cons b s =>
    have hb : decide (b = slash) = false := by
      simpa using h
    have hrest : Unmarked (List.zipWith (fun b mark => mark && decide (b = slash)) s
        (List.replicate (b :: s).length false)) :=
      unmarked_zipWith (fun b => Bool.false_and (decide (b = slash))) (unmarked_replicate _)
    rw [passOne, List.zipWith_cons_cons, Bool.true_and, hb]
    exact hrest.cons.cons

/-- Tokens that begin with a slash match nothing that does not. -/
theorem head?_of_isMatch {sep : Token} {ts : List Token} (hsep : BeginsSlash ts sep)
    {s : List UInt8} (h : isMatch (sep :: ts) s = true) : s.head? = some slash := by
  apply Decidable.byContradiction
  intro hhead
  have hnone := unmarked_passOne_slash hhead
  have hlast (marks : List Bool) (hmarks : Unmarked marks) :
      ¬(passAll s ts marks).getLast? = some true := by
    intro htrue
    have hmem := List.mem_of_getLast? htrue
    exact Bool.false_ne_true ((unmarked_pass s).2.2 ts marks hmarks true hmem).symm
  cases hsep with
  | slash hne =>
    have hoctets : String.utf8EncodeChar '/' = [slash] := by decide
    rw [isMatch, hoctets] at h
    cases s with
    | nil => cases h
    | cons b s =>
      have hb : (slash == b) = false := by
        apply beq_false_of_ne
        rintro rfl
        exact hhead rfl
      have htaken : List.isPrefixOf? [slash] (b :: s) = none := by
        show (if slash == b then List.isPrefixOf? [] s else none) = none
        rw [hb, if_neg Bool.false_ne_true]
      rw [htaken] at h
      cases h
  | deepMiddle =>
    have h : decide ((passAll s (.deepMiddle :: ts)
      (true :: List.replicate s.length false)).getLast? = some true) = true := h
    rw [passAll, pass, decide_eq_true_eq] at h
    exact hlast _ (unmarked_passSlashes hnone) h
  | deepEnd =>
    have h : decide ((passAll s (.deepEnd :: ts) (true :: List.replicate s.length false)).getLast? =
      some true) = true := h
    rw [passAll, pass, decide_eq_true_eq] at h
    exact hlast _ (unmarked_passMany hnone) h

/-- Characters in front of a glob are in front of what it matches. -/
theorem exists_of_isMatch_literals {lits : List Char} {ts : List Token} {s : List UInt8}
    (h : isMatch (lits.map Token.literal ++ ts) s = true) :
    ∃ rest, s = Text.Utf8.encode lits ++ rest ∧ isMatch ts rest = true := by
  induction lits generalizing s with
  | nil => exact ⟨s, rfl, h⟩
  | cons c lits ih =>
    rw [List.map_cons, List.cons_append, isMatch] at h
    cases htaken : List.isPrefixOf? (String.utf8EncodeChar c) s with
    | none =>
      rw [htaken] at h
      cases h
    | some taken =>
      rw [htaken] at h
      obtain ⟨rest, rfl, hrest⟩ := ih h
      refine ⟨rest, ?_, hrest⟩
      have hcons : Text.Utf8.encode (c :: lits) =
        String.utf8EncodeChar c ++ Text.Utf8.encode lits := List.flatMap_cons
      rw [Text.eq_append_of_isPrefixOf? htaken, hcons, List.append_assoc]

/-- What is matched by a glob that begins with a directory, and has its first star right behind,
lies in the directory. -/
theorem exists_of_isMatch {dir s : List Char} {tokens : List Token}
    (hdir : ∀ c ∈ dir, IsLiteral c) (hparse : parse (dir ++ '/' :: '*' :: s) = .ok tokens)
    {name : List Char} (h : isMatch tokens (Text.Utf8.encode name) = true) :
    ∃ rest, name = dir ++ '/' :: rest := by
  obtain ⟨sep, ts, rfl, hsep⟩ := exists_of_parse hdir hparse
  obtain ⟨rest, hname, hmatch⟩ := exists_of_isMatch_literals h
  have hhead := head?_of_isMatch hsep hmatch
  cases rest with
  | nil => cases hhead
  | cons b rest =>
    obtain rfl := Option.some.inj hhead
    have hdecoded := congrArg Text.Utf8.decodeLossy hname
    rw [Text.Utf8.decodeLossy_encode, Text.Utf8.decodeLossy_encode_append] at hdecoded
    exact ⟨_, hdecoded.trans (congrArg (dir ++ ·) (Text.Utf8.decodeLossy_slash rest))⟩

end Glob

end Waymark
