import Waymark.Bundle.Entry
import Waymark.Proofs.Json.ReadBack
import Waymark.Proofs.Text.Pieces
import Waymark.Script.Exports
/-!
# Statements of a program that is put together

A server program is put together from texts that may hold anything: names of files, the URL of
the framework, the origin of the module server.  Here one is read again, as a reader of the
language would do it: a line is cut into words, quoted texts and marks, and what these say is a
statement.  A quoted text is read as JSON, to its closing quote and no further, so whatever a
name holds is one token and stands in the line it was put in.

## Main results

* `tokens_quote` — a quoted text is one token, whatever it holds.
* `ofLine?_importAs`, `ofLine?_const`, `ofLine?_register` — what the lines of a route are read as.
-/

namespace Waymark.Bundle

/-! ## Tokens -/

/-- A token of a line. -/
inductive Token where
  | word (w : String)
  | text (s : String)
  | mark (c : Char)
  deriving DecidableEq, Repr

/-- The text of a JSON string behind its opening quote, and what follows it. -/
def readText (s : List Char) : Option (String × List Char) :=
  (Json.readParts s).bind fun (parts, rest) =>
    (Json.joinParts parts).map fun text => (String.ofList text, rest)

theorem length_readParts {s rest : List Char} {parts : List Json.Part}
    (h : Json.readParts s = some (parts, rest)) : rest.length < s.length := by
  fun_induction Json.readParts s generalizing parts rest with
  | case1 => cases h
  | case2 s =>
    obtain ⟨-, rfl⟩ := Prod.mk.inj (Option.some.inj h)
    exact Nat.lt_succ_self _
  | case3 a b c d s ih =>
    obtain ⟨n, -, h⟩ := Option.bind_eq_some_iff.1 h
    obtain ⟨⟨more, left⟩, hmore, h⟩ := Option.bind_eq_some_iff.1 h
    obtain ⟨-, rfl⟩ := Prod.mk.inj (Option.some.inj h)
    have hlength := ih hmore
    simp only [List.length_cons]
    omega
  | case4 e s hunit ih =>
    obtain ⟨c, -, h⟩ := Option.bind_eq_some_iff.1 h
    obtain ⟨⟨more, left⟩, hmore, h⟩ := Option.bind_eq_some_iff.1 h
    obtain ⟨-, rfl⟩ := Prod.mk.inj (Option.some.inj h)
    have hlength := ih hmore
    simp only [List.length_cons]
    omega
  | case5 => cases h
  | case6 c s hquote hunit hletter hchar ih =>
    obtain ⟨⟨more, left⟩, hmore, h⟩ := Option.bind_eq_some_iff.1 h
    obtain ⟨-, rfl⟩ := Prod.mk.inj (Option.some.inj h)
    have hlength := ih hmore
    simp only [List.length_cons]
    omega

theorem length_readText {s rest : List Char} {text : String}
    (h : readText s = some (text, rest)) : rest.length < s.length := by
  obtain ⟨⟨parts, left⟩, hparts, h⟩ := Option.bind_eq_some_iff.1 h
  obtain ⟨chars, -, h⟩ := Option.map_eq_some_iff.1 h
  obtain ⟨-, rfl⟩ := Prod.mk.inj h
  exact length_readParts hparts

/-- The tokens of a line; `none` if a quoted text has no end. -/
def tokens (s : List Char) : Option (List Token) :=
  match s with
  | [] => some []
  | c :: s =>
    if c = '"' then
      match _h : readText s with
      | some (text, rest) => (tokens rest).map (.text text :: ·)
      | none => none
    else if Script.inName c then
      (tokens (s.dropWhile Script.inName)).map
        (.word (String.ofList (c :: s.takeWhile Script.inName)) :: ·)
    else if Text.isBlank c then tokens s
    else (tokens s).map (.mark c :: ·)
termination_by s.length
decreasing_by
  · exact Nat.lt_trans (length_readText _h) (Nat.lt_succ_self _)
  · exact Nat.lt_succ_of_le (List.dropWhile_suffix _).length_le
  · exact Nat.lt_succ_self _
  · exact Nat.lt_succ_self _

/-- A text is one token, whatever it holds. -/
theorem tokens_quote (text : String) (s : List Char) :
    tokens ((Json.quote text).toList ++ s) = (tokens s).map (.text text :: ·) := by
  obtain ⟨parts, hparts, hjoin⟩ := Json.readParts_escaped text.toList s
  have hread : readText (text.toList.flatMap Json.escapeChar ++ '"' :: s) = some (text, s) := by
    rw [readText, hparts, Option.bind_some]
    dsimp only
    rw [hjoin, Option.map_some, String.ofList_toList]
  rw [Json.quote, String.toList_ofList, Json.quoteChars, List.cons_append, List.cons_append,
    List.append_assoc, List.singleton_append, tokens, if_pos rfl]
  split
  · rename_i found
    obtain ⟨rfl, rfl⟩ := Prod.mk.inj (Option.some.inj (hread.symm.trans found))
    rfl
  · rename_i found
    rw [hread] at found
    cases found

/-- A text of characters that can stand in a name, up to a character that cannot. -/
def IsWord (w : String) : Prop := w.toList ≠ [] ∧ w.toList.all Script.inName = true

instance (w : String) : Decidable (IsWord w) := inferInstanceAs (Decidable (_ ∧ _))

/-- What comes behind a word without going on with it. -/
def EndsWord (s : List Char) : Prop := ∀ c ∈ s.head?, Script.inName c = false

theorem tokens_word {w : String} (hw : IsWord w) {s : List Char} (hs : EndsWord s) :
    tokens (w.toList ++ s) = (tokens s).map (.word w :: ·) := by
  obtain ⟨hne, hall⟩ := hw
  have hwhole := String.ofList_toList (s := w)
  generalize w.toList = chars at hne hall hwhole ⊢
  cases chars with
  | nil => exact absurd rfl hne
  | cons c chars =>
    obtain ⟨hc, hchars⟩ := List.all_eq_true.1 hall |> List.forall_mem_cons.1
    have hquote : c ≠ '"' := by
      rintro rfl
      exact absurd hc (by decide)
    obtain ⟨htake, hdrop⟩ := Text.span_append hchars hs
    rw [List.cons_append, tokens, if_neg hquote, if_pos hc, htake, hdrop, hwhole]

theorem tokens_blank (s : List Char) : tokens (' ' :: s) = tokens s := by
  rw [tokens, if_neg (by decide), if_neg (by decide), if_pos (by decide)]

/-- Whether a character is a token of its own. -/
def isMark (c : Char) : Bool := c ≠ '"' && !Script.inName c && !Text.isBlank c

theorem tokens_mark {c : Char} (h : isMark c = true) (s : List Char) :
    tokens (c :: s) = (tokens s).map (.mark c :: ·) := by
  simp only [isMark, Bool.and_eq_true, Bool.not_eq_true', decide_eq_true_eq] at h
  rw [tokens, if_neg h.1.1, h.1.2, h.2, if_neg Bool.false_ne_true, if_neg Bool.false_ne_true]

theorem tokens_nil : tokens [] = some [] := by rw [tokens]

/-! ## Statements -/

/-- What a name is bound to. -/
inductive Source where
  | imported (exported url : String)
  | undefined
  deriving DecidableEq, Repr

/-- A statement of a program. -/
inductive Statement where
  /-- A name is bound. -/
  | bind (name : String) (source : Source)
  /-- A module is run. -/
  | run (url : String)
  /-- A file is registered, with the names that its page and its data are bound to. -/
  | register (file page data : String)
  /-- Anything else. -/
  | other (tokens : List Token)
  deriving DecidableEq, Repr

/-- What the tokens of a line say. -/
def Statement.ofTokens : List Token → Statement
  | [.word "import", .text url, .mark ';'] => .run url
  | [.word "import", .word name, .word "from", .text url, .mark ';'] =>
    .bind name (.imported "default" url)
  | [.word "import", .mark '{', .word name, .mark '}', .word "from", .text url, .mark ';'] =>
    .bind name (.imported name url)
  | [.word "import", .mark '{', .word exported, .word "as", .word name, .mark '}', .word "from",
      .text url, .mark ';'] => .bind name (.imported exported url)
  | [.word "const", .word name, .mark '=', .word "undefined", .mark ';'] => .bind name .undefined
  | [.word "register", .mark '(', .text file, .mark ',', .mark '{', .word "default", .mark ':',
      .word page, .mark ',', .word "data", .mark ':', .word data, .mark '}', .mark ')',
      .mark ';'] => .register file page data
  | tokens => .other tokens

/-- The statement that a line is read as. -/
def Statement.ofLine? (line : List Char) : Option Statement :=
  (tokens line).map Statement.ofTokens

/-- The lines of a program. -/
def linesOf (program : String) : List (List Char) := Text.pieces '\n' program.toList

/-- The statements that the lines of a program are read as. -/
def statements? (program : String) : Option (List Statement) :=
  (linesOf program).mapM Statement.ofLine?

/-- What a name is bound to by some statements, one after the other. -/
def bindings (name : String) (statements : List Statement) : List Source :=
  statements.filterMap fun
    | .bind bound source => if bound = name then some source else none
    | _ => none

/-- The files that some statements register, each with its two names. -/
def registrations (statements : List Statement) : List (String × String × String) :=
  statements.filterMap fun
    | .register file page data => some (file, page, data)
    | _ => none

/-! ## Reading lines -/

/-- A text of words and marks before a blank. -/
def ReadsAs (s : String) (ts : List Token) : Prop :=
  ∀ rest, tokens (s.toList ++ ' ' :: rest) = (tokens rest).map (ts ++ ·)

theorem endsWord_cons {c : Char} (h : Script.inName c = false) (s : List Char) :
    EndsWord (c :: s) := by
  rintro d hd
  obtain rfl := Option.some.inj hd
  exact h

theorem readsAs_word {w : String} (h : IsWord w) : ReadsAs w [.word w] := by
  intro rest
  rw [tokens_word h (endsWord_cons (by decide) rest), tokens_blank]
  rfl

theorem ReadsAs.append {a b : String} {ts us : List Token} (ha : ReadsAs a ts)
    (hb : ReadsAs b us) : ReadsAs (a ++ " " ++ b) (ts ++ us) := by
  intro rest
  have hlist : (a ++ " " ++ b).toList ++ ' ' :: rest =
      a.toList ++ ' ' :: (b.toList ++ ' ' :: rest) := by
    rw [String.toList_append, String.toList_append, List.append_assoc, List.append_assoc]
    rfl
  rw [hlist, ha, hb, Option.map_map]
  congr 1
  funext us'
  exact (List.append_assoc ..).symm

theorem ReadsAs.inBraces {s : String} {ts : List Token} (h : ReadsAs s ts) :
    ReadsAs (inBraces s) (.mark '{' :: ts ++ [.mark '}']) := by
  intro rest
  have hlist : (Bundle.inBraces s).toList ++ ' ' :: rest =
      '{' :: ' ' :: (s.toList ++ ' ' :: '}' :: ' ' :: rest) := by
    simp [Bundle.inBraces, openBrace, closeBrace]
  rw [hlist, tokens_mark (by decide), tokens_blank, h, tokens_mark (by decide), tokens_blank]
  cases tokens rest with
  | none => rfl
  | some us => simp

/-- The tokens of a line that imports bindings. -/
theorem tokens_importLine {clause : String} {ts : List Token} (h : ReadsAs clause ts)
    (url : String) : tokens (importLine clause url).toList =
      some (.word "import" :: ts ++ [.word "from", .text url, .mark ';']) := by
  have hlist : (importLine clause url).toList = "import".toList ++ ' ' :: (clause.toList ++
      ' ' :: ("from".toList ++ ' ' :: ((Json.quote url).toList ++ [';']))) := by
    simp [importLine]
  rw [hlist, readsAs_word (by decide), h, readsAs_word (by decide), tokens_quote,
    tokens_mark (by decide), tokens_nil]
  simp

theorem ofLine?_importDefault {name : String} (h : IsWord name) (url : String) :
    Statement.ofLine? (importLine name url).toList =
      some (.bind name (.imported "default" url)) := by
  rw [Statement.ofLine?, tokens_importLine (readsAs_word h)]
  rfl

theorem ofLine?_importNamed {name : String} (h : IsWord name) (url : String) :
    Statement.ofLine? (importLine (inBraces name) url).toList =
      some (.bind name (.imported name url)) := by
  rw [Statement.ofLine?, tokens_importLine (readsAs_word h).inBraces]
  rfl

theorem ofLine?_importAs {exported name : String} (he : IsWord exported) (h : IsWord name)
    (url : String) :
    Statement.ofLine? (importLine (inBraces (exported ++ " " ++ "as" ++ " " ++ name)) url).toList =
      some (.bind name (.imported exported url)) := by
  rw [Statement.ofLine?, tokens_importLine
    (((readsAs_word he).append (readsAs_word (w := "as") (by decide))).append
      (readsAs_word h)).inBraces]
  rfl

theorem ofLine?_const {name : String} (h : IsWord name) :
    Statement.ofLine? ("const " ++ name ++ " = undefined;").toList =
      some (.bind name .undefined) := by
  have hlist : ("const " ++ name ++ " = undefined;").toList = "const".toList ++ ' ' ::
      (name.toList ++ ' ' :: '=' :: ' ' :: ("undefined".toList ++ [';'])) := by simp
  rw [Statement.ofLine?, hlist, readsAs_word (by decide), readsAs_word h, tokens_mark (by decide),
    tokens_blank, tokens_word (by decide) (endsWord_cons (by decide) _), tokens_mark (by decide),
    tokens_nil]
  rfl

theorem ofLine?_register {page data : String} (hpage : IsWord page) (hdata : IsWord data)
    (file : String) :
    Statement.ofLine? ("register(" ++ Json.quote file ++ ", " ++
      inBraces ("default: " ++ page ++ ", data: " ++ data) ++ ");").toList =
        some (.register file page data) := by
  have hlist : ("register(" ++ Json.quote file ++ ", " ++
      inBraces ("default: " ++ page ++ ", data: " ++ data) ++ ");").toList =
      "register".toList ++ '(' :: ((Json.quote file).toList ++ ',' :: ' ' :: '{' :: ' ' ::
        ("default".toList ++ ':' :: ' ' :: (page.toList ++ ',' :: ' ' ::
          ("data".toList ++ ':' :: ' ' :: (data.toList ++ ' ' :: '}' :: [')', ';']))))) := by
    simp [inBraces, openBrace, closeBrace]
  rw [Statement.ofLine?, hlist, tokens_word (by decide) (endsWord_cons (by decide) _),
    tokens_mark (by decide), tokens_quote, tokens_mark (by decide), tokens_blank,
    tokens_mark (by decide), tokens_blank, tokens_word (by decide) (endsWord_cons (by decide) _),
    tokens_mark (by decide), tokens_blank, tokens_word hpage (endsWord_cons (by decide) _),
    tokens_mark (by decide), tokens_blank, tokens_word (by decide) (endsWord_cons (by decide) _),
    tokens_mark (by decide), tokens_blank, readsAs_word hdata, tokens_mark (by decide),
    tokens_mark (by decide), tokens_mark (by decide), tokens_nil]
  rfl

theorem ofLine?_run (url : String) :
    Statement.ofLine? ("import " ++ Json.quote url ++ ";").toList = some (.run url) := by
  have hlist : ("import " ++ Json.quote url ++ ";").toList =
      "import".toList ++ ' ' :: ((Json.quote url).toList ++ [';']) := by simp
  rw [Statement.ofLine?, hlist, readsAs_word (by decide), tokens_quote, tokens_mark (by decide),
    tokens_nil]
  rfl

/-- The line that restores the dependency graph. -/
theorem ofLine?_restore :
    Statement.ofLine?
      "globalThis.serverDependencyGraph = new DependencyGraph(graph.modules);".toList =
        some (.other [.word "globalThis", .mark '.', .word "serverDependencyGraph", .mark '=',
          .word "new", .word "DependencyGraph", .mark '(', .word "graph", .mark '.',
          .word "modules", .mark ')', .mark ';']) := by
  have hlist : "globalThis.serverDependencyGraph = new DependencyGraph(graph.modules);".toList =
      "globalThis".toList ++ '.' :: ("serverDependencyGraph".toList ++ ' ' :: '=' :: ' ' ::
        ("new".toList ++ ' ' :: ("DependencyGraph".toList ++ '(' :: ("graph".toList ++ '.' ::
          ("modules".toList ++ [')', ';']))))) := by simp
  rw [Statement.ofLine?, hlist, tokens_word (by decide) (endsWord_cons (by decide) _),
    tokens_mark (by decide), readsAs_word (by decide), tokens_mark (by decide), tokens_blank,
    readsAs_word (by decide), tokens_word (by decide) (endsWord_cons (by decide) _),
    tokens_mark (by decide), tokens_word (by decide) (endsWord_cons (by decide) _),
    tokens_mark (by decide), tokens_word (by decide) (endsWord_cons (by decide) _),
    tokens_mark (by decide), tokens_mark (by decide), tokens_nil]
  rfl

theorem ofLine?_serve : Statement.ofLine? "serve();".toList =
    some (.other [.word "serve", .mark '(', .mark ')', .mark ';']) := by
  have hlist : "serve();".toList = "serve".toList ++ '(' :: [')', ';'] := rfl
  rw [Statement.ofLine?, hlist, tokens_word (by decide) (endsWord_cons (by decide) _),
    tokens_mark (by decide), tokens_mark (by decide), tokens_mark (by decide), tokens_nil]
  rfl

end Waymark.Bundle
