import Mathlib.Data.List.Basic
import Mathlib.Data.List.TakeWhile
import Waymark.Proofs.Build.Emptied
import Waymark.Proofs.Percent
import Waymark.Proofs.Script.Lines
import Waymark.Proofs.Specifier.Mounted
import Waymark.Proofs.Text.Digits
/-!
# What a bundler reads of the server program

The server program imports every route by its URL: the path of the route is percent
encoded, and the URL is written as a JSON text.  A bundler reads the imports back by
their shape alone and takes a text to end at the first quote of either kind, without
undoing what JSON escapes.  Two characters are not encoded and are read back otherwise
than they were written: a single quote, where the URL is cut, and a backslash, which is
doubled.  All other characters of a file name come back.

## Main results

* `mentions_entryProgram` — the imports of the program are those of its lines.
* `mentions_importLine` — what is read back of a line that imports a URL.
* `mem_moduleUrl_iff` — which of the two characters stand in the URL of a module.
* `routeImport_readBack` — an import of a route comes back as it was written exactly if its file
  has neither character in its name, and then the bundle holds that very route.
-/

namespace Waymark.Bundle

open Script

/-! ## The lines of the program -/

theorem endsLine_importLine (bindings url : String) :
    EndsLine (importLine bindings url).toList := by
  refine ⟨("import " ++ bindings ++ " from " ++ Json.quote url).toList, ?_⟩
  rw [importLine, String.toList_append]
  rfl

/-- Every line of the program ends in a semicolon. -/
theorem endsLine_entryLines {routes : List RouteExports} {entry : ServerEntry}
    {frameworkUrl origin line : String} (h : line ∈ entryLines routes entry frameworkUrl origin) :
    EndsLine line.toList := by
  have hback (front : String) {back : String} (h : back.toList.getLast? = some ';') :
      EndsLine (front ++ back).toList := by
    apply endsLine_of_getLast?
    rw [String.toList_append, List.getLast?_append, h]
    rfl
  unfold entryLines at h
  rcases List.mem_append.1 h with h | h
  · rcases List.mem_append.1 h with h | h
    · rcases List.mem_append.1 h with h | h
      · simp only [List.mem_cons, List.not_mem_nil, or_false] at h
        rcases h with rfl | rfl | rfl
        · exact endsLine_importLine ..
        · exact endsLine_importLine ..
        · apply endsLine_of_getLast?
          rw [String.toList_ofList]
          rfl
      · split at h
        · nomatch h
        · rw [List.mem_singleton.1 h]
          exact endsLine_importLine ..
    · obtain ⟨lines, hlines, h⟩ := List.mem_flatten.1 h
      obtain ⟨index, hindex, rfl⟩ := List.mem_mapIdx.1 hlines
      simp only [routeLines, List.mem_cons, List.not_mem_nil, or_false] at h
      rcases h with rfl | rfl | rfl
      · split
        · exact endsLine_importLine ..
        · exact hback _ rfl
      · split
        · exact endsLine_importLine ..
        · exact hback _ rfl
      · exact hback _ rfl
  · cases entry with
    | custom path =>
      rw [List.mem_singleton.1 h]
      exact hback _ rfl
    | standard =>
      simp only [serverLines, List.mem_cons, List.not_mem_nil, or_false] at h
      rcases h with rfl | rfl
      · exact endsLine_importLine ..
      · apply endsLine_of_getLast?
        rw [String.toList_ofList]
        rfl

/-- The imports of the program are those of its lines. -/
theorem mentions_entryProgram (routes : List RouteExports) (entry : ServerEntry)
    (frameworkUrl origin : String) :
    mentions (entryProgram routes entry frameworkUrl origin).toList =
      (entryLines routes entry frameworkUrl origin).flatMap fun line => mentions line.toList := by
  have hlist : (entryProgram routes entry frameworkUrl origin).toList = Text.joinPieces '\n'
      ((entryLines routes entry frameworkUrl origin).map String.toList) := by
    rw [entryProgram, String.toList_intercalate]
    exact Text.intercalate_eq_joinPieces '\n' _
  have hends : ∀ line ∈ (entryLines routes entry frameworkUrl origin).map String.toList,
      EndsLine line := by
    intro line hline
    obtain ⟨text, htext, rfl⟩ := List.mem_map.1 hline
    exact endsLine_entryLines htext
  rw [hlist, mentions_lines hends, List.flatMap_map]

/-! ## A line that imports a URL -/

/-- A text that can stand between the words of an import. -/
def IsClause (bindings : String) : Prop := ∀ c ∈ bindings.toList, inClause c = true

/-- A URL without controls and double quotes. -/
def IsPrintable (url : String) : Prop := ∀ c ∈ url.toList, 32 ≤ c.toNat ∧ c ≠ '"'

/-- What is read back of a URL that is written as a JSON text. -/
def readBack (url : String) : List Char :=
  (url.toList.flatMap Json.escapeChar).takeWhile (· ≠ '\'')

/-- A line that imports a URL, before and behind the URL. -/
theorem toList_importLine (bindings url : String) : (importLine bindings url).toList =
    importWord ++ (' ' :: bindings.toList ++ " from ".toList) ++
      '"' :: (url.toList.flatMap Json.escapeChar ++ ['"', ';']) := by
  unfold importLine Json.quote Json.quoteChars importWord
  rw [String.toList_append, String.toList_append, String.toList_append, String.toList_append,
    String.toList_ofList]
  simp [show ";".toList = [';'] from rfl]

theorem toList_lead (bindings : String) : ("import " ++ bindings ++ " from ").toList =
    importWord ++ (' ' :: bindings.toList ++ " from ".toList) := by
  rw [String.toList_append, String.toList_append,
    show "import ".toList = importWord ++ [' '] from rfl]
  simp

theorem trimEnd_from (front : List Char) :
    Text.trimEnd (front ++ " from ".toList) = front ++ [' '] ++ "from".toList := by
  have hreverse : (front ++ " from ".toList).reverse =
      ' ' :: 'm' :: (front ++ [' '] ++ "fro".toList).reverse := by simp
  unfold Text.trimEnd Text.dropEndWhile
  rw [hreverse, List.dropWhile_cons_of_pos (by decide), List.dropWhile_cons_of_neg (by decide)]
  simp

theorem endsInFrom_clause (bindings : List Char) :
    endsInFrom (' ' :: bindings ++ " from ".toList) = true := by
  have hlast : (' ' :: bindings ++ [' ']).getLast? = some ' ' := by
    rw [List.getLast?_append]
    rfl
  unfold endsInFrom
  rw [trimEnd_from, Text.dropSuffix?_append]
  dsimp only
  rw [hlast]
  decide

/-- An import of bindings is no call. -/
theorem kindOf_clause {m : Mention} {front : String} (h : m.lead = (front ++ " from ").toList) :
    kindOf m = .static := by
  have hsuffix : ¬['('] <:+ front.toList ++ [' '] ++ "from".toList := by
    rintro ⟨rest, hrest⟩
    have hlast := congrArg List.getLast? hrest
    rw [List.getLast?_append, List.getLast?_append] at hlast
    cases hlast
  have hdynamic : m.isDynamic = false := by
    rw [Mention.isDynamic, h, String.toList_append, trimEnd_from, Bool.eq_false_iff, Ne,
      List.isSuffixOf_iff_suffix]
    exact hsuffix
  rw [kindOf, hdynamic, if_neg Bool.false_ne_true]

/-- An import of bindings is read by its clause. -/
theorem mentionAt?_clause {bindings : String} (hbindings : IsClause bindings) (s : List Char)
    {found : Mention × List Char}
    (h : quoted? ("import " ++ bindings ++ " from ").toList ('"' :: s) = some found) :
    mentionAt? (importWord ++ (' ' :: bindings.toList ++ " from ".toList) ++ '"' :: s) =
      some found := by
  have hclause : ∀ c ∈ ' ' :: bindings.toList ++ " from ".toList, inClause c = true := by
    intro c hc
    rcases List.mem_append.1 hc with hc | hc
    · rcases List.mem_cons.1 hc with rfl | hc
      · decide
      · exact hbindings c hc
    · exact Text.forall_mem_of_all (P := (inClause · = true)) (by decide) c hc
  have htake : (' ' :: bindings.toList ++ " from ".toList ++ '"' :: s).takeWhile inClause =
      ' ' :: bindings.toList ++ " from ".toList := by
    rw [List.takeWhile_append_of_pos hclause, List.takeWhile_cons_of_neg (by decide),
      List.append_nil]
  have hdrop : (' ' :: bindings.toList ++ " from ".toList ++ '"' :: s).dropWhile inClause =
      '"' :: s := by
    rw [List.dropWhile_append_of_pos hclause, List.dropWhile_cons_of_neg (by decide)]
  have hhead : (!Text.isWordAt (' ' :: bindings.toList ++ " from ".toList ++ '"' :: s).head? &&
      ('"' :: s).head?.any isQuote && true) = true := rfl
  unfold mentionAt? clauseImport?
  rw [List.append_assoc, Text.isPrefixOf?_append]
  dsimp only
  rw [htake, hdrop, endsInFrom_clause, hhead, if_pos rfl, ← toList_lead, h]
  rfl

/-! ## A URL between quotes -/

/-- What a character of a printable URL is written as: the character itself, or two backslashes. -/
theorem escapeChar_of_printable {url : String} (h : IsPrintable url) {c : Char}
    (hc : c ∈ url.toList) :
    Json.escapeChar c = if c = '\\' then ['\\', '\\'] else [c] := by
  split
  · rename_i hslash
    subst hslash
    rfl
  · rename_i hslash
    exact Json.escapeChar_plain (h c hc).1 (h c hc).2 hslash

/-- The escaped text of a printable URL holds no other characters than the URL. -/
theorem mem_escaped {url : String} (h : IsPrintable url) {c : Char} :
    c ∈ url.toList.flatMap Json.escapeChar ↔ c ∈ url.toList := by
  have hone {d : Char} (hd : d ∈ url.toList) : c ∈ Json.escapeChar d ↔ c = d := by
    rw [escapeChar_of_printable h hd]
    split
    · rename_i hslash
      simp [hslash]
    · simp
  rw [List.mem_flatMap]
  constructor
  · rintro ⟨d, hd, hc⟩
    rw [(hone hd).1 hc]
    exact hd
  · exact fun hc => ⟨c, hc, (hone hc).2 rfl⟩

theorem inSpecifier_of_printable {url : String} (h : IsPrintable url) {c : Char}
    (hc : c ∈ url.toList) : inSpecifier c = decide (c ≠ '\'') := by
  obtain ⟨hsize, hquote⟩ := h c hc
  have hreturn : c ≠ '\r' := by rintro rfl; revert hsize; decide
  have hfeed : c ≠ '\n' := by rintro rfl; revert hsize; decide
  simp [inSpecifier, isQuote, hquote, hreturn, hfeed]

theorem takeWhile_congr_of_mem {α : Type} {p q : α → Bool} {s : List α}
    (h : ∀ c ∈ s, p c = q c) : s.takeWhile p = s.takeWhile q := by
  induction s with
  | nil => rfl
  | cons c s ih =>
    rw [List.takeWhile_cons, List.takeWhile_cons, h c (List.mem_cons_self ..),
      ih fun d hd => h d (List.mem_cons_of_mem _ hd)]

/-- The text of a printable URL is read up to its first single quote, or to its end. -/
theorem quoted?_escaped (lead : List Char) {url : String} (h : IsPrintable url)
    (hread : readBack url ≠ []) :
    ∃ close rest, quoted? lead ('"' :: (url.toList.flatMap Json.escapeChar ++ ['"', ';'])) =
        some (⟨lead, '"', readBack url, close⟩, rest) ∧
      ('\'' ∉ url.toList → close = '"' ∧ rest = [';']) := by
  have hmem (c : Char) : c ∈ url.toList.flatMap Json.escapeChar ↔ c ∈ url.toList := mem_escaped h
  unfold readBack at hread ⊢
  generalize url.toList.flatMap Json.escapeChar = escaped at hmem hread ⊢
  have hinside : ∀ c ∈ escaped, inSpecifier c = decide (c ≠ '\'') :=
    fun c hc => inSpecifier_of_printable h ((hmem c).1 hc)
  rw [← takeWhile_congr_of_mem hinside] at hread ⊢
  have htake : (escaped ++ ['"', ';']).takeWhile inSpecifier = escaped.takeWhile inSpecifier := by
    rw [List.takeWhile_append]
    split
    · rename_i hall
      rw [show ['"', ';'].takeWhile inSpecifier = [] from by decide, List.append_nil]
      exact ((List.takeWhile_prefix _).eq_of_length hall).symm
    · rfl
  have hfound {close : Char} {rest : List Char}
      (hdrop : (escaped ++ ['"', ';']).dropWhile inSpecifier = close :: rest)
      (hclose : isQuote close = true) : quoted? lead ('"' :: (escaped ++ ['"', ';'])) =
        some (⟨lead, '"', escaped.takeWhile inSpecifier, close⟩, rest) := by
    unfold quoted?
    dsimp only
    rw [hdrop, htake]
    dsimp only
    rw [hclose, if_pos (by simp [hread, show isQuote '"' = true from rfl])]
  cases hdrop : escaped.dropWhile inSpecifier with
  | nil =>
    refine ⟨'"', [';'], hfound ?_ rfl, fun _ => ⟨rfl, rfl⟩⟩
    rw [List.dropWhile_append, hdrop, List.isEmpty_nil, if_pos rfl]
    decide
  | cons c more =>
    -- what stops the reader within the URL is a single quote
    have hin : c ∈ escaped := (List.dropWhile_suffix _).subset (hdrop ▸ List.mem_cons_self ..)
    have hstops := List.head?_dropWhile_not inSpecifier escaped
    rw [hdrop] at hstops
    obtain rfl : c = '\'' := by
      have hnot : inSpecifier c = false := by simpa using hstops
      rw [hinside c hin] at hnot
      simpa using hnot
    refine ⟨'\'', more ++ ['"', ';'], hfound ?_ rfl, fun hnone => absurd ((hmem _).1 hin) hnone⟩
    rw [List.dropWhile_append, hdrop, List.isEmpty_cons, if_neg Bool.false_ne_true]
    rfl

/-- What is read back of a line that imports a URL: one import that holds what is read back of the
URL, and whatever may stand behind it. -/
theorem mentions_importLine {bindings url : String} (hbindings : IsClause bindings)
    (hurl : IsPrintable url) (hread : readBack url ≠ []) :
    ∃ close others, mentions (importLine bindings url).toList =
        ⟨("import " ++ bindings ++ " from ").toList, '"', readBack url, close⟩ :: others ∧
      ('\'' ∉ url.toList → close = '"' ∧ others = []) := by
  obtain ⟨close, rest, hquoted, hlast⟩ :=
    quoted?_escaped ("import " ++ bindings ++ " from ").toList hurl hread
  have hfound : mentionAfter? none (importLine bindings url).toList =
      some (⟨("import " ++ bindings ++ " from ").toList, '"', readBack url, close⟩, rest) := by
    have hnone : Text.isWordAt none = false := by decide
    rw [toList_importLine, mentionAfter?, hnone, if_neg Bool.false_ne_true]
    exact mentionAt?_clause hbindings _ hquoted
  refine ⟨close, (scanFrom (some close) rest).filterMap Piece.mention?, ?_, ?_⟩
  · unfold mentions scan
    cases hline : (importLine bindings url).toList with
    | nil =>
      rw [hline] at hfound
      nomatch hfound
    | cons c line =>
      rw [hline] at hfound
      rw [scanFrom]
      split
      · rename_i heq
        obtain ⟨rfl, rfl⟩ := Prod.mk.inj (Option.some.inj (hfound.symm.trans heq))
        rfl
      · rename_i heq
        rw [hfound] at heq
        cases heq
  · intro hnone
    obtain ⟨rfl, rfl⟩ := hlast hnone
    have hrest : scanFrom (some '"') [';'] = [.char ';'] := by
      rw [scanFrom]
      split
      · rename_i heq
        cases (show mentionAfter? (some '"') [';'] = none from by decide).symm.trans heq
      · rw [scanFrom]
    rw [hrest]
    exact ⟨rfl, rfl⟩

/-! ## The URL of a route -/

/-- What is read back is the URL exactly if neither of the two characters is in it. -/
theorem readBack_eq_iff {url : String} (h : IsPrintable url) :
    readBack url = url.toList ↔ '\'' ∉ url.toList ∧ '\\' ∉ url.toList := by
  constructor
  · intro heq
    have hquote : '\'' ∉ url.toList := by
      intro hmem
      rw [← heq] at hmem
      simpa using List.mem_takeWhile_imp hmem
    refine ⟨hquote, ?_⟩
    have hall : readBack url = url.toList.flatMap Json.escapeChar := by
      refine List.takeWhile_eq_self_iff.2 fun c hc => ?_
      have hne : c ≠ '\'' := fun hc' => hquote (hc' ▸ (mem_escaped h).1 hc)
      simpa using hne
    rw [hall] at heq
    -- a backslash is doubled, so that the text would be longer
    have hcount (s : List Char) (hs : ∀ c ∈ s, c ∈ url.toList) :
        (s.flatMap Json.escapeChar).length = s.length + s.count '\\' := by
      induction s with
      | nil => rfl
      | cons c s ih =>
        rw [List.flatMap_cons, List.length_append, ih fun d hd => hs d (List.mem_cons_of_mem _ hd),
          escapeChar_of_printable h (hs c (List.mem_cons_self ..)), List.length_cons]
        split
        · rename_i hslash
          rw [hslash, List.count_cons_self]
          simp only [List.length_cons, List.length_nil]
          omega
        · rename_i hslash
          rw [List.count_cons_of_ne hslash]
          simp only [List.length_cons, List.length_nil]
          omega
    have hlength := congrArg List.length heq
    rw [hcount url.toList fun _ => id] at hlength
    exact List.count_eq_zero.1 (by omega)
  · rintro ⟨hquote, hslash⟩
    have hall : url.toList.flatMap Json.escapeChar = url.toList := by
      have hone : ∀ c ∈ url.toList, Json.escapeChar c = [c] := by
        intro c hc
        rw [escapeChar_of_printable h hc, if_neg]
        rintro rfl
        exact hslash hc
      rw [List.flatMap_congr hone, List.flatMap_singleton']
    unfold readBack
    rw [hall]
    refine List.takeWhile_eq_self_iff.2 fun c hc => ?_
    have hne : c ≠ '\'' := fun hc' => hquote (hc' ▸ hc)
    simpa using hne

/-- The characters of the origin of an app's module server. -/
theorem mem_modulesOrigin {app : App} {c : Char} (h : c ∈ app.modulesOrigin.toList) :
    c ∈ "http://localhost:".toList ∨ ∃ d < 10, c = Nat.digitChar d := by
  unfold App.modulesOrigin at h
  rw [String.toList_append] at h
  rcases List.mem_append.1 h with h | h
  · exact Or.inl h
  · right
    have hdigits : (toString app.port.toNat).toList = Nat.toDigits 10 app.port.toNat := by
      simp [toString, Nat.repr]
    rw [hdigits] at h
    exact exists_of_mem_toDigits (by decide) h

/-- The URL of a module on its app's own module server is printable. -/
theorem isPrintable_moduleUrl (app : App) (s : Specifier) :
    IsPrintable (moduleUrl app.modulesOrigin s) := by
  intro c hc
  unfold moduleUrl at hc
  rw [String.toList_append] at hc
  rcases List.mem_append.1 hc with hc | hc
  · rcases mem_modulesOrigin hc with hc | ⟨d, hd, rfl⟩
    · exact Text.forall_mem_of_all (P := fun c => 32 ≤ c.toNat ∧ c ≠ '"') (by decide) c hc
    · have hdigits : ∀ d < 10, 32 ≤ (Nat.digitChar d).toNat ∧ Nat.digitChar d ≠ '"' := by decide
      exact hdigits d hd
  · rw [Specifier.encodePath, String.toList_ofList] at hc
    rcases Percent.mem_encodeWith hc with ⟨-, hkept⟩ | rfl | ⟨n, hn, rfl⟩
    · have hkeeps := (Bool.and_eq_true_iff.1 hkept).2
      simp only [Specifier.keepsInPath, Percent.isControl, Bool.not_eq_true', Bool.or_eq_false_iff,
        decide_eq_false_iff_not] at hkeeps
      refine ⟨Nat.not_lt.1 hkeeps.1.1, ?_⟩
      rintro rfl
      exact hkeeps.2 (by decide)
    · decide
    · have hdigits : ∀ n < 16, 32 ≤ (Percent.hexDigit n).toNat ∧ Percent.hexDigit n ≠ '"' := by
        decide
      exact hdigits n hn

/-- A character that is kept in paths stands in a path below the root exactly if it stands in the
specifier. -/
theorem mem_urlPath_iff {c : Char} (hslash : c ≠ '/') (hdot : c ≠ '.') {s : Specifier} :
    c ∈ (Specifier.urlPath s).toList ↔ c ∈ s.toList := by
  refine ⟨fun h => by_contra fun hnot => Specifier.notMem_urlPath hslash hnot h, ?_⟩
  intro h
  have hrest {rest : List Char} (hs : s.toList = '.' :: rest) : c ∈ rest :=
    (List.mem_cons.1 (hs ▸ h)).resolve_left hdot
  unfold Specifier.urlPath
  dsimp only
  split
  · rw [String.toList_ofList]
    split
    · rename_i hs
      exact hrest hs
    · exact h
  · rw [String.toList_ofList]
    apply List.mem_cons_of_mem
    split
    · rename_i hs
      exact hrest hs
    · exact h

/-- One of the two characters stands in the URL of a module exactly if it stands in its name. -/
theorem mem_moduleUrl_iff {c : Char} (h : c = '\'' ∨ c = '\\') (app : App) (s : Specifier) :
    c ∈ (moduleUrl app.modulesOrigin s).toList ↔ c ∈ s.toList := by
  have hkept : (c.toNat < 128 && Specifier.keepsInPath c) = true ∧ c ≠ '/' ∧ c ≠ '.' ∧ c ≠ '%' ∧
      c ∉ "http://localhost:".toList ∧ (∀ d < 10, c ≠ Nat.digitChar d) ∧
        ∀ n < 16, c ≠ Percent.hexDigit n := by
    rcases h with rfl | rfl
    · decide
    · decide
  obtain ⟨hkeeps, hslash, hdot, hpercent, horigin, hdigit, hhex⟩ := hkept
  have hpath : c ∈ (Specifier.urlPath s).toList ↔ c ∈ s.toList := mem_urlPath_iff hslash hdot
  rw [moduleUrl, String.toList_append, List.mem_append, ← hpath, Specifier.encodePath,
    String.toList_ofList]
  constructor
  · rintro (hc | hc)
    · rcases mem_modulesOrigin hc with hc | ⟨d, hd, hc⟩
      · exact absurd hc horigin
      · exact absurd hc (hdigit d hd)
    · rcases Percent.mem_encodeWith hc with ⟨hmem, -⟩ | hc | ⟨n, hn, hc⟩
      · exact hmem
      · exact absurd hc hpercent
      · exact absurd hc (hhex n hn)
  · intro hc
    right
    unfold Percent.encodeWith
    exact List.mem_flatMap.2 ⟨c, hc, by rw [if_pos hkeeps]; exact List.mem_singleton_self c⟩

/-- Something is read back of the URL of a module, whatever its name is. -/
theorem readBack_moduleUrl_ne_nil (app : App) (s : Specifier) :
    readBack (moduleUrl app.modulesOrigin s) ≠ [] := by
  obtain ⟨rest, hrest⟩ : ∃ rest, (moduleUrl app.modulesOrigin s).toList = 'h' :: rest := by
    unfold moduleUrl App.modulesOrigin
    rw [String.toList_append, String.toList_append,
      show "http://localhost:".toList = 'h' :: "ttp://localhost:".toList from rfl,
      List.cons_append, List.cons_append]
    exact ⟨_, rfl⟩
  unfold readBack
  rw [hrest, List.flatMap_cons, show Json.escapeChar 'h' = ['h'] from by decide,
    List.singleton_append, List.takeWhile_cons_of_pos (by decide)]
  exact List.cons_ne_nil _ _

/-- The bundle holds the module that the program imports by its URL, unless the import map has
another one for this URL. -/
theorem resolve_moduleUrl {app : App} {s : Specifier}
    (hmap : app.pipeline.importMap.resolve (moduleUrl app.modulesOrigin s) none = none)
    {kind : ImportKind} (hkind : kind ≠ .dynamic) :
    (Build.policyOf app).resolve ⟨moduleUrl app.modulesOrigin s, none, .file, kind⟩ =
      .resolved (moduleUrl app.modulesOrigin s) .http := by
  obtain ⟨path, hpath⟩ := Specifier.exists_urlPath s
  obtain ⟨rest, hrest⟩ := Specifier.exists_encodePath hpath
  have hremote : Specifier.isRemote (moduleUrl app.modulesOrigin s) = true := by
    have hfront : "http://".toList.isPrefixOf (moduleUrl app.modulesOrigin s).toList = true := by
      unfold moduleUrl App.modulesOrigin
      rw [String.toList_append, String.toList_append,
        show "http://localhost:".toList = "http://".toList ++ "localhost:".toList from rfl,
        List.append_assoc, List.append_assoc]
      exact List.isPrefixOf_iff_prefix.2 (List.prefix_append _ _)
    unfold Specifier.isRemote
    rw [hfront, Bool.or_true]
  have hnohash : '#' ∉ (moduleUrl app.modulesOrigin s).toList := by
    intro hmem
    rw [moduleUrl, String.toList_append] at hmem
    rcases List.mem_append.1 hmem with hmem | hmem
    · rcases mem_modulesOrigin hmem with hmem | ⟨d, hd, hmem⟩
      · revert hmem
        decide
      · have hdigits : ∀ d < 10, '#' ≠ Nat.digitChar d := by decide
        exact hdigits d hd hmem
    · rw [Specifier.encodePath, String.toList_ofList] at hmem
      exact Percent.notMem_encodeWith (by decide) (by decide) (by decide) _ hmem
  have hbefore : Text.before '#' (moduleUrl app.modulesOrigin s).toList =
      (moduleUrl app.modulesOrigin s).toList := by
    refine List.takeWhile_eq_self_iff.2 fun c hc => decide_eq_true ?_
    rintro rfl
    exact hnohash hc
  have hmapped : (Build.policyOf app).mappedPath ⟨moduleUrl app.modulesOrigin s, none, .file, kind⟩ =
      moduleUrl app.modulesOrigin s := by
    show String.ofList (Text.before '#' (if Specifier.isRemote ((app.pipeline.importMap.resolve
      (moduleUrl app.modulesOrigin s) none).getD (moduleUrl app.modulesOrigin s)) then _ else _)) = _
    rw [hmap, Option.getD_none, if_pos hremote]
    show String.ofList (Text.before '#' ((app.pipeline.importMap.resolve
      (moduleUrl app.modulesOrigin s) none).getD (moduleUrl app.modulesOrigin s)).toList) = _
    rw [hmap, Option.getD_none, hbefore, String.ofList_toList]
  have hinline : (Build.policyOf app).mustInline (moduleUrl app.modulesOrigin s) = true := by
    have hown : (app.modulesOrigin ++ "/").toList <+: (moduleUrl app.modulesOrigin s).toList := by
      rw [moduleUrl, String.toList_append, String.toList_append, hrest]
      exact (List.prefix_append_right_inj _).2 ⟨rest, rfl⟩
    unfold Policy.mustInline
    rw [show (Build.policyOf app).modulesOrigin = app.modulesOrigin from rfl,
      List.isPrefixOf_iff_prefix.2 hown, Bool.or_true]
  unfold Policy.resolve
  dsimp only
  rw [hmapped, if_neg hkind]
  show (if Specifier.isRemote ((app.pipeline.importMap.resolve (moduleUrl app.modulesOrigin s)
    none).getD (moduleUrl app.modulesOrigin s)) then _ else _) = _
  rw [hmap, Option.getD_none, if_pos hremote, if_pos hinline]

/-! ## The imports of routes -/

/-- The bindings that the program imports of the route at an index. -/
def routeBindings (index : Nat) (r : RouteExports) : List String :=
  (if "default" ∈ r.exports then ["_" ++ toString index] else []) ++
    (if "data" ∈ r.exports then [inBraces ("data as $" ++ toString index)] else [])

theorem isClause_routeBindings {index : Nat} {r : RouteExports} {bindings : String}
    (h : bindings ∈ routeBindings index r) : IsClause bindings := by
  have hdigits : ∀ c ∈ (toString index).toList, inClause c = true := by
    intro c hc
    have hlist : (toString index).toList = Nat.toDigits 10 index := by simp [toString, Nat.repr]
    rw [hlist] at hc
    obtain ⟨d, hd, rfl⟩ := exists_of_mem_toDigits (by decide) hc
    have hall : ∀ d < 10, inClause (Nat.digitChar d) = true := by decide
    exact hall d hd
  have hfront : ∀ c ∈ (openBrace ++ " " ++ "data as $").toList, inClause c = true :=
    Text.forall_mem_of_all (by decide)
  have hback : ∀ c ∈ (" " ++ closeBrace).toList, inClause c = true :=
    Text.forall_mem_of_all (by decide)
  unfold routeBindings at h
  intro c hc
  rcases List.mem_append.1 h with h | h
  · split at h
    · rw [List.mem_singleton.1 h, String.toList_append] at hc
      rcases List.mem_append.1 hc with hc | hc
      · rw [List.mem_singleton.1 (show c ∈ ['_'] from hc)]
        decide
      · exact hdigits c hc
    · nomatch h
  · split at h
    · have hparts : bindings.toList = (openBrace ++ " " ++ "data as $").toList ++
          (toString index).toList ++ (" " ++ closeBrace).toList := by
        rw [List.mem_singleton.1 h, inBraces]
        simp only [String.toList_append, List.append_assoc]
      rw [hparts] at hc
      rcases List.mem_append.1 hc with hc | hc
      · rcases List.mem_append.1 hc with hc | hc
        · exact hfront c hc
        · exact hdigits c hc
      · exact hback c hc
    · nomatch h

/-- The program has a line for each import of a route. -/
theorem mem_entryLines {routes : List RouteExports} {index : Nat} {r : RouteExports}
    (hr : routes[index]? = some r) {bindings : String} (h : bindings ∈ routeBindings index r)
    (entry : ServerEntry) (frameworkUrl origin : String) :
    importLine bindings (moduleUrl origin r.filename) ∈
      entryLines routes entry frameworkUrl origin := by
  have hlines : routeLines origin index r ∈
      routes.mapIdx fun index r => routeLines origin index r := by
    obtain ⟨hindex, rfl⟩ := List.getElem?_eq_some_iff.1 hr
    exact List.mem_mapIdx.2 ⟨index, hindex, rfl⟩
  have hline : importLine bindings (moduleUrl origin r.filename) ∈ routeLines origin index r := by
    unfold routeBindings at h
    unfold routeLines
    dsimp only
    rcases List.mem_append.1 h with h | h
    · split at h
      · rename_i hdefault
        rw [List.mem_singleton.1 h, if_pos hdefault]
        exact List.mem_cons_self ..
      · nomatch h
    · split at h
      · rename_i hdata
        rw [List.mem_singleton.1 h, if_pos hdata]
        exact List.mem_cons_of_mem _ (List.mem_cons_self ..)
      · nomatch h
  unfold entryLines
  exact List.mem_append_left _ (List.mem_append_right _ (List.mem_flatten.2 ⟨_, hlines, hline⟩))

/-- Each import that the server program has for a route stands in a line of its own, and of this
line an import with the same bindings is read back.  Its specifier is the URL of the route, cut
before the first single quote and with its backslashes doubled, so it is that URL exactly if the
file has neither character in its name.  Then nothing else is read of the line, and the bundle holds
the route, unless the import map has another module for this URL. -/
theorem routeImport_readBack (app : App) {routes : List RouteExports} {index : Nat}
    {r : RouteExports} (hr : routes[index]? = some r) {bindings : String}
    (hbindings : bindings ∈ routeBindings index r) (entry : ServerEntry) :
    let url := moduleUrl app.modulesOrigin r.filename
    let program := entryProgram routes entry app.config.frameworkUrl app.modulesOrigin
    ∃ m others front back,
      mentions (importLine bindings url).toList = m :: others ∧
      mentions program.toList = front ++ (m :: others) ++ back ∧
      m.lead = ("import " ++ bindings ++ " from ").toList ∧ m.specifier = readBack url ∧
      (m.specifier = url.toList ↔ '\'' ∉ r.filename.toList ∧ '\\' ∉ r.filename.toList) ∧
      (m.specifier = url.toList → others = [] ∧
        (app.pipeline.importMap.resolve url none = none →
          (Build.policyOf app).resolve (Pending.request ⟨bundleFile, program, none, .file⟩ m) =
            .resolved url .http)) := by
  intro url program
  have hprintable := isPrintable_moduleUrl app r.filename
  obtain ⟨close, others, hline, hlast⟩ := mentions_importLine (isClause_routeBindings hbindings)
    hprintable (readBack_moduleUrl_ne_nil app r.filename)
  obtain ⟨before, after, hlines⟩ := List.append_of_mem
    (mem_entryLines hr hbindings entry app.config.frameworkUrl app.modulesOrigin)
  have hback := readBack_eq_iff hprintable
  refine ⟨_, others, before.flatMap fun line => mentions line.toList,
    after.flatMap fun line => mentions line.toList, hline, ?_, rfl, rfl, ?_, ?_⟩
  · rw [mentions_entryProgram, hlines, List.flatMap_append, List.flatMap_cons, hline,
      List.append_assoc]
  · rw [← mem_moduleUrl_iff (Or.inl rfl) app, ← mem_moduleUrl_iff (Or.inr rfl) app]
    exact hback
  · intro hsame
    obtain ⟨rfl, hothers⟩ := hlast (hback.1 hsame).1
    refine ⟨hothers, fun hmap => ?_⟩
    have hstatic : kindOf ⟨("import " ++ bindings ++ " from ").toList, '"', readBack url, '"'⟩ ≠
        .dynamic := by
      rw [kindOf_clause rfl]
      nofun
    have hpath : String.ofList (readBack url) = url := by
      rw [show readBack url = url.toList from hsame, String.ofList_toList]
    show (Build.policyOf app).resolve ⟨String.ofList (readBack url), none, .file, _⟩ = _
    rw [hpath]
    exact resolve_moduleUrl hmap hstatic

/-- The import of a route with a blank in its name is read back, and the bundle holds the route. -/
theorem routeImport_readBack_blank :
    let app := Build.pagesApp "dist" {}
    let url := "http://localhost:3000/routes/about%20us.tsx"
    ∃ m ∈ mentions (entryProgram [⟨"./routes/about us.tsx", ["default"]⟩] .standard
        app.config.frameworkUrl app.modulesOrigin).toList,
      m.lead = "import _0 from ".toList ∧ String.ofList m.specifier = url ∧
        ∃ r, (Build.policyOf app).resolve r = .resolved url .http := by
  intro app url
  have hurl : moduleUrl app.modulesOrigin "./routes/about us.tsx" = url := by decide +kernel
  have hmap : app.pipeline.importMap.resolve url none = none := by decide +kernel
  obtain ⟨m, others, front, back, -, hprogram, hlead, -, hsame, hresolve⟩ :=
    routeImport_readBack app (show [⟨"./routes/about us.tsx", ["default"]⟩][0]? = some _ from rfl)
      (show "_0" ∈ routeBindings 0 ⟨"./routes/about us.tsx", ["default"]⟩ by decide) .standard
  rw [hurl] at hsame hresolve
  have hspecifier := hsame.2 (by decide)
  refine ⟨m, ?_, hlead, ?_, _, (hresolve hspecifier).2 hmap⟩
  · rw [hprogram]
    simp
  · rw [hspecifier, String.ofList_toList]

/-- No import of a route with a single quote in its name is read back. -/
theorem routeImport_cut :
    ¬∀ (app : App) (routes : List RouteExports) (entry : ServerEntry) (index : Nat)
      (r : RouteExports) (bindings : String), routes[index]? = some r →
      bindings ∈ routeBindings index r →
      ∃ m ∈ mentions (entryProgram routes entry app.config.frameworkUrl app.modulesOrigin).toList,
        m.lead = ("import " ++ bindings ++ " from ").toList ∧
          String.ofList m.specifier = moduleUrl app.modulesOrigin r.filename := by
  intro h
  obtain ⟨m, hm, -, hspecifier⟩ := h (Build.pagesApp "dist" {})
    [⟨"./routes/it's.tsx", ["default"]⟩] .standard 0 _ "_0" rfl (by decide)
  have hquote : '\'' ∈ m.specifier := by
    rw [← String.toList_ofList (l := m.specifier), hspecifier]
    exact (mem_moduleUrl_iff (Or.inl rfl) _ _).2 (by decide)
  cases inSpecifier_of_mem_mentions hm hquote

end Waymark.Bundle
