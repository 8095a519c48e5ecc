import Waymark.Proofs.Route.Filled
import Waymark.Route.Files
/-!
# Route files named by convention

The segments of a route file's name are literals and parameters, written `[name]`,
`$name` or `[...name]`.  Each of them is rewritten by itself to a piece of a pattern,
whatever follows it (`segmentPattern_text`): so the extension of the last one stays where
it is until it is cut off, and a last literal `index` is dropped behind it.  The pieces,
joined to a path and read again, are the segments that were meant.

## Main results

* `segmentPattern_text` — a segment of a file name is rewritten in front of anything.
* `segments_joined` — pieces of a pattern are read back from its path.
* `pattern?_below` — the pattern of a file that is named by convention.
* `files_match_fillings` — it has the segments of the name, and binds what fills them.
-/

namespace Waymark

namespace Text

theorem replaceFirst_append {c : Char} {a : List Char} (h : c ∉ a) (u b : List Char) :
    replaceFirst c u (a ++ c :: b) = a ++ u ++ b := by
  rw [replaceFirst, cut_append b h]

theorem dropSuffix?_of_notMem {c : Char} {s : List Char} (h : c ∉ s) :
    dropSuffix? [c] s = none := by
  have hnot : ¬[c] <+: s.reverse := fun hprefix =>
    h (List.mem_reverse.1 (List.IsPrefix.subset hprefix (List.mem_singleton_self c)))
  rw [dropSuffix?, List.reverse_singleton, isPrefixOf?_eq_none hnot, Option.map_none]

theorem joinPieces_concat_append (d : Char) (as : List (List Char)) (b e : List Char) :
    joinPieces d (as ++ [b]) ++ e = joinPieces d (as ++ [b ++ e]) := by
  rw [joinPieces_append d as (List.cons_ne_nil b []),
    joinPieces_append d as (List.cons_ne_nil (b ++ e) []), List.append_assoc]
  rfl

end Text

namespace RouteFiles

open RoutePattern (Segment)

/-! ## Conventions -/

/-- A segment of a file name. -/
inductive Convention where
  | literal (text : String)
  /-- A parameter written `[name]`. -/
  | bracket (name : String)
  /-- A parameter written `$name`. -/
  | dollar (name : String)
  /-- A catch-all, written `[...name]`. -/
  | rest (name : String)
  deriving DecidableEq

/-- Whether a text can be the name of a parameter. -/
structure IsParamName (name : String) : Prop where
  ne_empty : name ≠ ""
  chars : ∀ c ∈ name.toList, (c.isAlphanum || c = '_') = true

namespace Convention

/-- The segment as it stands in the name of a file. -/
def text : Convention → List Char
  | .literal text => text.toList
  | .bracket name => '[' :: name.toList ++ [']']
  | .dollar name => '$' :: name.toList
  | .rest name => catchAllMark ++ name.toList ++ [']']

/-- The segment of a pattern that is meant by it. -/
def segment : Convention → Segment
  | .literal text => .literal text
  | .bracket name => .param name
  | .dollar name => .param name
  | .rest name => .catchAll name

/-- The segment as it stands in the path of a pattern. -/
def piece : Convention → List Char
  | .literal text => text.toList
  | .bracket name => ':' :: name.toList
  | .dollar name => ':' :: name.toList
  | .rest name => ':' :: name.toList ++ ['+']

/-- Whether a segment is named by convention: a literal is a name but for a dot, and does not
begin as a parameter does. -/
def IsWell : Convention → Prop
  | .literal text => Disk.IsName text ∧ text ≠ "." ∧ ∀ c ∈ text.toList.head?, c ∉ ['[', '$', ':']
  | .bracket name => IsParamName name
  | .dollar name => IsParamName name
  | .rest name => IsParamName name

end Convention

theorem IsParamName.notMem {name : String} (h : IsParamName name) {c : Char}
    (hc : (c.isAlphanum || c = '_') = false) : c ∉ name.toList := by
  intro hmem
  have htrue := h.chars c hmem
  rw [hc] at htrue
  cases htrue

theorem IsParamName.exists_cons {name : String} (h : IsParamName name) :
    ∃ c s, name.toList = c :: s := by
  apply List.exists_cons_of_ne_nil
  exact fun hnil => h.ne_empty (String.toList_eq_nil_iff.1 hnil)

theorem catchAllMark_eq : catchAllMark = ['[', '.', '.', '.'] := by decide

/-- A literal is rewritten to itself. -/
theorem segmentPattern_literal {text : String} (h : (Convention.literal text).IsWell)
    (more : List Char) : segmentPattern (text.toList ++ more) = text.toList ++ more := by
  obtain ⟨hname, -, hhead⟩ := h
  obtain ⟨c, s, hs⟩ := List.exists_cons_of_ne_nil
    (fun hnil => hname.ne_empty (String.toList_eq_nil_iff.1 hnil))
  have hc : c ∉ ['[', '$', ':'] := hhead c (by rw [hs]; rfl)
  apply segmentPattern_plain
  · rw [hs, List.cons_append, List.head?_cons]
    rintro ⟨⟩
    exact hc (by decide)
  · rw [hs, List.cons_append, List.head?_cons]
    rintro ⟨⟩
    exact hc (by decide)

/-- A parameter in brackets does not begin as a catch-all. -/
theorem segmentPattern_bracket {name : String} (h : IsParamName name) (more : List Char) :
    segmentPattern ('[' :: (name.toList ++ ']' :: more)) = ':' :: (name.toList ++ more) := by
  obtain ⟨c, s, hs⟩ := h.exists_cons
  have hnot : ¬catchAllMark.isPrefixOf ('[' :: (name.toList ++ ']' :: more)) = true := by
    intro hmark
    obtain ⟨tail, htail⟩ := List.isPrefixOf_iff_prefix.1 hmark
    rw [catchAllMark_eq, hs] at htail
    have hdot : '.' = c := (List.cons.inj (List.cons.inj htail).2).1
    exact h.notMem (c := '.') (by decide) (by rw [hs, hdot]; exact List.mem_cons_self ..)
  have hbracket : ['['].isPrefixOf ('[' :: (name.toList ++ ']' :: more)) = true ∧
      ']' ∈ '[' :: (name.toList ++ ']' :: more) ∧
      2 < ('[' :: (name.toList ++ ']' :: more)).length := by
    refine ⟨List.isPrefixOf_iff_prefix.2 (List.prefix_append ['['] _), by simp, ?_⟩
    rw [hs]
    simp only [List.length_cons, List.length_append]
    omega
  rw [segmentPattern, if_neg (fun hall => hnot hall.1), if_pos hbracket]
  have hdrop : ('[' :: (name.toList ++ ']' :: more)).drop 1 = name.toList ++ ']' :: more := rfl
  rw [hdrop, Text.replaceFirst_append (h.notMem (by decide)), List.append_nil]

theorem segmentPattern_rest {name : String} (h : IsParamName name) (more : List Char) :
    segmentPattern (catchAllMark ++ (name.toList ++ ']' :: more)) =
      ':' :: (name.toList ++ '+' :: more) := by
  obtain ⟨c, s, hs⟩ := h.exists_cons
  have hmark : catchAllMark.isPrefixOf (catchAllMark ++ (name.toList ++ ']' :: more)) = true ∧
      ']' ∈ catchAllMark ++ (name.toList ++ ']' :: more) ∧
      5 < (catchAllMark ++ (name.toList ++ ']' :: more)).length := by
    refine ⟨List.isPrefixOf_iff_prefix.2 (List.prefix_append _ _), by simp, ?_⟩
    rw [hs, catchAllMark_eq]
    simp only [List.length_cons, List.length_append]
    omega
  rw [segmentPattern, if_pos hmark]
  have hdrop : (catchAllMark ++ (name.toList ++ ']' :: more)).drop 4 = name.toList ++ ']' :: more :=
    List.drop_left' (by decide)
  rw [hdrop, Text.replaceFirst_append (h.notMem (by decide)), List.append_assoc]
  rfl

theorem segmentPattern_dollar {name : String} (h : IsParamName name) (more : List Char) :
    segmentPattern ('$' :: (name.toList ++ more)) = ':' :: (name.toList ++ more) := by
  obtain ⟨c, s, hs⟩ := h.exists_cons
  have hmark : ¬catchAllMark.isPrefixOf ('$' :: (name.toList ++ more)) = true := by
    intro hmark
    obtain ⟨tail, htail⟩ := List.isPrefixOf_iff_prefix.1 hmark
    rw [catchAllMark_eq] at htail
    exact absurd (List.cons.inj htail).1 (by decide)
  have hbracket : ¬['['].isPrefixOf ('$' :: (name.toList ++ more)) = true := by
    intro hmark
    obtain ⟨tail, htail⟩ := List.isPrefixOf_iff_prefix.1 hmark
    exact absurd (List.cons.inj htail).1 (by decide)
  have hdollar : ['$'].isPrefixOf ('$' :: (name.toList ++ more)) = true ∧
      1 < ('$' :: (name.toList ++ more)).length := by
    refine ⟨List.isPrefixOf_iff_prefix.2 (List.prefix_append ['$'] _), ?_⟩
    rw [hs]
    simp only [List.length_cons, List.length_append]
    omega
  rw [segmentPattern, if_neg (fun hall => hmark hall.1), if_neg (fun hall => hbracket hall.1),
    if_pos hdollar]
  rfl

/-- A segment of a file name is rewritten to a piece of a pattern, in front of anything. -/
theorem segmentPattern_text {c : Convention} (h : c.IsWell) (more : List Char) :
    segmentPattern (c.text ++ more) = c.piece ++ more := by
  cases c with
  | literal text => exact segmentPattern_literal h more
  | bracket name =>
    have htext : (Convention.bracket name).text ++ more = '[' :: (name.toList ++ ']' :: more) := by
      simp [Convention.text]
    rw [htext, segmentPattern_bracket h]
    rfl
  | dollar name => exact segmentPattern_dollar h more
  | rest name =>
    have htext : (Convention.rest name).text ++ more =
        catchAllMark ++ (name.toList ++ ']' :: more) := by
      simp [Convention.text]
    rw [htext, segmentPattern_rest h]
    simp [Convention.piece]

/-! ## Pieces of a pattern -/

/-- A piece of a pattern is read as the segment that is meant. -/
theorem ofPiece_piece {c : Convention} (h : c.IsWell) : Segment.ofPiece c.piece = c.segment := by
  cases c with
  | literal text =>
    obtain ⟨-, -, hhead⟩ := h
    show Segment.ofPiece text.toList = .literal text
    unfold Segment.ofPiece
    split
    · rename_i name hname
      exact absurd (hhead ':' (by rw [hname]; rfl)) (by decide)
    · rw [String.ofList_toList]
  | bracket name =>
    show Segment.ofPiece (':' :: name.toList) = .param name
    rw [Segment.ofPiece, Text.dropSuffix?_of_notMem (h.notMem (by decide)), String.ofList_toList]
  | dollar name =>
    show Segment.ofPiece (':' :: name.toList) = .param name
    rw [Segment.ofPiece, Text.dropSuffix?_of_notMem (h.notMem (by decide)), String.ofList_toList]
  | rest name =>
    show Segment.ofPiece (':' :: (name.toList ++ ['+'])) = .catchAll name
    rw [Segment.ofPiece, Text.dropSuffix?_append]
    exact congrArg Segment.catchAll String.ofList_toList

theorem piece_ne_nil {c : Convention} (h : c.IsWell) : c.piece ≠ [] := by
  cases c with
  | literal text => exact fun hnil => h.1.ne_empty (String.toList_eq_nil_iff.1 hnil)
  | bracket name => exact List.cons_ne_nil _ _
  | dollar name => exact List.cons_ne_nil _ _
  | rest name => exact List.cons_ne_nil _ _

theorem slash_notMem_piece {c : Convention} (h : c.IsWell) : '/' ∉ c.piece := by
  cases c with
  | literal text => exact h.1.noSlash
  | bracket name => simpa [Convention.piece] using h.notMem (c := '/') (by decide)
  | dollar name => simpa [Convention.piece] using h.notMem (c := '/') (by decide)
  | rest name => simpa [Convention.piece] using h.notMem (c := '/') (by decide)

theorem slash_notMem_text {c : Convention} (h : c.IsWell) : '/' ∉ c.text := by
  cases c with
  | literal text => exact h.1.noSlash
  | bracket name => simpa [Convention.text] using h.notMem (c := '/') (by decide)
  | dollar name => simpa [Convention.text] using h.notMem (c := '/') (by decide)
  | rest name => simpa [Convention.text, catchAllMark_eq] using h.notMem (c := '/') (by decide)

theorem text_ne_nil {c : Convention} (h : c.IsWell) : c.text ≠ [] := by
  cases c with
  | literal text => exact fun hnil => h.1.ne_empty (String.toList_eq_nil_iff.1 hnil)
  | bracket name => exact List.cons_ne_nil _ _
  | dollar name => exact List.cons_ne_nil _ _
  | rest name => simp [Convention.text]

theorem text_ne_dot {c : Convention} (h : c.IsWell) : c.text ≠ ['.'] := by
  cases c with
  | literal text =>
    intro hdot
    exact h.2.1 (String.toList_inj.1 hdot)
  | bracket name => exact fun hdot => absurd (List.cons.inj hdot).1 (by decide)
  | dollar name => exact fun hdot => absurd (List.cons.inj hdot).1 (by decide)
  | rest name =>
    intro hdot
    rw [Convention.text, catchAllMark_eq] at hdot
    exact absurd (List.cons.inj hdot).1 (by decide)

/-- Only a literal is called `index`. -/
theorem piece_eq_index_iff {c : Convention} : c.piece = "index".toList ↔ c = .literal "index" := by
  constructor
  · intro h
    cases c with
    | literal text => rw [String.toList_inj.1 h]
    | bracket name => exact absurd (List.cons.inj h).1 (by decide)
    | dollar name => exact absurd (List.cons.inj h).1 (by decide)
    | rest name => exact absurd (List.cons.inj h).1 (by decide)
  · rintro rfl
    rfl

/-- Pieces of a pattern are read back from its path. -/
theorem segments_joined {cs : List Convention} (h : ∀ c ∈ cs, c.IsWell) (host : Option String) :
    RoutePattern.segments
        ⟨host, String.ofList ('/' :: Text.joinPieces '/' (cs.map Convention.piece))⟩ =
      cs.map Convention.segment := by
  have hslash : ∀ a ∈ cs.map Convention.piece, '/' ∉ a := by
    intro a ha
    obtain ⟨c, hc, rfl⟩ := List.mem_map.1 ha
    exact slash_notMem_piece (h c hc)
  have hne : ∀ a ∈ cs.map Convention.piece, a ≠ [] := by
    intro a ha
    obtain ⟨c, hc, rfl⟩ := List.mem_map.1 ha
    exact piece_ne_nil (h c hc)
  rw [RoutePattern.segments, String.toList_ofList, Text.segments_cons,
    Text.segments_joinPieces hslash hne, List.map_map]
  exact List.map_congr_left fun c hc => ofPiece_piece (h c hc)

/-! ## Files -/

/-- An extension without its dot. -/
structure IsExtension (e : String) : Prop where
  ne_empty : e ≠ ""
  noDot : '.' ∉ e.toList
  noSlash : '/' ∉ e.toList

/-- The file in a directory that has the given segments in its name and an extension. -/
def fileBelow (base : String) (cs : List Convention) (e : String) : String :=
  let name := Text.joinPieces '/' (cs.map Convention.text) ++ '.' :: e.toList
  String.ofList (base.toList ++ if ['/'].isSuffixOf base.toList then name else '/' :: name)

/-- The segments that are left of a name, without an `index` at its end. -/
def dropIndex (cs : List Convention) : List Convention :=
  if cs.getLast? = some (.literal "index") then cs.dropLast else cs

/-- A file name loses its extension. -/
theorem trimExtension_append {stem e : List Char} (hstem : stem ≠ []) (he : '.' ∉ e) :
    Specifier.trimExtension (String.ofList (stem ++ '.' :: e)) = String.ofList stem := by
  have hcut : Specifier.cutExtension (String.ofList (stem ++ '.' :: e)).toList =
      some (stem, e) := by
    rw [String.toList_ofList, Specifier.cutExtension, Text.cutLast_append stem he]
    exact if_neg hstem
  rw [Specifier.trimExtension, hcut]

/-- The segments of a file's name, with the extension at the last one. -/
def nameSegments (init : List Convention) (last : Convention) (e : String) : List (List Char) :=
  init.map Convention.text ++ [last.text ++ '.' :: e.toList]

section
variable {files : RouteFiles} {exts : List String} {init : List Convention} {last : Convention}
  {e : String}

theorem toList_fileBelow (base : String) (init : List Convention) (last : Convention) (e : String) :
    (fileBelow base (init ++ [last]) e).toList =
      base.toList ++ if ['/'].isSuffixOf base.toList
        then Text.joinPieces '/' (nameSegments init last e)
        else '/' :: Text.joinPieces '/' (nameSegments init last e) := by
  rw [fileBelow, String.toList_ofList, List.map_append, List.map_singleton,
    Text.joinPieces_concat_append, nameSegments]

/-- The file is below its base. -/
theorem exists_afterBase?_fileBelow (files : RouteFiles) (init : List Convention)
    (last : Convention) (e : String) :
    ∃ rest, files.afterBase? (fileBelow files.base (init ++ [last]) e) = some rest ∧
      Text.segments '/' rest = Text.segments '/' (Text.joinPieces '/' (nameSegments init last e)) ∧
      files.isBelow (fileBelow files.base (init ++ [last]) e) = true := by
  have hafter := Text.isPrefixOf?_append files.base.toList
    (if ['/'].isSuffixOf files.base.toList then Text.joinPieces '/' (nameSegments init last e)
      else '/' :: Text.joinPieces '/' (nameSegments init last e))
  rw [← toList_fileBelow] at hafter
  refine ⟨_, hafter, ?_, ?_⟩
  · by_cases hroot : ['/'].isSuffixOf files.base.toList = true
    · rw [if_pos hroot]
    · rw [if_neg hroot, Text.segments_cons]
  · rw [isBelow, afterBase?, hafter]
    by_cases hroot : ['/'].isSuffixOf files.base.toList = true
    · simp [hroot]
    · simp [hroot]

theorem accepts_fileBelow (hrule : files.rule = .extensions exts) (he : e ∈ exts)
    (hext : IsExtension e) : files.accepts (fileBelow files.base (init ++ [last]) e) = true := by
  obtain ⟨-, -, -, hbelow⟩ := exists_afterBase?_fileBelow files init last e
  have hdot : ['.'].isPrefixOf e.toList = false := by
    rw [Bool.eq_false_iff]
    intro hprefix
    exact hext.noDot ((List.isPrefixOf_iff_prefix.1 hprefix).subset (List.mem_cons_self ..))
  have hends : hasExtension (fileBelow files.base (init ++ [last]) e) e = true := by
    rw [hasExtension, hdot, if_neg Bool.false_ne_true, List.isSuffixOf_iff_suffix, fileBelow,
      String.toList_ofList]
    refine List.IsSuffix.trans ?_ (List.suffix_append _ _)
    by_cases hroot : ['/'].isSuffixOf files.base.toList = true
    · rw [if_pos hroot]
      exact List.suffix_append _ _
    · rw [if_neg hroot, ← List.cons_append]
      exact List.suffix_append _ _
  rw [accepts, hrule]
  dsimp only
  rw [hbelow, Bool.true_and, List.any_eq_true]
  exact ⟨e, he, hends⟩

/-- The segments of the name are read back from it. -/
theorem segments_nameSegments (hwell : ∀ c ∈ init ++ [last], c.IsWell) (hext : IsExtension e) :
    Text.segments '/' (Text.joinPieces '/' (nameSegments init last e)) =
      nameSegments init last e := by
  have hinit (c : Convention) (hc : c ∈ init) : c.IsWell := hwell c (List.mem_append_left _ hc)
  have hlast : last.IsWell := hwell last (by simp)
  apply Text.segments_joinPieces
  · intro a ha
    rcases List.mem_append.1 ha with ha | ha
    · obtain ⟨c, hc, rfl⟩ := List.mem_map.1 ha
      exact slash_notMem_text (hinit c hc)
    · rw [List.mem_singleton.1 ha]
      simp [slash_notMem_text hlast, hext.noSlash]
  · intro a ha
    rcases List.mem_append.1 ha with ha | ha
    · obtain ⟨c, hc, rfl⟩ := List.mem_map.1 ha
      exact text_ne_nil (hinit c hc)
    · rw [List.mem_singleton.1 ha]
      simp

/-- No segment of the name is a dot. -/
theorem filter_nameSegments (hwell : ∀ c ∈ init ++ [last], c.IsWell) :
    (nameSegments init last e).filter (· ≠ ['.']) = nameSegments init last e := by
  apply List.filter_eq_self.2
  intro a ha
  apply decide_eq_true
  rcases List.mem_append.1 ha with ha | ha
  · obtain ⟨c, hc, rfl⟩ := List.mem_map.1 ha
    exact text_ne_dot (hwell c (List.mem_append_left _ hc))
  · rw [List.mem_singleton.1 ha]
    intro hdot
    have hlength := congrArg List.length hdot
    have hne := List.length_pos_of_ne_nil (text_ne_nil (hwell last (by simp)))
    rw [List.length_append, List.length_cons, List.length_singleton] at hlength
    omega

/-- Each segment of the name is rewritten, the last one in front of the extension. -/
theorem map_nameSegments (hwell : ∀ c ∈ init ++ [last], c.IsWell) :
    (nameSegments init last e).map segmentPattern =
      init.map Convention.piece ++ [last.piece ++ '.' :: e.toList] := by
  have hinit : (init.map Convention.text).map segmentPattern = init.map Convention.piece := by
    rw [List.map_map]
    apply List.map_congr_left
    intro c hc
    have hpattern := segmentPattern_text (hwell c (List.mem_append_left _ hc)) []
    rwa [List.append_nil, List.append_nil] at hpattern
  rw [nameSegments, List.map_append, List.map_singleton, hinit,
    segmentPattern_text (hwell last (by simp))]

theorem dropIndex_concat (init : List Convention) (last : Convention) :
    dropIndex (init ++ [last]) = if last = .literal "index" then init else init ++ [last] := by
  rw [dropIndex, List.getLast?_concat, List.dropLast_concat]
  by_cases hindex : last = .literal "index"
  · rw [if_pos (congrArg some hindex), if_pos hindex]
  · rw [if_neg (fun hsome => hindex (Option.some.inj hsome)), if_neg hindex]

/-- The extension is cut off, and an `index` in front of it is dropped. -/
theorem closeSegments_pieces (hlast : last.IsWell) (hext : IsExtension e) :
    closeSegments (init.map Convention.piece ++ [last.piece ++ '.' :: e.toList]) =
      some ((dropIndex (init ++ [last])).map Convention.piece) := by
  rw [closeSegments, List.getLast?_concat]
  dsimp only
  rw [trimExtension_append (piece_ne_nil hlast) hext.noDot, String.toList_ofList,
    List.dropLast_concat, dropIndex_concat]
  by_cases hindex : last = .literal "index"
  · rw [if_pos hindex, if_pos (piece_eq_index_iff.2 hindex)]
  · rw [if_neg hindex, if_neg (fun hpiece => hindex (piece_eq_index_iff.1 hpiece)), List.map_append,
      List.map_singleton]

/-- Where hosts are not told apart, all segments of a file name make the path. -/
theorem pattern?_of_host (hhost : files.host = false) {file : String} {rest : List Char}
    (haccepts : files.accepts file = true) (hrest : files.afterBase? file = some rest) :
    files.pattern? file =
      (closeSegments (((Text.segments '/' rest).filter (· ≠ ['.'])).map segmentPattern)).map
        fun segments =>
          { host := none, pathname := String.ofList ('/' :: Text.joinPieces '/' segments) } := by
  unfold pattern?
  rw [if_pos haccepts, hrest, Option.getD_some, hhost]
  dsimp only
  split
  · rw [if_neg Bool.false_ne_true]
  · rfl

/-- The pattern of a file that is named by convention has the pieces that are meant. -/
theorem pattern?_below (hrule : files.rule = .extensions exts) (hhost : files.host = false)
    (hwell : ∀ c ∈ init ++ [last], c.IsWell) (he : e ∈ exts) (hext : IsExtension e) :
    files.pattern? (fileBelow files.base (init ++ [last]) e) =
      some ⟨none, String.ofList
        ('/' :: Text.joinPieces '/' ((dropIndex (init ++ [last])).map Convention.piece))⟩ := by
  obtain ⟨rest, hrest, hsegments, -⟩ := exists_afterBase?_fileBelow files init last e
  rw [pattern?_of_host hhost (accepts_fileBelow hrule he hext) hrest, hsegments,
    segments_nameSegments hwell hext, filter_nameSegments hwell, map_nameSegments hwell,
    closeSegments_pieces (hwell last (by simp)) hext, Option.map_some]

end

theorem dropIndex_sublist (cs : List Convention) : (dropIndex cs).Sublist cs := by
  unfold dropIndex
  split
  · exact List.dropLast_sublist cs
  · exact List.Sublist.refl cs

/-- Where route files lie below a directory and hosts are not told apart, a file that is named by
convention is a route: its pattern has the segments of the name, in order and without an `index`
at the end, and a request whose path fills them binds each parameter to what it is filled with,
and nothing else. -/
theorem files_match_fillings (dir : String) (exts : List String) (e : String)
    (cs : List Convention) (hne : cs ≠ []) (hwell : ∀ c ∈ cs, c.IsWell)
    (hnames : ((cs.map Convention.segment).filterMap Segment.name?).Nodup)
    (hrest : (cs.map Convention.segment).countP Segment.isCatchAll ≤ 1) (he : e ∈ exts)
    (hext : IsExtension e) :
    ∃ files p, compile (.dir dir exts false) = .ok files ∧
      files.pattern? (fileBelow files.base cs e) = some p ∧ p.host = none ∧
      p.segments = (dropIndex cs).map Convention.segment ∧
      ∀ host parts filled, (∀ part ∈ parts, Disk.IsName part) →
        RoutePattern.Fills p.segments parts filled →
          ∃ params, p.bind host (RoutePattern.pathOf parts) = some params ∧
            ∀ name value, params.get? name = some value ↔ (name, value) ∈ filled := by
  obtain ⟨init, last, rfl⟩ := (List.eq_nil_or_concat' cs).resolve_left hne
  have hkept := (dropIndex_sublist (init ++ [last])).map Convention.segment
  have hsegments := segments_joined
    (fun c hc => hwell c ((dropIndex_sublist (init ++ [last])).subset hc)) none
  refine ⟨⟨"." ++ Specifier.clean dir, .extensions exts, false⟩, _, rfl,
    pattern?_below rfl rfl hwell he hext, rfl, hsegments, ?_⟩
  intro host parts filled hparts hfills
  apply RoutePattern.bind_of_fills rfl ?_ ?_ hparts hfills
  · rw [hsegments]
    exact Nat.le_trans hkept.countP_le hrest
  · rw [hsegments]
    exact hnames.sublist (hkept.filterMap _)

/-- Parameters of all kinds, one after another. -/
theorem files_match_fillings_mixed :
    ∃ files p, compile (.dir "./routes" ["tsx"] false) = .ok files ∧
      files.pattern? "./routes/blog/$user/[...path]/[id].tsx" = some p ∧
      p.segments = [.literal "blog", .param "user", .catchAll "path", .param "id"] ∧
      ∃ params, p.bind none "/blog/ann/a/b/7" = some params ∧
        params.get? "user" = some "ann" ∧ params.get? "path" = some "a/b" ∧
        params.get? "id" = some "7" := by
  have hname (name : String) (hne : name ≠ "")
      (hchars : name.toList.all (fun c => c.isAlphanum || c = '_') = true) : IsParamName name :=
    ⟨hne, List.all_eq_true.1 hchars⟩
  have hwell : ∀ c ∈ [Convention.literal "blog", .dollar "user", .rest "path", .bracket "id"],
      c.IsWell := by
    intro c hc
    simp only [List.mem_cons, List.not_mem_nil, or_false] at hc
    rcases hc with rfl | rfl | rfl | rfl
    · refine ⟨⟨by decide, by decide⟩, by decide, ?_⟩
      intro c hc
      obtain rfl : 'b' = c := Option.some.inj hc
      decide
    · exact hname "user" (by decide) (by decide)
    · exact hname "path" (by decide) (by decide)
    · exact hname "id" (by decide) (by decide)
  obtain ⟨files, p, hcompile, hpattern, -, hsegments, hbind⟩ := files_match_fillings "./routes"
    ["tsx"] "tsx" [.literal "blog", .dollar "user", .rest "path", .bracket "id"]
    (List.cons_ne_nil _ _) hwell (by decide) (by decide) (by decide)
    ⟨by decide, by decide, by decide⟩
  have hsegments : p.segments =
      [.literal "blog", .param "user", .catchAll "path", .param "id"] := hsegments
  have hfills := RoutePattern.Fills.literal "blog" (.param "user" "ann"
    (.catchAll "path" (List.cons_ne_nil "a" ["b"]) (.param "id" "7" .nil)))
  obtain ⟨params, hparams, hget⟩ := hbind none ["blog", "ann", "a", "b", "7"] _
    (fun part hpart => ⟨by revert part; decide, by revert part; decide⟩) (hsegments ▸ hfills)
  have hpath : RoutePattern.pathOf ["blog", "ann", "a", "b", "7"] = "/blog/ann/a/b/7" := by
    decide
  have hfile : fileBelow ("." ++ Specifier.clean "./routes")
      [.literal "blog", .dollar "user", .rest "path", .bracket "id"] "tsx" =
        "./routes/blog/$user/[...path]/[id].tsx" := by
    decide
  have hbase : files.base = "." ++ Specifier.clean "./routes" :=
    (congrArg base (Except.ok.inj hcompile)).symm
  rw [hbase, hfile] at hpattern
  rw [hpath] at hparams
  have hjoined : RoutePattern.joinSegments ["a", "b"] = "a/b" := by decide
  rw [hjoined] at hget
  refine ⟨files, p, hcompile, hpattern, hsegments, params, hparams, ?_, ?_, ?_⟩
  · exact (hget "user" "ann").2 (by simp)
  · exact (hget "path" "a/b").2 (by simp)
  · exact (hget "id" "7").2 (by simp)

end RouteFiles

end Waymark
