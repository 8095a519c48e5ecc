import Waymark.Proofs.Bundle.Statements
import Waymark.Proofs.Disk.Paths
import Waymark.Proofs.Url.Written
/-!
# What the server program registers

The server program is read again line by line.  The statements that come back are those that
were meant: every route binds two names of its own, which no other statement binds, and is
registered with them, in the order of the routes.  The texts that were put in neither end a line
nor begin one.

## Main results

* `statements?_entryProgram` — the program is read as its statements, one in each line.
* `registrations_entryStatements` — the routes are registered in order, each once.
* `exists_registration` — a route is registered behind the only statements that bind its two names.
* `entryProgram_registers` — all of it, and how many lines there are.
-/

namespace Waymark.Bundle

/-! ## The statements of the server program -/

/-- The name that something of the route at an index is bound to. -/
def nameOf (sign : Char) (index : Nat) : String := String.singleton sign ++ toString index

/-- The name of a page. -/
def pageName (index : Nat) : String := nameOf '_' index

/-- The name of the data of a page. -/
def dataName (index : Nat) : String := nameOf '$' index

/-- What a name is bound to that stands for an export of a module, or for its absence. -/
def sourceOf (exported url : String) (present : Bool) : Source :=
  if present then .imported exported url else .undefined

/-- What is said about the route at an index. -/
def routeStatements (origin : String) (index : Nat) (r : RouteExports) : List Statement :=
  let url := moduleUrl origin r.filename
  [.bind (pageName index) (sourceOf "default" url ("default" ∈ r.exports)),
    .bind (dataName index) (sourceOf "data" url ("data" ∈ r.exports)),
    .register r.filename (pageName index) (dataName index)]

/-- What is said before the routes. -/
def openingStatements (frameworkUrl : String) : List Statement :=
  [.bind "DependencyGraph" (.imported "DependencyGraph" (frameworkUrl ++ "/server/graph.ts")),
    .bind "graph" (.imported "default" ("./" ++ Snapshot.fileName)),
    .other [.word "globalThis", .mark '.', .word "serverDependencyGraph", .mark '=', .word "new",
      .word "DependencyGraph", .mark '(', .word "graph", .mark '.', .word "modules", .mark ')',
      .mark ';']]

/-- What is said to have something to register routes with. -/
def registerStatements (routes : List RouteExports) (frameworkUrl : String) : List Statement :=
  if routes.isEmpty then []
  else [.bind "register" (.imported "register" (frameworkUrl ++ "/server/routing.ts"))]

/-- What is said to start the server. -/
def serverStatements (entry : ServerEntry) (frameworkUrl origin : String) : List Statement :=
  match entry with
  | .custom path => [.run (moduleUrl origin path)]
  | .standard =>
    [.bind "serve" (.imported "serve" (frameworkUrl ++ "/server/mod.ts")),
      .other [.word "serve", .mark '(', .mark ')', .mark ';']]

/-- What the server program says. -/
def entryStatements (routes : List RouteExports) (entry : ServerEntry)
    (frameworkUrl origin : String) : List Statement :=
  openingStatements frameworkUrl ++ registerStatements routes frameworkUrl ++
    (routes.mapIdx fun index r => routeStatements origin index r).flatten ++
    serverStatements entry frameworkUrl origin

theorem toList_nameOf (sign : Char) (index : Nat) :
    (nameOf sign index).toList = sign :: Nat.toDigits 10 index := by
  simp [nameOf, toString, Nat.repr]

theorem isWord_nameOf {sign : Char} (h : Script.inName sign = true) (index : Nat) :
    IsWord (nameOf sign index) := by
  rw [IsWord, toList_nameOf]
  refine ⟨List.cons_ne_nil _ _, ?_⟩
  rw [List.all_cons, h, Bool.true_and, List.all_eq_true]
  intro c hc
  obtain ⟨d, hd, rfl⟩ := exists_of_mem_toDigits (by decide) hc
  have hdigits : ∀ d < 10, Script.inName (Nat.digitChar d) = true := by decide
  exact hdigits d hd

/-! ## Reading the program -/

/-- The three lines of a route are read as what is said about it. -/
theorem ofLine?_routeLines (origin : String) (index : Nat) (r : RouteExports) :
    (routeLines origin index r).map (fun line => Statement.ofLine? line.toList) =
      (routeStatements origin index r).map some := by
  have hpage : IsWord (pageName index) := isWord_nameOf (by decide) index
  have hdata : IsWord (dataName index) := isWord_nameOf (by decide) index
  -- the signs of the names stand at the ends of the texts in front of them
  have hsign (front sign : String) {whole : String} (h : front ++ sign = whole) :
      whole ++ toString index = front ++ (sign ++ toString index) := by
    rw [← h, String.append_assoc]
  have hconst : "const _" ++ toString index = "const " ++ pageName index := hsign _ _ rfl
  have hconst' : "const $" ++ toString index = "const " ++ dataName index := hsign _ _ rfl
  have hclause : "data as $" ++ toString index = "data" ++ " " ++ "as" ++ " " ++ dataName index :=
    hsign _ _ rfl
  have hpair : "default: _" ++ toString index ++ ", data: $" ++ toString index =
      "default: " ++ pageName index ++ ", data: " ++ dataName index := by
    have hfront : "default: _" ++ toString index = "default: " ++ pageName index := hsign _ _ rfl
    rw [hfront]
    exact hsign (_ ++ ", data: ") "$" (String.append_assoc ..)
  have hdefault : "_" ++ toString index = pageName index := rfl
  simp only [routeLines, routeStatements, List.map_cons, List.map_nil, hconst, hconst', hclause,
    hpair, hdefault, ofLine?_register hpage hdata]
  refine List.cons_eq_cons.2 ⟨?_, List.cons_eq_cons.2 ⟨?_, rfl⟩⟩
  · by_cases hexport : "default" ∈ r.exports
    · rw [if_pos hexport, ofLine?_importDefault hpage, sourceOf, decide_eq_true hexport, if_pos rfl]
    · rw [if_neg hexport, ofLine?_const hpage, sourceOf, decide_eq_false hexport,
        if_neg Bool.false_ne_true]
  · by_cases hexport : "data" ∈ r.exports
    · rw [if_pos hexport, ofLine?_importAs (by decide) hdata, sourceOf, decide_eq_true hexport,
        if_pos rfl]
    · rw [if_neg hexport, ofLine?_const hdata, sourceOf, decide_eq_false hexport,
        if_neg Bool.false_ne_true]

/-- Every line of the program is read as one statement. -/
theorem ofLine?_entryLines (routes : List RouteExports) (entry : ServerEntry)
    (frameworkUrl origin : String) :
    (entryLines routes entry frameworkUrl origin).map (fun line => Statement.ofLine? line.toList) =
      (entryStatements routes entry frameworkUrl origin).map some := by
  have hroutes : ((routes.mapIdx fun index r => routeLines origin index r).flatten).map
      (fun line => Statement.ofLine? line.toList) =
        ((routes.mapIdx fun index r => routeStatements origin index r).flatten).map some := by
    rw [List.map_flatten, List.map_flatten, List.mapIdx_eq_zipIdx_map, List.mapIdx_eq_zipIdx_map,
      List.map_map, List.map_map]
    congr 2
    funext ⟨r, index⟩
    exact ofLine?_routeLines origin index r
  have hregister : (if routes.isEmpty then []
      else [importLine (inBraces "register") (frameworkUrl ++ "/server/routing.ts")]).map
        (fun line => Statement.ofLine? line.toList) =
          (registerStatements routes frameworkUrl).map some := by
    unfold registerStatements
    split
    · rfl
    · rw [List.map_singleton, ofLine?_importNamed (by decide)]
      rfl
  have hserver : (serverLines entry frameworkUrl origin).map
      (fun line => Statement.ofLine? line.toList) =
        (serverStatements entry frameworkUrl origin).map some := by
    cases entry with
    | custom path =>
      rw [serverLines, List.map_singleton, ofLine?_run]
      rfl
    | standard =>
      rw [serverLines, List.map_cons, List.map_singleton, ofLine?_importNamed (by decide),
        ofLine?_serve]
      rfl
  have hopening :
      [importLine (inBraces "DependencyGraph") (frameworkUrl ++ "/server/graph.ts"),
        importLine "graph" ("./" ++ Snapshot.fileName),
        "globalThis.serverDependencyGraph = new DependencyGraph(graph.modules);"].map
          (fun line => Statement.ofLine? line.toList) =
        (openingStatements frameworkUrl).map some := by
    rw [List.map_cons, List.map_cons, List.map_singleton, ofLine?_importNamed (by decide),
      ofLine?_importDefault (by decide), ofLine?_restore]
    rfl
  rw [entryLines, entryStatements, List.map_append, List.map_append, List.map_append, hopening,
    hregister, hroutes, hserver, List.map_append, List.map_append, List.map_append]

/-! ## Lines -/

/-- A text in which no control character stands, and so no line end. -/
def OnOneLine (s : String) : Prop := ∀ c ∈ s.toList, 32 ≤ c.toNat

theorem onOneLine_of_all {s : String} (h : s.toList.all (fun c => decide (32 ≤ c.toNat)) = true) :
    OnOneLine s := Text.forall_mem_of_all h

theorem OnOneLine.append {a b : String} (ha : OnOneLine a) (hb : OnOneLine b) :
    OnOneLine (a ++ b) := by
  intro c hc
  rw [String.toList_append] at hc
  rcases List.mem_append.1 hc with hc | hc
  · exact ha c hc
  · exact hb c hc

/-- A text between quotes stands on one line, whatever it holds. -/
theorem onOneLine_quote (s : String) : OnOneLine (Json.quote s) := by
  have hplain {n : Nat} (hn : n < 16) : 32 ≤ (Json.hexDigit n).toNat := by
    have hall : ∀ n < 16, 32 ≤ (Json.hexDigit n).toNat := by decide
    exact hall n hn
  have hletter {c e : Char} (h : Json.escaped? e = some c) : 32 ≤ e.toNat := by
    unfold Json.escaped? at h
    split at h
    case h_9 => cases h
    all_goals decide
  intro c hc
  rw [Json.quote, String.toList_ofList, Json.quoteChars, List.mem_append, List.mem_cons] at hc
  rcases hc with (rfl | hc) | hc
  · decide
  · obtain ⟨d, -, hc⟩ := List.mem_flatMap.1 hc
    rcases Json.escapeChar_cases d with ⟨e, -, he, hd⟩ | ⟨hlow, hd⟩ | ⟨hhigh, -, -, hd⟩
    · simp only [hd, List.mem_cons, List.not_mem_nil, or_false] at hc
      rcases hc with rfl | rfl
      · decide
      · exact hletter he
    · simp only [hd, List.mem_cons, List.not_mem_nil, or_false] at hc
      rcases hc with rfl | rfl | rfl | rfl | rfl | rfl
      · decide
      · decide
      · decide
      · decide
      · exact hplain (by omega)
      · exact hplain (by omega)
    · rw [hd] at hc
      obtain rfl := List.mem_singleton.1 hc
      exact hhigh
  · obtain rfl := List.mem_singleton.1 hc
    decide

theorem onOneLine_toString (n : Nat) : OnOneLine (toString n) := by
  intro c hc
  have hlist : (toString n).toList = Nat.toDigits 10 n := by simp [toString, Nat.repr]
  rw [hlist] at hc
  obtain ⟨d, hd, rfl⟩ := exists_of_mem_toDigits (by decide) hc
  have hdigits : ∀ d < 10, 32 ≤ (Nat.digitChar d).toNat := by decide
  exact hdigits d hd

theorem onOneLine_inBraces {s : String} (h : OnOneLine s) : OnOneLine (inBraces s) := by
  unfold inBraces
  exact ((((onOneLine_of_all (by decide)).append (onOneLine_of_all (by decide))).append h).append
    (onOneLine_of_all (by decide))).append (onOneLine_of_all (by decide))

theorem onOneLine_importLine {clause : String} (h : OnOneLine clause) (url : String) :
    OnOneLine (importLine clause url) := by
  unfold importLine
  exact ((((onOneLine_of_all (by decide)).append h).append (onOneLine_of_all (by decide))).append
    (onOneLine_quote url)).append (onOneLine_of_all (by decide))

theorem onOneLine_routeLines {origin : String} {index : Nat} {r : RouteExports} {line : String}
    (h : line ∈ routeLines origin index r) : OnOneLine line := by
  have hindex := onOneLine_toString index
  have hliteral {s : String} (h : s.toList.all (fun c => decide (32 ≤ c.toNat)) = true) :
      OnOneLine s := onOneLine_of_all h
  simp only [routeLines, List.mem_cons, List.not_mem_nil, or_false] at h
  rcases h with rfl | rfl | rfl
  · split
    · exact onOneLine_importLine ((hliteral (by decide)).append hindex) _
    · exact ((hliteral (by decide)).append hindex).append (hliteral (by decide))
  · split
    · exact onOneLine_importLine (onOneLine_inBraces ((hliteral (by decide)).append hindex)) _
    · exact ((hliteral (by decide)).append hindex).append (hliteral (by decide))
  · have hpair := (((hliteral (s := "default: _") (by decide)).append hindex).append
      (hliteral (s := ", data: $") (by decide))).append hindex
    exact ((((hliteral (by decide)).append (onOneLine_quote _)).append
      (hliteral (by decide))).append (onOneLine_inBraces hpair)).append (hliteral (by decide))

theorem onOneLine_entryLines {routes : List RouteExports} {entry : ServerEntry}
    {frameworkUrl origin line : String} (h : line ∈ entryLines routes entry frameworkUrl origin) :
    OnOneLine line := by
  have hliteral {s : String} (h : s.toList.all (fun c => decide (32 ≤ c.toNat)) = true) :
      OnOneLine s := onOneLine_of_all h
  unfold entryLines at h
  rcases List.mem_append.1 h with h | h
  · rcases List.mem_append.1 h with h | h
    · rcases List.mem_append.1 h with h | h
      · simp only [List.mem_cons, List.not_mem_nil, or_false] at h
        rcases h with rfl | rfl | rfl
        · exact onOneLine_importLine (hliteral (by decide)) _
        · exact onOneLine_importLine (hliteral (by decide)) _
        · exact hliteral (by decide)
      · split at h
        · nomatch h
        · rw [List.mem_singleton.1 h]
          exact onOneLine_importLine (hliteral (by decide)) _
    · obtain ⟨lines, hlines, h⟩ := List.mem_flatten.1 h
      obtain ⟨index, hindex, rfl⟩ := List.mem_mapIdx.1 hlines
      exact onOneLine_routeLines h
  · cases entry with
    | custom path =>
      rw [List.mem_singleton.1 h]
      exact ((hliteral (by decide)).append (onOneLine_quote _)).append (hliteral (by decide))
    | standard =>
      simp only [serverLines, List.mem_cons, List.not_mem_nil, or_false] at h
      rcases h with rfl | rfl
      · exact onOneLine_importLine (hliteral (by decide)) _
      · exact hliteral (by decide)

/-- The lines of the program are the lines that it was put together from. -/
theorem linesOf_entryProgram (routes : List RouteExports) (entry : ServerEntry)
    (frameworkUrl origin : String) :
    linesOf (entryProgram routes entry frameworkUrl origin) =
      (entryLines routes entry frameworkUrl origin).map String.toList := by
  have hline : ∀ line ∈ (entryLines routes entry frameworkUrl origin).map String.toList,
      '\n' ∉ line := by
    intro line hline hmem
    obtain ⟨text, htext, rfl⟩ := List.mem_map.1 hline
    exact absurd (onOneLine_entryLines htext '\n' hmem) (by decide)
  have hne : (entryLines routes entry frameworkUrl origin).map String.toList ≠ [] := by
    rw [entryLines]
    exact List.cons_ne_nil _ _
  rw [linesOf, entryProgram, String.toList_intercalate]
  show Text.pieces '\n' (['\n'].intercalate _) = _
  rw [Text.intercalate_eq_joinPieces, Text.pieces_joinPieces hline hne]

theorem mapM_eq_some {α β : Type} {f : α → Option β} {xs : List α} {ys : List β}
    (h : xs.map f = ys.map some) : xs.mapM f = some ys := by
  induction xs generalizing ys with
  | nil =>
    obtain rfl := List.map_eq_nil_iff.1 h.symm
    rfl
  | cons x xs ih =>
    cases ys with
    | nil => cases h
    | cons y ys =>
      obtain ⟨hx, hxs⟩ := List.cons.inj h
      rw [List.mapM_cons, hx, ih hxs]
      rfl

/-- The program is read as its statements, one in each line. -/
theorem statements?_entryProgram (routes : List RouteExports) (entry : ServerEntry)
    (frameworkUrl origin : String) :
    statements? (entryProgram routes entry frameworkUrl origin) =
      some (entryStatements routes entry frameworkUrl origin) := by
  rw [statements?, linesOf_entryProgram]
  apply mapM_eq_some
  rw [List.map_map]
  exact ofLine?_entryLines routes entry frameworkUrl origin

/-! ## Registrations and bindings -/

theorem registrations_append (xs ys : List Statement) :
    registrations (xs ++ ys) = registrations xs ++ registrations ys := List.filterMap_append

theorem bindings_append (name : String) (xs ys : List Statement) :
    bindings name (xs ++ ys) = bindings name xs ++ bindings name ys := List.filterMap_append

/-- The routes are registered in order, each of them once and with names of its own. -/
theorem registrations_entryStatements (routes : List RouteExports) (entry : ServerEntry)
    (frameworkUrl origin : String) :
    registrations (entryStatements routes entry frameworkUrl origin) =
      routes.mapIdx fun index r => (r.filename, pageName index, dataName index) := by
  have hroutes : registrations (routes.mapIdx fun index r =>
      routeStatements origin index r).flatten =
        routes.mapIdx fun index r => (r.filename, pageName index, dataName index) := by
    rw [registrations, List.filterMap_flatten, List.mapIdx_eq_zipIdx_map,
      List.mapIdx_eq_zipIdx_map, List.map_map, ← List.flatMap_def, List.map_eq_flatMap]
    rfl
  have hregister : registrations (registerStatements routes frameworkUrl) = [] := by
    unfold registerStatements
    split
    · rfl
    · rfl
  have hserver : registrations (serverStatements entry frameworkUrl origin) = [] := by
    cases entry with
    | custom path => rfl
    | standard => rfl
  rw [entryStatements, registrations_append, registrations_append, registrations_append, hroutes,
    hregister, hserver, List.append_nil, List.append_nil]
  rfl

theorem bindings_cons (name bound : String) (source : Source) (statements : List Statement) :
    bindings name (.bind bound source :: statements) =
      if bound = name then source :: bindings name statements else bindings name statements := by
  unfold bindings
  rw [List.filterMap_cons]
  dsimp only
  split
  · rename_i hnone
    rw [if_neg (by simpa using hnone)]
  · rename_i found hsome
    obtain ⟨rfl, rfl⟩ : bound = name ∧ source = found := by simpa using hsome
    rw [if_pos rfl]

theorem nameOf_inj {a b : Char} {i j : Nat} (h : nameOf a i = nameOf b j) : a = b ∧ i = j := by
  have hlist := congrArg String.toList h
  rw [toList_nameOf, toList_nameOf] at hlist
  obtain ⟨rfl, hdigits⟩ := List.cons.inj hlist
  refine ⟨rfl, ?_⟩
  rw [← Json.natOf_toDigits i, hdigits, Json.natOf_toDigits]

/-- A name that no statement binds. -/
theorem bindings_eq_nil {name : String} {statements : List Statement}
    (h : ∀ bound source, .bind bound source ∈ statements → bound ≠ name) :
    bindings name statements = [] := by
  refine List.filterMap_eq_nil_iff.2 fun statement hmem => ?_
  cases statement with
  | bind bound source => exact if_neg (h bound source hmem)
  | run | register | other => rfl

theorem ne_nameOf {w : String} {sign : Char} (h : w.toList.head? ≠ some sign) (i : Nat) :
    w ≠ nameOf sign i := by
  rintro rfl
  rw [toList_nameOf] at h
  exact h rfl

/-- What is bound for no route has none of the names of routes. -/
theorem bindings_fixed {sign : Char} (hsign : sign = '_' ∨ sign = '$') (i : Nat)
    (routes : List RouteExports) (entry : ServerEntry) (frameworkUrl origin : String) :
    bindings (nameOf sign i) (openingStatements frameworkUrl) = [] ∧
      bindings (nameOf sign i) (registerStatements routes frameworkUrl) = [] ∧
      bindings (nameOf sign i) (serverStatements entry frameworkUrl origin) = [] := by
  have hne {w : String} (hw : w.toList.head? ≠ some '_' ∧ w.toList.head? ≠ some '$') :
      w ≠ nameOf sign i := by
    rcases hsign with rfl | rfl
    · exact ne_nameOf hw.1 i
    · exact ne_nameOf hw.2 i
  refine ⟨?_, ?_, ?_⟩
  · apply bindings_eq_nil
    intro bound source hmem
    simp only [openingStatements, List.mem_cons, Statement.bind.injEq, List.not_mem_nil, or_false,
      reduceCtorEq] at hmem
    rcases hmem with ⟨rfl, -⟩ | ⟨rfl, -⟩
    · exact hne (by decide)
    · exact hne (by decide)
  · unfold registerStatements
    split
    · rfl
    · apply bindings_eq_nil
      intro bound source hmem
      obtain ⟨rfl, -⟩ := Statement.bind.inj (List.mem_singleton.1 hmem)
      exact hne (by decide)
  · cases entry with
    | custom path => rfl
    | standard =>
      apply bindings_eq_nil
      intro bound source hmem
      simp only [serverStatements, List.mem_cons, Statement.bind.injEq, List.not_mem_nil, or_false,
        reduceCtorEq] at hmem
      obtain ⟨rfl, -⟩ := hmem
      exact hne (by decide)

/-- The names of a route are not bound by the statements of others. -/
theorem bindings_others {sign : Char} {i : Nat} {f : Nat → Nat} {routes : List RouteExports}
    (hf : ∀ j < routes.length, f j ≠ i) (origin : String) :
    bindings (nameOf sign i) (routes.mapIdx fun j r => routeStatements origin (f j) r).flatten =
      [] := by
  apply bindings_eq_nil
  rintro bound source hmem rfl
  obtain ⟨statements, hstatements, hmem⟩ := List.mem_flatten.1 hmem
  obtain ⟨j, hj, rfl⟩ := List.mem_mapIdx.1 hstatements
  simp only [routeStatements, List.mem_cons, Statement.bind.injEq, List.not_mem_nil, or_false,
    reduceCtorEq] at hmem
  rcases hmem with ⟨hname, -⟩ | ⟨hname, -⟩
  · exact hf j hj (nameOf_inj hname).2.symm
  · exact hf j hj (nameOf_inj hname).2.symm

/-- A route binds each of its names once. -/
theorem bindings_own (origin : String) (i : Nat) (r : RouteExports) :
    bindings (pageName i) ((routeStatements origin i r).take 2) =
        [sourceOf "default" (moduleUrl origin r.filename) ("default" ∈ r.exports)] ∧
      bindings (dataName i) ((routeStatements origin i r).take 2) =
        [sourceOf "data" (moduleUrl origin r.filename) ("data" ∈ r.exports)] := by
  have hapart : pageName i ≠ dataName i := fun h => absurd (nameOf_inj h).1 (by decide)
  constructor
  · show bindings (pageName i) [.bind _ _, .bind _ _] = _
    rw [bindings_cons, if_pos rfl, bindings_cons, if_neg hapart.symm]
    rfl
  · show bindings (dataName i) [.bind _ _, .bind _ _] = _
    rw [bindings_cons, if_neg hapart, bindings_cons, if_pos rfl]
    rfl

/-- Around the registration of a route, its two names are bound once, before it. -/
theorem exists_registration {routes : List RouteExports} {i : Nat} {r : RouteExports}
    (hr : routes[i]? = some r) (entry : ServerEntry) (frameworkUrl origin : String) :
    ∃ before after, entryStatements routes entry frameworkUrl origin =
        before ++ .register r.filename (pageName i) (dataName i) :: after ∧
      bindings (pageName i) before =
        [sourceOf "default" (moduleUrl origin r.filename) ("default" ∈ r.exports)] ∧
      bindings (dataName i) before =
        [sourceOf "data" (moduleUrl origin r.filename) ("data" ∈ r.exports)] ∧
      bindings (pageName i) after = [] ∧ bindings (dataName i) after = [] := by
  obtain ⟨hi, rfl⟩ := List.getElem?_eq_some_iff.1 hr
  have hsplit : routes = routes.take i ++ routes[i] :: routes.drop (i + 1) := by
    rw [← List.drop_eq_getElem_cons hi, List.take_append_drop]
  have hlength : (routes.take i).length = i := by
    rw [List.length_take]
    omega
  have hstatements : (routes.mapIdx fun j r => routeStatements origin j r).flatten =
      ((routes.take i).mapIdx fun j r => routeStatements origin j r).flatten ++
        (routeStatements origin i routes[i] ++
          ((routes.drop (i + 1)).mapIdx fun j r =>
            routeStatements origin (j + 1 + i) r).flatten) := by
    conv_lhs => rw [hsplit]
    rw [List.mapIdx_append, List.flatten_append, List.mapIdx_cons, List.flatten_cons, hlength,
      Nat.zero_add]
  have hfront (sign : Char) : bindings (nameOf sign i)
      ((routes.take i).mapIdx fun j r => routeStatements origin j r).flatten = [] :=
    bindings_others (f := id) (fun j hj => by rw [hlength] at hj; exact Nat.ne_of_lt hj) origin
  have hback (sign : Char) : bindings (nameOf sign i)
      ((routes.drop (i + 1)).mapIdx fun j r => routeStatements origin (j + 1 + i) r).flatten = [] :=
    bindings_others (f := fun j => j + 1 + i) (fun j _ => by omega) origin
  have hpage := bindings_fixed (Or.inl rfl) i routes entry frameworkUrl origin
  have hdata := bindings_fixed (Or.inr rfl) i routes entry frameworkUrl origin
  refine ⟨openingStatements frameworkUrl ++ registerStatements routes frameworkUrl ++
      ((routes.take i).mapIdx fun j r => routeStatements origin j r).flatten ++
        (routeStatements origin i routes[i]).take 2,
    ((routes.drop (i + 1)).mapIdx fun j r => routeStatements origin (j + 1 + i) r).flatten ++
      serverStatements entry frameworkUrl origin, ?_, ?_, ?_, ?_, ?_⟩
  · rw [entryStatements, hstatements]
    simp only [List.append_assoc]
    rfl
  · rw [bindings_append, bindings_append, bindings_append, (bindings_own origin i _).1, pageName,
      hfront, hpage.1, hpage.2.1]
    rfl
  · rw [bindings_append, bindings_append, bindings_append, (bindings_own origin i _).2, dataName,
      hfront, hdata.1, hdata.2.1]
    rfl
  · rw [bindings_append, pageName, hback, hpage.2.2]
    rfl
  · rw [bindings_append, dataName, hback, hdata.2.2]
    rfl

/-! ## The program -/

/-- How many lines start the server. -/
def serverLineCount : ServerEntry → Nat
  | .custom _ => 1
  | .standard => 2

theorem length_entryLines (routes : List RouteExports) (entry : ServerEntry)
    (frameworkUrl origin : String) :
    (entryLines routes entry frameworkUrl origin).length =
      3 + (if routes = [] then 0 else 1) + 3 * routes.length + serverLineCount entry := by
  have hroutes : ((routes.mapIdx fun index r => routeLines origin index r).flatten).length =
      3 * routes.length := by
    have hthree : ((routes.mapIdx fun index r => routeLines origin index r).map List.length) =
        List.replicate routes.length 3 := by
      rw [List.mapIdx_eq_zipIdx_map, List.map_map, ← List.length_zipIdx, ← List.map_const']
      rfl
    rw [List.length_flatten, hthree, List.sum_replicate_nat, Nat.mul_comm]
  have hserver : (serverLines entry frameworkUrl origin).length = serverLineCount entry := by
    cases entry with
    | custom path => rfl
    | standard => rfl
  have hregister : (if routes.isEmpty then []
      else [importLine (inBraces "register") (frameworkUrl ++ "/server/routing.ts")]).length =
        if routes = [] then 0 else 1 := by
    cases routes with
    | nil => rfl
    | cons r routes => rfl
  rw [entryLines, List.length_append, List.length_append, List.length_append, hroutes, hserver,
    hregister]
  rfl

/-- Whatever the names of the routes, the server's entry, the URL of the framework and the origin
hold, the program has three lines, one more if there are routes, three for each of them, and one
for a server of the app or two for the framework's.  No control character stands in a line, and
each line is read as one statement, that which was meant.  So the routes are registered in order,
each once and under its file name, and around the registration of a route its two names are bound
once, before it: to the import of its default export and of its data if the route has these, and
otherwise to nothing. -/
theorem entryProgram_registers (routes : List RouteExports) (entry : ServerEntry)
    (frameworkUrl origin : String) :
    let program := entryProgram routes entry frameworkUrl origin
    let statements := entryStatements routes entry frameworkUrl origin
    (linesOf program).length =
        3 + (if routes = [] then 0 else 1) + 3 * routes.length + serverLineCount entry ∧
      (∀ line ∈ linesOf program, ∀ c ∈ line, 32 ≤ c.toNat) ∧
      statements? program = some statements ∧
      registrations statements =
        routes.mapIdx (fun i r => (r.filename, pageName i, dataName i)) ∧
      ∀ i r, routes[i]? = some r →
        ∃ before after, statements =
            before ++ .register r.filename (pageName i) (dataName i) :: after ∧
          bindings (pageName i) before =
            [sourceOf "default" (moduleUrl origin r.filename) ("default" ∈ r.exports)] ∧
          bindings (dataName i) before =
            [sourceOf "data" (moduleUrl origin r.filename) ("data" ∈ r.exports)] ∧
          bindings (pageName i) after = [] ∧ bindings (dataName i) after = [] := by
  intro program statements
  have hlines : linesOf program =
      (entryLines routes entry frameworkUrl origin).map String.toList :=
    linesOf_entryProgram routes entry frameworkUrl origin
  refine ⟨?_, ?_, statements?_entryProgram routes entry frameworkUrl origin,
    registrations_entryStatements routes entry frameworkUrl origin, ?_⟩
  · rw [hlines, List.length_map, length_entryLines]
  · intro line hline
    rw [hlines] at hline
    obtain ⟨text, htext, rfl⟩ := List.mem_map.1 hline
    exact onOneLine_entryLines htext
  · intro i r hr
    exact exists_registration hr entry frameworkUrl origin

/-- A file name that holds a quote, a line end and what looks like a statement is registered like
any other. -/
theorem entryProgram_registers_quote :
    let route : RouteExports := ⟨"./a\"); \nserve(\"b.tsx", ["default"]⟩
    let routes := [⟨"./routes/index.tsx", ["data"]⟩, route]
    routes[1]? = some route ∧
      (linesOf (entryProgram routes .standard "https://f\n" "http://localhost:1")).length = 12 ∧
      ∃ before after,
        statements? (entryProgram routes .standard "https://f\n" "http://localhost:1") =
          some (before ++ .register "./a\"); \nserve(\"b.tsx" "_1" "$1" :: after) ∧
        bindings "_1" before = [.imported "default" (moduleUrl "http://localhost:1" route.filename)] ∧
        bindings "$1" before = [.undefined] := by
  intro route routes
  have hr : routes[1]? = some route := rfl
  have hpage : pageName 1 = "_1" := by decide
  have hdata : dataName 1 = "$1" := by decide
  obtain ⟨hlength, -, hread, -, hroutes⟩ :=
    entryProgram_registers routes .standard "https://f\n" "http://localhost:1"
  obtain ⟨before, after, hstatements, hbefore, hbefore', -, -⟩ := hroutes 1 route hr
  rw [hpage, hdata] at hstatements
  rw [hpage] at hbefore
  rw [hdata] at hbefore'
  exact ⟨hr, hlength, before, after, hstatements ▸ hread, hbefore, hbefore'⟩

end Waymark.Bundle
