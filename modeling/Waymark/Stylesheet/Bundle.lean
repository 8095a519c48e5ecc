import Waymark.Stylesheet.Imports
import Waymark.Stylesheet.Minify
import Waymark.Stylesheet.Scope
/-!
# Bundling sheets

A sheet with the local sheets it imports put in place of their rules.  Each sheet
is put in once, where it is first imported; remote sheets stay imported.

A sheet is read only if no sheet read before it has its name, so the number of
files there are bounds the depth of the walk.

## Main results

* `exports_bundle_unscoped` — a sheet that is not scoped exports no classes.
-/

namespace Waymark.Stylesheet

/-- How a sheet is to be bundled. -/
structure Options where
  minify : Bool
  /-- Whether classes are renamed and exported. -/
  isScoped : Bool
  deriving DecidableEq, Repr

/-- The browser versions that sheets are written for. -/
structure Targets where
  android : Nat
  chrome : Nat
  edge : Nat
  firefox : Nat
  safari : Nat
  deriving DecidableEq, Repr

/-- The browsers every sheet is written for. -/
def targets : Targets := ⟨95, 95, 95, 90, 14⟩

/-- What becomes of a sheet. -/
structure Output where
  code : String
  /-- Which class became which. -/
  exports : Dict String
  /-- The local sheets imported, in order of their first import. -/
  deps : List Specifier

/-- A sheet that could not be read, and why. -/
structure ReadError (ε : Type) where
  specifier : Specifier
  cause : ε

/-- The sheets met so far: those that are read or being read, and those to report. -/
structure Met where
  seen : List Specifier
  deps : List Specifier

/-- The sheet that a rule of `importer` names. -/
def resolveImport (importer : Specifier) (href : List Char) : Specifier :=
  if ['/'].isPrefixOf href then "." ++ Specifier.clean (String.ofList href)
  else
    let path := (Specifier.urlPath (Specifier.stripQuery importer)).toList
    let dir := match Text.cutLast '/' path with
      | some (dir, _) => dir
      | none => []
    "." ++ Specifier.clean (String.ofList (dir ++ '/' :: href))

/-- Whether a rule stays in the sheet because the other sheet is not local. -/
def staysImported (importer : Specifier) (href : List Char) : Bool :=
  Specifier.isRemote (String.ofList href) || Specifier.isRemote importer

/-- Puts one more sheet among those to report. -/
def Met.report (m : Met) (s : Specifier) : Met :=
  if s ∈ m.deps then m else { m with deps := m.deps ++ [s] }

/-- Puts one more sheet among those that are read. -/
def Met.visit (m : Met) (s : Specifier) : Met := { m with seen := s :: m.seen }

variable {ε : Type}

/-- The pieces of a sheet in order, where `load` gives the bundled text of a sheet that has not
been met. -/
def inlinePieces (load : Specifier → Met → Except (ReadError ε) (List Char × Met))
    (importer : Specifier) : List Piece → Met → Except (ReadError ε) (List Char × Met)
  | [], m => .ok ([], m)
  | .char c :: ps, m => do
    let (text, m) ← inlinePieces load importer ps m
    return (c :: text, m)
  | .rule r :: ps, m =>
    if staysImported importer r.href then do
      let (text, m) ← inlinePieces load importer ps m
      return (r.text ++ text, m)
    else do
      let dep := resolveImport importer r.href
      let m := m.report dep
      if dep ∈ m.seen then inlinePieces load importer ps m
      else do
        let (front, m) ← load dep (m.visit dep)
        let (text, m) ← inlinePieces load importer ps m
        return (front ++ text, m)

/-- The text of a sheet with its imports put in, at most `depth` sheets deep. -/
def inline (read : Specifier → Except ε String) :
    Nat → Specifier → List Char → Met → Except (ReadError ε) (List Char × Met)
  | 0, _, source, m => .ok (source, m)
  | depth + 1, importer, source, m =>
    inlinePieces (fun dep m =>
      match read dep with
      | .ok text => inline read depth dep text.toList m
      | .error cause => .error ⟨dep, cause⟩) importer (rules source) m

/-- Bundles a sheet, where `read` gives the text of a local sheet and `files` counts them. -/
def bundle (read : Specifier → Except ε String) (files : Nat) (options : Options)
    (s : Specifier) (source : String) : Except (ReadError ε) Output := do
  let start : Met := ⟨[Specifier.stripQuery s], []⟩
  let (text, met) ← inline read (files + 1) s source.toList start
  let (code, exports) :=
    if options.isScoped then scopeClasses (scopeName s) (String.ofList text)
    else (String.ofList text, Dict.empty)
  return { code := if options.minify then minify code else code, exports, deps := met.deps }

/-- A sheet whose classes are not scoped exports none of them. -/
theorem exports_bundle_unscoped {read : Specifier → Except ε String} {files : Nat}
    {options : Options} {s : Specifier} {source : String} {out : Output}
    (h : bundle read files options s source = .ok out) (hs : options.isScoped = false) :
    out.exports = Dict.empty := by
  unfold bundle at h
  simp only [hs, bind, Except.bind] at h
  split at h
  · simp at h
  · simp only [Bool.false_eq_true, if_false, pure, Except.pure, Except.ok.injEq] at h
    exact h ▸ rfl

end Waymark.Stylesheet
