import Waymark.App.Answering
import Waymark.Build.Output
/-!
# The modules a client can reach

All modules that can be reached from some seeds are asked of the module server and
written to the output directory.  The walk goes level by level: a level holds the
modules that the level before leads to and that no level has held.

The modules of a level are worked on side by side, each up to where it waits for the
disk, then the next.  The levels are ordered sets.  Where modules lead to ever new
ones the walk has no end of its own, so it is given a bound.  Any bound will do: what a
walk comes to that has ended does not depend on it.

## Main results

* `collectWithin_nil` — an empty level ends the walk.
* `nextSpecifiers_style` — a style sheet leads nowhere.
-/

namespace Waymark.Build

/-! ## Levels -/

section
variable {m : Type → Type} [Monad m]

/-- Walks at most `bound` levels, `done` being what the levels before held; `none` when the bound
was met first.  Emitting a level tells where its modules lead. -/
def collectWithin (emitLevel : List Specifier → m (List Specifier)) :
    Nat → List Specifier → List Specifier → m (Option (List Specifier))
  | _, done, [] => pure (some done)
  | 0, _, _ :: _ => pure none
  | bound + 1, done, s :: level => do
    let next ← emitLevel (s :: level)
    let done := ordered (done ++ s :: level)
    collectWithin emitLevel bound done (ordered (next.filter (· ∉ done)))

theorem collectWithin_nil (emitLevel : List Specifier → m (List Specifier)) (bound : Nat)
    (done : List Specifier) : collectWithin emitLevel bound done [] = pure (some done) := by
  cases bound <;> rfl

/-- All modules that can be reached from some seeds, within a bound on the levels. -/
def collect (emitLevel : List Specifier → m (List Specifier)) (bound : Nat)
    (seeds : List Specifier) : m (Option (List Specifier)) :=
  collectWithin emitLevel bound [] (ordered seeds)

end

/-! ## Modules -/

/-- Where a recorded module leads: to its dependencies, a sheet being wanted as a script module. -/
def nextSpecifiers (g : Graph) (s : Specifier) : List Specifier :=
  if Specifier.isStyle (Specifier.stripQuery s) then []
  else match g.get? (Specifier.graphKey s) with
    | none => []
    | some r => r.deps.map fun dep => if Specifier.isStyle dep then dep ++ "?module" else dep

/-- A style sheet leads nowhere: its imports are written into it. -/
theorem nextSpecifiers_style {g : Graph} {s : Specifier}
    (h : Specifier.isStyle (Specifier.stripQuery s) = true) : nextSpecifiers g s = [] := by
  simp [nextSpecifiers, h]

/-- Changes the disk of an app. -/
def onDisk (change : Disk → Except BuildError Disk) : App.Action BuildError Unit := do
  let app ← getThe App
  match change app.disk with
  | .ok disk => set { app with disk }
  | .error e => throw e

/-- A change of the disk that fails leaves the app as it is. -/
theorem run_onDisk (change : Disk → Except BuildError Disk) (app : App) :
    (onDisk change).run.run app =
      match change app.disk with
      | .ok disk => (.ok (), { app with disk })
      | .error e => (.error e, app) := by
  show StateT.run (ExceptT.run (match change app.disk with
    | .ok disk => set { app with disk }
    | .error e => throw e : App.Action BuildError Unit)) app = _
  cases change app.disk with
  | ok disk => rfl
  | error e => rfl

/-- Puts a file into the output directory. -/
def put (path : String) (content : ByteArray) : App.Action BuildError Unit :=
  onDisk fun d => writeOutput d path content

/-- A module on its way from the module server into the output directory. -/
inductive Emission where
  | asked (s : Specifier) (answer : App.Answering)
  /-- The way to its file is still to be made. -/
  | served (s : Specifier) (content : ByteArray)
  /-- Its file is still to be written. -/
  | placed (s : Specifier) (content : ByteArray)
  /-- Its file is written; the modules it leads to are known. -/
  | emitted (next : List Specifier)
  | failed (e : BuildError)

namespace Emission

/-- The emission of a module whose answer is so far. -/
def ofAnswering (s : Specifier) : App.Answering → Except BuildError Emission
  | .answered r =>
    if r.isSuccess then .ok (.served s r.body) else .error (.module s r.status)
  | a => .ok (.asked s a)

/-- Asks the module server for a module. -/
def ask (s : Specifier) : App.Action BuildError Emission := do
  match Uri.parse (Specifier.requestPath s) with
  | .error e => throw (.bundle ("invalid request for " ++ s ++ ": " ++ e.message))
  | .ok uri => App.Action.ofResult (ofAnswering s (← App.receive uri))

/-- Works on an emission, up to where it waits next. -/
def advance (outDir : String) : Emission → App.Action BuildError Emission
  | .asked s a => do App.Action.ofResult (ofAnswering s (← App.goOn a))
  | .served s content => do
    onDisk fun d => makeWay d (Disk.join outDir (Specifier.savePath s))
    return .placed s content
  | .placed s content => do
    onDisk fun d => writeFile d (Disk.join outDir (Specifier.savePath s)) content
    return .emitted (nextSpecifiers (← getThe App).graph s)
  | e => return e

/-- Where the module of an emission leads, once its file is written. -/
def next : Emission → Except BuildError (List Specifier)
  | .emitted next => .ok next
  | .failed e => .error e
  | _ => .ok []

/-- The most turns an emission takes: to read a sheet and those it imports, to make the way to its
file, and to write it. -/
def maxTurns : Nat := 4

end Emission

/-! ## Emitting levels -/

/-- The most modules of a level that ends with its first failure.  In a larger one the failure of
a module is seen when all modules before it are done. -/
def maxHasty : Nat := 30

/-- Works on an emission; a failure is kept for later where the level is not `hasty`. -/
def keepFailure (hasty : Bool) (act : App.Action BuildError Emission) :
    App.Action BuildError Emission :=
  if hasty then act else tryCatch act fun e => return .failed e

/-- Works on all emissions of a level in turn, a number of times. -/
def advanceAll (hasty : Bool) (outDir : String) :
    Nat → List Emission → App.Action BuildError (List Emission)
  | 0, level => return level
  | turns + 1, level => do
    let level ← level.mapM fun e => keepFailure hasty (e.advance outDir)
    advanceAll hasty outDir turns level

/-- Writes the modules of a level to the output directory, and tells where they lead. -/
def emitLevel (outDir : String) (level : List Specifier) :
    App.Action BuildError (List Specifier) := do
  let hasty : Bool := level.length ≤ maxHasty
  let asked ← level.mapM fun s => keepFailure hasty (Emission.ask s)
  let emissions ← advanceAll hasty outDir Emission.maxTurns asked
  let next ← App.Action.ofResult (emissions.mapM Emission.next)
  return next.flatten

/-- Writes all modules that can be reached from some seeds to the output directory, by a walk of
at most `bound` levels. -/
def collectModulesWithin (bound : Nat) (outDir : String) (seeds : List Specifier) :
    App.Action BuildError (List Specifier) := do
  match ← collect (emitLevel outDir) bound seeds with
  | some modules => return modules
  | none => throw .tooLarge

/-- The bound that walks are run with. -/
def maxLevels : Nat := 100000

/-- Writes all modules that can be reached from some seeds to the output directory. -/
def collectModules (outDir : String) (seeds : List Specifier) :
    App.Action BuildError (List Specifier) := collectModulesWithin maxLevels outDir seeds

end Waymark.Build
