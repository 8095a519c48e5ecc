import Std.Async.Signal
import Std.Async.TCP
import Std.Time.DateTime.Timestamp
import Waymark.App.Events
import Waymark.Console
import Waymark.Remote.Cache
import Waymark.Wire
/-!
# The command line

Reads an app from the disk, runs a command on it, and puts what the command leaves
behind back on the disk.  While an app is served for development its files are read
again before every request, and what has changed is told to it.

No other server is reached from here, and no program is started: content from
elsewhere counts as unreachable, and a companion as one that cannot be started.
-/

open Waymark

namespace Waymark.Main

/-! ## The disk -/

/-- The entries below a directory, with their names from the root. -/
partial def readEntries (dir : IO.FS.DirEntry) (names : List String) (d : Disk) : IO Disk := do
  let names := names ++ [dir.fileName]
  if ← dir.path.isDir then
    let mut d := d.put names .directory
    for entry in ← dir.path.readDir do
      d ← readEntries entry names d
    return d
  else
    return d.put names (.file (← IO.FS.readBinFile dir.path))

/-- The files of an app. -/
def readDisk (dir : String) : IO Disk := do
  let root ← IO.FS.realPath dir
  let mut d : Disk := ⟨root.toString, Dict.empty⟩
  for entry in ← root.readDir do
    d ← readEntries entry [] d
  return d

/-- Writes a directory of an app in the place of the one on the disk. -/
def writeDirectory (d : Disk) (dir : String) : IO Unit := do
  match d.lookup dir with
  | .ok (some names, .directory) =>
    if names = [] then return
    try IO.FS.removeDirAll dir catch _ => pure ()
    IO.FS.createDirAll dir
    for file in d.filesBelow names do
      let path := d.pathOf (Disk.keyOf file)
      IO.FS.createDirAll ((Disk.parent path).getD d.root)
      if let .ok content := d.read path then IO.FS.writeBinFile path content
  | _ => return

/-- The clock. -/
def readClock : IO Version := do
  let now ← Std.Time.Timestamp.now
  return UInt64.ofNat now.toMillisecondsSinceUnixEpoch.val.toNat

/-! ## Apps -/

/-- The surroundings of an app that reaches nobody. -/
def surroundings : Surroundings where
  remote url := (ContentStore.empty.get ContentStore.unreachable url).1
  hook _ := none
  compiled port s version :=
    .error (.request (Specifier.versionedUrl port.toNat s version))

/-- Loads the app in a directory. -/
def load (dir : String) (isDev : Bool) : IO (Except Console.Failure App) := do
  let d ← readDisk dir
  let loaded := App.load surroundings (fun _ map => Pipeline.standard isDev map) d (← readClock)
  return loaded.mapError .load

/-- Tells of the end of a command, in its exit code as well. -/
def finish : Except Console.Failure String → IO UInt32
  | .ok text => do
    IO.print text
    return 0
  | .error failure => do
    IO.eprintln ("Error: " ++ failure.message)
    return 1

/-! ## Serving -/

/-- The address of a socket. -/
def socketAddress? (address : String) (port : UInt16) : Option Std.Net.SocketAddress :=
  match Std.Net.IPv4Addr.ofString address with
  | some ip => some (.v4 ⟨ip, port⟩)
  | none =>
    let inside := Text.before ']' (address.toList.drop 1)
    (Std.Net.IPv6Addr.ofString (String.ofList inside)).map fun ip => .v6 ⟨ip, port⟩

/-- A listening socket for an app, which moves up while ports turn out to be in use. -/
partial def claim (app : App) (held : List UInt16) :
    IO (Except Console.Failure (App × Std.Async.TCP.Socket.Server)) := do
  match Console.startDev (Listen.alone held) (fun _ => false) [] app with
  | .error failure => return .error failure
  | .ok started =>
    let hostname := app.config.moduleServer.hostname
    match Listen.ownAddress hostname with
    | .error cause => return .error (.listen (.unresolved hostname cause))
    | .ok address =>
      match socketAddress? address started.port with
      | none => return .error (.listen (.refused started.port address "unknown address"))
      | some target =>
        try
          let server ← Std.Async.TCP.Socket.Server.mk
          server.bind target
          server.listen 128
          return .ok (started, server)
        catch e =>
          match e with
          | .resourceBusy .. => claim app (started.port :: held)
          | e => return .error (.listen (.refused started.port address (toString e)))

/-- The edits that lead from one disk to another, file by file. -/
def editsBetween (old new : Disk) : List (List String × App.FileEdit) :=
  let written := new.entries.entries.filterMap fun (key, entry) =>
    match entry, old.entries.get? key with
    | .file content, some (.file before) =>
      if content == before then none else some (Disk.namesOf key, .write content)
    | .file content, _ => some (Disk.namesOf key, .write content)
    | .directory, _ => none
  let removed := old.entries.entries.filterMap fun (key, entry) =>
    match entry, new.entries.get? key with
    | .file _, none => some (Disk.namesOf key, .remove)
    | _, _ => none
  written ++ removed

/-- The app after its files were read again. -/
def refreshed (app : App) : IO App := do
  let now ← readClock
  let d ← readDisk app.disk.root
  return (editsBetween app.disk d).foldl (fun app (names, edit) => (app.edit names edit).1)
    { app with now }

/-- A new id for a request. -/
def newId : IO String := do
  let mut digits := []
  for i in List.range 32 do
    let digit ← IO.rand 0 15
    let digit := if i = 12 then 4 else if i = 16 then 8 + digit % 4 else digit
    if i ∈ [8, 12, 16, 20] then digits := digits ++ ['-']
    digits := digits ++ [Json.hexDigit digit]
  return String.ofList digits

/-- The head of the request on a connection. -/
partial def receiveHead (client : Std.Async.TCP.Socket.Client) (received : List Char) :
    Std.Async.Async (Option Wire.RequestHead) := do
  match Wire.headEnd? received with
  | some head => return Wire.RequestHead.read? head
  | none =>
    match ← client.recv? 4096 with
    | some bytes => receiveHead client (received ++ Text.Utf8.decodeLossy bytes.toList)
    | none => return none

/-- Answers the requests on a socket, one after the other. -/
partial def serve (server : Std.Async.TCP.Socket.Server) (app : App) : Std.Async.Async Unit := do
  let client ← server.accept
  let app ← refreshed app
  match ← receiveHead client [] with
  | none => serve server app
  | some head =>
    let (r, app) := match Uri.parse head.target with
      | .ok uri => (App.answer uri).run app
      | .error cause => (Response.message 400 cause.message, app)
    let id ← match RequestId.answered head.id with
      | .given id => pure id
      | .fresh => newId
    try
      client.send (Wire.written r id (head.method ≠ "HEAD"))
      client.shutdown
    catch _ => pure ()
    serve server app

/-- Waits for one of the signals that end the command. -/
def waitForSignal : IO Unit := do
  let interrupted ← (← Std.Async.Signal.Waiter.mk .sigint false).wait
  let terminated ← (← Std.Async.Signal.Waiter.mk .sigterm false).wait
  discard <| IO.waitAny [interrupted, terminated]

/-! ## Commands -/

/-- Runs a task. -/
def run : Console.Task → IO UInt32
  | .routes dir => do
    let app ← load dir (Console.isDevelopment (← IO.getEnv Console.modeVariable))
    finish (app.map fun app => Console.routesText app.routes)
  | .build dir => do
    match ← load dir (Console.isDevelopment (← IO.getEnv Console.modeVariable)) with
    | .error failure => finish (.error failure)
    | .ok app =>
      let (result, built) := Console.build (Listen.alone []) app
      writeDirectory built.disk (Build.outDirOf app)
      finish result
  | .dev dir companion => do
    match ← load dir true with
    | .error failure => finish (.error failure)
    | .ok app =>
      match ← claim app [] with
      | .error failure => finish (.error failure)
      | .ok (app, server) =>
        match companion with
        | program :: args => finish (.error (.companion (app.companion program args)))
        | [] => do
          discard <| IO.asTask (serve server app).block
          waitForSignal
          finish (.ok "")

end Waymark.Main

def main (args : List String) : IO UInt32 := do
  match Console.Task.parse? args with
  | some task =>
    try Waymark.Main.run task
    catch e =>
      IO.eprintln ("Error: " ++ toString e)
      return 1
  | none =>
    IO.eprint Console.usage
    return 2
