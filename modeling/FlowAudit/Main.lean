import FlowAudit.Command.Reach
import FlowAudit.Command.Run
import FlowAudit.Database.Archive
import Std.Http.Server
import Std.Time.DateTime.Timestamp

namespace FlowAudit.Shell

open FlowAudit.Command

def maxDepth : Nat := 8

def currentTime : IO Time := do
  let t := (← Std.Time.Timestamp.now).toNanosecondsSinceUnixEpoch.val
  return { seconds := t / 1000000000, nanos := (t % 1000000000).toNat }

def freshId : IO (Nat → String) := do
  let bytes ← IO.getRandomBytes 16
  let digits := bytes.toList.flatMap fun b => Text.hex 2 b.toNat
  let part (start size : Nat) := String.ofList ((digits.drop start).take size)
  return fun n => part 0 8 ++ "-" ++ part 8 4 ++ "-4" ++ part 13 3 ++ "-a" ++ part 17 3 ++ "-" ++
    String.ofList (Text.hex 12 (n + ((Text.readDigits? 16 (digits.drop 20)).getD 0)))

def look (depth : Nat) (t : Files.Tree) (path : String) : IO Files.Tree := do
  let place := (← IO.currentDir) / path
  if !(← place.pathExists) then return t
  let full := Path.clean place.toString
  if ← place.isDir then
    let t := t.put full (.directory [])
    match depth with
    | 0 => return t
    | depth + 1 =>
      (← place.readDir).foldlM (fun t e => look depth t (full ++ "/" ++ e.fileName)) t
  else
    let modified := (← place.metadata).modified
    let time : Time := { seconds := modified.sec, nanos := modified.nsec.toNat }
    return t.put full (.file (← IO.FS.readBinFile place).toList time)

def environment : IO Environment :=
  (Config.keys.map Settings.variableName).filterMapM fun name => do
    return (← IO.getEnv name).map (name, ·)

def world (args : List String) : IO World := do
  let here := (← IO.currentDir).toString
  let names := (Path.names here).filter (· != "")
  let start : Files.Tree := ({ working := names } : Files.Tree).put here (.directory [])
  let files ← (earlyPaths here args).foldlM (look 0) start
  let w : World := {
    files := files, environment := ← Shell.environment, now := ← currentTime, idOf := ← freshId
    toolchain := "lean4" }
  let r := reach w args
  let files ← r.flows.foldlM (look maxDepth) w.files
  match r.database with
  | none => return { w with files := files }
  | some path =>
    let files ← look 0 files (Path.dir path)
    let files ← look 0 files path
    let databases := match Database.filePlace? files path, files.read path with
      | some place, .ok bytes =>
        [(place, Database.ofArchive (String.ofList (Text.Utf8.decodeLossy bytes)))]
      | _, _ => []
    return { w with files := files, databases := databases }

def keep (databases : List (String × Database)) : IO Unit := do
  for (path, db) in databases do
    if !db.isForeign && path.startsWith "/" then IO.FS.writeFile path db.archive

def answer (args : List String) (r : Web.Request) : IO Web.Response := do
  let w ← world args
  let (result, after) := run w args
  match result.serving with
  | none => return .failure 500 "service is not configured"
  | some serving =>
    let (response, service) := serving.service.handle { recorded := w.now, posted := w.now } r
    match serving.database, service.store with
    | some key, some store => keep [(key, store.database)]
    | _, _ => keep after.databases
    return response

structure Listener where
  args : List String

instance : Std.Http.Server.Handler Listener where
  onRequest := fun l r => do
    let body : ByteArray ← r.body.readAll
    let request : Web.Request := {
      method := toString r.line.method, target := toString r.line.uri, body := body.toList }
    let response ← (answer l.args request : IO Web.Response)
    let status := (Std.Http.Status.ofCode none response.status.toUInt16).getD .ok
    let start := Std.Http.Response.new.status status
    let start := (response.location.bind (start.header? "Location")).getD start
    match response.body with
    | .json j => start.json j.compact
    | .text s => start.text s

def listen (args : List String) (address : Web.Address) : IO Unit :=
  Std.Async.Async.block do
    let host := if address.host == "" then "0.0.0.0" else address.host
    let some ip := Std.Net.IPv4Addr.ofString host
      | throw (IO.userError ("listen tcp: lookup " ++ host ++ ": no such host"))
    let server ← Std.Http.Server.serve (.v4 ⟨ip, address.port.toUInt16⟩) (Listener.mk args)
    server.waitShutdown

def main (args : List String) : IO UInt32 := do
  let (result, after) := run (← world args) args
  keep after.databases
  IO.print result.stdout
  IO.eprint result.stderr
  match result.serving with
  | none => return result.code.toUInt32
  | some serving =>
    try
      listen args serving.address
      return 0
    catch e =>
      let failed := ({ stdout := "", stderr := "", code := 0 } : Result).cannotServe e.toString
      IO.eprint failed.stderr
      return failed.code.toUInt32

end FlowAudit.Shell

def main (args : List String) : IO UInt32 := FlowAudit.Shell.main args
