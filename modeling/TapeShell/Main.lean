import Std.Time.DateTime.Timestamp
import TapeShell.Command
import TapeShell.Session.Hosted

namespace TapeShell.Command

structure Streams where
  input : IO.FS.Stream
  output : IO.FS.Stream
  errors : IO.FS.Stream
  ahead : IO.Ref Bytes

namespace Streams

def bytes (bs : Bytes) : ByteArray :=
  ⟨bs.toArray⟩

def put (s : Streams) (w : Written) : IO Unit := do
  s.errors.write (bytes w.err)
  s.errors.flush
  s.output.write (bytes w.out)
  s.output.flush

partial def line (s : Streams) : IO Bytes := do
  let ahead ← s.ahead.get
  match ahead.cutLine? with
  | some (line, rest) =>
    s.ahead.set rest
    return line
  | none =>
    let more ← s.input.read 4096
    if more.isEmpty then
      s.ahead.set []
      return ahead
    s.ahead.set (ahead ++ more.toList)
    s.line

end Streams

def now : IO Calendar.Instant := do
  let t ← Std.Time.Timestamp.now
  return { unix := t.toSecondsSinceUnixEpoch.val }

def fileName (path : Bytes) : String :=
  (String.fromUTF8? ⟨path.toArray⟩).getD ""

def fileError (path : Bytes) : IO.Error → FileError
  | .noFileOrDirectory .. => .ofPath "open" path .missing
  | .inappropriateType _ _ details => ⟨"open", path, details, false⟩
  | e => ⟨"open", path, toString e, false⟩

def readFile (path : Bytes) : IO (Except FileError Bytes) := do
  try
    return .ok (← IO.FS.readBinFile (fileName path)).toList
  catch e => return .error (fileError path e)

def writeFile (path content : Bytes) : IO (Option FileError) := do
  try
    IO.FS.writeBinFile (fileName path) ⟨content.toArray⟩
    return none
  catch e => return some (fileError path e)

def environment : IO (Bytes → Bytes) := do
  let names := ["TAPERT_LOG_LEVEL", "TAPERT_LOG_TIMESTAMP", "TAPERT_LOG_NOCOLOR", "NO_COLOR"]
  let values ← names.mapM fun name => do
    return (Bytes.ofString name, Bytes.ofString ((← IO.getEnv name).getD ""))
  return fun name => (values.lookup name).getD []

def ask (s : Streams) (plain : Bool) (prompt : Bytes) (_ : Unit) : IO (Asked Unit) := do
  if !plain && !TerminalLines.isValidPrompt prompt then return ⟨.error (.plain "invalid prompt"), (), []⟩
  s.put ⟨prompt, []⟩
  let line ← s.line
  return ⟨if plain then (PlainLines.next ⟨line, none⟩).1 else (TerminalLines.next line).1, (), []⟩

partial def converse (s : Streams) (p : Plan) (session : Session) (deck : Deck) (history : History) :
    IO (Option Fault × History) := do
  let feed := Hosted.feed (liftM now) p.deck
  match ← Session.advanceIn (ask s p.plain) feed p.settings.prompts session deck () with
  | .ended e =>
    s.put (p.renderAll (← now) e.effects)
    return (e.fault, e.history.foldl History.add history)
  | .goesOn session deck _ effects lines =>
    s.put (p.renderAll (← now) effects)
    converse s p session deck (lines.foldl History.add history)

def runSession (s : Streams) (p : Plan) : IO Nat := do
  let path := if p.plain then [] else p.settings.history
  let mut history : History := {}
  if path ≠ [] then
    let (loaded, written) := loadHistory p.log (← now) path (← readFile path)
    s.put written
    history := loaded
  let (fault, kept) ← converse s p {} {} history
  let (exitCode, complaint) := conclusion p.log (← now) fault
  s.put complaint
  if path ≠ [] then
    if let some e ← writeFile path kept.content then s.put (unsaved p.log (← now) path e)
  return exitCode

def runCommand (args : List String) : IO Nat := do
  let s : Streams := ⟨← IO.getStdin, ← IO.getStdout, ← IO.getStderr, ← IO.mkRef []⟩
  let time ← now
  let getenv ← environment
  let plain := !(← s.input.isTty)
  let colors ← s.errors.isTty
  let planned : Except Refused Plan ← do
    match readFlags (args.map Bytes.ofString) with
    | .error refused => pure (.error refused)
    | .ok flags =>
      let content ← readFile flags.config
      pure do
        let settings ← readSettings flags content
        plan settings (logConfig settings colors getenv) (flags.plain || plain) fun _ => time
  match planned with
  | .error refused =>
    s.put ⟨[], refused.err⟩
    return refused.exitCode
  | .ok p => runSession s p

end TapeShell.Command

def main (args : List String) : IO UInt32 := do
  return (← TapeShell.Command.runCommand args).toUInt32
