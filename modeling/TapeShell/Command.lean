import TapeShell.Flags
import TapeShell.History
import TapeShell.Session.Terminal
import TapeShell.Settings.File

namespace TapeShell.Command

structure Written where
  out : Bytes := []
  err : Bytes := []

namespace Written

def append (a b : Written) : Written :=
  ⟨a.out ++ b.out, a.err ++ b.err⟩

instance : Append Written := ⟨append⟩

end Written

structure Plan where
  settings : Settings
  log : Log.Config
  deck : Deck.Config
  plain : Bool

structure Refused where
  err : Bytes
  exitCode : Nat

-- The settings of the log. Its colors are for terminals, and `NO_COLOR` turns them off for good.
def logConfig (settings : Settings) (isTerminal : Bool) (getenv : Bytes → Bytes) : Log.Config :=
  let c : Log.Config :=
    { Log.Config.standard with
      level := (Log.Level.parse? settings.logLevel).getD Log.Config.standard.level
      noColor := !isTerminal }
  let c := c.override getenv
  { c with noColor := c.noColor || getenv "NO_COLOR" ≠ [] }

def readFlags (args : List Bytes) : Except Refused Flags :=
  match Flags.parse {} args with
  | .ok flags => .ok flags
  | .error refusal => .error ⟨refusal.message ++ Flags.usage, refusal.exitCode⟩

def readSettings (flags : Flags) (read : Except FileError Bytes) : Except Refused Settings :=
  let override (s : Settings) : Settings :=
    if flags.history = [] then s else { s with history := flags.history }
  if flags.config = [] then .ok (override {})
  else match Settings.load flags.config read with
    | .ok settings => .ok (override settings)
    | .error e => .error ⟨e.message flags.config ++ "\n", 2⟩

def note (log : Log.Config) (now : Calendar.Instant) (level : Log.Level) (message : Bytes)
    (fields : List (Bytes × Log.Field)) : Written :=
  ⟨[], log.write now ⟨level, message, fields⟩⟩

def plan (settings : Settings) (log : Log.Config) (plain : Bool) (clock : Nat → Calendar.Instant) :
    Except Refused Plan :=
  match Deck.compileMacros settings.macros with
  | .error f =>
    let noted := note log (clock 0) .error "invalid configured macro" [(Log.errorKey, .text f.message)]
    .error ⟨noted.err, 2⟩
  | .ok macros =>
    let deck : Deck.Config := { macros, maxCells := settings.maxCells, clock }
    .ok ⟨settings, log, deck.withTimeFormat settings.timeFormat, plain⟩

def component : Origin → Bytes
  | .session => "repl"
  | .machine => "backend"
  | .lines => "lines"

def Plan.render (p : Plan) (now : Calendar.Instant) : Origin × Effect → Written
  | (_, .write text) => ⟨text, []⟩
  | (origin, .log event) => ⟨[], p.log.write now (event.withField "component" (.text (component origin)))⟩

def Plan.renderAll (p : Plan) (now : Calendar.Instant) (effects : List (Origin × Effect)) : Written :=
  ⟨effects.flatMap fun e => (p.render now e).out, effects.flatMap fun e => (p.render now e).err⟩

def loadHistory (log : Log.Config) (now : Calendar.Instant) (path : Bytes)
    (read : Except FileError Bytes) : History × Written :=
  let pathField : Bytes × Log.Field := ("path", .text path)
  match read with
  | .error e =>
    if e.isMissing then ({}, {})
    else
      let warning := fun message => note log now .warn message [(Log.errorKey, .text e.message), pathField]
      if e.action = Bytes.ofString "open" then ({}, warning "couldn't open history")
      else ({}, warning "couldn't read history" ++
        note log now .debug "loaded history" [("lines", .int 0), pathField])
  | .ok content =>
    let (history, count, error) := History.load {} content
    let warning : Written := match error with
      | none => {}
      | some e => note log now .warn "couldn't read history" [(Log.errorKey, .text e.message), pathField]
    (history, warning ++ note log now .debug "loaded history" [("lines", .int count), pathField])

def unsaved (log : Log.Config) (now : Calendar.Instant) (path : Bytes) (e : FileError) : Written :=
  note log now .warn "couldn't create history" [(Log.errorKey, .text e.message), ("path", .text path)]

-- How a session ended: the end of its input is no failure.
def conclusion (log : Log.Config) (now : Calendar.Instant) : Option Fault → Nat × Written
  | none => (0, {})
  | some f =>
    if f.chain.any (· matches .endOfInput) then (0, {})
    else (1, note log now .error "reading input" [(Log.errorKey, .text f.message)])

structure Host where
  args : List Bytes
  getenv : Bytes → Bytes
  files : Files
  input : Bytes
  isTerminal : Bool
  clock : Nat → Calendar.Instant

structure Outcome where
  exitCode : Nat
  written : Written
  files : Files

namespace Plan

def runPlain (p : Plan) (h : Host) : Outcome :=
  let now := h.clock 0
  let lines : PlainLines := { input := ⟨h.input, none⟩ }
  let ended := Session.run (Deck.machine p.deck) p.settings.prompts {} {} lines
  let (exitCode, complaint) := conclusion p.log now ended.fault
  ⟨exitCode, p.renderAll now ended.effects ++ complaint, h.files⟩

def runTerminal (p : Plan) (h : Host) : Outcome :=
  let now := h.clock 0
  let path := p.settings.history
  let (history, loading) :=
    if path = [] then ({}, {}) else loadHistory p.log now path (h.files.read path)
  let lines : TerminalLines := ⟨h.input⟩
  let ended := Session.run (Deck.machine p.deck) p.settings.prompts {} {} lines
  let history : History := ended.history.foldl History.add history
  let (exitCode, complaint) := conclusion p.log now ended.fault
  let written := loading ++ p.renderAll now ended.effects ++ complaint
  if path = [] then ⟨exitCode, written, h.files⟩
  else match h.files.write path history.content with
    | .ok files => ⟨exitCode, written, files⟩
    | .error e => ⟨exitCode, written ++ unsaved p.log now path e, h.files⟩

end Plan

def Host.plan (h : Host) : Except Refused Plan := do
  let flags ← readFlags h.args
  let settings ← readSettings flags (h.files.read flags.config)
  let log := logConfig settings false h.getenv
  Command.plan settings log (flags.plain || !h.isTerminal) h.clock

def Host.run (h : Host) : Outcome :=
  match h.plan with
  | .error refused => ⟨refused.exitCode, ⟨[], refused.err⟩, h.files⟩
  | .ok p => if p.plain then p.runPlain h else p.runTerminal h

end TapeShell.Command
