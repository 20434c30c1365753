import TapeShell.Journal
import TapeShell.Wire

namespace TapeShell

open Tape

instance : Code Program where
  source := Program.source
  marshal p := .ok p.source

def Tape.Program.read (src : Bytes) : Except Fault Program :=
  match Program.compile src with
  | .ok p => .ok p
  | .error c => .error (.badOp c)

-- A deck keeps its journal and the number of times that it has read the clock.
structure Deck where
  journal : Journal := {}
  readings : Nat := 0

namespace Deck

def defaultTimeFormat : Bytes := "%H:%M:%S"

structure Config where
  macros : List (Bytes × Program) := []
  -- The most cells that a tape may have, if it is positive.
  maxCells : Int := 0
  timeFormat : Bytes := defaultTimeFormat
  strftime : Calendar.Formatter := Calendar.strftime
  -- What the clock shows, reading by reading.
  clock : Nat → Calendar.Instant
  -- How many operations a run may take beyond the length of its program.
  allowance : Nat := 1 <<< 62

def compileMacros : List (Bytes × Bytes) → Except Fault (List (Bytes × Program))
  | [] => .ok []
  | (name, src) :: sources =>
    match Program.compile src with
    | .error c => .error (.context ("macro " ++ name.quote ++ ": ") (.badOp c))
    | .ok p => ((name, p) :: ·) <$> compileMacros sources

def Config.withTimeFormat (c : Config) (layout : Bytes) : Config :=
  if layout = [] then c else { c with timeFormat := layout }

def greeting : Program :=
  (Program.compile "++++++++++[>+++++++>++++++++++>+++>+<<<<-]>++.>+.+++++++..+++.").toOption.getD []

def helpText : Bytes :=
  "macros:\n" ++
  "  @greeting~  program printing Hello\n" ++
  "  @A~         program returning the string A\n" ++
  "  @log~       program returning the introspection log\n" ++
  "  @help~      this list\n" ++
  "  @quit~      end the session\n" ++
  "  @N~         show macro log entry N\n" ++
  "  @#N~        show call log entry N\n"

namespace Config

def help (c : Config) : Bytes :=
  if c.macros = [] then helpText
  else helpText ++ "configured: " ++ Bytes.join " " ((c.macros.map Prod.fst).mergeSort Bytes.le) ++ "\n"

end Config

def maxIndex : Nat := 1 <<< 63 - 1

def index? (name : Bytes) : Option Nat :=
  name.toNat?.filter (· ≤ maxIndex)

def noEntry (what : Bytes) (i : Nat) : Bytes :=
  "no " ++ what ++ Bytes.ofNat i ++ "\ntype `(@log~)` for log overview\n"

def showExpansion (c : Config) (d : Deck) (i : Nat) : Bytes :=
  match d.journal.expansions[i]? with
  | some e => e.format c.timeFormat c.strftime ++ "\n"
  | none => noEntry "macro log entry for index " i

def showExecution (c : Config) (d : Deck) (i : Nat) : Bytes :=
  match d.journal.executions[i]? with
  | some e => e.format c.timeFormat c.strftime ++ "\n"
  | none => noEntry "call log entry for index #" i

def overview (c : Config) (d : Deck) : Bytes :=
  d.journal.overview c.timeFormat c.strftime

inductive Meaning where
  | code (p : Program)
  | notice (text : Bytes)
  | quit
  | unknown

-- Built-in names come first, then configured ones, then numbers of journal entries.
def meaning (c : Config) (d : Deck) (name : Bytes) : Meaning :=
  if name = Bytes.ofString "greeting" then .code greeting
  else if name = Bytes.ofString "A" then .code (.printing "1:A")
  else if name = Bytes.ofString "log" then .code (.printing (Bencode.encodeBytes (d.overview c)))
  else if name = Bytes.ofString "help" then .notice c.help
  else if name = Bytes.ofString "quit" then .quit
  else match c.macros.lookup name with
    | some p => .code p
    | none =>
      match index? name, (Bytes.after? "#" name).bind index? with
      | some i, _ => .notice (d.showExpansion c i)
      | none, some i => .notice (d.showExecution c i)
      | none, none => .unknown

def exchange (maxCells : Int) (allowance : Nat) (p : Program) (input : Bytes) : Wire.Exchange :=
  match p.exec maxCells allowance input with
  | some o => ⟨o.sent, o.error.map .execution⟩
  | none => ⟨[], some .stopped⟩

section Actions

-- The clock is read where an entry is made, and nowhere else.
variable {μ : Type → Type} [Monad μ] [Acts μ Deck] (now : μ Calendar.Instant)

def recordExpansion (name : Bytes) (code : Program) : μ Unit := do
  let time ← now
  let d ← Acts.get
  let expansions := d.journal.expansions ++ [⟨time, name, code⟩]
  Acts.set { d with journal.expansions := expansions }
  Acts.emit [.log (.debug "macro logged" [("macro", .text name), ("entries", .int expansions.length)])]

def recordExecution (code : Program) (args : List Bytes) (result : Bytes) : μ Unit := do
  let time ← now
  let d ← Acts.get
  let executions := d.journal.executions ++ [⟨time, code, args, result⟩]
  Acts.set { d with journal.executions := executions }
  Acts.emit [.log (.debug "call logged" [("ops", .int code.length), ("entries", .int executions.length)])]

def expandIn (c : Config) (name : Bytes) : μ (Except Fault Program) := do
  match meaning c (← Acts.get) name with
  | .code p =>
    recordExpansion now name p
    return .ok p
  | .notice text =>
    Acts.emit [.write text]
    return .error (.signal .proceed)
  | .quit => return .error (.signal .quit)
  | .unknown => return .error (.plain ("failed to expand macro `" ++ name.escape ++ "`"))

def runIn (c : Config) (code : Program) (args : List (Expr Program)) : μ (Except Fault (Expr Program)) := do
  match ← Wire.callIn (exchange c.maxCells c.allowance code) args with
  | .error f => return .error f
  | .ok result =>
    recordExecution now code (args.map Expr.display) result.display
    return .ok result

def machineIn (c : Config) : MachineIn μ Program where
  compile := Program.read
  expand := expandIn now c
  run := runIn now c

end Actions

def reading (c : Config) : Action Deck Calendar.Instant :=
  fun d => ⟨c.clock d.readings, { d with readings := d.readings + 1 }, []⟩

def expand (c : Config) (name : Bytes) : Action Deck (Except Fault Program) :=
  expandIn (reading c) c name

def run (c : Config) (code : Program) (args : List (Expr Program)) :
    Action Deck (Except Fault (Expr Program)) :=
  runIn (reading c) c code args

def machine (c : Config) : Machine Program Deck :=
  machineIn (reading c) c

end Deck
end TapeShell
