import TapeShell.Deck
import TapeShell.Session.Run
import TapeShell.Text.Blank

namespace TapeShell

structure Settings where
  prompts : Session.Prompts := {}
  history : Bytes := []
  logLevel : Bytes := "info"
  timeFormat : Bytes := Deck.defaultTimeFormat
  maxCells : Int := 0
  macros : List (Bytes × Bytes) := []

namespace Settings

structure Draft where
  prompt : Option Bytes := none
  continuation : Option Bytes := none
  history : Option Bytes := none
  logLevel : Option Bytes := none
  timeFormat : Option Bytes := none
  maxCells : Option Int := none
  macros : List (Bytes × Bytes) := []

inductive Field where
  | prompt
  | continuation
  | history
  | logLevel
  | timeFormat
  | maxCells
  | macros
  deriving DecidableEq, Repr

namespace Field

def all : List Field :=
  [.prompt, .continuation, .history, .logLevel, .timeFormat, .maxCells, .macros]

def key : Field → String
  | .prompt => "prompt"
  | .continuation => "continuation"
  | .history => "history"
  | .logLevel => "log_level"
  | .timeFormat => "time_format"
  | .maxCells => "max_cells"
  | .macros => "macros"

end Field

namespace Draft

def setText? (d : Draft) (text : Bytes) : Field → Option Draft
  | .prompt => some { d with prompt := some text }
  | .continuation => some { d with continuation := some text }
  | .history => some { d with history := some text }
  | .logLevel => some { d with logLevel := some text }
  | .timeFormat => some { d with timeFormat := some text }
  | .maxCells => none
  | .macros => none

-- Completes a draft by the usual settings; `none` if it asks for a negative number of cells.
def complete? (d : Draft) : Option Settings :=
  let usual : Settings := {}
  let maxCells := d.maxCells.getD usual.maxCells
  if maxCells < 0 then none
  else some {
    prompts.primary := d.prompt.getD usual.prompts.primary
    prompts.continuation := d.continuation.getD usual.prompts.continuation
    history := (d.history.map Bytes.trim).getD usual.history
    logLevel := (d.logLevel.map Bytes.trim).getD usual.logLevel
    timeFormat := d.timeFormat.getD usual.timeFormat
    maxCells
    macros := d.macros }

end Draft
end Settings
end TapeShell
