import TapeShell.Text.Blank
import TapeShell.Text.LowerCase

namespace TapeShell

def Bytes.toBool? (bs : Bytes) : Option Bool :=
  if ["1", "t", "T", "TRUE", "true", "True"].any (Bytes.ofString · = bs) then some true
  else if ["0", "f", "F", "FALSE", "false", "False"].any (Bytes.ofString · = bs) then some false
  else none

namespace Log

inductive Level where
  | trace
  | debug
  | info
  | warn
  | error
  | disabled
  deriving DecidableEq, Repr

namespace Level

def rank : Level → Nat
  | .trace => 0
  | .debug => 1
  | .info => 2
  | .warn => 3
  | .error => 4
  | .disabled => 5

def name : Level → Bytes
  | .trace => "trace"
  | .debug => "debug"
  | .info => "info"
  | .warn => "warn"
  | .error => "error"
  | .disabled => "disabled"

def names : List (String × Level) :=
  [("trace", .trace), ("debug", .debug), ("info", .info), ("warn", .warn), ("warning", .warn),
    ("error", .error), ("disabled", .disabled), ("disable", .disabled), ("off", .disabled),
    ("none", .disabled)]

def parse? (raw : Bytes) : Option Level :=
  let name := raw.trim.lowerCase
  (names.find? fun (n, _) => Bytes.ofString n = name).map Prod.snd

end Level

structure Config where
  level : Level
  timestamp : Bool
  noColor : Bool
  deriving DecidableEq, Repr

namespace Config

def standard : Config := ⟨.info, true, false⟩

def testing : Config := ⟨.debug, false, true⟩

def ofProfile (n : Int) : Config :=
  if n = 1 then testing else standard

def flag? (raw : Bytes) : Option Bool :=
  raw.trim.toBool?

-- Settings of the environment win. `getenv` gives the empty text for a variable that is not set.
def override (c : Config) (getenv : Bytes → Bytes) : Config where
  level := (Level.parse? (getenv "TAPERT_LOG_LEVEL")).getD c.level
  timestamp := (flag? (getenv "TAPERT_LOG_TIMESTAMP")).getD c.timestamp
  noColor := (flag? (getenv "TAPERT_LOG_NOCOLOR")).getD c.noColor

end Config
end Log
end TapeShell
