import TapeShell.Calendar.Stamp
import TapeShell.Log.Level
import TapeShell.Text.Quoted
import TapeShell.Text.UpperCase

namespace TapeShell.Log

inductive Field where
  | int (n : Int)
  | text (bs : Bytes)
  deriving DecidableEq, Repr

structure Event where
  level : Level
  message : Bytes
  fields : List (Bytes × Field) := []
  deriving DecidableEq, Repr

namespace Event

def debug (message : Bytes) (fields : List (Bytes × Field) := []) : Event :=
  ⟨.debug, message, fields⟩

def withField (e : Event) (key : Bytes) (value : Field) : Event :=
  { e with fields := (key, value) :: e.fields }

end Event

def errorKey : Bytes := "error"

def levelKey : Bytes := "level"

def timeKey : Bytes := "time"

def messageKey : Bytes := "message"

def callerKey : Bytes := "caller"

-- What is written of a text: stray bytes become the replacement character.
def readable (bs : Bytes) : Bytes :=
  Bytes.ofChars bs.chars

namespace Field

def readable : Field → Field
  | .int n => .int n
  | .text bs => .text (Log.readable bs)

def plain : Field → Bytes
  | .int n => Bytes.ofInt n
  | .text bs => bs

end Field

def latest : List (Bytes × Field) → List (Bytes × Field)
  | [] => []
  | (key, value) :: fields =>
    if fields.any (·.1 = key) then latest fields else (key, value) :: latest fields

-- All that is known of an event: its level, its fields, the time and the message, in this order. Of several
-- values under one key the last one counts.
def Event.record (time : Option Calendar.Instant) (e : Event) : List (Bytes × Field) :=
  let shownTime := time.toList.map fun t => (timeKey, Field.text t.stamp)
  let message := if e.message = [] then [] else [(messageKey, Field.text e.message)]
  let all := (levelKey, Field.text e.level.name) :: e.fields ++ shownTime ++ message
  latest (all.map fun (key, value) => (readable key, value.readable))

def paint (noColor : Bool) (color : Nat) (bs : Bytes) : Bytes :=
  if noColor then bs else "\x1b[" ++ Bytes.ofNat color ++ "m" ++ bs ++ "\x1b[0m"

def labels : List (String × String × Option Nat) :=
  [("trace", "TRC", some 34), ("debug", "DBG", none), ("info", "INF", some 32), ("warn", "WRN", some 33),
    ("error", "ERR", some 31), ("fatal", "FTL", some 31), ("panic", "PNC", some 31)]

def integer? : Bytes → Option Int
  | [] => none
  | b :: bs =>
    if b = '-'.toUInt8 then (Bytes.toNat? bs).map fun n => -n
    else if b = '+'.toUInt8 then (Bytes.toNat? bs).map fun n => n
    else (Bytes.toNat? (b :: bs)).map fun n => n

def label? (level : Bytes) : Option (String × Option Nat) :=
  match labels.find? fun (name, _) => name.toList = level.chars.map Char.toLower with
  | some (_, label) => some label
  | none =>
    match integer? level with
    | some n => if -1 ≤ n then (labels.drop (n + 1).toNat).head?.map Prod.snd else none
    | none => none

def abbreviation (level : Bytes) : Bytes :=
  if level = [] then "???" else Bytes.upperCase (level.take 3)

def shownLevel (noColor : Bool) : Option Field → Bytes
  | none => "???"
  | some (.int n) => abbreviation (Bytes.ofInt n)
  | some (.text level) =>
    match label? level with
    | some (label, some color) => paint noColor color label
    | some (label, none) => label
    | none => abbreviation level

-- The time of the day of a stamp or of a number of seconds; another text stands for itself.
def shownTime (noColor : Bool) (time : Option Field) : Bytes :=
  paint noColor 90 <|
    match time with
    | none => "<nil>"
    | some (.int n) => Calendar.Instant.clockTime { unix := n }
    | some (.text stamp) =>
      match Calendar.Stamp.read? Calendar.Stamp.full stamp with
      | some s => Calendar.Instant.clockTime { unix := s.secondOfDay }
      | none => stamp

def shownCaller (noColor : Bool) : Option Field → Bytes
  | some (.text caller) => if caller = [] then [] else paint noColor 1 caller ++ paint noColor 36 " >"
  | _ => []

def shownMessage (noColor : Bool) (level message : Option Field) : Bytes :=
  match message with
  | none => []
  | some m =>
    let isBold := ["info", "warn", "error", "fatal", "panic"].any fun name =>
      level = some (.text (Bytes.ofString name))
    if m.plain = [] then [] else if isBold then paint noColor 1 m.plain else m.plain

def needsQuotes (bs : Bytes) : Bool :=
  bs.chars.any fun c => c.toNat ≤ 0x20 || 0x7E < c.toNat || c = '\\' || c = '"'

namespace Field

def render : Field → Bytes
  | .int n => Bytes.ofInt n
  | .text bs => if needsQuotes bs then bs.quote else bs

def line (noColor : Bool) (key : Bytes) (value : Field) : Bytes :=
  let shown := if key = errorKey then paint noColor 31 (paint noColor 1 value.render) else value.render
  paint noColor 36 (key ++ "=") ++ shown

end Field

-- Fields in the order of their keys. An error goes before all others, and then a field without a name is left
-- out.
def arrange (fields : List (Bytes × Field)) : List (Bytes × Field) :=
  let sorted := fields.mergeSort fun a b => Bytes.le a.1 b.1
  match sorted.find? (·.1 = errorKey) with
  | none => sorted
  | some error => error :: sorted.filter fun (key, _) => key ≠ errorKey ∧ key ≠ []

def renderRecord (noColor : Bool) (record : List (Bytes × Field)) : Bytes :=
  let level := record.lookup levelKey
  let parts := [shownTime noColor (record.lookup timeKey), shownLevel noColor level,
    shownCaller noColor (record.lookup callerKey),
    shownMessage noColor level (record.lookup messageKey)]
  let others := record.filter fun (key, _) => key ∉ [levelKey, timeKey, callerKey, messageKey]
  let fields := (arrange others).map fun (key, value) => Field.line noColor key value
  Bytes.join " " (parts.filter (· ≠ []) ++ fields) ++ "\n"

def Event.render (noColor : Bool) (time : Option Calendar.Instant) (e : Event) : Bytes :=
  renderRecord noColor (e.record time)

namespace Config

def admits (c : Config) (e : Event) : Bool :=
  c.level.rank ≤ e.level.rank && e.level ≠ .disabled

def write (c : Config) (now : Calendar.Instant) (e : Event) : Bytes :=
  if c.admits e then e.render c.noColor (if c.timestamp then some now else none) else []

end Config
end TapeShell.Log
