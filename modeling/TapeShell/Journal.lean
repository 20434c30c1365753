import TapeShell.Calendar.Layout
import TapeShell.Tape.Program
import TapeShell.Text.Quoted

namespace TapeShell

open Tape

structure Expansion where
  time : Calendar.Instant
  name : Bytes
  code : Program

-- A program that was run. Arguments and result are kept as they were shown.
structure Execution where
  time : Calendar.Instant
  code : Program
  args : List Bytes
  result : Bytes

namespace Expansion

def format (layout : Bytes) (e : Expansion) (strftime : Calendar.Formatter := Calendar.strftime) : Bytes :=
  strftime layout e.time ++ " @" ++ e.name ++ "~ = `" ++ e.code.source ++ "'"

end Expansion

namespace Execution

def argLines (first : Nat) : List Bytes → Bytes
  | [] => []
  | arg :: args => "\narg" ++ Bytes.ofNat first ++ ": " ++ arg.quote ++ argLines (first + 1) args

def format (layout : Bytes) (e : Execution) (strftime : Calendar.Formatter := Calendar.strftime) : Bytes :=
  strftime layout e.time ++ " `" ++ e.code.source ++ "'" ++ argLines 1 e.args ++ "\nresult: " ++
    e.result.quote

end Execution

structure Journal where
  expansions : List Expansion := []
  executions : List Execution := []

namespace Journal

def numbered (mark : Bytes) (first : Nat) : List Bytes → Bytes
  | [] => []
  | line :: lines =>
    mark ++ Bytes.ofNat first ++ ": " ++ line ++ "\n" ++ numbered mark (first + 1) lines

def chapter (what mark : Bytes) (lines : List Bytes) : Bytes :=
  if lines = [] then "no log for " ++ what ++ "\n"
  else "log for " ++ what ++ ": (" ++ Bytes.ofNat lines.length ++ " entries)\n" ++ numbered mark 0 lines

def overview (layout : Bytes) (j : Journal) (strftime : Calendar.Formatter := Calendar.strftime) : Bytes :=
  chapter "macros" [] (j.expansions.map (·.format layout strftime)) ++
    chapter "calls" "#" (j.executions.map (·.format layout strftime))

end Journal
end TapeShell
