import TapeShell.Settings.Basic
import TapeShell.Text.LowerCase
import TapeShell.Text.Quoted
import TapeShell.Toml.Document

namespace TapeShell.Settings.Toml

open TapeShell.Toml

def foldCase (c : Char) : Char :=
  if c = '\u0130' then c
  else if c = '\u017F' then 's'
  else Text.lowerCase c

def field? (key : Bytes) : Option Field :=
  match Field.all.find? fun f => Bytes.ofString f.key = key with
  | some f => some f
  | none =>
    if key.isUtf8 then Field.all.find? fun f => f.key.toList = key.chars.map foldCase else none

def showPart (part : Bytes) : Bytes :=
  if part ≠ [] ∧ part.chars.all isBareKeyChar then part
  else "\"" ++ part.runes.flatMap (fun r => match r.char with
    | '"' => ("\\\"" : Bytes)
    | '\\' => "\\\\"
    | '\t' => "\\t"
    | '\n' => "\\n"
    | '\r' => "\\r"
    | '\x08' => "\\b"
    | '\x0c' => "\\f"
    | c => if c.toNat < 0x20 || c.toNat = 0x7F then "\\u" ++ Bytes.ofHex 4 c.toNat else r.bytes) ++ "\""

def showPath (p : Path) : Bytes :=
  Bytes.join "." (p.map showPart)

def texts? (t : Table) : Option (List (Bytes × Bytes)) :=
  t.mapM fun
    | (name, .leaf (.text bs)) => some (name, bs)
    | _ => none

-- Sets a field as a file says. Macros that are no table are passed over.
def setField? (d : Draft) (c : Definition) : Field → Option Draft
  | .macros =>
    match c with
    | .table t => (texts? t).map fun macros => { d with macros }
    | _ => some d
  | .maxCells =>
    match c with
    | .leaf (.integer n) => some { d with maxCells := some n }
    | _ => none
  | f =>
    match c with
    | .leaf (.text bs) => d.setText? bs f
    | _ => none

def draft? (doc : Document) : Option Draft :=
  doc.root.foldlM (fun d (key, c) =>
    match field? key with
    | none => some d
    | some f => setField? d c f) {}

def isKnown (doc : Document) : Path → Bool
  | [key] => (field? key).isSome
  | [key, name] =>
    match field? key, doc.root.lookup key with
    | some .macros, some (.table t) => (t.lookup name).isSome
    | _, _ => false
  | _ => false

def unknownKey? (doc : Document) : Option Path :=
  doc.keys.reverse.find? (!isKnown doc ·)

end TapeShell.Settings.Toml
