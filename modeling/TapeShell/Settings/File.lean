import TapeShell.Files
import TapeShell.Settings.Toml
import TapeShell.Settings.Yaml

namespace TapeShell.Settings

inductive LoadError where
  | unreadable (e : FileError)
  | undecodable
  | unknownKey (key : Bytes)
  | negativeCells
  | unknownFormat (extension : Bytes)

namespace LoadError

def message (path : Bytes) : LoadError → Bytes
  | .unreadable e => "load config: " ++ e.message
  | .undecodable => "load config " ++ path ++ ": invalid settings"
  | .unknownKey key => "load config " ++ path ++ ": unknown key " ++ key.quote
  | .negativeCells => "load config " ++ path ++ ": max_cells must not be negative"
  | .unknownFormat extension => "load config " ++ path ++ ": unknown format " ++ extension.quote

end LoadError

def extension (path : Bytes) : Bytes :=
  let name := (path.reverse.takeWhile (· ≠ '/'.toUInt8)).reverse
  if name.contains '.'.toUInt8 then
    '.'.toUInt8 :: (name.reverse.takeWhile (· ≠ '.'.toUInt8)).reverse
  else []

inductive Format where
  | toml
  | yaml
  deriving DecidableEq, Repr

def format? (extension : Bytes) : Option Format :=
  if extension = Bytes.ofString ".toml" then some .toml
  else if extension = Bytes.ofString ".yaml" ∨ extension = Bytes.ofString ".yml" then some .yaml
  else none

def decode (format : Format) (content : Bytes) : Except LoadError Draft :=
  match format with
  | .toml =>
    match TapeShell.Toml.Document.parse? content with
    | none => .error .undecodable
    | some doc =>
      match Toml.draft? doc, Toml.unknownKey? doc with
      | none, _ => .error .undecodable
      | some _, some key => .error (.unknownKey (Toml.showPath key))
      | some draft, none => .ok draft
  | .yaml =>
    match Yaml.draft? content with
    | none => .error .undecodable
    | some draft => .ok draft

def load (path : Bytes) (content : Except FileError Bytes) : Except LoadError Settings :=
  match content with
  | .error e => .error (.unreadable e)
  | .ok content =>
    let extension := (extension path).lowerCase
    match format? extension with
    | none => .error (.unknownFormat extension)
    | some format =>
      match decode format content with
      | .error e => .error e
      | .ok draft =>
        match draft.complete? with
        | none => .error .negativeCells
        | some settings => .ok settings

end TapeShell.Settings
