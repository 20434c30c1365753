import TapeShell.Text.Bytes

namespace TapeShell

inductive PathError where
  | missing
  | notDirectory
  | isDirectory
  | tooLong
  | invalid
  deriving DecidableEq, Repr

def PathError.message : PathError → Bytes
  | .missing => "no such file or directory"
  | .notDirectory => "not a directory"
  | .isDirectory => "is a directory"
  | .tooLong => "file name too long"
  | .invalid => "invalid argument"

structure FileError where
  action : Bytes
  path : Bytes
  reason : Bytes
  isMissing : Bool := false

namespace FileError

def message (e : FileError) : Bytes :=
  e.action ++ " " ++ e.path ++ ": " ++ e.reason

def ofPath (action path : Bytes) (e : PathError) : FileError :=
  ⟨action, path, e.message, e = .missing⟩

end FileError

-- Files by the names on the way to them. A directory is there if a file is in it.
structure Files where
  entries : List (List Bytes × Bytes) := []

inductive Place where
  | inside (way : List Bytes)
  | above
  | system (way : List Bytes)
  | vacant

inductive Content where
  | directory
  | file (bs : Bytes)

namespace Files

def split : Bytes → List Bytes
  | [] => [[]]
  | b :: bs =>
    if b = '/'.toUInt8 then [] :: split bs
    else match split bs with
      | [] => [[b]]
      | piece :: pieces => (b :: piece) :: pieces

def here : Bytes := "."

def parent : Bytes := ".."

def pieces (path : Bytes) : List Bytes :=
  (split path).filter (· ≠ [])

def names (path : Bytes) : List Bytes :=
  (pieces path).filter (· ≠ here)

def systemDirectories : List (List Bytes) :=
  [] :: (["bin", "dev", "etc", "home", "proc", "root", "tmp", "usr", "var"].map fun name =>
    [Bytes.ofString name])

def nullDevice : List Bytes := ["dev", "null"]

def content? (f : Files) (way : List Bytes) : Option Bytes :=
  f.entries.lookup way

def isDirectory (f : Files) (way : List Bytes) : Bool :=
  way = [] || f.entries.any fun (w, _) => way.length < w.length && way.isPrefixOf w

def contentAt? (f : Files) : Place → Option Content
  | .inside way =>
    if f.isDirectory way then some .directory else (f.content? way).map .file
  | .above => some .directory
  | .system way =>
    if way ∈ systemDirectories then some .directory
    else if way = nullDevice then some (.file [])
    else none
  | .vacant => none

def maxName : Nat := 255

def maxPath : Nat := 4095

def enter (name : Bytes) : Place → Except PathError Place
  | .inside way =>
    if name = here then .ok (.inside way)
    else if name = parent then .ok (if way = [] then .above else .inside way.dropLast)
    else if maxName < name.length then .error .tooLong
    else .ok (.inside (way ++ [name]))
  | .above =>
    if name = here ∨ name = parent then .ok .above
    else if maxName < name.length then .error .tooLong
    else .ok .vacant
  | .system way =>
    if name = here then .ok (.system way)
    else if name = parent then .ok (.system way.dropLast)
    else if maxName < name.length then .error .tooLong
    else .ok (.system (way ++ [name]))
  | .vacant => .ok .vacant

def needDirectory (f : Files) (p : Place) : Except PathError Unit :=
  match f.contentAt? p with
  | some .directory => .ok ()
  | some (.file _) => .error .notDirectory
  | none => .error .missing

def walk (f : Files) (p : Place) : List Bytes → Except PathError Place
  | [] => .ok p
  | name :: names => do
    f.needDirectory p
    f.walk (← enter name p) names

def origin (path : Bytes) : Place :=
  if path.head? = some '/'.toUInt8 then .system [] else .inside []

def endsInSlash (path : Bytes) : Bool :=
  path.getLast? = some '/'.toUInt8

def checkPath (path : Bytes) : Except PathError Unit :=
  if path = [] then .error .missing
  else if path.contains 0 then .error .invalid
  else if maxPath < path.length then .error .tooLong
  else .ok ()

def find (f : Files) (path : Bytes) : Except PathError Content := do
  checkPath path
  let p ← f.walk (origin path) (pieces path)
  if endsInSlash path then f.needDirectory p
  match f.contentAt? p with
  | some content => .ok content
  | none => .error .missing

def read (f : Files) (path : Bytes) : Except FileError Bytes :=
  match f.find path with
  | .ok (.file bs) => .ok bs
  | .ok .directory => .error (.ofPath "read" path .isDirectory)
  | .error e => .error (.ofPath "open" path e)

def locate (f : Files) (path : Bytes) : Except PathError Place := do
  checkPath path
  match (pieces path).getLast? with
  | none => .error .isDirectory
  | some name =>
    let directory ← f.walk (origin path) (pieces path).dropLast
    f.needDirectory directory
    if endsInSlash path ∨ name = here ∨ name = parent then .error .isDirectory
    else enter name directory

def write (f : Files) (path content : Bytes) : Except FileError Files :=
  match f.locate path with
  | .error e => .error (.ofPath "open" path e)
  | .ok place =>
    match f.contentAt? place, place with
    | some .directory, _ => .error (.ofPath "open" path .isDirectory)
    | _, .inside way => .ok ⟨f.entries.filter (·.1 ≠ way) ++ [(way, content)]⟩
    | _, _ => .ok f

end Files
end TapeShell
