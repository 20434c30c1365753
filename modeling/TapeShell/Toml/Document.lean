import TapeShell.Toml.Item

namespace TapeShell.Toml

inductive Definition where
  | leaf (l : Leaf)
  | table (entries : List (Bytes × Definition))
  -- An array of tables, of which the last one is still open.
  | tables (last : List (Bytes × Definition))

abbrev Table := List (Bytes × Definition)

namespace Table

def insert (t : Table) (key : Bytes) (c : Definition) : Table :=
  if (t.lookup key).isSome then t.map fun e => if e.1 = key then (key, c) else e else t ++ [(key, c)]

def get? (t : Table) : Path → Option Definition
  | [] => some (.table t)
  | key :: path =>
    match t.lookup key with
    | some (.table u) => get? u path
    | some (.tables u) => if path = [] then some (.tables u) else get? u path
    | some c => if path = [] then some c else none
    | none => none

def modifyAt? (f : Table → Option Table) : Path → Table → Option Table
  | [], t => f t
  | key :: path, t =>
    match t.lookup key with
    | some (.table u) => (modifyAt? f path u).map fun u => t.insert key (.table u)
    | some (.tables u) => (modifyAt? f path u).map fun u => t.insert key (.tables u)
    | _ => none

end Table

structure Document where
  root : Table := []
  -- Tables that are there only because of what they hold. They may be defined once more.
  implicits : List Path := []
  arrays : List Path := []
  keys : List Path := []

namespace Document

def addImplicit (d : Document) (p : Path) : Document :=
  if d.implicits.contains p then d else { d with implicits := p :: d.implicits }

def dropImplicit (d : Document) (p : Path) : Document :=
  { d with implicits := d.implicits.filter (· ≠ p) }

-- Notes whether the value of a key is an array. For a key with an empty name that is noted of the table it is
-- in.
def setArray (d : Document) (p : Path) (isArray : Bool) : Document :=
  let p := if p.getLast? = some [] && p.length ≠ 1 then p.dropLast else p
  let others := d.arrays.filter (· ≠ p)
  { d with arrays := if isArray then p :: others else others }

def addKey (d : Document) (p : Path) : Document :=
  { d with keys := p :: d.keys }

def put (d : Document) (context : Path) (key : Bytes) (c : Definition) : Option Document := do
  let root ← Table.modifyAt? (fun t => some (t.insert key c)) context d.root
  return { d with root }

-- Defines a key of a table once. One that was implicit keeps what it holds, unless it is to be an array; then
-- the array takes its place.
def define (d : Document) (context : Path) (key : Bytes) (c : Definition) : Option Document :=
  let p := context ++ [key]
  match d.root.get? context with
  | some (.leaf _) => none
  | none => none
  | some (.table t) | some (.tables t) =>
    if (t.lookup key).isNone then d.put context key c
    else if !d.implicits.contains p then none
    else if d.arrays.contains p then (d.dropImplicit p).put context key c
    else some (d.dropImplicit p)

def ensureParents (d : Document) (p : Path) : Option Document :=
  (List.range (p.length - 1)).foldlM (fun d i =>
    let above := p.take i
    let parent := p.take (i + 1)
    match d.root.get? parent, parent.getLast? with
    | none, some key => (d.addImplicit parent).put above key (.table [])
    | some (.leaf _), _ => none
    | _, _ => some d) d

def openTable (d : Document) (p : Path) : Option Document := do
  (← d.ensureParents p).define p.dropLast (← p.getLast?) (.table [])

def openNext (d : Document) (p : Path) : Option Document := do
  let d ← d.ensureParents p
  match d.root.get? p with
  | none | some (.tables _) => d.put p.dropLast (← p.getLast?) (.tables [])
  | _ => none

def openDotted (d : Document) (context key : Path) : Option Document :=
  (List.range (key.length - 1)).foldlM (fun d i =>
    let p := context ++ key.take (i + 1)
    (d.addImplicit p).openTable p) d

end Document

inductive Frame where
  | array
  | inline (shape : Table)

structure Target where
  context : Path
  key : Path

namespace Target

def path (t : Target) : Path :=
  t.context ++ t.key

end Target

structure Builder where
  document : Document := {}
  context : Path := []
  targets : List Target := []
  frames : List Frame := []

namespace Builder

def addShape? (c : Definition) : (key : Path) → Table → Option Table
  | [], _ => none
  | [k], t => some (t.insert k c)
  | k :: ks, t =>
    match t.lookup k with
    | none => (addShape? c ks []).map fun u => t.insert k (.table u)
    | some (.table u) => (addShape? c ks u).map fun u => t.insert k (.table u)
    | _ => none

def innermost (b : Builder) : Path :=
  match b.targets with
  | [] => b.context
  | t :: _ => t.path

-- A value is complete. An item of an array needs nothing more; any other is the value of a key.
def complete (b : Builder) (c : Definition) (isArray : Bool) : Option Builder :=
  match b.frames, b.targets with
  | .array :: _, _ => some b
  | frames, t :: targets => do
    let p := t.path
    let d ← b.document.define p.dropLast (← p.getLast?) c
    let frames ←
      match frames with
      | .inline shape :: frames => (addShape? c t.key shape).map fun shape => .inline shape :: frames
      | frames => some frames
    return { b with document := d.setArray p isArray, targets, frames }
  | _, [] => none

def openArray (b : Builder) : Option Builder := do
  let t ← b.targets.head?
  return { b with document := b.document.setArray t.path true, frames := .array :: b.frames }

def openInline (b : Builder) : Option Builder := do
  let t ← b.targets.head?
  let d := b.document.addImplicit t.path
  let d ←
    match b.frames with
    | .array :: _ => d.openNext t.path
    | _ => d.openTable t.path
  return { b with document := d, frames := .inline [] :: b.frames }

def add (b : Builder) : Item → Option Builder
  | .header p isArray => do
    let d ← if isArray then b.document.openNext p else b.document.openTable p
    return { b with document := (d.setArray p false).addKey p, context := p }
  | .key key => do
    let context := b.innermost
    let d ← b.document.openDotted context key
    return { b with
      document := d.addKey (context ++ key)
      targets := { context, key } :: b.targets }
  | .leaf l => b.complete (.leaf l) false
  | .arrayStart => b.openArray
  | .arrayEnd => { b with frames := b.frames.drop 1 }.complete (.leaf .other) true
  | .tableStart => b.openInline
  | .tableEnd =>
    match b.frames with
    | .inline shape :: frames => { b with frames }.complete (.table shape) false
    | _ => none

end Builder

def Document.parse? (content : Bytes) : Option Document := do
  let b ← (← items? content).foldlM Builder.add {}
  return b.document

end TapeShell.Toml
