import TapeShell.Text.Rune
import TapeShell.Yaml.Token

namespace TapeShell.Yaml

inductive Node where
  -- An empty tag is none. A scalar is implicit if its text tells what it is.
  | scalar (tag text : Bytes) (isImplicit : Bool)
  | sequence (items : List Node)
  | mapping (entries : List (Node × Node))
  | alias (name : Bytes) (target : Node)

namespace Node

def absent : Node :=
  .scalar [] [] true

def isMapping : Node → Bool
  | .mapping _ => true
  | _ => false

end Node

structure Document where
  root : Node
  anchors : List (Bytes × Node)

inductive Frame where
  | blockSequence (items : List Node)
  -- A sequence in the column of the mapping that it belongs to.
  | levelSequence (items : List Node)
  | blockMapping (entries : List (Node × Node)) (key? : Option Node)
  | flowSequence (items : List Node)
  | pair (key? : Option Node)
  -- A bare key has no value.
  | flowMapping (entries : List (Node × Node)) (key? : Option Node) (isBare : Bool)

namespace Frame

def close : Frame → Node
  | .blockSequence items => .sequence items.reverse
  | .levelSequence items => .sequence items.reverse
  | .flowSequence items => .sequence items.reverse
  | .blockMapping entries _ => .mapping entries.reverse
  | .flowMapping entries _ _ => .mapping entries.reverse
  | .pair _ => .mapping []

end Frame

structure Anchor where
  name : Bytes
  number : Nat
  node? : Option Node

structure Builder where
  scanner : Scanner
  handles : List (Bytes × Bytes) := []
  anchors : List Anchor := []
  frames : List (Option Nat × Frame) := []

inductive Task where
  -- A node is expected: one in block style, or a sequence without indentation, only where it may be.
  | expect (inBlock level : Bool)
  | give (n : Node)
  | resume

namespace Builder

def peek (b : Builder) : Option (Token × Builder) := do
  let (t, scanner) ← b.scanner.peek
  return (t, { b with scanner })

def skip (b : Builder) : Builder :=
  { b with scanner := b.scanner.skip }

def addAnchor (b : Builder) : Option Bytes → Option Nat × Builder
  | none => (none, b)
  | some name =>
    let number := b.anchors.length
    (some number, { b with anchors := { name, number, node? := none } :: b.anchors })

def setAnchor (b : Builder) (n : Node) : Option Nat → Builder
  | none => b
  | some number => { b with
      anchors := b.anchors.map fun a => if a.number = number then { a with node? := some n } else a }

def target? (b : Builder) (name : Bytes) : Option Node := do
  (← b.anchors.find? (·.name = name)).node?

def properties (b : Builder) : Option (Option Bytes × Option (Bytes × Bytes) × Builder) := do
  let (t, b) ← b.peek
  match t with
  | .anchor name =>
    let (t, b) ← b.skip.peek
    match t with
    | .tag handle suffix => return (some name, some (handle, suffix), b.skip)
    | _ => return (some name, none, b)
  | .tag handle suffix =>
    let (t, b) ← b.skip.peek
    match t with
    | .anchor name => return (some name, some (handle, suffix), b.skip)
    | _ => return (none, some (handle, suffix), b)
  | _ => return (none, none, b)

def fullTag? (b : Builder) : Option (Bytes × Bytes) → Option Bytes
  | none => some []
  | some (handle, suffix) =>
    if handle = [] then some suffix else (b.handles.lookup handle).map (· ++ suffix)

def openFrame (b : Builder) (anchor : Option Bytes) (f : Frame) : Builder × Task :=
  let (number, b) := b.addAnchor anchor
  ({ b with frames := (number, f) :: b.frames }, .resume)

def giveScalar (b : Builder) (anchor : Option Bytes) (n : Node) : Builder × Task :=
  let (number, b) := b.addAnchor anchor
  (b.setAnchor n number, .give n)

def expect (b : Builder) (inBlock level : Bool) : Option (Builder × Task) := do
  let (t, b) ← b.peek
  if let .alias name := t then
    return (b.skip, .give (.alias name (← b.target? name)))
  let (anchor, tagParts, b) ← b.properties
  let (t, b) ← b.peek
  let tag ← b.fullTag? tagParts
  match t, inBlock, level with
  | .dash, _, true => return b.openFrame anchor (.levelSequence [])
  | .scalar text isPlain, _, _ =>
    let isImplicit := (tag = [] && isPlain) || tag = bang
    return b.skip.giveScalar anchor (.scalar tag text isImplicit)
  | .flowSequence, _, _ => return b.skip.openFrame anchor (.flowSequence [])
  | .flowMapping, _, _ => return b.skip.openFrame anchor (.flowMapping [] none false)
  | .blockSequence, true, _ => return b.skip.openFrame anchor (.blockSequence [])
  | .blockMapping, true, _ => return b.skip.openFrame anchor (.blockMapping [] none)
  | _, _, _ =>
    guard (anchor.isSome || tag ≠ [])
    return b.giveScalar anchor (.scalar tag [] (tag = []))

def expectUnless (b : Builder) (tokens : List Token) (inBlock level : Bool) :
    Option (Builder × Task) := do
  let (t, b) ← b.peek
  return if t ∈ tokens then (b, .give .absent) else (b, .expect inBlock level)

def setFrame (b : Builder) (f : Frame) : Builder :=
  match b.frames with
  | [] => b
  | (number, _) :: frames => { b with frames := (number, f) :: frames }

def closeWith (b : Builder) (n : Node) : Builder × Task :=
  match b.frames with
  | [] => (b, .give n)
  | (number, _) :: frames => ({ b with frames }.setAnchor n number, .give n)

def add (b : Builder) (n : Node) : Frame → Builder × Task
  | .blockSequence items => (b.setFrame (.blockSequence (n :: items)), .resume)
  | .levelSequence items => (b.setFrame (.levelSequence (n :: items)), .resume)
  | .flowSequence items => (b.setFrame (.flowSequence (n :: items)), .resume)
  | .blockMapping entries none => (b.setFrame (.blockMapping entries (some n)), .resume)
  | .blockMapping entries (some k) => (b.setFrame (.blockMapping ((k, n) :: entries) none), .resume)
  | .pair none => (b.setFrame (.pair (some n)), .resume)
  | .pair (some k) => b.closeWith (.mapping [(k, n)])
  | .flowMapping entries none isBare => (b.setFrame (.flowMapping entries (some n) isBare), .resume)
  | .flowMapping entries (some k) _ =>
    (b.setFrame (.flowMapping ((k, n) :: entries) none false), .resume)

-- Passes over the comma between the items of a flow collection, if there are items already. Gives the token
-- after it.
def separate (b : Builder) (isFirst : Bool) (closing : Token) : Option (Token × Builder) := do
  let (t, b) ← b.peek
  if isFirst || t = closing then return (t, b)
  guard (t = .comma)
  b.skip.peek

def resume (b : Builder) : Frame → Option (Builder × Task)
  | .blockSequence items => do
    let (t, b) ← b.peek
    match t with
    | .dash => b.skip.expectUnless [.dash, .blockEnd] true false
    | .blockEnd => return b.skip.closeWith (Frame.blockSequence items).close
    | _ => none
  | .levelSequence items => do
    let (t, b) ← b.peek
    match t with
    | .dash => b.skip.expectUnless [.dash, .key, .value, .blockEnd] true false
    | _ => return b.closeWith (Frame.levelSequence items).close
  | .blockMapping entries none => do
    let (t, b) ← b.peek
    match t with
    | .key => b.skip.expectUnless [.key, .value, .blockEnd] true true
    | .blockEnd => return b.skip.closeWith (Frame.blockMapping entries none).close
    | _ => none
  | .blockMapping _ (some _) => do
    let (t, b) ← b.peek
    match t with
    | .value => b.skip.expectUnless [.key, .value, .blockEnd] true true
    | _ => return (b, .give .absent)
  | .flowSequence items => do
    let (t, b) ← b.separate items.isEmpty .flowSequenceEnd
    match t with
    | .flowSequenceEnd => return b.skip.closeWith (Frame.flowSequence items).close
    | .key => return b.skip.openFrame none (.pair none)
    | _ => return (b, .expect false false)
  | .pair none => do
    let (t, b) ← b.peek
    if t ∈ [Token.value, .comma, .flowSequenceEnd] then return (b.skip, .give .absent)
    return (b, .expect false false)
  | .pair (some _) => do
    let (t, b) ← b.peek
    match t with
    | .value => b.skip.expectUnless [.comma, .flowSequenceEnd] false false
    | _ => return (b, .give .absent)
  | .flowMapping entries none _ => do
    let (t, b) ← b.separate entries.isEmpty .flowMappingEnd
    match t with
    | .flowMappingEnd => return b.skip.closeWith (Frame.flowMapping entries none false).close
    | .key => b.skip.expectUnless [.value, .comma, .flowMappingEnd] false false
    | _ => return (b.setFrame (.flowMapping entries none true), .expect false false)
  | .flowMapping _ (some _) true => do
    let (_, b) ← b.peek
    return (b, .give .absent)
  | .flowMapping _ (some _) false => do
    let (t, b) ← b.peek
    match t with
    | .value => b.skip.expectUnless [.comma, .flowMappingEnd] false false
    | _ => return (b, .give .absent)

def run : (fuel : Nat) → Builder → Task → Option (Node × Builder)
  | 0, _, _ => none
  | fuel + 1, b, task =>
    let next? :=
      match task, b.frames with
      | .expect inBlock level, _ => b.expect inBlock level
      | .give n, (_, f) :: _ => some (b.add n f)
      | .give _, [] => none
      | .resume, (_, f) :: _ => b.resume f
      | .resume, [] => none
    match task, b.frames, next? with
    | .give n, [], _ => some (n, b)
    | _, _, none => none
    | _, _, some (b, task) => run fuel b task

def usualHandles : List (Bytes × Bytes) :=
  [(bang, bang), ("!!", "tag:yaml.org,2002:")]

def directives : (fuel : Nat) → (hasVersion : Bool) → Builder → Option Builder
  | 0, _, _ => none
  | fuel + 1, hasVersion, b =>
    match b.peek with
    | none => none
    | some (.version major minor, b) =>
      if hasVersion || major ≠ 1 || minor ≠ 1 then none else directives fuel true b.skip
    | some (.handle name start, b) =>
      if (b.handles.lookup name).isSome then none
      else directives fuel hasVersion { b.skip with handles := b.handles ++ [(name, start)] }
    | some (_, b) => some { b with handles := b.handles ++ usualHandles }

def lastAnchors (b : Builder) : List (Bytes × Node) :=
  b.anchors.filterMap fun a => a.node?.map (a.name, ·)

def document (b : Builder) (task : Task) : Option Document := do
  let (root, b) ← b.run (8 * b.scanner.size) task
  let (_, b) ← b.peek
  return { root, anchors := b.lastAnchors }

def isEdge : Token → Bool
  | .version _ _ | .handle _ _ | .documentStart | .documentEnd | .streamEnd => true
  | _ => false

def first (b : Builder) : Option Document := do
  let (t, b) ← b.peek
  match t with
  | .streamEnd => return { root := .absent, anchors := [] }
  | .version _ _ | .handle _ _ | .documentStart =>
    let b ← b.directives b.scanner.size false
    let (t, b) ← b.peek
    guard (t = .documentStart)
    let (t, b) ← b.skip.peek
    b.document (if isEdge t then .give .absent else .expect true false)
  | _ => ({ b with handles := usualHandles } : Builder).document (.expect true false)

end Builder

def isAllowed (c : Char) : Bool :=
  let n := c.toNat
  n = 0x09 || n = 0x0A || n = 0x0D || (0x20 ≤ n && n ≤ 0x7E) || n = 0x85 || (0xA0 ≤ n && n ≤ 0xFFFD) ||
    0x10000 ≤ n

def units? (bigEndian : Bool) : Bytes → Option (List Nat)
  | [] => some []
  | [_] => none
  | a :: b :: bs => do
    let unit := if bigEndian then a.toNat * 256 + b.toNat else b.toNat * 256 + a.toNat
    return unit :: (← units? bigEndian bs)

def ofUnits? : List Nat → Option (List Char)
  | [] => some []
  | [u] => if u.isValidChar then some [Char.ofNat u] else none
  | u :: v :: us =>
    if 0xD800 ≤ u && u < 0xDC00 then
      if 0xDC00 ≤ v && v < 0xE000 then do
        return Char.ofNat (0x10000 + (u - 0xD800) * 0x400 + (v - 0xDC00)) :: (← ofUnits? us)
      else none
    else if u.isValidChar then do
      return Char.ofNat u :: (← ofUnits? (v :: us))
    else none

def decode? (bs : Bytes) : Option (List Char) :=
  match bs with
  | 0xFF :: 0xFE :: rest => (units? false rest).bind ofUnits?
  | 0xFE :: 0xFF :: rest => (units? true rest).bind ofUnits?
  | 0xEF :: 0xBB :: 0xBF :: rest => if Bytes.isUtf8 rest then some (Bytes.chars rest) else none
  | _ => if bs.isUtf8 then some bs.chars else none

def Document.parse? (bs : Bytes) : Option Document := do
  let cs ← decode? bs
  guard (cs.all isAllowed)
  ({ scanner := Scanner.ofChars cs } : Builder).first

end TapeShell.Yaml
