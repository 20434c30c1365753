import TapeShell.Calendar.Stamp
import TapeShell.Text.Digit
import TapeShell.Text.Rune
import TapeShell.Text.Scientific

namespace TapeShell.Toml

abbrev Path := List Bytes

-- A value without brackets. Of values only texts and integers have a use here.
inductive Leaf where
  | text (bs : Bytes)
  | integer (n : Int)
  | other
  deriving DecidableEq, Repr

inductive Item where
  | header (path : Path) (isArray : Bool)
  | key (path : Path)
  | leaf (l : Leaf)
  | arrayStart
  | arrayEnd
  | tableStart
  | tableEnd
  deriving DecidableEq, Repr

abbrev Scan (α : Type) : Type :=
  StateT (List Char) Option α

namespace Scan

def skip? (text : String) : Scan Bool := do
  let cs ← get
  if text.toList.isPrefixOf cs then
    set (cs.drop text.length)
    return true
  return false

def skip (text : String) : Scan Unit := do
  guard (← skip? text)

def takeWhile (p : Char → Bool) : Scan (List Char) := do
  let cs ← get
  let taken := cs.takeWhile p
  set (cs.drop taken.length)
  return taken

end Scan

open Scan

def isBlank (c : Char) : Bool :=
  c = ' ' || c = '\t'

def isBreak (c : Char) : Bool :=
  c = '\n' || c = '\r'

def blanks : Scan Unit :=
  discard (takeWhile isBlank)

def dropGap : (inComment : Bool) → List Char → List Char
  | _, [] => []
  | true, c :: cs => dropGap (!isBreak c) cs
  | false, c :: cs =>
    if isBlank c || isBreak c then dropGap false cs else if c = '#' then dropGap true cs else c :: cs

def gap : Scan Unit :=
  modify (dropGap false)

def lineEnd : Scan Unit := do
  blanks
  let cs ← get
  let cs := if cs.head? = some '#' then cs.dropWhile (!isBreak ·) else cs
  guard (cs.isEmpty || cs.head?.any isBreak)
  set cs

def escapes : List (Char × Char) :=
  [('b', '\x08'), ('t', '\t'), ('n', '\n'), ('f', '\x0c'), ('r', '\r'), ('e', '\x1b'), ('"', '"'),
    ('\\', '\\')]

def escape? : List Char → Option (Char × List Char)
  | [] => none
  | name :: cs =>
    let width := if name = 'x' then 2 else if name = 'u' then 4 else if name = 'U' then 8 else 0
    if width = 0 then (escapes.lookup name).map (·, cs)
    else do
      let digits := cs.take width
      guard (digits.length = width)
      return (← Text.codePoint? digits, cs.drop width)

def basicText? : (fuel : Nat) → (read : List Char) → List Char → Option (List Char × List Char)
  | 0, _, _ => none
  | _ + 1, _, [] => none
  | fuel + 1, read, c :: cs =>
    if c = '"' then some (read.reverse, cs)
    else if c = '\\' then
      match escape? cs with
      | none => none
      | some (e, cs) => basicText? fuel (e :: read) cs
    else if isBreak c then none
    else basicText? fuel (c :: read) cs

def basicText (fuel : Nat) : Scan (List Char) :=
  basicText? fuel []

def literalText : Scan (List Char) := do
  let text ← takeWhile fun c => c ≠ '\'' && !isBreak c
  skip "'"
  return text

-- Of so many quotes three close a text of several lines, and the others belong to it. There may be two of
-- these, or three after a backslash.
def closingQuotes? (count : Nat) (afterBackslash : Bool) : Option Nat :=
  if count ≤ 5 || (count = 6 && afterBackslash) then some (count - 3) else none

def longText? (quote : Char) :
    (fuel : Nat) → (read : List Char) → (afterBackslash : Bool) → List Char →
      Option (List Char × List Char)
  | 0, _, _, _ => none
  | _ + 1, _, _, [] => none
  | fuel + 1, read, afterBackslash, c :: cs =>
    if c = quote then
      let count := (cs.takeWhile (· = quote)).length + 1
      if count < 3 then longText? quote fuel (c :: read) false cs
      else
        match closingQuotes? count (afterBackslash && quote = '"') with
        | none => none
        | some more => some ((List.replicate more quote ++ read).reverse, cs.drop (count - 1))
    else if c = '\\' && quote = '"' then
      let space := cs.takeWhile fun c => isBlank c || isBreak c
      if space.contains '\n' then longText? quote fuel read false (cs.drop space.length)
      else
        match escape? cs with
        | none => none
        | some (e, rest) => longText? quote fuel (e :: read) (e = '\\' && cs.head? = some '\\') rest
    else longText? quote fuel (c :: read) false cs

def longText (fuel : Nat) (quote : Char) : Scan (List Char) := fun cs =>
  let cs := match cs with
    | '\n' :: cs => cs
    | '\r' :: '\n' :: cs => cs
    | cs => cs
  longText? quote fuel [] false cs

def isBareKeyChar (c : Char) : Bool :=
  c.isAlphanum || c = '_' || c = '-'

def keyPart (fuel : Nat) : Scan Bytes := do
  if ← skip? "\"" then return Bytes.ofChars (← basicText fuel)
  if ← skip? "'" then return Bytes.ofChars (← literalText)
  let cs ← takeWhile isBareKeyChar
  guard (cs ≠ [])
  return Bytes.ofChars cs

def pathFrom : (fuel : Nat) → (parts : Path) → Scan Path
  | 0, _ => failure
  | fuel + 1, parts => do
    blanks
    let parts := (← keyPart (fuel + 1)) :: parts
    blanks
    if ← skip? "." then pathFrom fuel parts else return parts.reverse

def path (fuel : Nat) : Scan Path :=
  pathFrom fuel []

def ungroup : List Char → Option (List Char)
  | [] => some []
  | '_' :: _ => none
  | [c] => some [c]
  | [_, '_'] => none
  | c :: '_' :: cs => (ungroup cs).map (c :: ·)
  | c :: cs => (ungroup cs).map (c :: ·)

def decimal? (cs : List Char) : Option Nat := do
  let digits ← ungroup cs
  guard (digits.length = 1 ∨ digits.head? ≠ some '0')
  Text.number? 10 digits

def inRange? (n : Int) : Option Int :=
  if Int64.minValue.toInt ≤ n ∧ n ≤ Int64.maxValue.toInt then some n else none

def integer? : List Char → Option Int
  | '0' :: 'x' :: digits => do inRange? (← Text.number? 16 (← ungroup digits))
  | '0' :: 'o' :: digits => do inRange? (← Text.number? 8 (← ungroup digits))
  | '0' :: 'b' :: digits => do inRange? (← Text.number? 2 (← ungroup digits))
  | cs => do
    let (isNegative, digits) := Text.unsigned cs
    let n ← decimal? digits
    inRange? (if isNegative then -n else n)

def isDigits (cs : List Char) : Bool :=
  ((ungroup cs).bind (Text.number? 10)).isSome

def isFloat (cs : List Char) : Bool :=
  let number := (Text.unsigned cs).2
  let isExponent := fun c => c = 'e' || c = 'E'
  let whole := number.takeWhile fun c => c ≠ '.' && !isExponent c
  let rest := number.drop whole.length
  let fraction := rest.takeWhile (!isExponent ·)
  let exponent := rest.drop fraction.length
  number = "inf".toList || number = "nan".toList ||
    ((decimal? whole).isSome && rest ≠ [] &&
      (fraction = [] || isDigits (fraction.drop 1)) &&
      (exponent = [] || isDigits (Text.unsigned (exponent.drop 1)).2) &&
      ((Scientific.parse? (number.filter (· ≠ '_'))).bind Scientific.whole?).isSome)

open Calendar.Stamp in
def stampLayouts : List (List Part) :=
  [true, false].flatMap fun seconds =>
    let both := date ++ .literal 'T' :: time true seconds
    [both ++ [.zone], both, date, time true seconds]

def isStamp (cs : List Char) : Bool :=
  let cs := cs.map fun c => if c = 't' || c = ' ' then 'T' else if c = 'z' then 'Z' else c
  stampLayouts.any fun layout => (Calendar.Stamp.read? layout (Bytes.ofChars cs)).isSome

def trimRight (cs : List Char) : List Char :=
  (cs.reverse.dropWhile isBlank).reverse

-- The characters of a value without quotes and brackets. Only a date may have blanks in it.
def bareText : Scan (List Char) := do
  let cs ← get
  let digits := cs.takeWhile Char.isDigit
  let next := (cs.drop digits.length).head?
  if digits ≠ [] && digits ≠ ['0'] && (next = some '-' || next = some ':') then
    return trimRight (← takeWhile fun c => c.isDigit || "-:Tt .Zz+".contains c)
  takeWhile fun c => isBareKeyChar c || c = '+' || c = '.'

def bareLeaf? (cs : List Char) : Option Leaf :=
  if cs = "true".toList || cs = "false".toList || isStamp cs then some .other
  else
    match integer? cs with
    | some n => some (.integer n)
    | none => if isFloat cs then some .other else none

def leaf (fuel : Nat) : Scan Leaf := do
  if ← skip? "\"\"\"" then return .text (Bytes.ofChars (← longText fuel '"'))
  if ← skip? "'''" then return .text (Bytes.ofChars (← longText fuel '\''))
  if ← skip? "\"" then return .text (Bytes.ofChars (← basicText fuel))
  if ← skip? "'" then return .text (Bytes.ofChars (← literalText))
  StateT.lift (bareLeaf? (← bareText))

inductive Bracket where
  | array
  | table
  deriving DecidableEq, Repr

inductive Place where
  | line
  | value
  | item
  | entry
  | afterValue
  | finished
  deriving DecidableEq, Repr

structure Reader where
  place : Place := .line
  brackets : List Bracket := []
  items : List Item := []

namespace Reader

def push (r : Reader) (place : Place) (item : Item) : Reader :=
  { r with place, items := item :: r.items }

def pushOpen (r : Reader) (place : Place) (item : Item) (b : Bracket) : Reader :=
  { r.push place item with brackets := b :: r.brackets }

def pushClose (r : Reader) (item : Item) : Reader :=
  { r.push .afterValue item with brackets := r.brackets.drop 1 }

def key (fuel : Nat) (r : Reader) : Scan Reader := do
  let p ← path fuel
  skip "="
  return r.push .value (.key p)

def header (fuel : Nat) (r : Reader) : Scan Reader := do
  let isArray ← skip? "["
  let p ← path fuel
  skip (if isArray then "]]" else "]")
  lineEnd
  return r.push .line (.header p isArray)

def step (fuel : Nat) (r : Reader) : Scan Reader := do
  match r.place, r.brackets with
  | .line, _ =>
    gap
    if (← get).isEmpty then return { r with place := .finished }
    if ← skip? "[" then r.header fuel else r.key fuel
  | .value, _ =>
    blanks
    if ← skip? "[" then return r.pushOpen .item .arrayStart .array
    if ← skip? "\x7b" then return r.pushOpen .entry .tableStart .table
    return r.push .afterValue (.leaf (← leaf fuel))
  | .item, _ =>
    gap
    if ← skip? "]" then return r.pushClose .arrayEnd
    return { r with place := .value }
  | .entry, _ =>
    gap
    if ← skip? "\x7d" then return r.pushClose .tableEnd
    r.key fuel
  | .afterValue, [] =>
    lineEnd
    return { r with place := .line }
  | .afterValue, .array :: _ =>
    gap
    if ← skip? "," then return { r with place := .item }
    skip "]"
    return r.pushClose .arrayEnd
  | .afterValue, .table :: _ =>
    gap
    if ← skip? "," then return { r with place := .entry }
    skip "\x7d"
    return r.pushClose .tableEnd
  | .finished, _ => failure

-- Reads to the end. The text is shorter than `size`.
def run (size : Nat) : (fuel : Nat) → Reader → List Char → Option (List Item)
  | 0, _, _ => none
  | fuel + 1, r, cs =>
    match (r.step size).run cs with
    | none => none
    | some (r, cs) => if r.place = .finished then some r.items.reverse else run size fuel r cs

end Reader

def isClean : List Char → Bool
  | [] => true
  | '\r' :: '\n' :: cs => isClean cs
  | c :: cs => ((0x20 ≤ c.toNat && c.toNat ≠ 0x7F) || c = '\t' || c = '\n') && isClean cs

def dropMark : Bytes → Bytes
  | 0xFF :: 0xFE :: bs => bs
  | 0xFE :: 0xFF :: bs => bs
  | 0xEF :: 0xBB :: 0xBF :: bs => bs
  | bs => bs

def items? (content : Bytes) : Option (List Item) := do
  let bs := dropMark content
  guard bs.isUtf8
  let cs := bs.chars
  guard (isClean cs)
  let size := cs.length + 1
  Reader.run size (3 * size) {} cs

end TapeShell.Toml
