import TapeShell.Yaml.Cursor

namespace TapeShell.Yaml

inductive Token where
  | streamEnd
  | version (major minor : Nat)
  | handle (name start : Bytes)
  | documentStart
  | documentEnd
  | blockSequence
  | blockMapping
  | blockEnd
  | flowSequence
  | flowSequenceEnd
  | flowMapping
  | flowMappingEnd
  | dash
  | comma
  | key
  | value
  | alias (name : Bytes)
  | anchor (name : Bytes)
  | tag (handle suffix : Bytes)
  | scalar (text : Bytes) (isPlain : Bool)
  deriving DecidableEq, Repr

def anchorName? (c : Cursor) : Option (Bytes × Cursor) := do
  let (name, c) := c.takeWhile isWordChar
  guard (name ≠ [])
  guard (isApart c.peek? || c.peek?.any ("?:,]\x7d%@`".contains ·))
  return (Bytes.ofChars name, c)

def octet? (c : Cursor) : Option (UInt8 × Cursor) := do
  guard (c.peek? = some '%')
  let high ← (c.ahead? 1).bind Text.hexValue?
  let low ← (c.ahead? 2).bind Text.hexValue?
  return ((high * 16 + low).toUInt8, c.skip 3)

def continuations? : (count : Nat) → Bytes → Cursor → Option (Bytes × Cursor)
  | 0, octets, c => some (octets, c)
  | count + 1, octets, c =>
    match octet? c with
    | none => none
    | some (o, c) => if o &&& 0xC0 = 0x80 then continuations? count (octets ++ [o]) c else none

def escapedChar? (c : Cursor) : Option (Bytes × Cursor) := do
  let (lead, c) ← octet? c
  let more ←
    if lead &&& 0x80 = 0 then some 0
    else if lead &&& 0xE0 = 0xC0 then some 1
    else if lead &&& 0xF0 = 0xE0 then some 2
    else if lead &&& 0xF8 = 0xF0 then some 3
    else none
  continuations? more [lead] c

def isUriChar (c : Char) : Bool :=
  isWordChar c || ";/?:@&=+$,.!~*'()[]%".contains c

def uri? : (fuel : Nat) → Bytes → Cursor → Option (Bytes × Cursor)
  | 0, _, _ => none
  | fuel + 1, uri, c =>
    match c.peek? with
    | none => some (uri, c)
    | some b =>
      if !isUriChar b then some (uri, c)
      else if b = '%' then
        match escapedChar? c with
        | none => none
        | some (octets, c) => uri? fuel (uri ++ octets) c
      else uri? fuel (uri ++ Bytes.ofChar b) (c.skip 1)

def tagHandle? (c : Cursor) : Option (Bytes × Bool × Cursor) := do
  guard (c.peek? = some '!')
  let (name, c) := (c.skip 1).takeWhile isWordChar
  let text := Bytes.ofChars ('!' :: name)
  if c.peek? = some '!' then return (text ++ Bytes.ofChar '!', true, c.skip 1)
  return (text, false, c)

def bang : Bytes := "!"

def tagParts? (fuel : Nat) (c : Cursor) : Option (Bytes × Bytes × Cursor) := do
  if c.ahead? 1 = some '<' then
    let (uri, c) ← uri? fuel [] (c.skip 2)
    guard (uri ≠ [] ∧ c.peek? = some '>')
    return ([], uri, c.skip 1)
  let (handle, isClosed, c) ← tagHandle? c
  if isClosed then
    let (suffix, c) ← uri? fuel [] c
    guard (suffix ≠ [])
    return (handle, suffix, c)
  let (more, c) ← uri? fuel [] c
  let suffix := handle.drop 1 ++ more
  return if suffix = [] then ([], bang, c) else (bang, suffix, c)

def tag? (fuel : Nat) (c : Cursor) : Option (Token × Cursor) := do
  let (handle, suffix, c) ← tagParts? fuel c
  guard (isApart c.peek?)
  return (.tag handle suffix, c)

def versionPart? (c : Cursor) : Option (Nat × Cursor) := do
  let (digits, c) := c.takeWhile Char.isDigit
  guard (1 ≤ digits.length ∧ digits.length ≤ 2)
  return (digits.foldl (fun n d => n * 10 + (d.toNat - '0'.toNat)) 0, c)

def versionDirective? (c : Cursor) : Option (Token × Cursor) := do
  let (major, c) ← versionPart? (c.skipWhile isBlank)
  guard (c.peek? = some '.')
  let (minor, c) ← versionPart? (c.skip 1)
  return (.version major minor, c)

def handleDirective? (fuel : Nat) (c : Cursor) : Option (Token × Cursor) := do
  let (name, isClosed, c) ← tagHandle? (c.skipWhile isBlank)
  guard (isClosed || name = bang)
  guard (c.peek?.any isBlank)
  let (start, c) ← uri? fuel [] (c.skipWhile isBlank)
  guard (start ≠ [])
  guard (isApart c.peek?)
  return (.handle name start, c)

def directive? (fuel : Nat) (c : Cursor) : Option (Token × Cursor) := do
  let (name, c) := (c.skip 1).takeWhile isWordChar
  guard (name ≠ [])
  guard (isApart c.peek?)
  let (token, c) ←
    if name = "YAML".toList then versionDirective? c
    else if name = "TAG".toList then handleDirective? fuel c
    else none
  return (token, ← c.skipLine?)

-- A token that may still become a key, by its number among all tokens. A key that starts a line of a block
-- mapping is required.
structure Candidate where
  isRequired : Bool
  number : Nat
  index : Nat
  line : Nat
  column : Nat

structure Scanner where
  cursor : Cursor
  size : Nat
  -- Whether the text starts with a byte order mark of its own; then each of its lines does.
  isMarked : Bool := false
  queue : List Token := []
  taken : Nat := 0
  keyAllowed : Bool := true
  candidates : List (Option Candidate) := [none]
  indents : List Nat := []

namespace Scanner

def inFlow (s : Scanner) : Bool :=
  1 < s.candidates.length

def indent (s : Scanner) : Int :=
  match s.indents with
  | [] => -1
  | i :: _ => i

def push (s : Scanner) (t : Token) : Scanner :=
  { s with queue := s.queue ++ [t] }

def pushTo (s : Scanner) (t : Token) (c : Cursor) : Scanner :=
  { s.push t with cursor := c }

-- A candidate is out once its line has ended, or after 1024 characters.
def dropStale (s : Scanner) : Option Scanner := do
  let keep : Option Candidate → Option (Option Candidate)
    | none => some none
    | some k =>
      if k.line < s.cursor.line || k.index + 1024 < s.cursor.index then
        if k.isRequired then none else some none
      else some (some k)
  return { s with candidates := ← s.candidates.mapM keep }

def dropCandidate (s : Scanner) : Option Scanner :=
  match s.candidates with
  | some k :: ks => if k.isRequired then none else some { s with candidates := none :: ks }
  | _ => some s

def addCandidate (s : Scanner) : Option Scanner :=
  if !s.keyAllowed then some s
  else do
    let s ← s.dropCandidate
    let c := s.cursor
    let k : Candidate := {
      isRequired := !s.inFlow && s.indent = c.column
      number := s.taken + s.queue.length
      index := c.index
      line := c.line
      column := c.column }
    return { s with candidates := some k :: s.candidates.drop 1 }

def unroll (s : Scanner) (column : Int) : Scanner :=
  if s.inFlow then s
  else
    let kept := s.indents.dropWhile fun (i : Nat) => column < i
    { s with
      indents := kept
      queue := s.queue ++ List.replicate (s.indents.length - kept.length) .blockEnd }

-- Opens a block in a column, if it stands further right than those that are open. The token goes to a place in
-- the queue.
def roll (s : Scanner) (column place : Nat) (t : Token) : Scanner :=
  if s.inFlow || decide ((column : Int) ≤ s.indent) then s
  else { s with
    indents := column :: s.indents
    queue := s.queue.take place ++ t :: s.queue.drop place }

-- Goes on to where the next token starts. A tab is no indentation.
def skipGap : (fuel : Nat) → Scanner → Scanner
  | 0, s => s
  | fuel + 1, s =>
    let c := s.cursor
    let c := if s.isMarked && c.column = 0 && !c.rest.isEmpty then c.skip 1 else c
    let c := c.skipWhile fun b => b = ' ' || ((s.inFlow || !s.keyAllowed) && b = '\t')
    let c := if c.peek? = some '#' then c.skipWhile (!isBreak ·) else c
    if c.peek?.any isBreak then
      skipGap fuel { s with cursor := c.takeBreak.2, keyAllowed := s.keyAllowed || !s.inFlow }
    else { s with cursor := c }

def fetchEnd (s : Scanner) : Option Scanner := do
  let c := s.cursor
  let c := if c.column = 0 then c else { c with line := c.line + 1, column := 0 }
  let s ← ({ s with cursor := c }.unroll (-1)).dropCandidate
  return { s.push .streamEnd with keyAllowed := false }

def fetchDirective (s : Scanner) : Option Scanner := do
  let s ← (s.unroll (-1)).dropCandidate
  let (t, c) ← directive? s.size s.cursor
  return { s.pushTo t c with keyAllowed := false }

def fetchEdge (s : Scanner) (t : Token) : Option Scanner := do
  let s ← (s.unroll (-1)).dropCandidate
  return { s.pushTo t (s.cursor.skip 3) with keyAllowed := false }

def fetchFlowStart (s : Scanner) (t : Token) : Option Scanner := do
  let s ← s.addCandidate
  return { s.pushTo t (s.cursor.skip 1) with keyAllowed := true, candidates := none :: s.candidates }

def fetchFlowEnd (s : Scanner) (t : Token) : Option Scanner := do
  let s ← s.dropCandidate
  let candidates := if s.inFlow then s.candidates.drop 1 else s.candidates
  return { s.pushTo t (s.cursor.skip 1) with keyAllowed := false, candidates }

def fetchComma (s : Scanner) : Option Scanner := do
  let s ← s.dropCandidate
  return { s.pushTo .comma (s.cursor.skip 1) with keyAllowed := true }

def rollHere (s : Scanner) (t : Token) : Option Scanner := do
  guard (s.inFlow || s.keyAllowed)
  return s.roll s.cursor.column s.queue.length t

def fetchDash (s : Scanner) : Option Scanner := do
  let s ← (← s.rollHere .blockSequence).dropCandidate
  return { s.pushTo .dash (s.cursor.skip 1) with keyAllowed := true }

def fetchKey (s : Scanner) : Option Scanner := do
  let s ← (← s.rollHere .blockMapping).dropCandidate
  return { s.pushTo .key (s.cursor.skip 1) with keyAllowed := !s.inFlow }

def fetchValue (s : Scanner) : Option Scanner := do
  match s.candidates with
  | some k :: ks =>
    let place := k.number - s.taken
    let s := { s with
      queue := s.queue.take place ++ Token.key :: s.queue.drop place
      candidates := none :: ks }
    let s := s.roll k.column place .blockMapping
    return { s.pushTo .value (s.cursor.skip 1) with keyAllowed := false }
  | _ =>
    let s ← s.rollHere .blockMapping
    return { s.pushTo .value (s.cursor.skip 1) with keyAllowed := !s.inFlow }

def fetchAlias (s : Scanner) : Option Scanner := do
  let s ← s.addCandidate
  let (name, c) ← anchorName? (s.cursor.skip 1)
  return { s.pushTo (.alias name) c with keyAllowed := false }

def fetchAnchor (s : Scanner) : Option Scanner := do
  let s ← s.addCandidate
  let (name, c) ← anchorName? (s.cursor.skip 1)
  return { s.pushTo (.anchor name) c with keyAllowed := false }

def fetchTag (s : Scanner) : Option Scanner := do
  let s ← s.addCandidate
  let (t, c) ← tag? s.size s.cursor
  return { s.pushTo t c with keyAllowed := false }

def fetchBlockScalar (s : Scanner) (isLiteral : Bool) : Option Scanner := do
  let s ← s.dropCandidate
  let (text, c) ← blockText? s.size isLiteral s.indent (s.cursor.skip 1)
  return { s.pushTo (.scalar (Bytes.ofChars text.reverse) false) c with keyAllowed := true }

def fetchQuoted (s : Scanner) (quote : Char) : Option Scanner := do
  let s ← s.addCandidate
  let (text, c) ← quotedText? quote s.size [] (s.cursor.skip 1)
  return { s.pushTo (.scalar (Bytes.ofChars text.reverse) false) c with keyAllowed := false }

def fetchPlain (s : Scanner) : Option Scanner := do
  let s ← s.addCandidate
  let (text, endsLine, c) ← plainText? s.inFlow (s.indent + 1).toNat s.size [] {} s.cursor
  return { s.pushTo (.scalar (Bytes.ofChars text.reverse) true) c with keyAllowed := endsLine }

def startsPlain (inFlow : Bool) (b : Char) (next : Option Char) : Bool :=
  if b = '-' then !next.any isBlank
  else if b = '?' || b = ':' then !inFlow && !isApart next
  else !(isBlank b || isBreak b || ",[]\x7b\x7d#&*!|>'\"%@`".contains b)

def fetchFrom (s : Scanner) (b : Char) (next : Option Char) : Option Scanner :=
  match b with
  | '[' => s.fetchFlowStart .flowSequence
  | '\x7b' => s.fetchFlowStart .flowMapping
  | ']' => s.fetchFlowEnd .flowSequenceEnd
  | '\x7d' => s.fetchFlowEnd .flowMappingEnd
  | ',' => s.fetchComma
  | '*' => s.fetchAlias
  | '&' => s.fetchAnchor
  | '!' => s.fetchTag
  | '\'' => s.fetchQuoted '\''
  | '"' => s.fetchQuoted '"'
  | _ =>
    if b = '-' && isApart next then s.fetchDash
    else if b = '?' && (s.inFlow || isApart next) then s.fetchKey
    else if b = ':' && (s.inFlow || isApart next) then s.fetchValue
    else if b = '|' && !s.inFlow then s.fetchBlockScalar true
    else if b = '>' && !s.inFlow then s.fetchBlockScalar false
    else if startsPlain s.inFlow b next then s.fetchPlain
    else none

def fetch (s : Scanner) : Option Scanner := do
  let s ← (s.skipGap s.size).dropStale
  let s := s.unroll s.cursor.column
  let c := s.cursor
  match c.rest with
  | [] => s.fetchEnd
  | b :: cs =>
    if c.column = 0 && b = '%' then s.fetchDirective
    else if c.isAtMark "---" then s.fetchEdge .documentStart
    else if c.isAtMark "..." then s.fetchEdge .documentEnd
    else s.fetchFrom b cs.head?

-- Fetches tokens until the first one in the queue can no longer become a key.
def fill : (fuel : Nat) → Scanner → Option Scanner
  | 0, _ => none
  | fuel + 1, s =>
    if s.queue.isEmpty then s.fetch.bind (fill fuel)
    else
      match s.dropStale with
      | none => none
      | some s =>
        if s.candidates.any (·.any (·.number = s.taken)) then s.fetch.bind (fill fuel) else some s

def peek (s : Scanner) : Option (Token × Scanner) := do
  let s ← s.fill s.size
  return (← s.queue.head?, s)

def skip (s : Scanner) : Scanner :=
  { s with queue := s.queue.drop 1, taken := s.taken + 1 }

def ofChars (cs : List Char) : Scanner :=
  { cursor := { rest := cs }, size := cs.length + 8, isMarked := cs.head? = some '\uFEFF' }

end Scanner
end TapeShell.Yaml
