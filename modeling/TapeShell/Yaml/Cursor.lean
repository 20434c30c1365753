import TapeShell.Text.Bytes
import TapeShell.Text.Digit

namespace TapeShell.Yaml

def isBlank (c : Char) : Bool :=
  c = ' ' || c = '\t'

def isBreak (c : Char) : Bool :=
  c = '\n' || c = '\r' || c = '\u0085' || c = '\u2028' || c = '\u2029'

def isApart : Option Char → Bool
  | none => true
  | some c => isBlank c || isBreak c

def isWordChar (c : Char) : Bool :=
  c.isAlphanum || c = '_' || c = '-'

structure Cursor where
  rest : List Char
  index : Nat := 0
  line : Nat := 0
  column : Nat := 0

namespace Cursor

def peek? (c : Cursor) : Option Char :=
  c.rest.head?

def ahead? (c : Cursor) (n : Nat) : Option Char :=
  (c.rest.drop n).head?

def skip (n : Nat) (c : Cursor) : Cursor :=
  { c with rest := c.rest.drop n, index := c.index + n, column := c.column + n }

def takeWhile (p : Char → Bool) (c : Cursor) : List Char × Cursor :=
  let taken := c.rest.takeWhile p
  (taken, c.skip taken.length)

def skipWhile (p : Char → Bool) (c : Cursor) : Cursor :=
  (c.takeWhile p).2

def takeBreak (c : Cursor) : List Char × Cursor :=
  match c.rest with
  | [] => ([], c)
  | '\r' :: '\n' :: cs => (['\n'], { rest := cs, index := c.index + 2, line := c.line + 1 })
  | b :: cs =>
    if isBreak b then
      (if b = '\u2028' || b = '\u2029' then [b] else ['\n'],
        { rest := cs, index := c.index + 1, line := c.line + 1 })
    else ([], c)

def skipLine? (c : Cursor) : Option Cursor :=
  let c := c.skipWhile isBlank
  let c := if c.peek? = some '#' then c.skipWhile (!isBreak ·) else c
  match c.peek? with
  | none => some c
  | some b => if isBreak b then some c.takeBreak.2 else none

def isAtMark (mark : String) (c : Cursor) : Bool :=
  c.column = 0 && mark.toList.isPrefixOf c.rest && isApart (c.ahead? 3)

def isAtEdge (c : Cursor) : Bool :=
  c.isAtMark "---" || c.isAtMark "..."

end Cursor

structure Gap where
  blanks : List Char := []
  isBroken : Bool := false
  first : List Char := []
  more : List Char := []

namespace Gap

-- What a gap stands for: blanks for themselves, one break for a space, and several for one fewer.
def text (g : Gap) : List Char :=
  if !g.isBroken then g.blanks.reverse
  else if g.first.head? = some '\n' then (if g.more = [] then [' '] else g.more.reverse)
  else g.first ++ g.more.reverse

-- Reads on through a gap. After a break a tab has to be in column `indent` at least.
def read (indent : Nat) : (fuel : Nat) → Gap → Cursor → Option (Gap × Cursor)
  | 0, g, c => some (g, c)
  | fuel + 1, g, c =>
    match c.peek? with
    | none => some (g, c)
    | some b =>
      if isBlank b then
        if g.isBroken && c.column < indent && b = '\t' then none
        else read indent fuel (if g.isBroken then g else { g with blanks := b :: g.blanks }) (c.skip 1)
      else if isBreak b then
        let (text, c) := c.takeBreak
        read indent fuel
          (if g.isBroken then { g with more := text.reverse ++ g.more }
            else { g with blanks := [], isBroken := true, first := text }) c
      else some (g, c)

end Gap

def codePoint? (width : Nat) (c : Cursor) : Option (Char × Cursor) := do
  let digits := c.rest.take width
  guard (digits.length = width)
  return (← Text.codePoint? digits, c.skip width)

def escapes : List (Char × Char) :=
  [('0', '\x00'), ('a', '\x07'), ('b', '\x08'), ('t', '\t'), ('\t', '\t'), ('n', '\n'), ('v', '\x0b'),
    ('f', '\x0c'), ('r', '\r'), ('e', '\x1b'), (' ', ' '), ('"', '"'), ('\'', '\''), ('\\', '\\'),
    ('N', '\u0085'), ('_', '\u00a0'), ('L', '\u2028'), ('P', '\u2029')]

def escape? (c : Cursor) : Option (Char × Cursor) := do
  match ← c.peek? with
  | 'x' => codePoint? 2 (c.skip 1)
  | 'u' => codePoint? 4 (c.skip 1)
  | 'U' => codePoint? 8 (c.skip 1)
  | name => return (← escapes.lookup name, c.skip 1)

-- Reads a word in quotes, last character first. Tells also whether a break after it is escaped.
def quotedWord? (quote : Char) :
    (fuel : Nat) → List Char → Cursor → Option (List Char × Bool × Cursor)
  | 0, _, _ => none
  | fuel + 1, text, c =>
    match c.rest with
    | [] => some (text, false, c)
    | b :: cs =>
      if isBlank b || isBreak b then some (text, false, c)
      else if b = quote then
        if quote = '\'' && cs.head? = some '\'' then quotedWord? quote fuel ('\'' :: text) (c.skip 2)
        else some (text, false, c)
      else if b = '\\' && quote = '"' then
        if cs.head?.any isBreak then some (text, true, (c.skip 1).takeBreak.2)
        else
          match escape? (c.skip 1) with
          | none => none
          | some (e, c) => quotedWord? quote fuel (e :: text) c
      else quotedWord? quote fuel (b :: text) (c.skip 1)

def quotedText? (quote : Char) : (fuel : Nat) → List Char → Cursor → Option (List Char × Cursor)
  | 0, _, _ => none
  | fuel + 1, text, c =>
    if c.isAtEdge || c.rest.isEmpty then none
    else
      match quotedWord? quote (fuel + 1) text c with
      | none => none
      | some (text, isEscaped, c) =>
        if c.peek? = some quote then some (text, c.skip 1)
        else
          match Gap.read 0 (fuel + 1) { isBroken := isEscaped } c with
          | none => none
          | some (g, c) => quotedText? quote fuel (g.text.reverse ++ text) c

def endsPlain (inFlow : Bool) (b : Char) (next : Option Char) : Bool :=
  (b = ':' && isApart next) || (inFlow && ",?[]\x7b\x7d".contains b)

def plainWord (inFlow : Bool) : (word : List Char) → List Char → List Char
  | word, [] => word
  | word, b :: cs =>
    if isBlank b || isBreak b || endsPlain inFlow b cs.head? then word
    else plainWord inFlow (b :: word) cs

-- Reads a plain scalar, last character first. Its further lines have to be in column `indent` at least. Tells
-- also whether it ends with a line.
def plainText? (inFlow : Bool) (indent : Nat) :
    (fuel : Nat) → List Char → Gap → Cursor → Option (List Char × Bool × Cursor)
  | 0, _, _, _ => none
  | fuel + 1, text, g, c =>
    if c.isAtEdge || c.peek? = some '#' then some (text, g.isBroken, c)
    else
      let word := plainWord inFlow [] c.rest
      if word = [] then some (text, g.isBroken, c)
      else
        let text := word ++ (g.text.reverse ++ text)
        let c := c.skip word.length
        if isApart c.peek? && !c.rest.isEmpty then
          match Gap.read indent (fuel + 1) {} c with
          | none => none
          | some (g, c) =>
            if !inFlow && c.column < indent then some (text, g.isBroken, c)
            else plainText? inFlow indent fuel text g c
        else some (text, false, c)

inductive Chomping where
  | strip
  | clip
  | keep
  deriving DecidableEq, Repr

-- Passes over indentation and empty lines. Gives their breaks, last first, and the widest indentation. An
-- `indent` of zero is not known yet.
def blockBreaks? (indent : Nat) :
    (fuel : Nat) → (widest : Nat) → List Char → Cursor → Option (List Char × Nat × Cursor)
  | 0, _, _, _ => none
  | fuel + 1, widest, breaks, c =>
    let spaces := (c.rest.takeWhile (· = ' ')).length
    let c := c.skip (if indent = 0 then spaces else min spaces (indent - c.column))
    let widest := max widest c.column
    if (indent = 0 || c.column < indent) && c.peek? = some '\t' then none
    else if c.peek?.any isBreak then
      let (text, c) := c.takeBreak
      blockBreaks? indent fuel widest (text.reverse ++ breaks) c
    else some (breaks, widest, c)

-- Reads the lines of a block scalar, last character first. `first` is the break after the line before, `more`
-- are those after it, last first.
def blockLines? (isLiteral : Bool) (chomping : Chomping) (indent : Nat) :
    (fuel : Nat) → (text first more : List Char) → (afterBlank : Bool) → Cursor →
      Option (List Char × Cursor)
  | 0, _, _, _, _, _ => none
  | fuel + 1, text, first, more, afterBlank, c =>
    if c.column = indent && !c.rest.isEmpty then
      let isBlankLine := c.peek?.any isBlank
      let isFolded := !isLiteral && !afterBlank && !isBlankLine && first.head? = some '\n'
      let text := if isFolded then (if more = [] then ' ' :: text else text) else first.reverse ++ text
      let (line, c) := c.takeWhile (!isBreak ·)
      let text := line.reverse ++ (more ++ text)
      let (first, c) := c.takeBreak
      match blockBreaks? indent (fuel + 1) 0 [] c with
      | none => none
      | some (more, _, c) => blockLines? isLiteral chomping indent fuel text first more isBlankLine c
    else
      match chomping with
      | .strip => some (text, c)
      | .clip => some (first.reverse ++ text, c)
      | .keep => some (more ++ (first.reverse ++ text), c)

def blockHeader? (c : Cursor) : Option (Chomping × Nat × Cursor) :=
  let chomping (c : Cursor) : Option Chomping :=
    match c.peek? with
    | some '+' => some .keep
    | some '-' => some .strip
    | _ => none
  let digit (c : Cursor) : Option Nat :=
    c.peek?.bind fun d => if d.isDigit then some (d.toNat - '0'.toNat) else none
  match chomping c, digit c with
  | some h, _ =>
    match digit (c.skip 1) with
    | some 0 => none
    | some n => some (h, n, c.skip 2)
    | none => some (h, 0, c.skip 1)
  | none, some 0 => none
  | none, some n =>
    match chomping (c.skip 1) with
    | some h => some (h, n, c.skip 2)
    | none => some (.clip, n, c.skip 1)
  | none, none => some (.clip, 0, c)

def blockText? (fuel : Nat) (isLiteral : Bool) (indent : Int) (c : Cursor) :
    Option (List Char × Cursor) := do
  let (chomping, increment, c) ← blockHeader? c
  let c ← c.skipLine?
  let given := if increment = 0 then 0 else (max indent 0).toNat + increment
  let (breaks, widest, c) ← blockBreaks? given fuel 0 [] c
  let known := if given = 0 then max (max widest (indent + 1).toNat) 1 else given
  blockLines? isLiteral chomping known fuel [] [] breaks false c

end TapeShell.Yaml
