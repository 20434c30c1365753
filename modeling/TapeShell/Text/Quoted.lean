import TapeShell.Text.Decimal
import TapeShell.Text.Printable
import TapeShell.Text.Rune

namespace TapeShell

namespace Text

def isShown (printable : Char → Bool) (c : Char) : Bool :=
  if c.toNat < 0x80 then 0x20 ≤ c.toNat && c.toNat < 0x7F else printable c

def controlLetter? (c : Char) : Option Char :=
  match c.toNat with
  | 0x07 => some 'a'
  | 0x08 => some 'b'
  | 0x09 => some 't'
  | 0x0A => some 'n'
  | 0x0B => some 'v'
  | 0x0C => some 'f'
  | 0x0D => some 'r'
  | _ => none

def escapeChar (printable : Char → Bool) (quote c : Char) : Bytes :=
  if c = quote ∨ c = '\\' then '\\'.toUInt8 :: Bytes.ofChar c
  else if isShown printable c then Bytes.ofChar c
  else match controlLetter? c with
    | some letter => ['\\'.toUInt8, letter.toUInt8]
    | none =>
      if c.toNat < 0x80 then "\\x" ++ Bytes.ofHex 2 c.toNat
      else if c.toNat < 0x10000 then "\\u" ++ Bytes.ofHex 4 c.toNat
      else "\\U" ++ Bytes.ofHex 8 c.toNat

def escapeRune (printable : Char → Bool) (quote : Char) (r : Rune) : Bytes :=
  if r.isStray then r.bytes.flatMap fun b => "\\x" ++ Bytes.ofHex 2 b.toNat
  else escapeChar printable quote r.char

def quoteWith (printable : Char → Bool) (bs : Bytes) : Bytes :=
  '"'.toUInt8 :: bs.runes.flatMap (escapeRune printable '"') ++ ['"'.toUInt8]

-- A text as it stands in messages, between whatever quotes: both kinds of quotes are escaped.
def escapeWith (printable : Char → Bool) (bs : Bytes) : Bytes :=
  bs.runes.flatMap fun r =>
    if r.char = '\'' then "\\'" else escapeRune printable '"' r

def quoteCharWith (printable : Char → Bool) (c : Char) : Bytes :=
  '\''.toUInt8 :: escapeChar printable '\'' c ++ ['\''.toUInt8]

end Text

def Bytes.quote (bs : Bytes) : Bytes :=
  Text.quoteWith Text.isPrintable bs

def Bytes.escape (bs : Bytes) : Bytes :=
  Text.escapeWith Text.isPrintable bs

end TapeShell
