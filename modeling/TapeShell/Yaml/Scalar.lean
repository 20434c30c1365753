import TapeShell.Calendar.Stamp
import TapeShell.Text.Base64
import TapeShell.Text.Scientific
import TapeShell.Yaml.Node

namespace TapeShell.Yaml

inductive Real where
  | undefined
  | infinite (isNegative : Bool)
  | finite (isNegative : Bool) (whole : Nat)
  deriving DecidableEq, Repr

namespace Real

-- The whole part in 64 bits; a number below the least one becomes that.
def toInt? : Real → Option Int
  | .undefined => none
  | .infinite false => none
  | .infinite true => some Int64.minValue.toInt
  | .finite true n => some (max (-n) Int64.minValue.toInt)
  | .finite false n =>
    if n < 1 <<< 63 then some n
    else if n = 1 <<< 63 then some Int64.minValue.toInt
    else none

end Real

inductive Scalar where
  | null
  | bool
  | integer (n : Int)
  | real (r : Real)
  | stamp
  | text
  deriving DecidableEq, Repr

namespace Scalar

def natural? : List Char → Option Nat
  | [] => none
  | ['0'] => some 0
  | '0' :: mark :: digits =>
    let base := if mark = 'x' || mark = 'X' then 16
      else if mark = 'o' || mark = 'O' then 8
      else if mark = 'b' || mark = 'B' then 2
      else 0
    if base ≠ 0 && !digits.isEmpty then Text.number? base digits else Text.number? 8 (mark :: digits)
  | digits => Text.number? 10 digits

def hasSign (cs : List Char) : Bool :=
  cs.head? = some '-' || cs.head? = some '+'

def inRange? (isNegative : Bool) (n : Nat) : Option Int :=
  if isNegative then (if n ≤ 1 <<< 63 then some (-n) else none)
  else if n < 1 <<< 63 then some n else none

def signed? (cs : List Char) : Option Int := do
  let (isNegative, digits) := Text.unsigned cs
  inRange? isNegative (← natural? digits)

def unsigned? (cs : List Char) : Option Int := do
  let n ← natural? cs
  guard (n < 1 <<< 64)
  return n

def binary? : List Char → Option Int
  | '0' :: 'b' :: cs => do
    let (isNegative, digits) := Text.unsigned cs
    inRange? isNegative (← Text.number? 2 digits)
  | _ => none

def real? (cs : List Char) : Option Real := do
  let s ← Scientific.parse? cs
  return .finite s.isNegative (← s.whole?)

def number? (cs : List Char) : Option Scalar :=
  let cs := cs.filter (· ≠ '_')
  match signed? cs, unsigned? cs, real? cs, binary? cs with
  | some n, _, _, _ => some (.integer n)
  | _, some n, _, _ => some (.integer n)
  | _, _, some r, _ => some (.real r)
  | _, _, _, some n => some (.integer n)
  | _, _, _, _ => none

open Calendar.Stamp in
def stampLayouts : List (List Part) :=
  let date : List Part := [.year, .literal '-', .month false, .literal '-', .day false]
  let time : List Part := [.hour false, .literal ':', .minute false, .literal ':', .second false]
  [date ++ .literal 'T' :: time ++ [.zone], date ++ .literal 't' :: time ++ [.zone],
    date ++ .blanks :: time, date]

def isStamp (text : Bytes) : Bool :=
  (text.takeWhile Bytes.isDigit).length = 4 && stampLayouts.any fun layout =>
    (Calendar.Stamp.read? layout text).isSome

def nulls : List String :=
  ["~", "null", "Null", "NULL"]

def bools : List String :=
  ["y", "Y", "yes", "Yes", "YES", "true", "True", "TRUE", "on", "On", "ON",
    "n", "N", "no", "No", "NO", "false", "False", "FALSE", "off", "Off", "OFF"]

def reals : List (String × Real) :=
  [(".nan", .undefined), (".NaN", .undefined), (".NAN", .undefined),
    (".inf", .infinite false), (".Inf", .infinite false), (".INF", .infinite false),
    ("+.inf", .infinite false), ("+.Inf", .infinite false), ("+.INF", .infinite false),
    ("-.inf", .infinite true), ("-.Inf", .infinite true), ("-.INF", .infinite true)]

-- What a text stands for by itself. Stamps are known only where they may be.
def ofText (allowStamp : Bool) (text : Bytes) : Scalar :=
  let cs := text.map fun b => Char.ofNat b.toNat
  let word := String.ofList cs
  match cs.head? with
  | none => .null
  | some c =>
    if word ∈ nulls then .null
    else if word ∈ bools then .bool
    else
      match reals.lookup word with
      | some r => .real r
      | none =>
        if c = '.' then ((real? cs).map Scalar.real).getD .text
        else if c.isDigit || hasSign cs then
          if allowStamp && isStamp text then .stamp else (number? cs).getD .text
        else .text

end Scalar

def typeTag (name : String) : Bytes :=
  "tag:yaml.org,2002:" ++ Bytes.ofString name

namespace Node

-- What a scalar stands for; `none` if it is not what its tag says. Unknown tags are for texts.
def resolve? (tag text : Bytes) : Option Scalar :=
  if tag = [] then some (Scalar.ofText true text)
  else if tag = typeTag "bool" then
    (match Scalar.ofText false text with | .bool => some .bool | _ => none)
  else if tag = typeTag "int" then
    (match Scalar.ofText false text with | .integer n => some (.integer n) | _ => none)
  else if tag = typeTag "float" then
    (match Scalar.ofText false text with
      | .real r => some (.real r)
      | .integer n => do
        guard (n ≤ Int64.maxValue.toInt)
        return .real (.finite (n < 0) (← Scientific.wholeOfDiv? n.natAbs 1))
      | _ => none)
  else if tag = typeTag "null" then
    (match Scalar.ofText false text with | .null => some .null | _ => none)
  else if tag = typeTag "timestamp" then
    (match Scalar.ofText true text with | .stamp => some .stamp | _ => none)
  else some .text

def scalar? (tag text : Bytes) (isImplicit : Bool) : Option Scalar :=
  if tag = [] && !isImplicit then some .text else resolve? tag text

-- The text of a node. What stands for nothing has an empty text.
def text? : Node → Option Bytes
  | .scalar tag text isImplicit =>
    if tag = typeTag "binary" then text.ofBase64?
    else do
      match ← scalar? tag text isImplicit with
      | .null => return []
      | _ => return text
  | .alias _ n => n.text?
  | .sequence _ => none
  | .mapping _ => none

def isNullLike : Node → Bool
  | .scalar tag text isImplicit =>
    tag = typeTag "null" || (tag = [] &&
      (text = Bytes.ofString "null" || text = Bytes.ofString "~" || (text = [] && isImplicit)))
  | .alias _ n => n.isNullLike
  | _ => false

def isNull : Node → Bool
  | .scalar tag text isImplicit => scalar? tag text isImplicit = some .null
  | .alias _ n => n.isNull
  | _ => false

def int? : Node → Option Int
  | .scalar tag text isImplicit => do
    match ← scalar? tag text isImplicit with
    | .null => return 0
    | .integer n =>
      guard (n ≤ Int64.maxValue.toInt)
      return n
    | .real r => r.toInt?
    | _ => none
  | .alias _ n => n.int?
  | _ => none

def isMerge : Node → Bool
  | .scalar tag text isImplicit =>
    text = Bytes.ofString "<<" && (isImplicit || tag = typeTag "merge")
  | _ => false

end Node
end TapeShell.Yaml
