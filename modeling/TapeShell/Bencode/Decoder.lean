import TapeShell.Bencode.Basic

namespace TapeShell.Bencode

-- A container that is not closed yet. What it holds so far is in reverse order.
inductive Frame where
  | list (items : List Value)
  | dict (entries : List (Bytes × Value))
  | entry (entries : List (Bytes × Value)) (key : Bytes)

inductive Expecting where
  | value
  | colon
  | length (n : UInt64)
  -- The content of a byte string, of which `left + 1` bytes are still to come.
  | content (left : Nat) (read : Bytes)
  | sign
  | magnitude
  | zeroEnd
  | digits (negative : Bool) (n : UInt64)

structure Decoder where
  frames : List Frame := []
  expecting : Expecting := .value

inductive Decoder.Progress where
  | more (d : Decoder)
  | done (v : Value)
  | failed (e : DecodeError)

namespace Decoder

def maxLength : UInt64 := 0x7FFFFFFF

def maxMagnitude (negative : Bool) : UInt64 :=
  if negative then 0x8000000000000000 else 0x7FFFFFFFFFFFFFFF

def appendDigit? (limit n : UInt64) (b : UInt8) : Option UInt64 :=
  let digit := (b - '0'.toUInt8).toUInt64
  if n > (limit - digit) / 10 then none else some (n * 10 + digit)

def supply : List Frame → Value → Progress
  | [], v => .done v
  | .list items :: frames, v => .more ⟨.list (v :: items) :: frames, .value⟩
  | .dict entries :: frames, .bytes key => .more ⟨.entry entries key :: frames, .value⟩
  | .dict _ :: _, key => .failed (.unexpectedKey key)
  | .entry entries key :: frames, v => .more ⟨.dict ((key, v) :: entries) :: frames, .value⟩

def close (frames : List Frame) : Progress :=
  match frames with
  | .list items :: frames => supply frames (.list items.reverse)
  | .dict entries :: frames => supply frames (.dict entries.reverse)
  | _ => .failed (.unexpectedByte 'e'.toUInt8)

def signed (negative : Bool) (n : UInt64) : Int64 :=
  if negative then -n.toInt64 else n.toInt64

def step (d : Decoder) (b : UInt8) : Progress :=
  match d.expecting with
  | .value =>
    if b = 'e'.toUInt8 then close d.frames
    else if b = 'i'.toUInt8 then .more ⟨d.frames, .sign⟩
    else if b = 'l'.toUInt8 then .more ⟨.list [] :: d.frames, .value⟩
    else if b = 'd'.toUInt8 then .more ⟨.dict [] :: d.frames, .value⟩
    else if b = '0'.toUInt8 then .more ⟨d.frames, .colon⟩
    else if Bytes.isDigit b then .more ⟨d.frames, .length (b - '0'.toUInt8).toUInt64⟩
    else .failed (.unexpectedByte b)
  | .colon =>
    if b = ':'.toUInt8 then supply d.frames (.bytes []) else .failed (.unexpectedByte b)
  | .length n =>
    if b = ':'.toUInt8 then .more ⟨d.frames, .content (n.toNat - 1) []⟩
    else if Bytes.isDigit b then
      match appendDigit? maxLength n b with
      | some n => .more ⟨d.frames, .length n⟩
      | none => .failed (.unexpectedByte b)
    else .failed (.unexpectedByte b)
  | .content 0 read => supply d.frames (.bytes (b :: read).reverse)
  | .content (left + 1) read => .more ⟨d.frames, .content left (b :: read)⟩
  | .sign =>
    if b = '-'.toUInt8 then .more ⟨d.frames, .magnitude⟩
    else if b = '0'.toUInt8 then .more ⟨d.frames, .zeroEnd⟩
    else if Bytes.isDigit b then .more ⟨d.frames, .digits false (b - '0'.toUInt8).toUInt64⟩
    else .failed (.unexpectedByte b)
  | .magnitude =>
    if b ≠ '0'.toUInt8 ∧ Bytes.isDigit b then
      .more ⟨d.frames, .digits true (b - '0'.toUInt8).toUInt64⟩
    else .failed (.unexpectedByte b)
  | .zeroEnd =>
    if b = 'e'.toUInt8 then supply d.frames (.integer 0) else .failed (.unexpectedByte b)
  | .digits negative n =>
    if b = 'e'.toUInt8 then supply d.frames (.integer (signed negative n))
    else if Bytes.isDigit b then
      match appendDigit? (maxMagnitude negative) n b with
      | some n => .more ⟨d.frames, .digits negative n⟩
      | none => .failed (.unexpectedByte b)
    else .failed (.unexpectedByte b)

def run (d : Decoder) : Bytes → Progress × Bytes
  | [] => (.more d, [])
  | b :: bs =>
    match d.step b with
    | .more d => d.run bs
    | .done v => (.done v, bs)
    | .failed e => (.failed e, bs)

end Decoder

def decode (bs : Bytes) : Except DecodeError Value × Bytes :=
  match Decoder.run {} bs with
  | (.done v, rest) => (.ok v, rest)
  | (.failed e, rest) => (.error e, rest)
  | (.more _, rest) => (.error .unexpectedEnd, rest)

end TapeShell.Bencode
