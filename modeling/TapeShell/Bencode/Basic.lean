import TapeShell.Text.Decimal

namespace TapeShell.Bencode

-- An absent value has no encoding of its own; nothing that is decoded holds one.
inductive Value where
  | bytes (content : Bytes)
  | integer (n : Int64)
  | list (items : List Value)
  | dict (entries : List (Bytes × Value))
  | absent
  deriving Inhabited

def encodeBytes (content : Bytes) : Bytes :=
  Bytes.ofNat content.length ++ ':'.toUInt8 :: content

def encodeInteger (n : Int64) : Bytes :=
  'i'.toUInt8 :: Bytes.ofInt n.toInt ++ ['e'.toUInt8]

def encodeList (items : List Bytes) : Bytes :=
  'l'.toUInt8 :: items.flatten ++ ['e'.toUInt8]

def encodeTagged (tag payload : Bytes) : Bytes :=
  'd'.toUInt8 :: encodeBytes tag ++ payload ++ ['e'.toUInt8]

mutual

def Value.encode : Value → Bytes
  | .bytes content => encodeBytes content
  | .integer n => encodeInteger n
  | .list items => encodeList (encodeItems items)
  | .dict entries => 'd'.toUInt8 :: encodeEntries entries ++ ['e'.toUInt8]
  | .absent => []

def encodeItems : List Value → List Bytes
  | [] => []
  | v :: vs => v.encode :: encodeItems vs

def encodeEntries : List (Bytes × Value) → Bytes
  | [] => []
  | (key, v) :: entries => encodeBytes key ++ v.encode ++ encodeEntries entries

end

inductive DecodeError where
  | unexpectedEnd
  | unexpectedByte (b : UInt8)
  | unexpectedKey (key : Value)

end TapeShell.Bencode
