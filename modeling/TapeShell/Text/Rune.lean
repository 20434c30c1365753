import TapeShell.Text.Bytes

namespace TapeShell

structure Rune where
  char : Char
  bytes : Bytes
  deriving DecidableEq, Repr

namespace Rune

def replacement : Char := '\uFFFD'

def ofChar (c : Char) : Rune := ⟨c, Bytes.ofChar c⟩

def ofStray (b : UInt8) : Rune := ⟨replacement, [b]⟩

-- A rune whose bytes are not the encoding of its character is a stray byte.
def isStray (r : Rune) : Bool :=
  r.bytes != Bytes.ofChar r.char

end Rune

namespace Bytes

def firstChar? (bs : Bytes) : Option Char :=
  (bs.take 4).toByteArray.utf8DecodeChar? 0

def runesFrom : (skip : Nat) → Bytes → List Rune
  | _, [] => []
  | skip + 1, _ :: bs => runesFrom skip bs
  | 0, b :: bs =>
    match firstChar? (b :: bs) with
    | some c => .ofChar c :: runesFrom (c.utf8Size - 1) bs
    | none => .ofStray b :: runesFrom 0 bs

def runes (bs : Bytes) : List Rune :=
  runesFrom 0 bs

def cutRune? : Bytes → Option (Rune × Bytes)
  | [] => none
  | b :: bs =>
    match firstChar? (b :: bs) with
    | some c => some (.ofChar c, bs.drop (c.utf8Size - 1))
    | none => some (.ofStray b, bs)

def chars (bs : Bytes) : List Char :=
  bs.runes.map Rune.char

def ofRunes (rs : List Rune) : Bytes :=
  rs.flatMap Rune.bytes

def isUtf8 (bs : Bytes) : Bool :=
  bs.runes.all (!·.isStray)

def latin1 (bs : Bytes) : Bytes :=
  bs.flatMap fun b => ofChar (Char.ofUInt8 b)

theorem firstChar?_ofChar_append (c : Char) (bs : Bytes) : firstChar? (ofChar c ++ bs) = some c := by
  have hsize := String.length_utf8EncodeChar c
  have := c.utf8Size_le_four
  rw [firstChar?, List.take_append, List.take_of_length_le (by simp [ofChar]; omega),
    List.toByteArray_append]
  exact ByteArray.utf8DecodeChar?_utf8EncodeChar_append

theorem eq_append_of_firstChar? {bs : Bytes} {c : Char} (h : firstChar? bs = some c) :
    ∃ rest, bs = ofChar c ++ rest := by
  have ⟨l, hl⟩ := ByteArray.exists_of_utf8DecodeChar?_eq_some h
  exists l.data.toList ++ bs.drop 4
  have h₄ : bs.take 4 = ofChar c ++ l.data.toList := by
    simpa [ofChar] using congrArg (·.data.toList) hl
  rw [← List.append_assoc, ← h₄, List.take_append_drop]

end Bytes
end TapeShell
