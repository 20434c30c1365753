namespace TapeShell

abbrev Bytes := List UInt8

namespace Bytes

def ofChar (c : Char) : Bytes :=
  String.utf8EncodeChar c

def ofChars (cs : List Char) : Bytes :=
  cs.flatMap ofChar

def ofString (s : String) : Bytes :=
  ofChars s.toList

instance : Coe String Bytes := ⟨ofString⟩

theorem ofChars_cons (c : Char) (cs : List Char) : ofChars (c :: cs) = ofChar c ++ ofChars cs :=
  List.flatMap_cons

theorem ofChars_append (cs ds : List Char) : ofChars (cs ++ ds) = ofChars cs ++ ofChars ds :=
  List.flatMap_append

theorem ofChar_ne_nil (c : Char) : ofChar c ≠ [] := by
  intro h
  have := String.length_utf8EncodeChar c
  simp only [ofChar] at h
  simp [h] at this
  have := c.utf8Size_pos
  omega

def le : Bytes → Bytes → Bool
  | [], _ => true
  | _ :: _, [] => false
  | a :: as, b :: bs => a < b || (a == b && le as bs)

def join (sep : Bytes) : List Bytes → Bytes
  | [] => []
  | [b] => b
  | b :: bs => b ++ sep ++ join sep bs

def after? (start bs : Bytes) : Option Bytes :=
  if start.isPrefixOf bs then some (bs.drop start.length) else none

def dropTail (tail bs : Bytes) : Bytes :=
  if tail.isSuffixOf bs then bs.take (bs.length - tail.length) else bs

def dropLineEnd (line : Bytes) : Bytes :=
  dropTail "\r" (dropTail "\n" line)

def cut (sep : UInt8) (bs : Bytes) : Bytes × Option Bytes :=
  match bs.dropWhile (· != sep) with
  | [] => (bs, none)
  | _ :: rest => (bs.takeWhile (· != sep), some rest)

end Bytes
end TapeShell
