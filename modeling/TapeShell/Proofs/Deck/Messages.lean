import TapeShell.Proofs.Deck.Ledger
import TapeShell.Proofs.Text.Escapes

namespace TapeShell

open Bytes Text

section Messages

variable {printable : Char → Bool}

theorem Text.escapeWith_inj {bs bs' : Bytes} (h : escapeWith printable bs = escapeWith printable bs') :
    bs = bs' := by
  rw [← unescape_escapeWith printable bs, h, unescape_escapeWith]

theorem Bytes.ofChar_inj {c c' : Char} (h : ofChar c = ofChar c') : c = c' := by
  have hc := firstChar?_ofChar_append c []
  rw [h, firstChar?_ofChar_append] at hc
  exact (Option.some.inj hc).symm

theorem Fault.unexpectedMessage_inj {c c' : Char}
    (h : unexpectedMessage printable c = unexpectedMessage printable c') : c = c' := by
  have he := List.append_cancel_left (List.append_cancel_right h)
  exact ofChar_inj (escapeWith_inj he)

end Messages

namespace Deck

theorem message_of_unknown {c : Config} {d : Deck} {name : Bytes} (h : d.meaning c name = .unknown) :
    (expand c name d).value.mapError Fault.message =
      .error ("failed to expand macro `" ++ escapeWith isPrintable name ++ "`") := by
  rw [expand_of_unknown h]
  rfl

end Deck

-- One function reads back every escaped text, whatever characters are shown as they are.
theorem Text.escape_loses_nothing (printable : Char → Bool) :
    (∀ bs, unescape (escapeWith printable bs) = bs ∧ (escapeWith printable bs).isUtf8 ∧
      (∀ b ∈ escapeWith printable bs, 0x20 ≤ b ∧ b ≠ 0x7F) ∧
      Escaped marks (escapeWith printable bs) bs) ∧
    (∀ c c', c ≠ c' →
      (Fault.unexpected c).messageWith printable ≠ (Fault.unexpected c').messageWith printable ∧
      (Fault.trailing c).messageWith printable ≠ (Fault.trailing c').messageWith printable) ∧
    ∀ (config : Deck.Config) (d d' : Deck) (name name' : Bytes), name ≠ name' →
      d.meaning config name = .unknown → d'.meaning config name' = .unknown →
      (Deck.expand config name d).value.mapError Fault.message ≠
        (Deck.expand config name' d').value.mapError Fault.message := by
  refine ⟨fun bs => ?text, fun c c' hne => ?char, fun config d d' name name' hne hd hd' => ?name⟩
  case text =>
    have he := escaped_escapeWith printable bs
    exact ⟨unescape_escapeWith printable bs, isUtf8_escapeWith printable bs, he.visible, he⟩
  case char =>
    have hm : Fault.unexpectedMessage printable c ≠ Fault.unexpectedMessage printable c' :=
      fun h => hne (Fault.unexpectedMessage_inj h)
    exact ⟨hm, hm⟩
  case name =>
    rw [Deck.message_of_unknown hd, Deck.message_of_unknown hd']
    intro h
    have he := List.append_cancel_left (List.append_cancel_right (Except.error.inj h))
    exact hne (escapeWith_inj he)

-- Marks, a line feed, a control character, a stray byte, the character that stands for stray bytes, and one
-- with the number of the stray byte.
theorem Text.escape_loses_nothing_lookalikes :
    let printable : Char → Bool := (· = Rune.replacement)
    let bs : Bytes := [0x27, 0x22, 0x5C, 0x0A, 0x01, 0x80, 0xEF, 0xBF, 0xBD, 0xC2, 0x80]
    let config : Deck.Config := { clock := fun n => { unix := n } }
    escapeWith printable bs = Bytes.ofString "\\'\\\"\\\\\\n\\x01\\x80\uFFFD\\u0080" ∧
    unescape (escapeWith printable bs) = bs ∧
    (Fault.unexpected '\u0080').messageWith printable ≠
      (Fault.unexpected Rune.replacement).messageWith printable ∧
    Deck.meaning config {} [0x80] = .unknown ∧ Deck.meaning config {} [0xC2, 0x80] = .unknown ∧
    (Deck.expand config [0x80] {}).value.mapError Fault.message ≠
      (Deck.expand config [0xC2, 0x80] {}).value.mapError Fault.message := by
  intro printable bs config
  have ⟨htext, hchar, hname⟩ := escape_loses_nothing printable
  have hbyte : Deck.meaning config {} [0x80] = .unknown := rfl
  have hwide : Deck.meaning config {} [0xC2, 0x80] = .unknown := rfl
  refine ⟨by decide +kernel, (htext bs).left, ?_, hbyte, hwide, ?_⟩
  · exact (hchar '\u0080' Rune.replacement (by decide)).left
  · exact hname config {} {} _ _ (by decide) hbyte hwide

end TapeShell
