import Mathlib.Algebra.GroupWithZero.Nat
import Mathlib.Logic.Function.Iterate
import TapeShell.Proofs.Tape.Bounds
import TapeShell.Proofs.Tape.Structured
import TapeShell.Proofs.Text.Utf8

namespace TapeShell.Tape

variable {maxCells : Int} {p rest : Program} {j : Jumps} {pc fuel : Nat} {s s' : Store}

namespace Jumps

theorem scan_of_acts {ops : List Op} (h : ∀ op ∈ ops, ∃ a : Act, a.op = op) (pc : Nat) (j : Jumps) :
    scan pc [] j ops = .ok j := by
  induction ops generalizing pc
  case nil => rfl
  case cons op ops ih =>
    have ⟨⟨a, ha⟩, hops⟩ := List.forall_mem_cons.mp h
    rw [← ha, scan_act, ih hops]

end Jumps

namespace Store

def setHere (s : Store) (b : UInt8) : Store :=
  { s with cells.here := b }

def send (s : Store) (b : UInt8) : Store :=
  { s with sent := s.sent ++ [b] }

theorem runFor_act {a : Act} (hop : p[pc]? = some a.op) (happly : a.apply maxCells pc s = .ok s') :
    Run.runFor maxCells p.toArray j (fuel + 1) (s.runAt pc) =
      Run.runFor maxCells p.toArray j fuel (s'.runAt (pc + 1)) :=
  Run.runFor_of_running (by rw [step_act hop, happly])

theorem runFor_replicate {a : Act} {f : UInt8 → UInt8}
    (happly : ∀ pc s, a.apply maxCells pc s = .ok (s.setHere (f s.cells.here))) {n : Nat}
    (hp : p.drop pc = List.replicate n a.op ++ rest) :
    Run.runFor maxCells p.toArray j (fuel + n) (s.runAt pc) =
      Run.runFor maxCells p.toArray j fuel ((s.setHere (f^[n] s.cells.here)).runAt (pc + n)) := by
  induction n generalizing pc s
  case zero => rfl
  case succ n ih =>
    have hop : p[pc]? = some a.op := Jumps.getElem?_of_drop_eq hp
    have hnext : p.drop (pc + 1) = List.replicate n a.op ++ rest :=
      Jumps.drop_of_drop_eq (q := [a.op]) hp
    calc
      _ = Run.runFor maxCells p.toArray j (fuel + n)
            ((s.setHere (f s.cells.here)).runAt (pc + 1)) := runFor_act hop (happly pc s)
      _ = _ := by
        rw [ih hnext, Nat.add_right_comm pc 1 n]
        rfl

end Store

theorem iterate_inc (n : Nat) (b : UInt8) : (· + 1)^[n] b = b + UInt8.ofNat n := by
  induction n generalizing b
  case zero => simp
  case succ n ih =>
    rw [Function.iterate_succ_apply, ih, UInt8.ofNat_add]
    grind

theorem iterate_dec (n : Nat) (b : UInt8) : (· - 1)^[n] b = b - UInt8.ofNat n := by
  induction n generalizing b
  case zero => simp
  case succ n ih =>
    rw [Function.iterate_succ_apply, ih, UInt8.ofNat_add]
    grind

theorem iterate_inc_sub {a b : UInt8} (h : a ≤ b) : (· + 1)^[b.toNat - a.toNat] a = b := by
  have hle := UInt8.le_iff_toNat_le.mp h
  have hadd : UInt8.ofNat (a.toNat + (b.toNat - a.toNat)) = b := by
    rw [Nat.add_sub_cancel' hle, UInt8.ofNat_toNat]
  rwa [UInt8.ofNat_add, UInt8.ofNat_toNat, ← iterate_inc] at hadd

theorem iterate_dec_sub {a b : UInt8} (h : ¬a ≤ b) : (· - 1)^[a.toNat - b.toNat] a = b := by
  have hle : b.toNat ≤ a.toNat := by
    rw [UInt8.le_iff_toNat_le] at h
    omega
  have hadd : UInt8.ofNat (b.toNat + (a.toNat - b.toNat)) = a := by
    rw [Nat.add_sub_cancel' hle, UInt8.ofNat_toNat]
  rw [UInt8.ofNat_add, UInt8.ofNat_toNat] at hadd
  rw [iterate_dec]
  grind

namespace Store

theorem runFor_adjust {b : UInt8} (hp : p.drop pc = Program.adjust s.cells.here b ++ rest) :
    Run.runFor maxCells p.toArray j (fuel + (Program.adjust s.cells.here b).length) (s.runAt pc) =
      Run.runFor maxCells p.toArray j fuel
        ((s.setHere b).runAt (pc + (Program.adjust s.cells.here b).length)) := by
  unfold Program.adjust at hp ⊢
  split at hp
  case isTrue h =>
    simp only [if_pos h, List.length_replicate]
    rw [runFor_replicate (a := .inc) (f := (· + 1)) (fun _ _ => rfl) hp, iterate_inc_sub h]
  case isFalse h =>
    simp only [if_neg h, List.length_replicate]
    rw [runFor_replicate (a := .dec) (f := (· - 1)) (fun _ _ => rfl) hp, iterate_dec_sub h]

-- The induction is on the text. The cell under the head holds the byte that was sent last.
theorem runFor_printingFrom {bs : Bytes} (hp : p.drop pc = Program.printingFrom s.cells.here bs) :
    Run.runFor maxCells p.toArray j (fuel + (Program.printingFrom s.cells.here bs).length) (s.runAt pc) =
      some ⟨none, s.sent ++ bs, s.input⟩ := by
  induction bs generalizing pc s
  case nil =>
    have hend : p.length ≤ pc := List.drop_eq_nil_iff.mp hp
    rw [Run.runFor_of_ended (step_end hend), outcome, List.append_nil]
  case cons b bs ih =>
    have hput := Jumps.drop_of_drop_eq hp
    have hnext := Jumps.drop_of_drop_eq (q := [.put]) hput
    have hlength : (Program.printingFrom s.cells.here (b :: bs)).length =
        (Program.printingFrom b bs).length + 1 + (Program.adjust s.cells.here b).length := by
      simp only [Program.printingFrom, List.length_append, List.length_cons]
      omega
    have hsend (pc) : Act.put.apply maxCells pc (s.setHere b) = .ok ((s.setHere b).send b) := rfl
    rw [hlength, ← Nat.add_assoc, runFor_adjust hp, ← Nat.add_assoc,
      runFor_act (Jumps.getElem?_of_drop_eq hput) (hsend _)]
    have hrest := ih (s := (s.setHere b).send b) hnext
    rw [show ((s.setHere b).send b).sent = s.sent ++ [b] from rfl, List.append_assoc] at hrest
    exact hrest

end Store

inductive Op.InPlace : Op → Prop where
  | inc : InPlace .inc
  | dec : InPlace .dec
  | put : InPlace .put

theorem Op.InPlace.exists_act {op : Op} (h : op.InPlace) : ∃ a : Act, a.op = op := by
  cases h
  case inc => exact ⟨.inc, rfl⟩
  case dec => exact ⟨.dec, rfl⟩
  case put => exact ⟨.put, rfl⟩

namespace Run

structure SamePlace (r r' : Run) : Prop where
  left  : r'.cells.left = r.cells.left
  right : r'.cells.right = r.cells.right
  input : r'.input = r.input

theorem SamePlace.trans {r₁ r₂ r₃ : Run} (h : r₁.SamePlace r₂) (h' : r₂.SamePlace r₃) : r₁.SamePlace r₃ where
  left := h'.left.trans h.left
  right := h'.right.trans h.right
  input := h'.input.trans h.input

theorem samePlace_of_step {r r' : Run} (hp : ∀ op ∈ p, op.InPlace)
    (hstep : r.step maxCells p.toArray j = .running r') : r.SamePlace r' := by
  simp only [step, List.getElem?_toArray] at hstep
  cases hop : p[r.pc]?
  all_goals
    rw [hop] at hstep
  case none => cases hstep
  case some op =>
    cases hp op (List.mem_of_getElem? hop)
    all_goals
      cases hstep
      exact ⟨rfl, rfl, rfl⟩

theorem Reaches.samePlace {r r' : Run} (hp : ∀ op ∈ p, op.InPlace) (h : Reaches maxCells p j r r') :
    r.SamePlace r' := by
  induction h
  case refl => exact ⟨rfl, rfl, rfl⟩
  case tail _ hstep ih => exact ih.trans (samePlace_of_step hp hstep)

end Run

namespace Program

section Source

theorem source_eq_ofChars (p : Program) : p.source = Bytes.ofChars (p.map Op.char) := by
  induction p
  case nil => rfl
  case cons op p ih =>
    have hop : Bytes.ofChar op.char = [op.char.toUInt8] := by cases op <;> rfl
    rw [List.map_cons, Bytes.ofChars_cons, hop, ← ih]
    rfl

theorem ofChars_map_char (p : Program) : ofChars (p.map Op.char) = .ok p := by
  induction p
  case nil => rfl
  case cons op p ih =>
    rw [List.map_cons, ofChars, Op.ofChar?_char, ih]
    rfl

theorem compile_source (p : Program) : compile p.source = .ok p := by
  rw [compile, source_eq_ofChars, Bytes.chars_ofChars, ofChars_map_char]

end Source

theorem inPlace_of_adjust {a b : UInt8} : ∀ op ∈ adjust a b, op.InPlace := by
  intro op hop
  unfold adjust at hop
  split at hop
  all_goals
    rw [List.eq_of_mem_replicate hop]
  case isTrue => exact .inc
  case isFalse => exact .dec

theorem inPlace_of_printingFrom {a : UInt8} {bs : Bytes} : ∀ op ∈ printingFrom a bs, op.InPlace := by
  induction bs generalizing a
  case nil => nofun
  case cons b bs ih =>
    simp only [printingFrom, List.forall_mem_append, List.forall_mem_cons]
    exact ⟨inPlace_of_adjust, .put, ih⟩

theorem length_adjust (a b : UInt8) : (adjust a b).length = ((b.toNat : Int) - a.toNat).natAbs := by
  unfold adjust
  split
  case isTrue h =>
    rw [UInt8.le_iff_toNat_le] at h
    rw [List.length_replicate]
    omega
  case isFalse h =>
    rw [UInt8.le_iff_toNat_le] at h
    rw [List.length_replicate]
    omega

theorem length_printingFrom (a : UInt8) (bs : Bytes) :
    (printingFrom a bs).length = bs.length +
      (List.zipWith (fun a b => ((b.toNat : Int) - a.toNat).natAbs) (a :: bs) bs).sum := by
  induction bs generalizing a
  case nil => rfl
  case cons b bs ih =>
    rw [printingFrom, List.length_append, List.length_cons, length_adjust, ih, List.zipWith_cons_cons,
      List.sum_cons, List.length_cons]
    omega

theorem exec_printing (bs : Bytes) (maxCells : Int) (allowance : Nat) (input : Bytes) :
    (printing bs).exec maxCells allowance input = some ⟨none, bs, input⟩ := by
  have hacts (op) (h : op ∈ printing bs) := (inPlace_of_printingFrom op h).exists_act
  have hjumps : (printing bs).jumps = .ok _ := Jumps.scan_of_acts hacts 0 _
  rw [exec, hjumps, Nat.add_comm]
  exact Store.runFor_printingFrom (s := { input }) rfl

theorem printing_prints_in_place (bs : Bytes) (maxCells : Int) (input : Bytes) :
    (∀ allowance, (printing bs).exec maxCells allowance input = some ⟨none, bs, input⟩) ∧
    (∀ j r, (printing bs).jumps = .ok j → Run.Reaches maxCells (printing bs) j { input } r →
      r.cells.position = 0 ∧ r.cells.length = 1 ∧ r.input = input ∧ (printing bs)[r.pc]? ≠ some .get) ∧
    compile (printing bs).source = .ok (printing bs) ∧
    (printing bs).length = bs.length +
      (List.zipWith (fun a b => ((b.toNat : Int) - a.toNat).natAbs) (0 :: bs) bs).sum := by
  have hplace : ∀ op ∈ printing bs, op.InPlace := inPlace_of_printingFrom
  refine ⟨fun allowance => exec_printing bs maxCells allowance input, ?_, compile_source _,
    length_printingFrom 0 bs⟩
  intro j r _ hreach
  have ⟨hleft, hright, hinput⟩ := hreach.samePlace hplace
  refine ⟨?position, ?length, hinput, ?receives⟩
  case position => rw [Cells.position, hleft]; rfl
  case length => rw [Cells.length, hleft, hright]; rfl
  case receives =>
    intro hget
    cases hplace _ (List.mem_of_getElem? hget)

-- `++.-.` before its last operation.
theorem printing_prints_in_place_descending :
    ∃ j r, (printing [2, 1]).jumps = .ok j ∧ Run.Reaches 1 (printing [2, 1]) j { input := [9] } r ∧
      r.pc = 4 ∧ r.sent = [2] ∧ r.cells.position = 0 ∧ r.cells.length = 1 ∧ r.input = [9] := by
  have hj : (printing [2, 1]).jumps = .ok (.unpaired 5) := rfl
  have hreach : Run.Reaches 1 (printing [2, 1]) (.unpaired 5) { input := [9] }
      { pc := 4, cells := { here := 1 }, input := [9], sent := [2] } :=
    .tail (.tail (.tail (.tail .refl rfl) rfl) rfl) rfl
  have ⟨hposition, hlength, hinput, _⟩ := (printing_prints_in_place [2, 1] 1 [9]).right.left _ _ hj hreach
  exact ⟨_, _, hj, hreach, rfl, rfl, hposition, hlength, hinput⟩

end Program
end TapeShell.Tape
