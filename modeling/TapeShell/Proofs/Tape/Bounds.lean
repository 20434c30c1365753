import Mathlib.Logic.Relation
import TapeShell.Proofs.Tape.Matching
import TapeShell.Proofs.Tape.Run

namespace TapeShell.Tape

namespace Cells

variable {maxCells : Int} {t t' : Cells}

def memory (t : Cells) : List UInt8 :=
  t.left.reverse ++ t.here :: t.right

theorem length_memory (t : Cells) : t.memory.length = t.length := by
  simp only [memory, length, List.length_append, List.length_reverse, List.length_cons]
  omega

theorem getElem?_memory_position (t : Cells) : t.memory[t.position]? = some t.here := by
  simp [memory, position]

theorem memory_set_position (t : Cells) (b : UInt8) :
    t.memory.set t.position b = { t with here := b : Cells }.memory := by
  simp [memory, position]

-- All that an operation can do to the tape: write to the cell under the head, or move the head by one
-- cell, which may be a new one at the end.
inductive Moves (maxCells : Int) (t t' : Cells) : Prop where
  | write (position : t'.position = t.position) (memory : t'.memory = t.memory.set t.position t'.here)
  | left (position : t'.position + 1 = t.position) (memory : t'.memory = t.memory)
  | right (position : t'.position = t.position + 1) (memory : t'.memory = t.memory)
  | grow (position : t'.position = t.memory.length) (memory : t'.memory = t.memory ++ [0])
    (room : 0 < maxCells → t.memory.length < maxCells)

theorem Moves.setHere (maxCells : Int) (t : Cells) (b : UInt8) : t.Moves maxCells { t with here := b } :=
  .write rfl (t.memory_set_position b).symm

theorem Moves.refl (maxCells : Int) (t : Cells) : t.Moves maxCells t :=
  .setHere maxCells t t.here

theorem moves_of_moveLeft? (h : t.moveLeft? = some t') : t.Moves maxCells t' := by
  have ⟨left, here, right⟩ := t
  cases left
  case nil => simp [moveLeft?] at h
  case cons =>
    cases h
    exact .left rfl (by simp [memory])

theorem position_of_moveLeft? (h : t.moveLeft? = none) : t.position = 0 := by
  have ⟨left, here, right⟩ := t
  cases left
  case nil => rfl
  case cons => simp [moveLeft?] at h

theorem moves_of_moveRight? (h : t.moveRight? maxCells = some t') : t.Moves maxCells t' := by
  have ⟨left, here, right⟩ := t
  cases right
  case cons =>
    cases h
    exact .right rfl (by simp [memory])
  case nil =>
    simp only [moveRight?] at h
    split at h
    case isTrue => cases h
    case isFalse hroom =>
      cases h
      refine .grow ?position (by simp [memory]) fun hpos => ?room
      case position => simp [position, memory]
      case room =>
        rw [length_memory]
        omega

theorem full_of_moveRight? (h : t.moveRight? maxCells = none) :
    t.position + 1 = t.memory.length ∧ 0 < maxCells ∧ maxCells ≤ t.memory.length := by
  rw [length_memory]
  have ⟨left, here, right⟩ := t
  cases right
  case cons => simp [moveRight?] at h
  case nil =>
    simp only [moveRight?] at h
    split at h
    case isTrue hfull => exact ⟨rfl, hfull⟩
    case isFalse => cases h

theorem Moves.length_le (h : t.Moves maxCells t') (hle : 0 < maxCells → t.memory.length ≤ maxCells) :
    0 < maxCells → t'.memory.length ≤ maxCells := by
  intro hpos
  have hle := hle hpos
  cases h
  case grow hmemory hroom =>
    have := hroom hpos
    rw [hmemory, List.length_append, List.length_singleton]
    omega
  case write hmemory => rwa [hmemory, List.length_set]
  all_goals rwa [‹t'.memory = t.memory›]

end Cells

namespace Run

inductive TakesJump (p : Program) (r : Run) : Prop where
  | skip (op : p[r.pc]? = some .opening) (zero : r.cells.here = 0)
  | again (op : p[r.pc]? = some .closing) (nonzero : r.cells.here ≠ 0)

inductive Stepped (maxCells : Int) (p : Program) (j : Jumps) (r : Run) : Progress → Prop where
  | finish (ended : p.length ≤ r.pc) : Stepped maxCells p j r r.finish
  | pointer (op : p[r.pc]? = some .left) (first : r.cells.position = 0) :
    Stepped maxCells p j r (r.fail (.pointer r.pc))
  | limit (op : p[r.pc]? = some .right) (last : r.cells.position + 1 = r.cells.memory.length)
    (positive : 0 < maxCells) (full : maxCells ≤ r.cells.memory.length) :
    Stepped maxCells p j r (r.fail (.limit maxCells))
  | next (op : r.pc < p.length) (pc : r'.pc = r.pc + 1) (moves : r.cells.Moves maxCells r'.cells) :
    Stepped maxCells p j r (.running r')
  | jump (takes : r.TakesJump p) (pc : r'.pc = (j.target? r.pc).getD 0 + 1)
    (moves : r.cells.Moves maxCells r'.cells) : Stepped maxCells p j r (.running r')

theorem stepped (maxCells : Int) (p : Program) (j : Jumps) (r : Run) :
    Stepped maxCells p j r (r.step maxCells p.toArray j) := by
  simp only [step, List.getElem?_toArray]
  cases hop : p[r.pc]?
  case none => exact .finish (List.getElem?_eq_none_iff.mp hop)
  case some op =>
    have hlt := Program.lt_length hop
    have next {r' : Run} (hpc : r'.pc = r.pc + 1) (hmoves : r.cells.Moves maxCells r'.cells) :
        Stepped maxCells p j r (.running r') := .next hlt hpc hmoves
    cases op
    case left =>
      simp only [perform]
      split
      case h_1 hmove => exact next rfl (Cells.moves_of_moveLeft? hmove)
      case h_2 hmove => exact .pointer hop (Cells.position_of_moveLeft? hmove)
    case right =>
      simp only [perform]
      split
      case h_1 hmove => exact next rfl (Cells.moves_of_moveRight? hmove)
      case h_2 hmove =>
        have ⟨hlast, hpos, hfull⟩ := Cells.full_of_moveRight? hmove
        exact .limit hop hlast hpos hfull
    case put => exact next rfl (.refl ..)
    case opening =>
      by_cases hzero : r.cells.here = 0
      case pos => exact .jump (.skip hop hzero) (by simp [hzero]) (.refl ..)
      case neg => exact next (by simp [hzero]) (.refl ..)
    case closing =>
      by_cases hzero : r.cells.here = 0
      case pos => exact next (by simp [hzero]) (.refl ..)
      case neg => exact .jump (.again hop hzero) (by simp [hzero]) (.refl ..)
    all_goals exact next rfl (.setHere ..)

def Reaches (maxCells : Int) (p : Program) (j : Jumps) : Run → Run → Prop :=
  Relation.ReflTransGen fun r r' => r.step maxCells p.toArray j = .running r'

structure InBounds (maxCells : Int) (p : Program) (j : Jumps) (r : Run) : Prop where
  cells_pos   : 0 < r.cells.memory.length
  position_lt : r.cells.position < r.cells.memory.length
  under_head  : r.cells.memory[r.cells.position]? = some r.cells.here
  length_le   : 0 < maxCells → r.cells.memory.length ≤ maxCells
  pc_lt       : r.pc < p.length ∨ (r.pc = p.length ∧ r.step maxCells p.toArray j = r.finish)
  target      : r.TakesJump p → ∃ k < p.length, j.target? r.pc = some k

variable {maxCells : Int} {p : Program} {j : Jumps} {r r' : Run} {o : Outcome} {fuel : Nat}

theorem TakesJump.exists_target (h : r.TakesJump p) (hj : p.jumps = .ok j) :
    ∃ k < p.length, j.target? r.pc = some k := by
  have hmatches := Jumps.Matches.of_scanned (Jumps.scanned_of_jumps hj)
  have ⟨k, hk⟩ : ∃ k, j.target? r.pc = some k := by
    rw [hmatches.domain]
    cases h
    case skip hop _ => exact .inl hop
    case again hop _ => exact .inr hop
  have hpartner := (hmatches.domain k).mp ⟨r.pc, hmatches.inverse _ _ hk⟩
  exact ⟨k, hpartner.elim Program.lt_length Program.lt_length, hk⟩

theorem InBounds.of_pc_le (hj : p.jumps = .ok j) (hpc : r.pc ≤ p.length)
    (hlength : 0 < maxCells → r.cells.memory.length ≤ maxCells) : r.InBounds maxCells p j where
  cells_pos := by
    rw [Cells.length_memory, Cells.length]
    omega
  position_lt := by
    rw [Cells.length_memory, Cells.length, Cells.position]
    omega
  under_head := r.cells.getElem?_memory_position
  length_le := hlength
  pc_lt := by
    by_cases hlt : r.pc < p.length
    case pos => exact .inl hlt
    case neg =>
      have hend : r.pc = p.length := by omega
      exact .inr ⟨hend, by simp [step, hend]⟩
  target h := h.exists_target hj

-- After a jump the run goes on behind a bracket, and so within the program or at its end.
theorem InBounds.running (h : r.InBounds maxCells p j) (hj : p.jumps = .ok j)
    (hstep : r.step maxCells p.toArray j = .running r') :
    r'.InBounds maxCells p j ∧ r.cells.Moves maxCells r'.cells := by
  have hs := stepped maxCells p j r
  rw [hstep] at hs
  cases hs
  case next hlt hpc hmoves =>
    exact ⟨.of_pc_le hj (by omega) (hmoves.length_le h.length_le), hmoves⟩
  case jump htakes hpc hmoves =>
    have ⟨k, hk, htarget⟩ := h.target htakes
    rw [htarget, Option.getD_some] at hpc
    exact ⟨.of_pc_le hj (by omega) (hmoves.length_le h.length_le), hmoves⟩

theorem Reaches.inBounds {input : Bytes} (hj : p.jumps = .ok j) (h : Reaches maxCells p j { input } r) :
    r.InBounds maxCells p j := by
  induction h
  case refl => exact .of_pc_le hj (Nat.zero_le _) fun hpos => hpos
  case tail _ hstep ih => exact (ih.running hj hstep).left

theorem exists_reaches_of_runFor (h : runFor maxCells p.toArray j fuel r = some o) :
    ∃ r', Reaches maxCells p j r r' ∧ r'.step maxCells p.toArray j = .ended o := by
  induction fuel generalizing r
  all_goals
    cases hstep : r.step maxCells p.toArray j
  case zero.running => simp [runFor, hstep] at h
  case succ.running fuel ih r' =>
    rw [runFor_of_running hstep] at h
    obtain ⟨last, hreach, hend⟩ := ih h
    exact ⟨last, .head hstep hreach, hend⟩
  all_goals
    rw [runFor_of_ended hstep] at h
    cases h
    exact ⟨r, .refl, hstep⟩

end Run

namespace Program

theorem exists_reaches_of_exec {p : Program} {maxCells : Int} {allowance : Nat} {input : Bytes}
    {o : Outcome} (h : p.exec maxCells allowance input = some o) :
    (∃ b, o = ⟨some (.unbalanced b), [], input⟩) ∨
      ∃ j r, p.jumps = .ok j ∧ Run.Reaches maxCells p j { input } r ∧
        r.step maxCells p.toArray j = .ended o := by
  simp only [exec] at h
  split at h
  case h_1 b hb => exact .inl ⟨b, (Option.some.inj h).symm⟩
  case h_2 j hj =>
    obtain ⟨r, hreach, hend⟩ := Run.exists_reaches_of_runFor h
    exact .inr ⟨j, r, hj, hreach, hend⟩

theorem exec_in_bounds (p : Program) (maxCells : Int) (input : Bytes) :
    (∀ j r, p.jumps = .ok j → Run.Reaches maxCells p j { input } r →
      r.InBounds maxCells p j ∧
      ∀ r', r.step maxCells p.toArray j = .running r' → r.cells.Moves maxCells r'.cells) ∧
    (∀ allowance k sent unread,
      p.exec maxCells allowance input = some ⟨some (.pointer k), sent, unread⟩ →
      ∃ j r, p.jumps = .ok j ∧ Run.Reaches maxCells p j { input } r ∧
        r.pc = k ∧ p[k]? = some .left ∧ r.cells.position = 0) ∧
    ∀ allowance n sent unread,
      p.exec maxCells allowance input = some ⟨some (.limit n), sent, unread⟩ →
      ∃ j r, p.jumps = .ok j ∧ Run.Reaches maxCells p j { input } r ∧
        n = maxCells ∧ p[r.pc]? = some .right ∧
        r.cells.position + 1 = r.cells.memory.length ∧ r.cells.memory.length = maxCells := by
  refine ⟨?states, ?pointer, ?limit⟩
  case states =>
    intro j r hj hreach
    have hbounds := hreach.inBounds hj
    exact ⟨hbounds, fun r' hstep => (hbounds.running hj hstep).right⟩
  case pointer =>
    intro allowance k sent unread h
    rcases exists_reaches_of_exec h with ⟨b, hb⟩ | ⟨j, r, hj, hreach, hend⟩
    · cases hb
    · have hs := Run.stepped maxCells p j r
      rw [hend] at hs
      cases hs
      case pointer hop hfirst => exact ⟨j, r, hj, hreach, rfl, hop, hfirst⟩
  case limit =>
    intro allowance n sent unread h
    rcases exists_reaches_of_exec h with ⟨b, hb⟩ | ⟨j, r, hj, hreach, hend⟩
    · cases hb
    · have hs := Run.stepped maxCells p j r
      rw [hend] at hs
      cases hs
      case limit hop hlast hpos hfull =>
        have hle := (hreach.inBounds hj).length_le hpos
        exact ⟨j, r, hj, hreach, rfl, hop, hlast, by omega⟩

-- On two cells, `,[>]` stands at its closing bracket with the head on the second cell; `>,[>]` goes on from
-- there and runs out of cells, and `[],<` off the other end.
theorem exec_in_bounds_at_both_ends :
    (∃ j r, jumps [.get, .opening, .right, .closing] = .ok j ∧
      Run.Reaches 2 [.get, .opening, .right, .closing] j { input := [7] } r ∧
      r.cells = ⟨[7], 0, []⟩ ∧ r.InBounds 2 [.get, .opening, .right, .closing] j) ∧
    (∃ j r, jumps [.right, .get, .opening, .right, .closing] = .ok j ∧
      Run.Reaches 2 [.right, .get, .opening, .right, .closing] j { input := [7] } r ∧
      r.cells.position = 1 ∧ r.cells.memory.length = 2) ∧
    ∃ j r, jumps [.opening, .closing, .get, .left] = .ok j ∧
      Run.Reaches 2 [.opening, .closing, .get, .left] j { input := [7] } r ∧
      r.pc = 3 ∧ r.cells.position = 0 := by
  refine ⟨?inside, ?limit, ?pointer⟩
  case inside =>
    let p : Program := [.get, .opening, .right, .closing]
    have hj : p.jumps = .ok ⟨#[none, some 3, none, some 1]⟩ := rfl
    have hreach : Run.Reaches 2 p ⟨#[none, some 3, none, some 1]⟩ { input := [7] }
        { pc := 3, cells := ⟨[7], 0, []⟩, input := [] } :=
      .tail (.tail (.tail .refl rfl) rfl) rfl
    exact ⟨_, _, hj, hreach, rfl, ((exec_in_bounds p 2 [7]).left _ _ hj hreach).left⟩
  case limit =>
    have ⟨j, r, hj, hreach, _, _, hlast, hlength⟩ :=
      (exec_in_bounds [.right, .get, .opening, .right, .closing] 2 [7]).right.right 0 2 [] [] (by decide)
    exact ⟨j, r, hj, hreach, by omega, by omega⟩
  case pointer =>
    have ⟨j, r, hj, hreach, hpc, _, hfirst⟩ :=
      (exec_in_bounds [.opening, .closing, .get, .left] 2 [7]).right.left 0 3 [] [] (by decide)
    exact ⟨j, r, hj, hreach, hpc, hfirst⟩

end Program
end TapeShell.Tape
