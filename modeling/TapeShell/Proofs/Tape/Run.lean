import TapeShell.Tape.Execution

namespace TapeShell.Tape.Run

variable {maxCells : Int} {ops : Array Op} {j : Jumps} {r r' : Run} {o : Outcome} {fuel : Nat}

theorem runFor_of_ended (h : r.step maxCells ops j = .ended o) :
    runFor maxCells ops j fuel r = some o := by
  cases fuel <;> simp only [runFor, h]

theorem runFor_of_running (h : r.step maxCells ops j = .running r') :
    runFor maxCells ops j (fuel + 1) r = runFor maxCells ops j fuel r' := by
  simp only [runFor, h]

-- A step uses fuel, which is what inductions over runs rest on.
theorem exists_runFor_of_running (hstep : r.step maxCells ops j = .running r')
    (h : runFor maxCells ops j fuel r = some o) :
    ∃ left < fuel, runFor maxCells ops j left r' = some o := by
  cases fuel
  case zero => simp [runFor, hstep] at h
  case succ left =>
    rw [runFor_of_running hstep] at h
    exact ⟨left, Nat.lt_succ_self _, h⟩

theorem runFor_congr (h : r.step maxCells ops j = r'.step maxCells ops j) :
    runFor maxCells ops j fuel r = runFor maxCells ops j fuel r' := by
  cases fuel <;> simp only [runFor, h]

theorem runFor_mono {more : Nat} (h : runFor maxCells ops j fuel r = some o) (hle : fuel ≤ more) :
    runFor maxCells ops j more r = some o := by
  induction more generalizing fuel r
  case zero => rwa [Nat.le_zero.mp hle] at h
  case succ more ih =>
    cases hstep : r.step maxCells ops j
    case ended o' => rwa [runFor_of_ended hstep] at h ⊢
    case running r' =>
      have ⟨left, hlt, hrest⟩ := exists_runFor_of_running hstep h
      rw [runFor_of_running hstep]
      exact ih hrest (by omega)

end Run

theorem Program.exists_exec_iff {p : Program} {j : Jumps} (h : p.jumps = .ok j) (maxCells : Int)
    (input : Bytes) (o : Outcome) :
    (∃ allowance, p.exec maxCells allowance input = some o) ↔
      ∃ fuel, Run.runFor maxCells p.toArray j fuel { input } = some o := by
  simp only [exec, h]
  constructor
  · rintro ⟨allowance, hrun⟩
    exact ⟨_, hrun⟩
  · rintro ⟨fuel, hrun⟩
    exact ⟨fuel, Run.runFor_mono hrun (Nat.le_add_left ..)⟩

end TapeShell.Tape
