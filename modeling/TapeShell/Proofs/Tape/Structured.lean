import TapeShell.Proofs.Tape.Brackets
import TapeShell.Proofs.Tape.Run

namespace TapeShell.Tape

structure Store where
  cells : Cells := {}
  input : Bytes
  sent : Bytes := []
  deriving DecidableEq, Repr

def Store.outcome (s : Store) (e : Option ExecError) : Outcome :=
  ⟨e, s.sent, s.input⟩

def Act.apply (maxCells : Int) (pc : Nat) (s : Store) : Act → Except ExecError Store
  | .left =>
    match s.cells.moveLeft? with
    | some cells => .ok { s with cells }
    | none => .error (.pointer pc)
  | .right =>
    match s.cells.moveRight? maxCells with
    | some cells => .ok { s with cells }
    | none => .error (.limit maxCells)
  | .inc => .ok { s with cells.here := s.cells.here + 1 }
  | .dec => .ok { s with cells.here := s.cells.here - 1 }
  | .put => .ok { s with sent := s.sent ++ [s.cells.here] }
  | .get => .ok { s with cells.here := s.input.headD 0, input := s.input.tail }

namespace Tree

-- `Derives maxCells pc t s e s'` says that `t`, whose first operation has the position `pc`, ends in
-- the store `s'` when it is evaluated in `s`, with the error `e` if there is one. A tree that does
-- not end has no derivation.
inductive Derives (maxCells : Int) : Nat → Tree → Store → Option ExecError → Store → Prop where
  | done : Derives maxCells pc .done s none s
  | act (apply : a.apply maxCells pc s = .ok s') (next : Derives maxCells (pc + 1) t s' e s'') :
    Derives maxCells pc (.act a t) s e s''
  | fail (apply : a.apply maxCells pc s = .error e) : Derives maxCells pc (.act a t) s (some e) s
  | skip (zero : s.cells.here = 0) (next : Derives maxCells (pc + body.size + 2) t s e s') :
    Derives maxCells pc (.loop body t) s e s'
  | again (nonzero : s.cells.here ≠ 0) (once : Derives maxCells (pc + 1) body s none s')
    (rest : Derives maxCells pc (.loop body t) s' e s'') : Derives maxCells pc (.loop body t) s e s''
  | abort (nonzero : s.cells.here ≠ 0) (once : Derives maxCells (pc + 1) body s (some e) s') :
    Derives maxCells pc (.loop body t) s (some e) s'

def Ends (maxCells : Int) (t : Tree) (input : Bytes) (o : Outcome) : Prop :=
  ∃ e s, Derives maxCells 0 t { input } e s ∧ o = s.outcome e

end Tree

namespace Store

def runAt (s : Store) (pc : Nat) : Run where
  pc := pc
  cells := s.cells
  input := s.input
  sent := s.sent.reverse

variable {maxCells : Int} {p : Program} {j : Jumps} {pc k : Nat} {s s' : Store}

theorem step_end (h : p.length ≤ pc) :
    (s.runAt pc).step maxCells p.toArray j = .ended (s.outcome none) := by
  simp [Run.step, runAt, h, Run.finish, outcome]

theorem step_act {a : Act} (h : p[pc]? = some a.op) :
    (s.runAt pc).step maxCells p.toArray j =
      match a.apply maxCells pc s with
      | .ok s' => .running (s'.runAt (pc + 1))
      | .error e => .ended (s.outcome (some e)) := by
  simp only [Run.step, runAt, List.getElem?_toArray, h]
  cases a
  case left =>
    cases hmove : s.cells.moveLeft? <;>
      simp [Act.op, Act.apply, Run.perform, hmove, Run.fail, Run.continueAfter, outcome]
  case right =>
    cases hmove : s.cells.moveRight? maxCells <;>
      simp [Act.op, Act.apply, Run.perform, hmove, Run.fail, Run.continueAfter, outcome]
  case put => simp [Act.op, Act.apply, Run.perform, Run.continueAfter]
  all_goals rfl

theorem step_opening (hop : p[pc]? = some .opening) (hjump : j.target? pc = some k) :
    (s.runAt pc).step maxCells p.toArray j =
      .running (s.runAt (if s.cells.here = 0 then k + 1 else pc + 1)) := by
  by_cases hzero : s.cells.here = 0 <;>
    simp [Run.step, runAt, hop, Run.perform, hzero, hjump, Run.continueAfter]

theorem step_closing (hop : p[k]? = some .closing) (hjump : j.target? k = some pc) :
    (s.runAt k).step maxCells p.toArray j =
      .running (s.runAt (if s.cells.here = 0 then k + 1 else pc + 1)) := by
  by_cases hzero : s.cells.here = 0 <;>
    simp [Run.step, runAt, hop, Run.perform, hzero, hjump, Run.continueAfter]

theorem runFor_closing {fuel : Nat} (hopening : p[pc]? = some .opening)
    (hclosing : p[k]? = some .closing) (hforth : j.target? pc = some k)
    (hback : j.target? k = some pc) :
    Run.runFor maxCells p.toArray j fuel (s.runAt k) =
      Run.runFor maxCells p.toArray j fuel (s.runAt pc) :=
  Run.runFor_congr <| (step_closing hclosing hback).trans (step_opening hopening hforth).symm

-- What comes after a tree: nothing if it failed, and else the run from where it ends, on the fuel
-- that is left of what there was.
def Continues (maxCells : Int) (p : Program) (j : Jumps) (fuel pc : Nat) (o : Outcome) (s : Store) :
    Option ExecError → Prop
  | none => ∃ left ≤ fuel, Run.runFor maxCells p.toArray j left (s.runAt pc) = some o
  | some e => o = s.outcome (some e)

theorem Continues.mono {fuel more : Nat} {o : Outcome} {e : Option ExecError}
    (h : s.Continues maxCells p j fuel pc o e) (hle : fuel ≤ more) :
    s.Continues maxCells p j more pc o e := by
  cases e
  case none =>
    have ⟨left, hleft, hrun⟩ := h
    exact ⟨left, Nat.le_trans hleft hle, hrun⟩
  case some => exact h

theorem continues_end (fuel : Nat) {o : Outcome} {e : Option ExecError} (h : p.length ≤ pc) :
    s.Continues maxCells p j fuel pc o e ↔ o = s.outcome e := by
  cases e
  case some => rfl
  case none =>
    have hend (left) : Run.runFor maxCells p.toArray j left (s.runAt pc) = some (s.outcome none) :=
      Run.runFor_of_ended <| step_end h
    constructor
    · rintro ⟨left, -, hrun⟩
      exact Option.some.inj <| hrun.symm.trans <| hend left
    · rintro rfl
      exact ⟨fuel, Nat.le_refl _, hend fuel⟩

end Store

namespace Tree

variable {maxCells : Int} {p : Program} {j : Jumps} {pc fuel : Nat} {t : Tree} {s s' : Store}
  {e : Option ExecError} {o : Outcome}

theorem add_size_act (pc : Nat) (a : Act) (t : Tree) : pc + (act a t).size = pc + 1 + t.size := by
  rw [size]
  omega

theorem add_size_loop (pc : Nat) (body t : Tree) :
    pc + (loop body t).size = pc + body.size + 2 + t.size := by
  rw [size]
  omega

-- The induction is on the derivation. The body of a loop continues at the closing bracket, which
-- does what the opening one would do.
theorem runFor_of_derives (h : Derives maxCells pc t s e s') (hpairs : j.Pairs p pc t)
    (hnext : s'.Continues maxCells p j fuel (pc + t.size) o e) :
    ∃ fuel, Run.runFor maxCells p.toArray j fuel (s.runAt pc) = some o := by
  induction h generalizing fuel
  case done =>
    have ⟨left, _, hrun⟩ := hnext
    exact ⟨left, hrun⟩
  case act hok _ ih =>
    have .act hop hpairs := hpairs
    rw [add_size_act] at hnext
    have ⟨fuel, hrun⟩ := ih hpairs hnext
    exact ⟨fuel + 1, by rwa [Run.runFor_of_running (by rw [Store.step_act hop, hok])]⟩
  case fail herror =>
    have .act hop _ := hpairs
    exact ⟨0, by rw [Run.runFor_of_ended (by rw [Store.step_act hop, herror]), hnext]⟩
  case skip hzero _ ih =>
    have .loop rfl hopening _ hforth _ _ hpairs := hpairs
    rw [add_size_loop] at hnext
    have ⟨fuel, hrun⟩ := ih hpairs hnext
    exact ⟨fuel + 1,
      by rwa [Run.runFor_of_running (Store.step_opening hopening hforth), if_pos hzero]⟩
  case again hnonzero _ _ ih₁ ih₂ =>
    have ⟨fuel, hrest⟩ := ih₂ hpairs hnext
    have .loop rfl hopening hclosing hforth hback hinside _ := hpairs
    rw [← Store.runFor_closing hopening hclosing hforth hback, Nat.add_right_comm] at hrest
    have ⟨fuel, hrun⟩ := ih₁ hinside ⟨fuel, Nat.le_refl _, hrest⟩
    exact ⟨fuel + 1,
      by rwa [Run.runFor_of_running (Store.step_opening hopening hforth), if_neg hnonzero]⟩
  case abort hnonzero _ ih =>
    have .loop rfl hopening _ hforth _ hinside _ := hpairs
    have ⟨fuel, hrun⟩ := @ih 0 hinside hnext
    exact ⟨fuel + 1,
      by rwa [Run.runFor_of_running (Store.step_opening hopening hforth), if_neg hnonzero]⟩

-- The induction is on the fuel: every operation uses some of it, and so does a round of a loop.
theorem derives_of_runFor (hpairs : j.Pairs p pc t)
    (h : Run.runFor maxCells p.toArray j fuel (s.runAt pc) = some o) :
    ∃ e s', Derives maxCells pc t s e s' ∧
      s'.Continues maxCells p j fuel (pc + t.size) o e := by
  induction fuel using Nat.strongRecOn generalizing pc t s
  case ind fuel ih =>
  cases t
  case done => exact ⟨none, s, .done, fuel, Nat.le_refl _, h⟩
  case act a t =>
    have .act hop hpairs := hpairs
    have hstep : (s.runAt pc).step maxCells p.toArray j = _ := Store.step_act hop
    cases happly : a.apply maxCells pc s
    case error e =>
      rw [happly] at hstep
      rw [Run.runFor_of_ended hstep] at h
      exact ⟨some e, s, .fail happly, (Option.some.inj h).symm⟩
    case ok s₁ =>
      rw [happly] at hstep
      have ⟨left, hlt, hrun⟩ := Run.exists_runFor_of_running hstep h
      have ⟨e, s', hderives, hnext⟩ := ih left hlt hpairs hrun
      rw [add_size_act]
      exact ⟨e, s', .act happly hderives, hnext.mono (Nat.le_of_lt hlt)⟩
  case loop body t =>
    have .loop rfl hopening hclosing hforth hback hinside hafter := hpairs
    have ⟨left, hlt, hrun⟩ :=
      Run.exists_runFor_of_running (Store.step_opening hopening hforth) h
    by_cases hzero : s.cells.here = 0
    case pos =>
      rw [if_pos hzero] at hrun
      have ⟨e, s', hderives, hnext⟩ := ih left hlt hafter hrun
      rw [add_size_loop]
      exact ⟨e, s', .skip hzero hderives, hnext.mono (Nat.le_of_lt hlt)⟩
    case neg =>
      rw [if_neg hzero] at hrun
      have ⟨e, s₁, honce, hrest⟩ := ih left hlt hinside hrun
      cases e
      case some e => exact ⟨some e, s₁, .abort hzero honce, hrest⟩
      case none =>
        -- The body has ended at the closing bracket, from where the loop starts over.
        have ⟨less, hle, hagain⟩ := hrest
        rw [Nat.add_right_comm, Store.runFor_closing hopening hclosing hforth hback] at hagain
        have ⟨e, s', hderives, hnext⟩ := ih less (by omega) hpairs hagain
        exact ⟨e, s', .again hzero honce hderives, hnext.mono (by omega)⟩

theorem exists_runFor_iff_ends (hpairs : j.Pairs t.ops 0 t) (input : Bytes) :
    (∃ fuel, Run.runFor maxCells t.ops.toArray j fuel { input } = some o) ↔
      t.Ends maxCells input o := by
  have hend : t.ops.length ≤ 0 + t.size := by simp
  constructor
  · rintro ⟨fuel, hrun⟩
    have ⟨e, s, hderives, hnext⟩ := derives_of_runFor (s := { input }) hpairs hrun
    exact ⟨e, s, hderives, (Store.continues_end fuel hend).mp hnext⟩
  · rintro ⟨e, s, hderives, ho⟩
    exact runFor_of_derives hderives hpairs <| (Store.continues_end 0 hend).mpr ho

end Tree

theorem Program.Balanced.exec_iff_ends {p : Program} (h : p.Balanced) :
    ∃ t : Tree, (t.ops = p ∧ ∀ u : Tree, u.ops = p → u = t) ∧
      ∀ (maxCells : Int) (input : Bytes) (o : Outcome),
        (∃ allowance, p.exec maxCells allowance input = some o) ↔ t.Ends maxCells input o := by
  have ⟨t, ht⟩ := h.exists_ops_eq
  subst ht
  refine ⟨t, ⟨rfl, fun u hu => Tree.ops_injective hu⟩, fun maxCells input o => ?iff⟩
  case iff =>
    calc
      _ ↔ _ := exists_exec_iff (Jumps.jumps_ops t) maxCells input o
      _ ↔ _ := Tree.exists_runFor_iff_ends (Jumps.pairs_jumps_ops t) input

-- Two times two, by a loop within a loop: `++[>++[>+<-]<-]>>.`
theorem Program.Balanced.exec_iff_ends_nested :
    let p : Program := [.inc, .inc, .opening, .right, .inc, .inc, .opening, .right, .inc, .left, .dec,
      .closing, .left, .dec, .closing, .right, .right, .put]
    p.Balanced ∧ ∃ t : Tree, t.ops = p ∧
      t.Ends 3 [7] ⟨none, [4], [7]⟩ ∧ t.Ends 2 [7] ⟨some (.limit 2), [], [7]⟩ := by
  intro p
  have hp : p.Balanced := by decide
  have ⟨t, ⟨ht, _⟩, hends⟩ := hp.exec_iff_ends
  exact ⟨hp, t, ht, (hends ..).mp ⟨40, by decide⟩, (hends ..).mp ⟨0, by decide⟩⟩

end TapeShell.Tape
