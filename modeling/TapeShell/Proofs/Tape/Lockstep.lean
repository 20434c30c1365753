import TapeShell.Proofs.Tape.Bounds

namespace TapeShell.Tape

-- `more` leaves at least the room that `maxCells` leaves. There is no limit if it is not positive.
def Roomier (maxCells more : Int) : Prop :=
  0 < more → 0 < maxCells ∧ maxCells ≤ more

theorem Cells.moveRight?_of_roomier {maxCells more : Int} {t t' : Cells} (h : Roomier maxCells more)
    (hmove : t.moveRight? maxCells = some t') : t.moveRight? more = some t' := by
  have ⟨left, here, right⟩ := t
  cases right
  case cons => exact hmove
  case nil =>
    simp only [moveRight?] at hmove ⊢
    split at hmove
    case isTrue => cases hmove
    case isFalse hroom =>
      rwa [if_neg]
      rintro ⟨hpos, hfull⟩
      obtain ⟨hpos', hle⟩ := h hpos
      exact hroom ⟨hpos', Int.le_trans hle hfull⟩

def Outcome.pad (n : Nat) (o : Outcome) : Outcome :=
  { o with unread := o.unread ++ List.replicate n 0 }

namespace Run

section Room

variable {maxCells more : Int} {p : Program} {j : Jumps} {r r' : Run} {o : Outcome} {fuel : Nat}

-- The limit matters to a single operation, and there only to the move off the end of the tape.
theorem step_of_roomier (h : Roomier maxCells more) :
    r.step more p.toArray j = r.step maxCells p.toArray j ∨
      r.step maxCells p.toArray j = r.fail (.limit maxCells) := by
  simp only [step]
  cases p.toArray[r.pc]?
  case none => exact .inl rfl
  case some op =>
    cases op
    case right =>
      simp only [perform]
      cases hmove : r.cells.moveRight? maxCells
      case none => exact .inr rfl
      case some => exact .inl (by rw [Cells.moveRight?_of_roomier h hmove])
    all_goals exact .inl rfl

theorem step_running_of_roomier (h : Roomier maxCells more)
    (hstep : r.step maxCells p.toArray j = .running r') : r.step more p.toArray j = .running r' := by
  rcases step_of_roomier h with heq | hfail
  · rw [heq, hstep]
  · cases hstep.symm.trans hfail

theorem Reaches.of_roomier (h : Roomier maxCells more) (hreach : Reaches maxCells p j r r') :
    Reaches more p j r r' :=
  Relation.ReflTransGen.mono (fun _ _ => step_running_of_roomier h) _ _ hreach

theorem runFor_of_roomier (h : Roomier maxCells more)
    (hrun : runFor maxCells p.toArray j fuel r = some o) (hfits : o.error ≠ some (.limit maxCells)) :
    runFor more p.toArray j fuel r = some o := by
  induction fuel generalizing r
  all_goals
    cases hstep : r.step maxCells p.toArray j
  case zero.running => simp [runFor, hstep] at hrun
  case succ.running fuel ih r' =>
    rw [runFor_of_running hstep] at hrun
    rw [runFor_of_running (step_running_of_roomier h hstep)]
    exact ih hrun
  all_goals
    rw [runFor_of_ended hstep] at hrun
    cases hrun
    rcases step_of_roomier h with heq | hfail
    · exact runFor_of_ended (heq.trans hstep)
    · cases hstep.symm.trans hfail
      exact absurd rfl hfits

end Room

section Sent

variable {maxCells : Int} {p : Program} {j : Jumps} {r r' : Run} {o : Outcome} {fuel : Nat}

def Progress.sent : Progress → Bytes
  | .running r => r.sent.reverse
  | .ended o => o.sent

theorem sent_prefix_step (maxCells : Int) (p : Program) (j : Jumps) (r : Run) :
    r.sent.reverse <+: (r.step maxCells p.toArray j).sent := by
  simp only [step]
  cases p.toArray[r.pc]?
  case none => exact List.prefix_rfl
  case some op =>
    cases op
    case put => exact ⟨[r.cells.here], by simp [perform, continueAfter, Progress.sent]⟩
    case left | right =>
      simp only [perform]
      split <;> exact List.prefix_rfl
    all_goals exact List.prefix_rfl

theorem Reaches.sent_prefix (h : Reaches maxCells p j r r') : r.sent.reverse <+: r'.sent.reverse := by
  induction h
  case refl => exact List.prefix_rfl
  case tail s s' _ hstep ih =>
    have hnext := sent_prefix_step maxCells p j s
    rw [hstep] at hnext
    exact ih.trans hnext

theorem Reaches.exists_runFor (h : Reaches maxCells p j r r')
    (hrun : runFor maxCells p.toArray j fuel r = some o) :
    ∃ fuel, runFor maxCells p.toArray j fuel r' = some o := by
  induction h
  case refl => exact ⟨fuel, hrun⟩
  case tail _ hstep ih =>
    obtain ⟨_, hrest⟩ := ih
    obtain ⟨left, _, hleft⟩ := exists_runFor_of_running hstep hrest
    exact ⟨left, hleft⟩

theorem sent_prefix_of_runFor (h : runFor maxCells p.toArray j fuel r = some o) :
    r.sent.reverse <+: o.sent := by
  obtain ⟨last, hreach, hend⟩ := exists_reaches_of_runFor h
  have hlast := sent_prefix_step maxCells p j last
  rw [hend] at hlast
  exact hreach.sent_prefix.trans hlast

end Sent

section Padding

variable {maxCells : Int} {ops : Array Op} {j : Jumps} {fuel : Nat}

def pad (n : Nat) (r : Run) : Run :=
  { r with input := r.input ++ List.replicate n 0 }

def Progress.pad (n : Nat) : Progress → Progress
  | .running r => .running (r.pad n)
  | .ended o => .ended (o.pad n)

-- A zero that is read from the padding is a zero that would have been read without it.
theorem perform_get_pad (n : Nat) (r : Run) :
    ∃ m ≤ n, (r.pad n).perform maxCells j .get = (r.perform maxCells j .get).pad m := by
  have ⟨pc, cells, input, sent⟩ := r
  cases input
  case cons => exact ⟨n, Nat.le_refl n, rfl⟩
  case nil =>
    cases n
    case zero => exact ⟨0, Nat.le_refl 0, rfl⟩
    case succ n => exact ⟨n, Nat.le_succ n, rfl⟩

theorem step_pad (maxCells : Int) (ops : Array Op) (j : Jumps) (n : Nat) (r : Run) :
    ∃ m ≤ n, (r.pad n).step maxCells ops j = (r.step maxCells ops j).pad m := by
  rw [step, step, show (r.pad n).pc = r.pc from rfl]
  cases ops[r.pc]?
  case none => exact ⟨n, Nat.le_refl n, rfl⟩
  case some op =>
    cases op
    case get => exact perform_get_pad n r
    case left =>
      refine ⟨n, Nat.le_refl n, ?_⟩
      simp only [perform, show (r.pad n).cells = r.cells from rfl]
      cases r.cells.moveLeft? <;> rfl
    case right =>
      refine ⟨n, Nat.le_refl n, ?_⟩
      simp only [perform, show (r.pad n).cells = r.cells from rfl]
      cases r.cells.moveRight? maxCells <;> rfl
    all_goals exact ⟨n, Nat.le_refl n, rfl⟩

-- Each step may use some of the padding up. What is left of it at the end is left unread.
theorem runFor_pad (n : Nat) (r : Run) :
    ∃ m ≤ n, runFor maxCells ops j fuel (r.pad n) = (runFor maxCells ops j fuel r).map (·.pad m) := by
  induction fuel generalizing n r
  all_goals
    obtain ⟨m, hm, hpad⟩ := step_pad maxCells ops j n r
    cases hstep : r.step maxCells ops j
    all_goals rw [hstep] at hpad
  case zero.running => exact ⟨m, hm, by simp [runFor, hstep, hpad, Progress.pad]⟩
  case succ.running fuel ih r' =>
    obtain ⟨m', hm', hrest⟩ := ih m r'
    refine ⟨m', Nat.le_trans hm' hm, ?_⟩
    rw [runFor_of_running hstep, runFor_of_running hpad, hrest]
  all_goals exact ⟨m, hm, by rw [runFor_of_ended hstep, runFor_of_ended hpad]; rfl⟩

end Padding

end Run

namespace Program

-- `bs` is what `p` sends first: at some moment it has sent just that, and whatever it has sent later or when
-- it ends, if it ever does, starts with it.
structure SendsFirst (maxCells : Int) (p : Program) (input bs : Bytes) : Prop where
  reached : ∃ j r, p.jumps = .ok j ∧ Run.Reaches maxCells p j { input } r ∧ r.sent.reverse = bs ∧
    ∀ r', Run.Reaches maxCells p j r r' → bs <+: r'.sent.reverse
  ended : ∀ allowance o, p.exec maxCells allowance input = some o → bs <+: o.sent

theorem SendsFirst.of_reaches {maxCells : Int} {p : Program} {j : Jumps} {input : Bytes} {r : Run}
    (hj : p.jumps = .ok j) (h : Run.Reaches maxCells p j { input } r) :
    p.SendsFirst maxCells input r.sent.reverse where
  reached := ⟨j, r, hj, h, rfl, fun _ hlater => hlater.sent_prefix⟩
  ended allowance o hexec := by
    rw [exec, hj] at hexec
    obtain ⟨_, hrest⟩ := h.exists_runFor hexec
    exact Run.sent_prefix_of_runFor hrest

theorem exec_of_roomier {p : Program} {maxCells more : Int} {allowance : Nat} {input : Bytes} {o : Outcome}
    (h : Roomier maxCells more) (hexec : p.exec maxCells allowance input = some o)
    (hfits : o.error ≠ some (.limit maxCells)) : p.exec more allowance input = some o := by
  simp only [exec] at hexec ⊢
  split at hexec
  case h_1 => exact hexec
  case h_2 => exact Run.runFor_of_roomier h hexec hfits

theorem exec_with_more_room {maxCells : Int} (hpos : 0 < maxCells) (p : Program) (input : Bytes)
    {allowance : Nat} {o : Outcome} (h : p.exec maxCells allowance input = some o) {more : Int}
    (hmore : maxCells ≤ more ∨ more ≤ 0) :
    ((∀ n, o.error ≠ some (.limit n)) → p.exec more allowance input = some o) ∧
      ((∃ n, o.error = some (.limit n)) → p.SendsFirst more input o.sent) := by
  have hroom : Roomier maxCells more := fun hpos' => ⟨hpos, by omega⟩
  refine ⟨fun hfits => exec_of_roomier hroom h (hfits maxCells), ?_⟩
  rintro ⟨n, hlimit⟩
  rcases exists_reaches_of_exec h with ⟨b, rfl⟩ | ⟨j, r, hj, hreach, hend⟩
  · cases hlimit
  · have hs := Run.stepped maxCells p j r
    rw [hend] at hs
    cases hs
    case limit => exact .of_reaches hj (hreach.of_roomier hroom)
    all_goals cases hlimit

-- `>,<<` fits on two cells and goes off the tape at its beginning, on any tape. `+[.>+]` fills two cells, and
-- without a limit it sends ones for ever.
theorem exec_with_more_room_at_two_cells :
    exec 2 0 [.right, .get, .left, .left] [7, 8] = some ⟨some (.pointer 3), [], [8]⟩ ∧
    exec (-1) 0 [.right, .get, .left, .left] [7, 8] = some ⟨some (.pointer 3), [], [8]⟩ ∧
    exec 2 4 [.inc, .opening, .put, .right, .inc, .closing] [] = some ⟨some (.limit 2), [1, 1], []⟩ ∧
    SendsFirst 3 [.inc, .opening, .put, .right, .inc, .closing] [] [1, 1] ∧
    SendsFirst 0 [.inc, .opening, .put, .right, .inc, .closing] [] [1, 1] := by
  have hfits : exec 2 0 [.right, .get, .left, .left] [7, 8] = some ⟨some (.pointer 3), [], [8]⟩ := by
    decide
  have hfull : exec 2 4 [.inc, .opening, .put, .right, .inc, .closing] [] =
      some ⟨some (.limit 2), [1, 1], []⟩ := by decide
  refine ⟨hfits, ?same, hfull, ?more, ?unlimited⟩
  case same => exact (exec_with_more_room (by decide) _ _ hfits (.inr (by decide))).left (by simp)
  case more => exact (exec_with_more_room (by decide) _ _ hfull (.inl (by decide))).right ⟨2, rfl⟩
  case unlimited => exact (exec_with_more_room (by decide) _ _ hfull (.inr (by decide))).right ⟨2, rfl⟩

theorem exec_pad (p : Program) (maxCells : Int) (allowance : Nat) (input : Bytes) (n : Nat) :
    ∃ m ≤ n, p.exec maxCells allowance (input ++ List.replicate n 0) =
      (p.exec maxCells allowance input).map (·.pad m) := by
  simp only [exec]
  cases p.jumps
  case error => exact ⟨n, Nat.le_refl n, rfl⟩
  case ok => exact Run.runFor_pad n { input }

theorem exec_append_zeros (p : Program) (maxCells : Int) (input : Bytes) (n : Nat) :
    (∀ allowance, p.exec maxCells allowance input = none ∧
      p.exec maxCells allowance (input ++ List.replicate n 0) = none) ∨
    ∃ allowance o m, m ≤ n ∧ p.exec maxCells allowance input = some o ∧
      p.exec maxCells allowance (input ++ List.replicate n 0) =
        some { o with unread := o.unread ++ List.replicate m 0 } := by
  by_cases h : ∃ allowance o, p.exec maxCells allowance input = some o
  case pos =>
    obtain ⟨allowance, o, ho⟩ := h
    obtain ⟨m, hm, hpad⟩ := exec_pad p maxCells allowance input n
    rw [ho] at hpad
    exact .inr ⟨allowance, o, m, hm, ho, hpad⟩
  case neg =>
    refine .inl fun allowance => ?_
    have hnone : p.exec maxCells allowance input = none :=
      Option.eq_none_iff_forall_ne_some.mpr fun o ho => h ⟨allowance, o, ho⟩
    obtain ⟨_, _, hpad⟩ := exec_pad p maxCells allowance input n
    rw [hnone] at hpad
    exact ⟨hnone, hpad⟩

end Program
end TapeShell.Tape
