import TapeShell.Tape.Jumps

namespace TapeShell.Tape

inductive Act where
  | left
  | right
  | inc
  | dec
  | put
  | get
  deriving DecidableEq, Repr

def Act.op : Act → Op
  | .left => .left
  | .right => .right
  | .inc => .inc
  | .dec => .dec
  | .put => .put
  | .get => .get

theorem Op.opening_or_closing_or_act (op : Op) :
    op = .opening ∨ op = .closing ∨ ∃ a : Act, a.op = op := by
  cases op
  case opening => exact .inl rfl
  case closing => exact .inr <| .inl rfl
  case left => exact .inr <| .inr ⟨.left, rfl⟩
  case right => exact .inr <| .inr ⟨.right, rfl⟩
  case inc => exact .inr <| .inr ⟨.inc, rfl⟩
  case dec => exact .inr <| .inr ⟨.dec, rfl⟩
  case put => exact .inr <| .inr ⟨.put, rfl⟩
  case get => exact .inr <| .inr ⟨.get, rfl⟩

namespace Act

@[simp]
theorem op_ne_opening (a : Act) : a.op ≠ .opening := by
  cases a <;> decide

@[simp]
theorem op_ne_closing (a : Act) : a.op ≠ .closing := by
  cases a <;> decide

theorem op_inj {a b : Act} (h : a.op = b.op) : a = b := by
  revert h
  cases a <;> cases b <;> decide

end Act

-- A program as its loops group it: what comes first, and the tree of all that follows it.
inductive Tree where
  | done
  | act (a : Act) (next : Tree)
  | loop (body next : Tree)
  deriving DecidableEq, Repr

namespace Tree

def ops : Tree → Program
  | done => []
  | act a next => a.op :: next.ops
  | loop body next => .opening :: body.ops ++ .closing :: next.ops

def size : Tree → Nat
  | done => 0
  | act _ next => next.size + 1
  | loop body next => body.size + next.size + 2

@[simp]
theorem length_ops (t : Tree) : t.ops.length = t.size := by
  induction t
  case done => rfl
  case act ih => simp [ops, size, ih]
  case loop ih₁ ih₂ =>
    simp [ops, size, ih₁, ih₂]
    omega

inductive Stops : Program → Prop where
  | nil : Stops []
  | closing (rest : Program) : Stops (.closing :: rest)

theorem Stops.ne_act {p : Program} (h : Stops p) (a : Act) (q : Program) : p ≠ a.op :: q := by
  cases h <;> simp [a.op_ne_closing.symm]

theorem Stops.ne_opening {p : Program} (h : Stops p) (q : Program) : p ≠ .opening :: q := by
  cases h <;> simp

theorem ops_append_inj {t u : Tree} {p q : Program} (hp : Stops p) (hq : Stops q)
    (h : t.ops ++ p = u.ops ++ q) : t = u ∧ p = q := by
  induction t generalizing u p q
  case done =>
    cases u
    case done => exact ⟨rfl, h⟩
    case act b next' => exact absurd h <| hp.ne_act b _
    case loop body' next' => exact absurd h <| hp.ne_opening _
  case act a next ih =>
    cases u
    case done => exact absurd h.symm <| hq.ne_act a _
    case act b next' =>
      have ⟨hact, htail⟩ := List.cons.inj h
      have ⟨hnext, hrest⟩ := ih hp hq htail
      exact ⟨by rw [Act.op_inj hact, hnext], hrest⟩
    case loop body' next' => exact absurd (List.cons.inj h).left a.op_ne_opening
  case loop body next ih₁ ih₂ =>
    cases u
    case done => exact absurd h.symm <| hq.ne_opening _
    case act b next' => exact absurd (List.cons.inj h).left.symm b.op_ne_opening
    case loop body' next' =>
      simp only [ops, List.cons_append, List.append_assoc, List.cons.injEq, true_and] at h
      have ⟨hbody, htail⟩ := ih₁ (.closing _) (.closing _) h
      have ⟨hnext, hrest⟩ := ih₂ hp hq (List.cons.inj htail).right
      exact ⟨by rw [hbody, hnext], hrest⟩

theorem ops_injective {t u : Tree} (h : t.ops = u.ops) : t = u :=
  (ops_append_inj .nil .nil (congrArg (· ++ []) h)).left

end Tree

namespace Program

structure Balanced (p : Program) : Prop where
  count_eq : p.count .opening = p.count .closing
  count_take_le : ∀ n ≤ p.length, (p.take n).count .closing ≤ (p.take n).count .opening

instance (p : Program) : Decidable p.Balanced :=
  decidable_of_iff
    (p.count .opening = p.count .closing ∧
      ∀ n ≤ p.length, (p.take n).count .closing ≤ (p.take n).count .opening)
    ⟨fun h => ⟨h.left, h.right⟩, fun h => ⟨h.count_eq, h.count_take_le⟩⟩

structure Closes (depth : Nat) (p : Program) : Prop where
  count_eq : p.count .closing = p.count .opening + depth
  count_take_le : ∀ n ≤ p.length, (p.take n).count .closing ≤ (p.take n).count .opening + depth

theorem Balanced.closes {p : Program} (h : p.Balanced) : Closes 0 p where
  count_eq := h.count_eq.symm
  count_take_le := h.count_take_le

namespace Closes

variable {depth : Nat} {p : Program}

theorem of_act {a : Act} (h : Closes depth (a.op :: p)) : Closes depth p where
  count_eq := by simpa using h.count_eq
  count_take_le n hn := by simpa using h.count_take_le (n + 1) (Nat.succ_le_succ hn)

theorem of_opening (h : Closes depth (.opening :: p)) : Closes (depth + 1) p where
  count_eq := by
    have := h.count_eq
    simp at this
    omega
  count_take_le n hn := by
    have := h.count_take_le (n + 1) (Nat.succ_le_succ hn)
    simp at this
    omega

theorem of_closing (h : Closes depth (.closing :: p)) :
    ∃ outer, depth = outer + 1 ∧ Closes outer p := by
  have hfirst := h.count_take_le 1 (by simp)
  simp at hfirst
  refine ⟨depth - 1, by omega, ?count_eq, ?count_take_le⟩
  case count_eq =>
    have := h.count_eq
    simp at this
    omega
  case count_take_le =>
    intro n hn
    have := h.count_take_le (n + 1) (Nat.succ_le_succ hn)
    simp at this
    omega

end Closes
end Program

namespace Tree

def spell (t : Tree) : List Tree → Program
  | [] => t.ops
  | u :: us => t.ops ++ .closing :: u.spell us

theorem spell_act (a : Act) (t : Tree) (us : List Tree) :
    (act a t).spell us = a.op :: t.spell us := by
  cases us <;> rfl

theorem spell_loop (body next : Tree) (us : List Tree) :
    (loop body next).spell us = .opening :: body.spell (next :: us) := by
  cases us <;> simp [spell, ops]

-- Reading a program from its end, an opening bracket takes the two trees around the first closing
-- bracket that is still free.
theorem exists_spell_of_closes {depth : Nat} {p : Program} (h : Program.Closes depth p) :
    ∃ (t : Tree) (us : List Tree), us.length = depth ∧ t.spell us = p := by
  induction p generalizing depth
  case nil =>
    have hdepth : 0 = 0 + depth := h.count_eq
    exact ⟨done, [], by simpa using hdepth, rfl⟩
  case cons op p ih =>
    match op.opening_or_closing_or_act with
    | .inl hop =>
      subst hop
      match ih h.of_opening with
      | ⟨t, u :: us, hlength, hspell⟩ =>
        exact ⟨loop t u, us, Nat.succ.inj hlength, by rw [spell_loop, hspell]⟩
    | .inr (.inl hop) =>
      subst hop
      have ⟨outer, hdepth, hcloses⟩ := h.of_closing
      have ⟨t, us, hlength, hspell⟩ := ih hcloses
      exact ⟨done, t :: us, by rw [hdepth, List.length_cons, hlength], by rw [← hspell]; rfl⟩
    | .inr (.inr ⟨a, hop⟩) =>
      subst hop
      have ⟨t, us, hlength, hspell⟩ := ih h.of_act
      exact ⟨act a t, us, hlength, by rw [spell_act, hspell]⟩

end Tree

theorem Program.Balanced.exists_ops_eq {p : Program} (h : p.Balanced) : ∃ t : Tree, t.ops = p := by
  have ⟨t, us, hlength, hspell⟩ := Tree.exists_spell_of_closes h.closes
  rw [List.length_eq_zero_iff.mp hlength] at hspell
  exact ⟨t, hspell⟩

namespace Jumps

def pairAll (j : Jumps) (pc : Nat) : Tree → Jumps
  | .done => j
  | .act _ next => j.pairAll (pc + 1) next
  | .loop body next =>
    ((j.pairAll (pc + 1) body).pair pc (pc + body.size + 1)).pairAll (pc + body.size + 2) next

theorem scan_act (pc : Nat) (pending : List Nat) (j : Jumps) (a : Act) (p : Program) :
    scan pc pending j (a.op :: p) = scan (pc + 1) pending j p := by
  cases a <;> cases pending <;> rfl

theorem scan_ops (pc : Nat) (pending : List Nat) (j : Jumps) (t : Tree) (rest : Program) :
    scan pc pending j (t.ops ++ rest) = scan (pc + t.size) pending (j.pairAll pc t) rest := by
  induction t generalizing pc pending j rest
  case done => rfl
  case act a next ih =>
    calc
      _ = scan (pc + 1) pending j (next.ops ++ rest) := scan_act ..
      _ = scan (pc + 1 + next.size) pending (j.pairAll (pc + 1) next) rest := ih ..
      _ = _ := by simp only [Tree.size, pairAll, Nat.add_assoc, Nat.add_comm 1]
  case loop body next ih₁ ih₂ =>
    -- When the body has been read, its opening bracket is the innermost one again.
    have hclose : pc + 1 + body.size = pc + body.size + 1 := Nat.add_right_comm ..
    calc
      _ = scan (pc + 1) (pc :: pending) j (body.ops ++ .closing :: (next.ops ++ rest)) := by
        simp [Tree.ops, scan]
      _ = scan (pc + body.size + 2) pending
            ((j.pairAll (pc + 1) body).pair pc (pc + body.size + 1)) (next.ops ++ rest) := by
        rw [ih₁, hclose]
        rfl
      _ = scan (pc + body.size + 2 + next.size) pending (j.pairAll pc (.loop body next)) rest :=
        ih₂ ..
      _ = _ := by
        rw [Tree.size]
        congr 1
        omega

theorem jumps_ops (t : Tree) : t.ops.jumps = .ok ((unpaired t.size).pairAll 0 t) := by
  have h := scan_ops 0 [] (unpaired t.size) t []
  simpa [Program.jumps, scan] using h

@[simp]
theorem size_pair (j : Jumps) (i k : Nat) : (j.pair i k).targets.size = j.targets.size := by
  simp [pair]

@[simp]
theorem size_pairAll (j : Jumps) (pc : Nat) (t : Tree) :
    (j.pairAll pc t).targets.size = j.targets.size := by
  induction t generalizing j pc
  case done => rfl
  case act ih => rw [pairAll, ih]
  case loop ih₁ ih₂ => rw [pairAll, ih₂, size_pair, ih₁]

theorem target?_pair_left {j : Jumps} {i k : Nat} (hi : i < j.targets.size) (hne : i ≠ k) :
    (j.pair i k).target? i = some k := by
  simp [target?, pair, hi, hne.symm]

theorem target?_pair_right {j : Jumps} {i k : Nat} (hk : k < j.targets.size) :
    (j.pair i k).target? k = some i := by
  simp [target?, pair, hk]

theorem target?_pair_of_ne {j : Jumps} {i k n : Nat} (hi : n ≠ i) (hk : n ≠ k) :
    (j.pair i k).target? n = j.target? n := by
  simp [target?, pair, hi.symm, hk.symm]

theorem target?_pairAll_of_outside {j : Jumps} {pc n : Nat} {t : Tree}
    (hn : n < pc ∨ pc + t.size ≤ n) : (j.pairAll pc t).target? n = j.target? n := by
  induction t generalizing j pc
  case done => rfl
  case act ih =>
    rw [Tree.size] at hn
    rw [pairAll, ih (by omega)]
  case loop ih₁ ih₂ =>
    rw [Tree.size] at hn
    rw [pairAll, ih₂ (by omega), target?_pair_of_ne (by omega) (by omega), ih₁ (by omega)]

-- The operations of a tree stand at `pc` of a program, and each of its brackets jumps to the one at
-- the other end of its loop.
inductive Pairs (j : Jumps) (p : Program) : Nat → Tree → Prop where
  | done : Pairs j p pc .done
  | act (op : p[pc]? = some a.op) (next : Pairs j p (pc + 1) t) : Pairs j p pc (.act a t)
  | loop (close : k = pc + body.size + 1)
    (opening : p[pc]? = some .opening) (closing : p[k]? = some .closing)
    (forth : j.target? pc = some k) (back : j.target? k = some pc)
    (inside : Pairs j p (pc + 1) body) (next : Pairs j p (k + 1) t) : Pairs j p pc (.loop body t)

theorem getElem?_of_drop_eq {p q : Program} {n : Nat} {op : Op} (h : p.drop n = op :: q) :
    p[n]? = some op := by
  rw [← List.head?_drop, h, List.head?_cons]

theorem drop_of_drop_eq {p q rest : Program} {n : Nat} (h : p.drop n = q ++ rest) :
    p.drop (n + q.length) = rest := by
  rw [← List.drop_drop, h, List.drop_left]

theorem pairs_of_agrees {j i : Jumps} {p rest : Program} {pc : Nat} {t : Tree}
    (hp : p.drop pc = t.ops ++ rest) (hsize : pc + t.size ≤ i.targets.size)
    (hagree : ∀ n, pc ≤ n → n < pc + t.size → j.target? n = (i.pairAll pc t).target? n) :
    j.Pairs p pc t := by
  induction t generalizing i pc rest
  case done => exact .done
  case act a next ih =>
    rw [Tree.size] at hsize hagree
    have hnext : p.drop (pc + 1) = next.ops ++ rest := drop_of_drop_eq (q := [a.op]) hp
    refine .act (getElem?_of_drop_eq hp) <| ih (i := i) hnext (by omega) ?agree
    case agree =>
      intro n hle hlt
      exact hagree n (by omega) (by omega)
  case loop body next ih₁ ih₂ =>
    rw [Tree.size] at hsize hagree
    have hopen : p.drop pc = .opening :: (body.ops ++ .closing :: (next.ops ++ rest)) := by
      simpa [Tree.ops] using hp
    have hbody : p.drop (pc + 1) = body.ops ++ .closing :: (next.ops ++ rest) :=
      drop_of_drop_eq (q := [.opening]) hopen
    have hclose : p.drop (pc + body.size + 1) = .closing :: (next.ops ++ rest) := by
      rw [← drop_of_drop_eq hbody, Tree.length_ops, Nat.add_right_comm]
    have hnext : p.drop (pc + body.size + 2) = next.ops ++ rest :=
      drop_of_drop_eq (q := [.closing]) hclose
    -- What is paired after the loop lies outside of it, and its two brackets outside of its body.
    let inner := (i.pairAll (pc + 1) body).pair pc (pc + body.size + 1)
    have hsize' : inner.targets.size = i.targets.size := by rw [size_pair, size_pairAll]
    have hinner (n) (hle : pc ≤ n) (hlt : n < pc + body.size + 2) :
        j.target? n = inner.target? n := by
      rw [hagree n hle (by omega), pairAll, target?_pairAll_of_outside (.inl hlt)]
    refine .loop rfl (getElem?_of_drop_eq hopen) (getElem?_of_drop_eq hclose) ?forth ?back
      (ih₁ (i := i) hbody (by omega) ?inside) (ih₂ (i := inner) hnext (by omega) ?next)
    case forth =>
      rw [hinner pc (by omega) (by omega)]
      exact target?_pair_left (by rw [size_pairAll]; omega) (by omega)
    case back =>
      rw [hinner _ (by omega) (by omega)]
      exact target?_pair_right (by rw [size_pairAll]; omega)
    case inside =>
      intro n hle hlt
      rw [hinner n (by omega) (by omega)]
      exact target?_pair_of_ne (by omega) (by omega)
    case next =>
      intro n hle hlt
      exact hagree n (by omega) (by omega)

theorem pairs_jumps_ops (t : Tree) : ((unpaired t.size).pairAll 0 t).Pairs t.ops 0 t :=
  pairs_of_agrees (List.append_nil _).symm (by simp [unpaired]) fun _ _ _ => rfl

end Jumps
end TapeShell.Tape
