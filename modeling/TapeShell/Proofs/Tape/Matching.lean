import TapeShell.Proofs.Tape.Brackets
import TapeShell.Tape.Execution

namespace TapeShell.Tape

namespace Program

variable {p : Program} {a b i i' k k' n pc : Nat}

def depth (p : Program) (n : Nat) : Int :=
  (p.take n).count .opening - (p.take n).count .closing

theorem depth_zero (p : Program) : p.depth 0 = 0 :=
  rfl

theorem depth_opening (h : p[n]? = some .opening) : p.depth (n + 1) = p.depth n + 1 := by
  simp only [depth, List.take_add_one, h, Option.toList_some, List.count_append]
  simp
  omega

theorem depth_closing (h : p[n]? = some .closing) : p.depth (n + 1) = p.depth n - 1 := by
  simp only [depth, List.take_add_one, h, Option.toList_some, List.count_append]
  simp
  omega

theorem depth_act {x : Act} (h : p[n]? = some x.op) : p.depth (n + 1) = p.depth n := by
  simp only [depth, List.take_add_one, h, Option.toList_some, List.count_append]
  simp

-- The program comes back to its depth at `a` in `b`, and does not fall below it between them.
structure Level (p : Program) (a b : Nat) : Prop where
  le    : a ≤ b
  eq    : p.depth b = p.depth a
  above : ∀ n, a ≤ n → n ≤ b → p.depth a ≤ p.depth n

theorem depth_part (hn : a + n ≤ b) :
    depth ((p.take b).drop a) n = p.depth (a + n) - p.depth a := by
  have htake : ((p.take b).drop a).take n = (p.drop a).take n := by
    rw [List.drop_take, List.take_take, Nat.min_eq_left (by omega)]
  simp only [depth, htake, List.take_add, List.count_append]
  omega

theorem balanced_part_iff (hab : a ≤ b) (hb : b ≤ p.length) :
    Balanced ((p.take b).drop a) ↔ p.Level a b := by
  have hlength : ((p.take b).drop a).length = b - a := by
    rw [List.length_drop, List.length_take, Nat.min_eq_left hb]
  have hwhole : depth ((p.take b).drop a) (b - a) = p.depth b - p.depth a := by
    rw [depth_part (by omega), Nat.add_sub_cancel' hab]
  constructor
  case mp =>
    intro h
    refine ⟨hab, ?eq, ?above⟩
    case eq =>
      have := h.count_eq
      rw [← hlength, depth, List.take_length] at hwhole
      omega
    case above =>
      intro n han hnb
      have hle := h.count_take_le (n - a) (by omega)
      have hn : _ = p.depth (a + (n - a)) - _ := depth_part (b := b) (by omega)
      rw [Nat.add_sub_cancel' han, depth] at hn
      omega
  case mpr =>
    intro h
    constructor
    case count_eq =>
      rw [h.eq, ← hlength, depth, List.take_length] at hwhole
      omega
    case count_take_le =>
      intro n hn
      have hle := h.above (a + n) (by omega) (by omega)
      have hn : _ = p.depth (a + n) - _ := depth_part (b := b) (by omega)
      rw [depth] at hn
      omega

theorem balanced_iff_level : p.Balanced ↔ p.Level 0 p.length := by
  have h : (p.take p.length).drop 0 = p := by rw [List.take_length, List.drop_zero]
  rw [← balanced_part_iff (Nat.zero_le _) (Nat.le_refl _), h]

structure Encloses (p : Program) (i k : Nat) : Prop where
  lt      : i < k
  opening : p[i]? = some .opening
  closing : p[k]? = some .closing
  inside  : Balanced ((p.take k).drop (i + 1))

theorem lt_length {op : Op} (h : p[n]? = some op) : n < p.length :=
  (List.getElem?_eq_some_iff.mp h).1

namespace Level

theorem refl (p : Program) (n : Nat) : p.Level n n where
  le := Nat.le_refl n
  eq := rfl
  above m hle hge := Int.le_of_eq (by rw [Nat.le_antisymm hge hle])

theorem act {x : Act} (h : p.Level a n) (hop : p[n]? = some x.op) : p.Level a (n + 1) where
  le := Nat.le_succ_of_le h.le
  eq := by rw [depth_act hop, h.eq]
  above m hle hge := by
    by_cases hm : m = n + 1
    case pos => exact Int.le_of_eq (by rw [hm, depth_act hop, h.eq])
    case neg => exact h.above m hle (by omega)

end Level

namespace Encloses

theorem level (h : p.Encloses i k) : p.Level (i + 1) k :=
  (balanced_part_iff h.lt (Nat.le_of_lt (lt_length h.closing))).mp h.inside

theorem of_level (hopen : p[i]? = some .opening) (hclose : p[k]? = some .closing)
    (h : p.Level (i + 1) k) : p.Encloses i k where
  lt := h.le
  opening := hopen
  closing := hclose
  inside := (balanced_part_iff h.le (Nat.le_of_lt (lt_length hclose))).mpr h

theorem level_append (h : p.Encloses i k) (hi : p.Level a i) : p.Level a (k + 1) := by
  have hup := depth_opening h.opening
  have hdown := depth_closing h.closing
  have heq := h.level.eq
  have hbefore := hi.eq
  refine ⟨by have := hi.le; have := h.lt; omega, by omega, fun n hle hge => ?above⟩
  case above =>
    by_cases hn : n ≤ i
    case pos => exact hi.above n hle hn
    case neg =>
      by_cases hk : n = k + 1
      case pos => rw [hk]; omega
      case neg =>
        have := h.level.above n (by omega) (by omega)
        omega

-- A bracket has one partner at most, and loops do not cross: where a loop is closed, the program falls
-- below the depth that it keeps inside, and so it does where a loop is opened, read backwards.
theorem not_lt_of_opening (h : p.Encloses i k) (h' : p.Encloses i k') : ¬k < k' := by
  intro hlt
  have := depth_closing h.closing
  have := h.level.eq
  have := h'.level.above (k + 1) (by have := h.lt; omega) hlt
  omega

theorem closing_unique (h : p.Encloses i k) (h' : p.Encloses i k') : k = k' :=
  Nat.le_antisymm (Nat.not_lt.mp (h'.not_lt_of_opening h)) (Nat.not_lt.mp (h.not_lt_of_opening h'))

theorem not_lt_of_closing (h : p.Encloses i k) (h' : p.Encloses i' k) : ¬i < i' := by
  intro hlt
  have := depth_opening h'.opening
  have := h.level.eq
  have := h'.level.eq
  have := h.level.above i' hlt (Nat.le_of_lt h'.lt)
  omega

theorem opening_unique (h : p.Encloses i k) (h' : p.Encloses i' k) : i = i' :=
  Nat.le_antisymm (Nat.not_lt.mp (h'.not_lt_of_closing h)) (Nat.not_lt.mp (h.not_lt_of_closing h'))

theorem nested_of_lt (h : p.Encloses i k) (h' : p.Encloses i' k') (hlt : i < i') :
    k < i' ∨ k' < k := by
  refine Decidable.byContradiction fun hcross => ?_
  have hne : k ≠ i' := by
    rintro rfl
    exact absurd (h.closing.symm.trans h'.opening) (by decide)
  have hne' : k ≠ k' := by
    rintro rfl
    exact absurd (h.opening_unique h') (by omega)
  have := depth_closing h.closing
  have := depth_opening h'.opening
  have := h.level.eq
  have := h.level.above i' hlt (by omega)
  have := h'.level.above (k + 1) (by omega) (by omega)
  omega

end Encloses

-- The opening brackets before `pc` that have no partner before it, the innermost first.
inductive Pending (p : Program) : Nat → List Nat → Prop where
  | bottom {pc : Nat} (level : p.Level 0 pc) : Pending p pc []
  | push {pc i : Nat} {is : List Nat} (opening : p[i]? = some .opening) (level : p.Level (i + 1) pc)
    (outer : Pending p i is) : Pending p pc (i :: is)

namespace Pending

variable {is : List Nat}

theorem act {x : Act} (h : p.Pending pc is) (hop : p[pc]? = some x.op) : p.Pending (pc + 1) is := by
  rcases h with level | ⟨opening, level, outer⟩
  · exact .bottom (level.act hop)
  · exact .push opening (level.act hop) outer

theorem encloses (h : p.Pending pc (i :: is)) (hop : p[pc]? = some .closing) : p.Encloses i pc := by
  rcases h with _ | ⟨opening, level, _⟩
  exact .of_level opening hop level

theorem pop (h : p.Pending pc (i :: is)) (hop : p[pc]? = some .closing) : p.Pending (pc + 1) is := by
  have hloop := h.encloses hop
  rcases h with _ | ⟨_, _, level | ⟨opening, level, outer⟩⟩
  · exact .bottom (hloop.level_append level)
  · exact .push opening (hloop.level_append level) outer

theorem depth_eq (h : p.Pending pc is) : p.depth pc = is.length := by
  induction h
  case bottom level => rw [level.eq, depth_zero]; rfl
  case push opening level _ ih =>
    rw [level.eq, depth_opening opening, ih, List.length_cons]
    rfl

theorem depth_nonneg (h : p.Pending pc is) (hn : n ≤ pc) : 0 ≤ p.depth n := by
  induction h
  case bottom level => exact level.above n (Nat.zero_le n) hn
  case push _ i _ opening level outer ih =>
    by_cases hi : n ≤ i
    case pos => exact ih hi
    case neg =>
      have := level.above n (by omega) hn
      have := depth_opening opening
      have := outer.depth_eq
      omega

theorem lt_of_mem (h : p.Pending pc is) (hi : i ∈ is) : i < pc := by
  induction h
  case bottom => simp at hi
  case push level _ ih =>
    have := level.le
    rcases List.mem_cons.mp hi with rfl | hi
    · exact this
    · have := ih hi
      omega

theorem not_encloses (h : p.Pending p.length (i :: is)) (k : Nat) : ¬p.Encloses i k := by
  intro hloop
  rcases h with _ | ⟨_, level, _⟩
  have := hloop.lt
  have := depth_closing hloop.closing
  have := hloop.level.eq
  have := level.above (k + 1) (by omega) (lt_length hloop.closing)
  omega

end Pending
end Program

namespace Jumps

variable {p : Program} {pc i : Nat} {pending : List Nat} {j : Jumps}

structure Scanned (p : Program) (pc : Nat) (pending : List Nat) (j : Jumps) : Prop where
  size     : j.targets.size = p.length
  unclosed : p.Pending pc pending
  target   : ∀ i k, j.target? i = some k ↔ (p.Encloses i k ∧ k < pc) ∨ (p.Encloses k i ∧ i < pc)
  openings : ∀ i < pc, p[i]? = some .opening → i ∉ pending → ∃ k, p.Encloses i k ∧ k < pc
  closings : ∀ k < pc, p[k]? = some .closing → ∃ i, p.Encloses i k

theorem target?_unpaired (m n : Nat) : (unpaired m).target? n = none := by
  simp [unpaired, target?, Array.getElem?_replicate]
  split <;> rfl

theorem target?_pair {k : Nat} (hi : i < j.targets.size) (hk : k < j.targets.size) (hne : i ≠ k)
    (n : Nat) :
    (j.pair i k).target? n = if n = i then some k else if n = k then some i else j.target? n := by
  split
  case isTrue h => rw [h, target?_pair_left hi hne]
  case isFalse h =>
    split
    case isTrue h' => rw [h', target?_pair_right hk]
    case isFalse h' => exact target?_pair_of_ne h h'

namespace Scanned

theorem start (p : Program) : Scanned p 0 [] (unpaired p.length) where
  size := by simp [unpaired]
  unclosed := .bottom (.refl p 0)
  target i k := by simp [target?_unpaired]
  openings i hi := absurd hi (Nat.not_lt_zero i)
  closings k hk := absurd hk (Nat.not_lt_zero k)

theorem target_succ (h : Scanned p pc pending j) (hop : p[pc]? ≠ some .closing) (i k : Nat) :
    j.target? i = some k ↔ (p.Encloses i k ∧ k < pc + 1) ∨ (p.Encloses k i ∧ i < pc + 1) := by
  have hlt {i k : Nat} (hloop : p.Encloses i k) : k < pc ↔ k < pc + 1 := by
    have hne : k ≠ pc := by
      rintro rfl
      exact hop hloop.closing
    omega
  rw [h.target]
  exact or_congr (and_congr_right hlt) (and_congr_right hlt)

theorem closings_succ (h : Scanned p pc pending j) (hop : p[pc]? ≠ some .closing) (k : Nat)
    (hk : k < pc + 1) (hclose : p[k]? = some .closing) : ∃ i, p.Encloses i k := by
  have hne : k ≠ pc := by
    rintro rfl
    exact hop hclose
  exact h.closings k (by omega) hclose

theorem act {x : Act} (h : Scanned p pc pending j) (hop : p[pc]? = some x.op) :
    Scanned p (pc + 1) pending j where
  size := h.size
  unclosed := h.unclosed.act hop
  target := h.target_succ (by simp [hop])
  closings := h.closings_succ (by simp [hop])
  openings i hi hopen hnew := by
    have hne : i ≠ pc := by
      rintro rfl
      simp [hop] at hopen
    have ⟨k, hloop, hk⟩ := h.openings i (by omega) hopen hnew
    exact ⟨k, hloop, by omega⟩

theorem opening (h : Scanned p pc pending j) (hop : p[pc]? = some .opening) :
    Scanned p (pc + 1) (pc :: pending) j where
  size := h.size
  unclosed := .push hop (.refl p (pc + 1)) h.unclosed
  target := h.target_succ (by simp [hop])
  closings := h.closings_succ (by simp [hop])
  openings i hi hopen hnew := by
    have ⟨hne, hnew⟩ := List.ne_and_not_mem_of_not_mem_cons hnew
    have ⟨k, hloop, hk⟩ := h.openings i (by omega) hopen hnew
    exact ⟨k, hloop, by omega⟩

-- The partner of a closing bracket is the innermost one that is pending, and no other loop has either
-- of the two.
theorem target_pair (h : Scanned p pc (i :: pending) j) (hop : p[pc]? = some .closing) (m n : Nat) :
    (j.pair i pc).target? m = some n ↔
      (p.Encloses m n ∧ n < pc + 1) ∨ (p.Encloses n m ∧ m < pc + 1) := by
  have hloop := h.unclosed.encloses hop
  have hlt := hloop.lt
  have hpc : pc < j.targets.size := h.size.symm ▸ Program.lt_length hop
  rw [target?_pair (by omega) hpc (by omega)]
  split
  case isTrue hm =>
    subst hm
    constructor
    · rintro ⟨⟩
      exact .inl ⟨hloop, by omega⟩
    · rintro (⟨hpair, _⟩ | ⟨hpair, _⟩)
      · rw [hloop.closing_unique hpair]
      · exact absurd (hloop.opening.symm.trans hpair.closing) (by decide)
  case isFalse hm =>
    split
    case isTrue hm' =>
      subst hm'
      constructor
      · rintro ⟨⟩
        exact .inr ⟨hloop, by omega⟩
      · rintro (⟨hpair, _⟩ | ⟨hpair, _⟩)
        · exact absurd (hloop.closing.symm.trans hpair.opening) (by decide)
        · rw [hloop.opening_unique hpair]
    case isFalse hm' =>
      rw [h.target]
      constructor
      · rintro (⟨hpair, _⟩ | ⟨hpair, _⟩)
        · exact .inl ⟨hpair, by omega⟩
        · exact .inr ⟨hpair, by omega⟩
      · rintro (⟨hpair, hn⟩ | ⟨hpair, _⟩)
        · have hne : n ≠ pc := by
            rintro rfl
            exact hm (hpair.opening_unique hloop)
          exact .inl ⟨hpair, by omega⟩
        · exact .inr ⟨hpair, by omega⟩

theorem closing (h : Scanned p pc (i :: pending) j) (hop : p[pc]? = some .closing) :
    Scanned p (pc + 1) pending (j.pair i pc) where
  size := by rw [size_pair, h.size]
  unclosed := h.unclosed.pop hop
  target := h.target_pair hop
  openings m hm hopen hnew := by
    have hne : m ≠ pc := by
      rintro rfl
      simp [hop] at hopen
    by_cases hi : m = i
    case pos => exact ⟨pc, hi ▸ h.unclosed.encloses hop, by omega⟩
    case neg =>
      have ⟨k, hloop, hk⟩ := h.openings m (by omega) hopen (List.not_mem_cons_of_ne_of_not_mem hi hnew)
      exact ⟨k, hloop, by omega⟩
  closings k hk hclose := by
    by_cases hpc : k = pc
    case pos => exact ⟨i, hpc ▸ h.unclosed.encloses hop⟩
    case neg => exact h.closings k (by omega) hclose

end Scanned

def Concludes (p : Program) : Except Unbalanced Jumps → Prop
  | .ok j               => Scanned p p.length [] j
  | .error (.opening i) => ∃ outer j, Scanned p p.length (i :: outer) j
  | .error (.closing k) => p[k]? = some .closing ∧ ∃ j, Scanned p k [] j

theorem Scanned.concludes {ops : Program} (h : Scanned p pc pending j) (hops : p.drop pc = ops)
    (hpc : pc ≤ p.length) : Concludes p (scan pc pending j ops) := by
  induction ops generalizing pc pending j
  case nil =>
    have hend : pc = p.length := Nat.le_antisymm hpc (List.drop_eq_nil_iff.mp hops)
    subst hend
    cases pending
    case nil => exact h
    case cons i outer => exact ⟨outer, j, h⟩
  case cons op ops ih =>
    have hop := getElem?_of_drop_eq hops
    have hnext : p.drop (pc + 1) = ops := drop_of_drop_eq (q := [op]) hops
    have hlt := Program.lt_length hop
    rcases op.opening_or_closing_or_act with rfl | rfl | ⟨x, rfl⟩
    · have := ih (h.opening hop) hnext hlt
      cases pending <;> exact this
    · cases pending
      case nil => exact ⟨hop, j, h⟩
      case cons i outer => exact ih (h.closing hop) hnext hlt
    · rw [scan_act]
      exact ih (h.act hop) hnext hlt

theorem concludes_jumps (p : Program) : Concludes p p.jumps :=
  (Scanned.start p).concludes (List.drop_zero) (Nat.zero_le _)

theorem scanned_of_jumps (h : p.jumps = .ok j) : Scanned p p.length [] j := by
  have := concludes_jumps p
  rwa [h] at this

structure Matches (j : Jumps) (p : Program) : Prop where
  domain  : ∀ i, (∃ k, j.target? i = some k) ↔ p[i]? = some .opening ∨ p[i]? = some .closing
  inverse : ∀ i k, j.target? i = some k → j.target? k = some i
  partner : ∀ i, p[i]? = some .opening → ∀ k, j.target? i = some k ↔ p.Encloses i k
  nested  : ∀ i k i' k', i < k → i' < k' → i ≠ i' → j.target? i = some k → j.target? i' = some k' →
    k < i' ∨ k' < i ∨ (i < i' ∧ k' < k) ∨ (i' < i ∧ k < k')

theorem Scanned.target?_eq_some_iff (h : Scanned p p.length [] j) (i k : Nat) :
    j.target? i = some k ↔ p.Encloses i k ∨ p.Encloses k i := by
  have hlt {i k : Nat} (hloop : p.Encloses i k) : k < p.length := Program.lt_length hloop.closing
  rw [h.target]
  exact or_congr (and_iff_left_of_imp hlt) (and_iff_left_of_imp hlt)

theorem Scanned.encloses_of_lt (h : Scanned p p.length [] j) {i k : Nat} (hlt : i < k)
    (htarget : j.target? i = some k) : p.Encloses i k :=
  ((h.target?_eq_some_iff i k).mp htarget).resolve_right fun hloop => by
    have := hloop.lt
    omega

theorem Matches.of_scanned (h : Scanned p p.length [] j) : j.Matches p where
  domain i := by
    simp only [h.target?_eq_some_iff]
    constructor
    · rintro ⟨k, hloop | hloop⟩
      · exact .inl hloop.opening
      · exact .inr hloop.closing
    · rintro (hop | hop)
      · have ⟨k, hloop, _⟩ := h.openings i (Program.lt_length hop) hop List.not_mem_nil
        exact ⟨k, .inl hloop⟩
      · have ⟨k, hloop⟩ := h.closings i (Program.lt_length hop) hop
        exact ⟨k, .inr hloop⟩
  inverse i k := by
    simp only [h.target?_eq_some_iff]
    exact Or.symm
  partner i hop k := by
    rw [h.target?_eq_some_iff]
    refine ⟨fun hloop => hloop.resolve_right fun hloop => ?_, .inl⟩
    exact absurd (hop.symm.trans hloop.closing) (by decide)
  nested i k i' k' hik hik' hne htarget htarget' := by
    have hloop := h.encloses_of_lt hik htarget
    have hloop' := h.encloses_of_lt hik' htarget'
    rcases Nat.lt_or_gt_of_ne hne with hlt | hlt
    · have := hloop.nested_of_lt hloop' hlt
      omega
    · have := hloop'.nested_of_lt hloop hlt
      omega

end Jumps

namespace Program

-- The bracket that a program is refused for: the first that closes more than has been opened, or else
-- the last that is not closed.
inductive Blames (p : Program) : Unbalanced → Prop where
  | closing (op : p[k]? = some .closing)
    (exceeds : (p.take (k + 1)).count .opening < (p.take (k + 1)).count .closing)
    (first : ∀ n ≤ k, (p.take n).count .closing ≤ (p.take n).count .opening) : Blames p (.closing k)
  | opening (within : ∀ n ≤ p.length, (p.take n).count .closing ≤ (p.take n).count .opening)
    (op : p[i]? = some .opening) (unclosed : ∀ k, ¬p.Encloses i k)
    (last : ∀ n, p[n]? = some .opening → (∀ k, ¬p.Encloses n k) → n ≤ i) : Blames p (.opening i)

variable {p : Program}

theorem count_take_le_iff (n : Nat) :
    (p.take n).count .closing ≤ (p.take n).count .opening ↔ 0 ≤ p.depth n := by
  rw [depth]
  omega

theorem blames_of_jumps {b : Unbalanced} (h : p.jumps = .error b) : p.Blames b := by
  have hend := Jumps.concludes_jumps p
  rw [h] at hend
  cases b
  case closing k =>
    have ⟨hop, j, hscan⟩ := hend
    refine .closing hop ?exceeds fun n hn => (count_take_le_iff n).mpr (hscan.unclosed.depth_nonneg hn)
    case exceeds =>
      have hbefore := hscan.unclosed.depth_eq
      have hafter := depth_closing hop
      rw [hbefore, depth, List.length_nil] at hafter
      omega
  case opening i =>
    have ⟨outer, j, hscan⟩ := hend
    have hpending := hscan.unclosed
    refine .opening (fun n hn => (count_take_le_iff n).mpr (hpending.depth_nonneg hn)) ?op
      hpending.not_encloses fun n hop hopen => ?last
    case op =>
      rcases hpending with _ | ⟨hop, _, _⟩
      exact hop
    case last =>
      -- A later one would not be pending, and so it would be closed.
      refine Nat.le_of_not_lt fun hlt => ?_
      have hnew : n ∉ i :: outer := by
        rcases hpending with _ | ⟨_, _, houter⟩
        intro hn
        rcases List.mem_cons.mp hn with rfl | hn
        · omega
        · have := houter.lt_of_mem hn
          omega
      have ⟨k, hloop, _⟩ := hscan.openings n (lt_length hop) hop hnew
      exact hopen k hloop

theorem exists_jumps_iff_balanced : (∃ j, p.jumps = .ok j) ↔ p.Balanced := by
  constructor
  · rintro ⟨j, hj⟩
    rcases (Jumps.scanned_of_jumps hj).unclosed with level | _
    exact balanced_iff_level.mpr level
  · intro hp
    have ⟨t, ht⟩ := hp.exists_ops_eq
    exact ⟨_, ht ▸ Jumps.jumps_ops t⟩

theorem jumps_by_balance (p : Program) :
    ((∃ j, p.jumps = .ok j) ↔ p.Balanced) ∧
    (∀ j, p.jumps = .ok j → j.Matches p) ∧
    ∀ b, p.jumps = .error b → p.Blames b ∧
      ∀ (maxCells : Int) (allowance : Nat) (input : Bytes),
        p.exec maxCells allowance input = some ⟨some (.unbalanced b), [], input⟩ := by
  refine ⟨exists_jumps_iff_balanced, fun j hj => .of_scanned (Jumps.scanned_of_jumps hj), ?refused⟩
  case refused =>
    intro b hb
    exact ⟨blames_of_jumps hb, fun _ _ _ => by rw [exec, hb]⟩

-- The outer of two loops jumps over both loops in it. Of three brackets that open, the last is closed and
-- the second blamed; of two that close, the second is blamed.
theorem jumps_by_balance_nested :
    (∃ j, jumps [.opening, .opening, .closing, .opening, .closing, .closing] = .ok j ∧
      j.Matches [.opening, .opening, .closing, .opening, .closing, .closing] ∧ j.target? 0 = some 5) ∧
    Blames [.opening, .opening, .opening, .closing] (.opening 1) ∧
    Blames [.opening, .closing, .put, .closing] (.closing 3) ∧
    exec 0 0 [.opening, .closing, .put, .closing] [7] = some ⟨some (.unbalanced (.closing 3)), [], [7]⟩ := by
  have hloops : jumps [.opening, .opening, .closing, .opening, .closing, .closing] =
    .ok ⟨#[some 5, some 2, some 1, some 4, some 3, some 0]⟩ := rfl
  have hopen : jumps [.opening, .opening, .opening, .closing] = .error (.opening 1) := rfl
  have hclose : jumps [.opening, .closing, .put, .closing] = .error (.closing 3) := rfl
  have ⟨hblame, hexec⟩ := (jumps_by_balance _).right.right _ hclose
  exact ⟨⟨_, hloops, (jumps_by_balance _).right.left _ hloops, rfl⟩,
    ((jumps_by_balance _).right.right _ hopen).left, hblame, hexec 0 0 [7]⟩

end Program
end TapeShell.Tape
