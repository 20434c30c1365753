import TapeShell.Eval

namespace TapeShell

namespace Fault

-- A signal puts nothing into context, so a fault holds one signal at most.
theorem holdsQuit_iff_signal? {f : Fault} : f.holdsQuit ↔ f.signal? = some .quit := by
  induction f
  case signal s => simp [holdsQuit, signal?, chain]
  case uncompiled hi => simpa [holdsQuit, signal?, chain] using hi
  case evaluation hi => simpa [holdsQuit, signal?, chain] using hi
  case result hi => simpa [holdsQuit, signal?, chain] using hi
  case context hi => simpa [holdsQuit, signal?, chain] using hi
  all_goals simp [holdsQuit, signal?, chain]

end Fault

inductive Machine.Request (C : Type) where
  | expand (name : Bytes)
  | run (code : C) (args : List (Expr C))

def Machine.outcome {C σ : Type} (m : Machine C σ) (s : σ) : Request C → Except Stop (Expr C)
  | .expand name   => Expr.ofExpansion (m.expand name s).value
  | .run code args => Expr.ofRun (m.run code args s).value

namespace Expr

open Machine

variable {C σ : Type}

section Answers

variable {x : Except Fault C} {y : Except Fault (Expr C)} {f : Fault} {stop : Stop}

theorem ofExpansion_eq_quit_iff : ofExpansion x = .error .quit ↔ ∃ f, x = .error f ∧ f.holdsQuit := by
  simp only [Fault.holdsQuit_iff_signal?]
  cases x
  case ok => simp [ofExpansion]
  case error f =>
    have hne : Signal.quit ≠ Signal.proceed := by decide
    by_cases hp : f.signal? = some .proceed
    case pos => simp [ofExpansion, hp, hne.symm]
    case neg => by_cases hq : f.signal? = some .quit <;> simp [ofExpansion, hp, hq, hne]

theorem not_holdsQuit_of_ofExpansion (h : ofExpansion x = .error (.failed f)) : ¬f.holdsQuit := by
  rw [Fault.holdsQuit_iff_signal?]
  unfold ofExpansion at h
  repeat' split at h
  case isFalse hq =>
    cases h
    exact hq
  all_goals cases h

theorem ofExpansion_ne_hole : ofExpansion x ≠ .error .hole := by
  unfold ofExpansion
  repeat' split
  all_goals simp

theorem ofRun_eq_error_iff :
    ofRun y = .error stop ↔ ∃ f, y = .error f ∧ stop = .failed (.context "runtime error: " f) := by
  unfold ofRun
  split
  case h_3 f => simp [eq_comm]
  all_goals simp

end Answers

variable [Code C]

-- `Asks m e s r t`: evaluated from the state `s`, `e` makes the request `r` when the machine has come
-- to the state `t`.
inductive Asks (m : Machine C σ) : Expr C → σ → Request C → σ → Prop
  | expand : Asks m (.macroName name) s (.expand name) s
  | test : Asks m test s r t → Asks m (.cond test yes no) s r t
  | branch : (test.eval m s).value = .ok v →
    Asks m (if v.truthy then yes else no) (test.eval m s).state r t → Asks m (.cond test yes no) s r t
  | callee : Asks m callee s r t → Asks m (.call callee args) s r t
  | run : (callee.eval m s).value = .ok (.lambda code) →
    Asks m (.call callee args) s (.run code args) (callee.eval m s).state

inductive Course (m : Machine C σ) : Expr C → σ → Prop
  | nil : Course m .nil s
  | str : Course m (.str text) s
  | lambda : Course m (.lambda code) s
  | hole : Course m .hole s
  | macroName : Course m (.macroName name) s
  | test : (test.eval m s).value = .error stop → Course m test s → Course m (.cond test yes no) s
  | branch : (test.eval m s).value = .ok v → Course m test s →
    Course m (if v.truthy then yes else no) (test.eval m s).state → Course m (.cond test yes no) s
  | callee : (callee.eval m s).value = .error stop → Course m callee s → Course m (.call callee args) s
  | run : (callee.eval m s).value = .ok (.lambda code) → Course m callee s →
    Course m (.call callee args) s
  | notCallable : (callee.eval m s).value = .ok v → (∀ code, v ≠ .lambda code) → Course m callee s →
    Course m (.call callee args) s

theorem course (m : Machine C σ) : (e : Expr C) → (s : σ) → e.Course m s
  | .nil, _ => .nil
  | .str _, _ => .str
  | .lambda _, _ => .lambda
  | .hole, _ => .hole
  | .macroName _, _ => .macroName
  | .cond test yes no, s => by
    have ht := course m test s
    cases hv : (test.eval m s).value
    case error => exact .test hv ht
    case ok v =>
      refine .branch hv ht ?_
      split
      case isTrue => exact course m yes _
      case isFalse => exact course m no _
  | .call callee args, s => by
    have hc := course m callee s
    cases hv : (callee.eval m s).value
    case error => exact .callee hv hc
    case ok v =>
      by_cases hl : ∃ code, v = .lambda code
      case pos =>
        obtain ⟨code, rfl⟩ := hl
        exact .run hv hc
      case neg => exact .notCallable hv (fun code hv' => hl ⟨code, hv'⟩) hc

variable {m : Machine C σ} {s t : σ}

section Eval

variable {test yes no callee v : Expr C} {args : List (Expr C)} {stop : Stop} {code : C}

theorem eval_cond_of_error (h : (test.eval m s).value = .error stop) :
    ((cond test yes no).eval m s).value = .error stop := by
  simp only [eval, bind, h]
  rfl

theorem eval_cond_of_ok (h : (test.eval m s).value = .ok v) :
    ((cond test yes no).eval m s).value =
      ((if v.truthy then yes else no).eval m (test.eval m s).state).value := by
  simp only [eval, bind, h]
  split <;> rfl

theorem eval_call_of_error (h : (callee.eval m s).value = .error stop) :
    ((call callee args).eval m s).value = .error stop := by
  simp only [eval, bind, h]
  rfl

theorem eval_call_of_lambda (h : (callee.eval m s).value = .ok (.lambda code)) :
    ((call callee args).eval m s).value = ofRun (m.run code args (callee.eval m s).state).value := by
  simp only [eval, bind, h]
  rfl

theorem eval_call_state_of_lambda (h : (callee.eval m s).value = .ok (.lambda code)) :
    ((call callee args).eval m s).state = (m.run code args (callee.eval m s).state).state := by
  simp only [eval, bind, h]
  rfl

theorem eval_call_of_ok (h : (callee.eval m s).value = .ok v) (hv : ∀ code, v ≠ .lambda code) :
    ((call callee args).eval m s).value = .error (notCallable v) := by
  cases v
  case lambda code => exact absurd rfl (hv code)
  all_goals
    simp only [eval, bind, h]
    rfl

end Eval

variable {e : Expr C} {r : Request C} {stop : Stop}

theorem Asks.eval_eq_error (h : e.Asks m s r t) (hr : m.outcome t r = .error stop) :
    (e.eval m s).value = .error stop := by
  induction h
  case expand => exact hr
  case test hi => exact eval_cond_of_error (hi hr)
  case branch hv _ hi => rw [eval_cond_of_ok hv, hi hr]
  case callee hi => exact eval_call_of_error (hi hr)
  case run hc => rw [eval_call_of_lambda hc, ← hr, outcome]

theorem exists_asks_of_eval_eq_error (e : Expr C) {s : σ} (h : (e.eval m s).value = .error stop) :
    (∃ r t, e.Asks m s r t ∧ m.outcome t r = .error stop) ∨ (∃ v : Expr C, stop = notCallable v) ∨
      stop = .hole := by
  induction course m e s
  case macroName => exact .inl ⟨_, _, .expand, h⟩
  case hole =>
    cases h
    exact .inr (.inr rfl)
  case test hv _ hi =>
    rw [eval_cond_of_error hv, ← hv] at h
    exact (hi h).imp_left fun ⟨r, t, ha, ho⟩ => ⟨r, t, .test ha, ho⟩
  case branch hv _ _ _ hi =>
    rw [eval_cond_of_ok hv] at h
    exact (hi h).imp_left fun ⟨r, t, ha, ho⟩ => ⟨r, t, .branch hv ha, ho⟩
  case callee hv _ hi =>
    rw [eval_call_of_error hv, ← hv] at h
    exact (hi h).imp_left fun ⟨r, t, ha, ho⟩ => ⟨r, t, .callee ha, ho⟩
  case run hv _ _ =>
    rw [eval_call_of_lambda hv] at h
    exact .inl ⟨_, _, .run hv, h⟩
  case notCallable hv hl _ _ =>
    rw [eval_call_of_ok hv hl] at h
    cases h
    exact .inr (.inl ⟨_, rfl⟩)
  all_goals cases h

theorem eval_ne_hole (e : Expr C) {s : σ} (hw : e.isWhole) : (e.eval m s).value ≠ .error .hole := by
  induction course m e s
  case hole => cases hw
  case macroName => exact ofExpansion_ne_hole
  case test hv _ hi =>
    simp only [isWhole, Bool.and_eq_true] at hw
    rw [eval_cond_of_error hv, ← hv]
    exact hi hw.left.left
  case branch hv _ _ _ hi =>
    simp only [isWhole, Bool.and_eq_true] at hw
    rw [eval_cond_of_ok hv]
    refine hi ?_
    split
    case isTrue => exact hw.left.right
    case isFalse => exact hw.right
  case callee hv _ hi =>
    simp only [isWhole, Bool.and_eq_true] at hw
    rw [eval_call_of_error hv, ← hv]
    exact hi hw.left
  case run hv _ _ =>
    rw [eval_call_of_lambda hv, Ne, ofRun_eq_error_iff]
    rintro ⟨_, _, hs⟩
    cases hs
  case notCallable hv hl _ _ =>
    rw [eval_call_of_ok hv hl]
    simp [notCallable]
  all_goals
    intro h
    cases h

theorem eval_eq_quit_iff :
    (e.eval m s).value = .error .quit ↔
      ∃ name t f, e.Asks m s (.expand name) t ∧ (m.expand name t).value = .error f ∧ f.holdsQuit := by
  constructor
  case mp =>
    intro h
    rcases exists_asks_of_eval_eq_error e h with ⟨r, t, ha, ho⟩ | ⟨v, hv⟩ | hh
    · cases r
      case expand name =>
        have ⟨f, hf, hq⟩ := ofExpansion_eq_quit_iff.mp ho
        exact ⟨name, t, f, ha, hf, hq⟩
      case run =>
        have ⟨_, _, hs⟩ := ofRun_eq_error_iff.mp ho
        cases hs
    · cases hv
    · cases hh
  case mpr =>
    intro ⟨name, t, f, ha, hf, hq⟩
    exact ha.eval_eq_error (ofExpansion_eq_quit_iff.mpr ⟨f, hf, hq⟩)

theorem holdsQuit_iff_of_eval_eq_failed {f : Fault} (h : (e.eval m s).value = .error (.failed f)) :
    f.holdsQuit ↔
      ∃ code args t g, e.Asks m s (.run code args) t ∧ (m.run code args t).value = .error g ∧
        g.holdsQuit := by
  constructor
  case mp =>
    intro hq
    rcases exists_asks_of_eval_eq_error e h with ⟨r, t, ha, ho⟩ | ⟨v, hv⟩ | hh
    · cases r
      case expand name => exact absurd hq (not_holdsQuit_of_ofExpansion ho)
      case run code args =>
        have ⟨g, hg, hs⟩ := ofRun_eq_error_iff.mp ho
        cases hs
        exact ⟨code, args, t, g, ha, hg, hq⟩
    · cases hv
      cases hq
    · cases hh
  case mpr =>
    intro ⟨code, args, t, g, ha, hg, hq⟩
    rw [ha.eval_eq_error (ofRun_eq_error_iff.mpr ⟨g, hg, rfl⟩)] at h
    cases h
    exact hq

end Expr
end TapeShell
