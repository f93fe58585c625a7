import Mathlib.Order.Basic
import Mathlib.Tactic.TypeStar

/-! Runs of a step function that may fault, and what holds in every state they reach. -/

namespace Run

variable {σ α ε : Type*}

/-- States reached from a start by successful steps, each admitted in the state it is taken from. -/
inductive Reaches (step : σ → α → Except ε σ) (admits : σ → α → Prop) (start : σ) : σ → Prop
  -- The empty run stays where it started.
  | refl : Reaches step admits start start
  -- A run may be extended by one admitted step that does not fault.
  | tail {s s' : σ} {a : α} : Reaches step admits start s → admits s a → step s a = .ok s' →
      Reaches step admits start s'

variable {step : σ → α → Except ε σ} {admits : σ → α → Prop} {start : σ}

/-- What holds at the start and survives every admitted step holds in every state reached. -/
theorem Reaches.invariant {P : σ → Prop} (holds : P start)
    (keeps : ∀ s a s', P s → admits s a → step s a = .ok s' → P s') {s : σ}
    (reached : Reaches step admits start s) : P s := by
  -- The induction is on the run, one admitted step at a time.
  induction reached with
  | refl => exact holds
  | tail _ admitted stepped ih => exact keeps _ _ _ ih admitted stepped

/-- A run can be continued by another. -/
theorem Reaches.trans {s s' : σ} (first : Reaches step admits start s)
    (second : Reaches step admits s s') : Reaches step admits start s' := by
  induction second with
  | refl => exact first
  | tail _ admitted stepped ih => exact ih.tail admitted stepped

/-- Admitting more steps reaches at least the same states. -/
theorem Reaches.mono {admits' : σ → α → Prop} (weaker : ∀ s a, admits s a → admits' s a) {s : σ}
    (reached : Reaches step admits start s) : Reaches step admits' start s := by
  induction reached with
  | refl => exact .refl
  | tail _ admitted stepped ih => exact ih.tail (weaker _ _ admitted) stepped

/-- One admitted step is a run. -/
theorem Reaches.one {s : σ} {a : α} (admitted : admits start a) (stepped : step start a = .ok s) :
    Reaches step admits start s :=
  .tail .refl admitted stepped

/-- A machine that can follow every step of another one can follow its runs. -/
theorem Reaches.simulate {τ β ε' : Type*} {step' : τ → β → Except ε' τ} {admits' : τ → β → Prop}
    {start' : τ} {R : σ → τ → Prop} (begins : R start start')
    (follows : ∀ s a s' t, R s t → admits s a → step s a = .ok s' →
      ∃ t', Reaches step' admits' t t' ∧ R s' t') {s : σ}
    (reached : Reaches step admits start s) : ∃ t, Reaches step' admits' start' t ∧ R s t := by
  -- The induction is on the run that is followed.
  induction reached with
  | refl => exact ⟨start', .refl, begins⟩
  | tail _ admitted stepped ih =>
    obtain ⟨t, before, related⟩ := ih
    obtain ⟨t', after, related'⟩ := follows _ _ _ t related admitted stepped
    exact ⟨t', before.trans after, related'⟩

/-- Execute a list of labels, refusing one that is not admitted where it comes up. -/
def exec (step : σ → α → Except ε σ) (admits : σ → α → Prop) [∀ s a, Decidable (admits s a)] :
    σ → List α → Option σ
  | s, [] => some s
  | s, a :: rest =>
    if admits s a then
      match step s a with
      | .ok s' => exec step admits s' rest
      | .error _ => none
    else none

/-- Labels are executed one part after the other. -/
theorem exec_append [∀ s a, Decidable (admits s a)] (first second : List α) (s : σ) :
    exec step admits s (first ++ second) =
      (exec step admits s first).bind fun s' => exec step admits s' second := by
  induction first generalizing s with
  | nil => rfl
  | cons a rest ih =>
    simp only [List.cons_append, exec]
    split
    · split
      · exact ih _
      · rfl
    · rfl

/-- An executed list of labels is a run. -/
theorem Reaches.of_exec [∀ s a, Decidable (admits s a)] (labels : List α) {s s' : σ}
    (reached : Reaches step admits start s) (executed : exec step admits s labels = some s') :
    Reaches step admits start s' := by
  induction labels generalizing s with
  | nil =>
    simp only [exec, Option.some.injEq] at executed
    exact executed ▸ reached
  | cons a rest ih =>
    simp only [exec] at executed
    split at executed
    · rename_i admitted
      split at executed
      · rename_i next stepped
        exact ih (reached.tail admitted stepped) executed
      · simp at executed
    · simp at executed

/-- A list of labels whose execution ends in a state with a property reaches such a state. -/
theorem Reaches.of_check [∀ s a, Decidable (admits s a)] (labels : List α) {P : σ → Prop}
    [DecidablePred P]
    (passes : (exec step admits start labels).any (fun s => decide (P s)) = true) :
    ∃ s, Reaches step admits start s ∧ P s := by
  cases executed : exec step admits start labels with
  | none => simp [executed] at passes
  | some s =>
    rw [executed] at passes
    exact ⟨s, .of_exec labels .refl executed, of_decide_eq_true passes⟩

/-- A fact about every label of a list, read in the state the earlier labels lead to. -/
def Along (step : σ → α → Except ε σ) (P : σ → α → Prop) : σ → List α → Prop
  | _, [] => True
  | s, a :: rest => P s a ∧ match step s a with
      | .ok s' => Along step P s' rest
      -- A faulting step ends the run, so nothing is asked of the labels after it.
      | .error _ => True

/-- Facts that agree wherever an invariant holds agree along every run of labels that keep it. -/
theorem Along.congr {P Q : σ → α → Prop} {I : σ → Prop} {V : α → Prop}
    (keeps : ∀ s a s', V a → I s → step s a = .ok s' → I s')
    (agree : ∀ s a, V a → I s → (P s a ↔ Q s a)) (labels : List α) (valid : ∀ a ∈ labels, V a)
    {s : σ} (holds : I s) : Along step P s labels ↔ Along step Q s labels := by
  induction labels generalizing s with
  | nil => exact Iff.rfl
  | cons a rest ih =>
    have first := valid a List.mem_cons_self
    simp only [Along, agree s a first holds]
    cases stepped : step s a with
    | error fault => exact Iff.rfl
    | ok s' =>
      have later := ih (fun a member => valid a (List.mem_cons_of_mem _ member))
        (keeps s a s' first holds stepped)
      exact and_congr_right fun _ => later

end Run
