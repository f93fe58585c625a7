import Mathlib.Data.List.Count
import Mathlib.Logic.Function.Basic
import Mathlib.Tactic.TypeStar

/-! Objects made and unmade by hand in raw storage: which histories are lawful and leave nothing. -/

namespace ObjectLifetime

open Function (update update_of_ne update_self)

/-- What happens to the object in one place of raw storage. -/
inductive Event (σ : Type*) where
  | construct (x : σ)
  | read (x : σ)
  | destroy (x : σ)
  deriving DecidableEq, Repr

variable {σ : Type*} [DecidableEq σ]

/-- The places with a live object after an event, unless the event has undefined behaviour. -/
def apply (live : σ → Bool) : Event σ → Option (σ → Bool)
  | .construct x => if live x then none else some (update live x true)
  | .read x => if live x then some live else none
  | .destroy x => if live x then some (update live x false) else none

/-- The places with a live object after a history. -/
def replay (live : σ → Bool) (events : List (Event σ)) : Option (σ → Bool) :=
  events.foldlM apply live

/-- A history from raw storage on that has defined behaviour. -/
def Lawful (events : List (Event σ)) : Prop := (replay (fun _ => false) events).isSome

/-- Each object that was constructed was destroyed, as often in each place. -/
def Balanced (events : List (Event σ)) : Prop :=
  ∀ x, events.count (.construct x) = events.count (.destroy x)

variable {live live' : σ → Bool} {first second events : List (Event σ)}

/-- Histories are replayed one part after the other. -/
theorem replay_append :
    replay live (first ++ second) = (replay live first).bind fun live' => replay live' second := by
  rw [replay, List.foldlM_append]
  rfl

/-- An object lives where one more was constructed than destroyed. -/
theorem count_construct (replayed : replay live events = some live') (x : σ) :
    events.count (.construct x) + (live x).toNat =
      events.count (.destroy x) + (live' x).toNat := by
  induction events generalizing live with
  | nil =>
    obtain rfl : live = live' := Option.some.inj replayed
    rfl
  | cons event rest ih =>
    rw [replay, List.foldlM_cons] at replayed
    cases event with
    | construct y =>
      cases there : live y with
      | true => simp [apply, there] at replayed
      | false =>
        simp only [apply, there, Bool.false_eq_true, ↓reduceIte, Option.bind_eq_bind,
          Option.bind_some] at replayed
        have later := ih replayed
        by_cases here : x = y
        · subst here
          rw [update_self] at later
          simp [there] at later ⊢
          omega
        · rw [update_of_ne here] at later
          have other : Event.construct y ≠ .construct x := by simp [Ne.symm here]
          simpa [other] using later
    | read y =>
      cases there : live y with
      | false => simp [apply, there] at replayed
      | true =>
        simp only [apply, there, ↓reduceIte, Option.bind_eq_bind, Option.bind_some] at replayed
        simpa using ih replayed
    | destroy y =>
      cases there : live y with
      | false => simp [apply, there] at replayed
      | true =>
        simp only [apply, there, ↓reduceIte, Option.bind_eq_bind, Option.bind_some] at replayed
        have later := ih replayed
        by_cases here : x = y
        · subst here
          rw [update_self] at later
          simp [there] at later ⊢
          omega
        · rw [update_of_ne here] at later
          have other : Event.destroy y ≠ .destroy x := by simp [Ne.symm here]
          simpa [other] using later

/-- A lawful history is balanced exactly when no object lives after it. -/
theorem balanced_iff (replayed : replay (fun _ => false) events = some live) :
    Balanced events ↔ ∀ x, live x = false := by
  have counts := count_construct replayed
  constructor
  · intro balanced x
    have := counts x
    have := balanced x
    cases there : live x with
    | false => rfl
    | true => simp [there] at *; omega
  · intro dead x
    have := counts x
    simpa [dead x] using this

end ObjectLifetime
