import MolecularTools.Fallback
import MolecularTools.Proofs.Task

/-! Falling back on other sources: the first one that succeeds ends the search, and one that fails
hands over to the next after a warning. -/
namespace MolecularTools.Fallback

variable {σ α : Type} {warn : String → Task σ Unit} {operation : String}
  {attempt : String → Task σ α}

theorem tryEach_ok {rest : List String} (good : attempt url s = (.ok a, after)) :
    tryEach warn operation attempt (url :: rest) s = (.ok a, after) := by
  cases rest with
  | nil => exact good
  | cons next rest =>
    rw [tryEach, Task.bind_ok rfl]
    · simp only [Task.outcome_apply, good]
      rfl

theorem tryEach_error (bad : attempt url s = (.error e, after))
    (warned : warn (warning operation url next e) after = (.ok (), later)) :
    tryEach warn operation attempt (url :: next :: rest) s =
      tryEach warn operation attempt (next :: rest) later := by
  rw [tryEach, Task.bind_ok rfl]
  · simp only [Task.outcome_apply, bad]
    rw [Task.bind_apply, warned]

/-- What every successful attempt ensures holds after a successful search. -/
theorem tryEach_ensures {Q : σ → Prop}
    (each : ∀ url s a, (attempt url s).1 = .ok a → Q (attempt url s).2) (urls : List String)
    (ended : (tryEach warn operation attempt urls s).1 = .ok a) :
    Q (tryEach warn operation attempt urls s).2 := by
  induction urls generalizing s with
  | nil => contradiction
  | cons url urls ih =>
    cases urls with
    | nil => exact each url s a ended
    | cons next rest =>
      rw [tryEach, Task.bind_ok rfl] at ended ⊢
      simp only [Task.outcome_apply] at ended ⊢
      cases first : (attempt url s).1 with
      | ok b => exact each url s b first
      | error e =>
        simp only [first] at ended ⊢
        obtain ⟨_, warned, ended⟩ := Task.bind_eq_ok ended
        rw [Task.bind_ok warned]
        exact ih ended

/-- A search leaves a property alone if its attempts and its warnings do. -/
theorem tryEach_sustains {I : σ → Prop} (operation : String)
    (warns : ∀ text, (warn text).Sustains I) (attempts : ∀ url, (attempt url).Sustains I)
    (urls : List String) : (tryEach warn operation attempt urls).Sustains I := by
  induction urls with
  | nil => exact fun _ holds => holds
  | cons url urls ih =>
    cases urls with
    | nil => exact attempts url
    | cons next rest =>
      rw [tryEach]
      · refine (attempts url).outcome.bind fun r => ?_
        cases r with
        | ok a => exact fun _ holds => holds
        | error e => exact (warns _).bind fun _ => ih

end MolecularTools.Fallback
