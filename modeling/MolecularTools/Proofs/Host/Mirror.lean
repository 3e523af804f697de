import MolecularTools.Proofs.Fallback
import MolecularTools.Proofs.Host.Watch

/-! A watch changes nothing: work under watch has the result of the same work without a watch, and
leaves the same state behind. -/
namespace MolecularTools.Task

variable {σ τ α β : Type}

/-- Apart from the first part of its state, the first task does as the second one does. -/
def Mirrors (t : Task (τ × σ) α) (u : Task σ α) : Prop := ∀ s, ((t s).1, (t s).2.2) = u s.2

namespace Mirrors

variable {t : Task (τ × σ) α} {u : Task σ α}

theorem result (mirrors : t.Mirrors u) (s : τ × σ) : (t s).1 = (u s.2).1 :=
  congrArg Prod.fst (mirrors s)

theorem state (mirrors : t.Mirrors u) (s : τ × σ) : (t s).2.2 = (u s.2).2 :=
  congrArg Prod.snd (mirrors s)

theorem of_parts (result : ∀ s, (t s).1 = (u s.2).1) (state : ∀ s, (t s).2.2 = (u s.2).2) :
    t.Mirrors u :=
  fun s => Prod.ext (result s) (state s)

theorem below (u : Task σ α) : (u.below : Task (τ × σ) α).Mirrors u := fun _ => rfl

theorem pure (a : α) : (Pure.pure a : Task (τ × σ) α).Mirrors (Pure.pure a) := fun _ => rfl

theorem fail (e : Failure) : (Task.fail e : Task (τ × σ) α).Mirrors (Task.fail e) := fun _ => rfl

theorem bind {f : α → Task (τ × σ) β} {g : α → Task σ β} (first : t.Mirrors u)
    (second : ∀ a, (f a).Mirrors (g a)) : (t >>= f).Mirrors (u >>= g) := by
  intro s
  have result := first.result s
  cases ended : (t s).1 with
  | error e =>
    rw [ended] at result
    rw [bind_error ended, bind_error result.symm, ← first.state s]
  | ok a =>
    rw [ended] at result
    rw [bind_ok ended, bind_ok result.symm, ← first.state s]
    exact second a (t s).2

/-- What the first task returns may be seen through a function. -/
theorem map_bind {f : β → Task (τ × σ) γ} {g : α → Task σ γ} (view : α → β) (first : t.Mirrors u)
    (second : ∀ a, (f (view a)).Mirrors (g a)) : ((view <$> t) >>= f).Mirrors (u >>= g) := by
  rw [bind_map_left]
  exact first.bind second

theorem recast (mirrors : t.Mirrors u) : (t.recast f).Mirrors (u.recast f) :=
  of_parts (fun s => congrArg (Except.mapError f) (mirrors.result s)) mirrors.state

theorem within (mirrors : t.Mirrors u) : (t.within context).Mirrors (u.within context) := by
  rw [within_eq, within_eq]
  exact mirrors.recast

theorem outcome (mirrors : t.Mirrors u) : t.outcome.Mirrors u.outcome :=
  of_parts (fun s => congrArg Except.ok (mirrors.result s)) mirrors.state

theorem require {b : τ × σ → Bool} {c : σ → Bool} (same : ∀ s, b s = c s.2) (e : Failure) :
    (Task.require b e).Mirrors (Task.require c e) := by
  intro s
  rw [Task.require, Task.require, same s]
  cases c s.2 <;> rfl

theorem whenever {t : Task (τ × σ) Unit} {u : Task σ Unit} {b : τ × σ → Bool} {c : σ → Bool}
    (same : ∀ s, b s = c s.2) (mirrors : t.Mirrors u) :
    (Task.whenever b t).Mirrors (Task.whenever c u) := by
  intro s
  rw [Task.whenever, Task.whenever, same s]
  cases c s.2 with
  | true => exact mirrors s
  | false => rfl

theorem watched {t : Task (Log σ × σ) α} {u : Task σ α} (mirrors : t.Mirrors u) (e : Effect)
    (wanted : α → Bool) : (t.watched e wanted).Mirrors u := mirrors

theorem tryEach {warn : String → Task (τ × σ) Unit} {plainWarn : String → Task σ Unit}
    {attempt : String → Task (τ × σ) α} {plainAttempt : String → Task σ α} (operation : String)
    (warns : ∀ text, (warn text).Mirrors (plainWarn text))
    (attempts : ∀ url, (attempt url).Mirrors (plainAttempt url)) (urls : List String) :
    (Fallback.tryEach warn operation attempt urls).Mirrors
      (Fallback.tryEach plainWarn operation plainAttempt urls) := by
  induction urls with
  | nil => exact .fail _
  | cons url urls ih =>
    cases urls with
    | nil => exact attempts url
    | cons next rest =>
      rw [Fallback.tryEach, Fallback.tryEach]
      · refine (attempts url).outcome.bind fun r => ?_
        cases r with
        | ok a => exact .pure a
        | error e => exact (warns _).bind fun _ => ih

end Mirrors

end MolecularTools.Task
