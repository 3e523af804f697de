import MolecularTools.Host.Basic

/-! Laws of tasks: what a task of several steps did when it ended, and the conditions under which
a task goes on. -/
namespace MolecularTools

theorem bind_eq_ok_iff {t : Except ε α} {f : α → Except ε β} :
    t >>= f = .ok b ↔ ∃ a, t = .ok a ∧ f a = .ok b := by
  cases t with
  | error e => simp [bind, Except.bind]
  | ok a => simp [bind, Except.bind]

theorem eq_ok_of_toOption {r : Except ε α} (some : r.toOption = .some a) : r = .ok a := by
  cases r with
  | error e => contradiction
  | ok b => rw [Option.some.inj some]

@[simp] theorem mapError_ok (f : ε → ε') (a : α) : (Except.ok a : Except ε α).mapError f = .ok a :=
  rfl

@[simp] theorem mapError_error (f : ε → ε') (e : ε) :
    (Except.error e : Except ε α).mapError f = .error (f e) := rfl

namespace Task

variable {σ τ ρ α β : Type}

@[simp] theorem within_apply (context : String) (t : Task σ α) (s : σ) :
    t.within context s = ((t s).1.mapError (·.within context), (t s).2) := by
  simp only [within]
  split <;> simp_all

@[simp] theorem outcome_apply (t : Task σ α) (s : σ) : t.outcome s = (.ok (t s).1, (t s).2) := rfl

@[simp] theorem below_apply (t : Task σ α) (s : τ × σ) :
    (t.below : Task (τ × σ) α) s = ((t s.2).1, (s.1, (t s.2).2)) := rfl

theorem bind_ok {t : Task σ α} {f : α → Task σ β} {s : σ} (ok : (t s).1 = .ok a) :
    (t >>= f) s = f a (t s).2 := by
  rw [bind_apply]
  split
  · rename_i result
    simp_all
  · simp_all

theorem bind_error {t : Task σ α} {f : α → Task σ β} {s : σ} (failed : (t s).1 = .error e) :
    (t >>= f) s = (.error e, (t s).2) := by
  rw [bind_apply]
  split
  · simp_all
  · simp_all

theorem bind_eq_ok {t : Task σ α} {f : α → Task σ β} {s : σ} (ok : ((t >>= f) s).1 = .ok b) :
    ∃ a, (t s).1 = .ok a ∧ (f a (t s).2).1 = .ok b := by
  cases ended : (t s).1 with
  | error e =>
    rw [bind_error ended] at ok
    contradiction
  | ok a =>
    rw [bind_ok ended] at ok
    exact ⟨a, rfl, ok⟩

theorem bind_pure_self (t : Task σ α) : t >>= Pure.pure = t := by
  funext s
  rw [bind_apply]
  split
  · simp_all
  · simp_all

theorem bind_bind (t : Task σ α) (f : α → Task σ β) (g : β → Task σ γ) :
    t >>= f >>= g = t >>= fun a => f a >>= g := by
  funext s
  simp only [bind_apply]
  cases t s with
  | mk r after => cases r <;> rfl

instance : LawfulMonad (Task σ) := .mk' _ bind_pure_self (fun _ _ => rfl) bind_bind

/-- Puts another failure in the place of each failure of `t`. -/
def recast (f : Failure → Failure) (t : Task σ α) : Task σ α := fun s =>
  ((t s).1.mapError f, (t s).2)

theorem within_eq (context : String) (t : Task σ α) :
    t.within context = t.recast (·.within context) :=
  funext (within_apply context t)

theorem recast_ok {t : Task σ α} {s : σ} : (t.recast f s).1 = .ok a ↔ (t s).1 = .ok a := by
  simp only [recast]
  cases (t s).1 with
  | ok b => exact Iff.rfl
  | error e => simp

theorem within_ok {t : Task σ α} {s : σ} : (t.within context s).1 = .ok a ↔ (t s).1 = .ok a := by
  rw [within_eq, recast_ok]

theorem below_bind (t : Task σ α) (f : α → Task σ β) :
    ((t >>= f).below : Task (τ × σ) β) = t.below >>= fun a => (f a).below := by
  funext s
  simp only [below_apply, bind_apply]
  rcases t s.2 with ⟨_ | _, after⟩ <;> rfl

theorem below_within (context : String) (t : Task σ α) :
    ((t.within context).below : Task (τ × σ) α) = t.below.within context := by
  funext s
  simp only [below_apply, within_apply]

theorem map_recast (g : α → β) (f : Failure → Failure) (t : Task σ α) :
    g <$> t.recast f = (g <$> t).recast f := by
  funext s
  simp only [map_eq_pure_bind, bind_apply, recast]
  rcases t s with ⟨_ | _, after⟩ <;> rfl

theorem recast_bind (f : Failure → Failure) (t : Task σ α) (g : α → Task σ β) :
    t.recast f >>= g = t.outcome >>= fun
      | .ok a => g a
      | .error e => fail (f e) := by
  funext s
  simp only [bind_apply, outcome_apply, recast]
  cases (t s).1 <;> rfl

def require (b : σ → Bool) (e : Failure) : Task σ Unit := fun s =>
  if b s then (.ok (), s) else (.error e, s)

theorem require_ok : (require b e s).1 = .ok a ↔ b s = true := by
  simp only [require]
  split
  · simp_all
  · simp_all

@[simp] theorem require_state (b : σ → Bool) (e : Failure) (s : σ) : (require b e s).2 = s := by
  simp only [require]
  split <;> rfl

def whenever (b : σ → Bool) (t : Task σ Unit) : Task σ Unit := fun s =>
  if b s then t s else (.ok (), s)

theorem require_eq (b : σ → Bool) (e : Failure) :
    require b e = ask b >>= fun x => if (!x) = true then fail e else Pure.pure () := by
  funext s
  simp only [bind_apply, ask_apply, require]
  cases b s <;> rfl

theorem require_bind (b : σ → Bool) (e : Failure) (f : Unit → Task σ α) :
    require b e >>= f = ask b >>= fun x => if (!x) = true then fail e >>= f else f () := by
  funext s
  simp only [bind_apply, ask_apply, require]
  cases b s <;> rfl

theorem whenever_bind (b : σ → Bool) (t : Task σ Unit) (f : Unit → Task σ α) :
    whenever b t >>= f = ask b >>= fun x => if x = true then t >>= f else f () := by
  funext s
  simp only [bind_apply, ask_apply, whenever]
  cases b s <;> rfl

/-- What holds between the states around each of two steps holds around both. -/
theorem bind_state {R : σ → σ → Prop} {t : Task σ α} {f : α → Task σ β}
    (trans : ∀ {a b c}, R a b → R b c → R a c) (first : ∀ s, R s (t s).2)
    (second : ∀ a s, R s (f a s).2) (s : σ) : R s ((t >>= f) s).2 := by
  cases ended : (t s).1 with
  | ok a =>
    rw [bind_ok ended]
    exact trans (first s) (second a _)
  | error e =>
    rw [bind_error ended]
    exact first s

/-- Leaves what the view shows of the state as it is. -/
def Preserves (view : σ → ρ) (t : Task σ α) : Prop := ∀ s, view (t s).2 = view s

variable {view : σ → ρ} {t : Task σ α}

theorem pure_preserves (a : α) : (Pure.pure a : Task σ α).Preserves view := fun _ => rfl

theorem fail_preserves (e : Failure) : (fail e : Task σ α).Preserves view := fun _ => rfl

theorem ask_preserves (f : σ → α) : (ask f).Preserves view := fun _ => rfl

theorem ofExcept_preserves (r : Except Failure α) : (ofExcept r : Task σ α).Preserves view := by
  cases r with
  | ok a => exact pure_preserves a
  | error e => exact fail_preserves e

theorem require_preserves (b : σ → Bool) (e : Failure) : (require b e).Preserves view := by
  intro s
  rw [require_state]

namespace Preserves

theorem bind {f : α → Task σ β} (first : t.Preserves view) (second : ∀ a, (f a).Preserves view) :
    (t >>= f).Preserves view :=
  bind_state (R := fun s after => view after = view s) (fun one two => two.trans one) first second

theorem map (kept : t.Preserves view) (g : α → β) : (g <$> t).Preserves view := by
  rw [map_eq_pure_bind]
  exact kept.bind fun a => pure_preserves (g a)

theorem recast (kept : t.Preserves view) : (t.recast f).Preserves view := kept

theorem within (kept : t.Preserves view) : (t.within context).Preserves view := by
  rw [within_eq]
  exact kept.recast

theorem outcome (kept : t.Preserves view) : t.outcome.Preserves view := kept

end Preserves

/-- States with the property stay states with it, also where the task fails. -/
def Sustains (I : σ → Prop) (t : Task σ α) : Prop := ∀ s, I s → I (t s).2

theorem Preserves.sustains {I : ρ → Prop} (kept : t.Preserves view) :
    t.Sustains fun s => I (view s) := by
  intro s holds
  rwa [kept s]

namespace Sustains

variable {I : σ → Prop}

theorem bind {f : α → Task σ β} (first : t.Sustains I) (second : ∀ a, (f a).Sustains I) :
    (t >>= f).Sustains I :=
  bind_state (R := fun s after => I s → I after) (fun one two => two ∘ one) first second

theorem recast (sustained : t.Sustains I) : (t.recast f).Sustains I := sustained

theorem within (sustained : t.Sustains I) : (t.within context).Sustains I := by
  rw [within_eq]
  exact sustained.recast

theorem outcome (sustained : t.Sustains I) : t.outcome.Sustains I := sustained

theorem whenever {t : Task σ Unit} (sustained : t.Sustains I) (b : σ → Bool) :
    (Task.whenever b t).Sustains I := by
  intro s holds
  rw [Task.whenever]
  split
  · exact sustained s holds
  · exact holds

end Sustains

end Task

end MolecularTools
