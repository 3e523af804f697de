import MolecularTools.Machine.Shell
import MolecularTools.Proofs.Machine

/-! Which errors of an installation a failure comes from, whatever contexts it passed through. -/
namespace MolecularTools

variable {σ α β : Type}

def Failure.installError? (f : Failure) : Option InstallError :=
  match f.cause with
  | .install e => some e
  | _ => none

def Failure.reported? : Except Failure α → Option InstallError
  | .error f => f.installError?
  | .ok _ => none

theorem Failure.of_reported {r : Except Failure α} (told : reported? r = some k) :
    ∃ f, r = .error f ∧ f.installError? = some k := by
  cases r with
  | ok _ => contradiction
  | error f => exact ⟨f, rfl, told⟩

namespace Task

/-- Fails with no installation error, but for other reasons at most. -/
def Foreign (t : Task σ α) : Prop := ∀ s e, (t s).1 = .error e → e.installError? = none

namespace Foreign

variable {t : Task σ α}

theorem pure (a : α) : (Pure.pure a : Task σ α).Foreign := fun _ _ failed => by contradiction

theorem ask (f : σ → α) : (Task.ask f).Foreign := fun _ _ failed => by contradiction

theorem act (f : σ → σ) : (Task.act f).Foreign := fun _ _ failed => by contradiction

theorem fail (foreign : e.installError? = none) : (Task.fail e : Task σ α).Foreign := by
  intro s f failed
  obtain rfl := Except.error.inj failed
  exact foreign

theorem bind {f : α → Task σ β} (first : t.Foreign) (second : ∀ a, (f a).Foreign) :
    (t >>= f).Foreign := by
  intro s e failed
  cases ended : (t s).1 with
  | ok a =>
    rw [bind_ok ended] at failed
    exact second a _ e failed
  | error reason =>
    rw [bind_error ended] at failed
    obtain rfl := Except.error.inj failed
    exact first s _ ended

theorem within (foreign : t.Foreign) : (t.within context).Foreign := by
  intro s e failed
  rw [within_apply] at failed
  cases ended : (t s).1 with
  | ok a =>
    rw [ended] at failed
    contradiction
  | error reason =>
    rw [ended] at failed
    obtain rfl := Except.error.inj failed
    exact foreign s reason ended

theorem require (b : σ → Bool) (foreign : e.installError? = none) :
    (Task.require b e).Foreign := by
  intro s f failed
  rw [Task.require] at failed
  split at failed
  · contradiction
  · obtain rfl := Except.error.inj failed
    exact foreign

end Foreign

end Task

namespace Machine

theorem atOnce_foreign (f : FileTree → Except IoError (α × FileTree)) : (atOnce f).Foreign := by
  intro m e failed
  rw [atOnce] at failed
  split at failed
  · contradiction
  · obtain rfl := Except.error.inj failed
    rfl

theorem stepwise_foreign (f : FileTree → Except IoError α × FileTree) : (stepwise f).Foreign := by
  intro m e failed
  rw [stepwise] at failed
  split at failed
  · contradiction
  · obtain rfl := Except.error.inj failed
    rfl

section

variable (w : Surroundings) (p : String)

theorem openFile_foreign : ((host w).openFile p).Foreign := (atOnce_foreign _).within

theorem makeDirectories_foreign : ((host w).makeDirectories p).Foreign := (stepwise_foreign _).within

theorem removeFile_foreign : ((host w).removeFile p).Foreign := (atOnce_foreign _).within

theorem removeLink_foreign : ((host w).removeLink p).Foreign := (atOnce_foreign _).within

theorem makeLink_foreign (target : String) : ((host w).makeLink target p).Foreign :=
  (atOnce_foreign _).within

theorem say_foreign (text : String) : ((host w).say text).Foreign := .act _

theorem warn_foreign (text : String) : ((host w).warn text).Foreign := .act _

end

section

/-! A program that was started ends with a result, whatever it is. -/

variable {t : FileTree} {directory p : String} {c : Command} {effect : CommandEffect}

theorem runScript_runs (t : FileTree) (directory script : String) :
    ∃ r, (runScript t directory script).1 = .ok r := by
  unfold runScript
  split <;> exact ⟨_, rfl⟩

theorem runFile_runs (ran : runFile t directory p = .ok effect) : ∃ r, effect.1 = .ok r := by
  obtain ⟨⟨l, n⟩, -, ran⟩ := bind_eq_ok_iff.mp ran
  cases n with
  | directory _ => contradiction
  | link _ => contradiction
  | file f =>
    dsimp only at ran
    split at ran
    · contradiction
    · split at ran
      · obtain rfl := Except.ok.inj ran
        exact runScript_runs _ _ _
      · contradiction

theorem runProgram_runs (ran : runProgram t directory c = .ok effect) : ∃ r, effect.1 = .ok r := by
  unfold runProgram at ran
  split at ran
  · exact runFile_runs ran
  · split at ran
    · obtain rfl := Except.ok.inj ran
      exact runScript_runs _ _ _
    · obtain ⟨script, -, ran⟩ := bind_eq_ok_iff.mp ran
      obtain rfl := Except.ok.inj ran
      exact runScript_runs _ _ _
    · split at ran
      · obtain rfl := Except.ok.inj ran
        exact ⟨_, rfl⟩
      · contradiction

/-- Where the shell runs programs, one that does not start reports no installation error. -/
theorem shell_foreign (failed : (shell c t).1 = .error e) : e.installError? = none := by
  unfold shell at failed
  dsimp only at failed
  split at failed
  · rename_i effect started
    obtain ⟨⟨l, n⟩, -, ran⟩ := bind_eq_ok_iff.mp started
    cases n with
    | file _ => contradiction
    | link _ => contradiction
    | directory mode =>
      obtain ⟨r, ok⟩ := runProgram_runs ran
      rw [ok] at failed
      contradiction
  · obtain rfl := Except.error.inj failed
    rfl

end

end Machine

end MolecularTools
