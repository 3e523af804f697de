import MolecularTools.Proofs.Task
import MolecularTools.Recipe

/-! How a recipe is worked through: its steps succeed one after the other, and it stops at the first
one that does not. -/
namespace MolecularTools

variable {σ : Type} {h : Host σ} {directory : String}

/-- The steps were run in order and each succeeded; the transcript goes on by what they wrote. -/
inductive Ran (h : Host σ) (directory : String) :
    List BuildStep → String → σ → String → σ → Prop
  | nothing : Ran h directory [] transcript s transcript s
  | step : h.run ⟨step.program, step.args, directory⟩ s = (.ok result, middle) →
      result.code = some 0 →
      Ran h directory rest (transcript ++ result.output) middle whole after →
      Ran h directory (step :: rest) transcript s whole after

/-- A step exited without success, the first one to do so. -/
inductive Broke (h : Host σ) (directory : String) (steps : List BuildStep) (s : σ) :
    String → String → σ → Prop
  | broke : steps = done ++ step :: rest → Ran h directory done "" s transcript middle →
      h.run ⟨step.program, step.args, directory⟩ middle = (.ok result, after) →
      result.code ≠ some 0 →
      Broke h directory steps s step.name (transcript ++ result.output) after

theorem CommandResult.success_iff (r : CommandResult) : r.success = true ↔ r.code = some 0 := by
  rw [success, decide_eq_true_iff]

theorem runSteps_ran {done : List BuildStep}
    (ran : Ran h directory done transcript s whole after) (rest : List BuildStep) :
    runSteps h directory transcript (done ++ rest) s = runSteps h directory whole rest after := by
  induction ran with
  | nothing => rfl
  | step run good _ ih =>
    rw [List.cons_append, runSteps, BuildStep.command, Task.bind_apply, run]
    dsimp only
    rw [if_pos ((CommandResult.success_iff _).mpr good)]
    exact ih

theorem runSteps_unsuccessful
    (run : h.run ⟨step.program, step.args, directory⟩ s = (.ok result, after))
    (bad : result.code ≠ some 0) :
    runSteps h directory transcript (step :: rest) s =
      (.error (.ofInstall (.build step.name (transcript ++ result.output))), after) := by
  rw [runSteps, BuildStep.command, Task.bind_apply, run]
  dsimp only
  rw [if_neg (mt (CommandResult.success_iff _).mp bad)]
  rfl

theorem runSteps_unstarted
    (run : h.run ⟨step.program, step.args, directory⟩ s = (.error e, after)) :
    runSteps h directory transcript (step :: rest) s = (.error e, after) := by
  rw [runSteps, BuildStep.command, Task.bind_apply, run]

/-- All steps succeed, or there is a first one that does not. -/
theorem ran_or_stopped (h : Host σ) (directory : String) (steps : List BuildStep)
    (transcript : String) (s : σ) :
    (∃ whole after, Ran h directory steps transcript s whole after) ∨
      ∃ done step rest whole middle, steps = done ++ step :: rest ∧
        Ran h directory done transcript s whole middle ∧
        ((∃ result after, h.run ⟨step.program, step.args, directory⟩ middle = (.ok result, after) ∧
            result.code ≠ some 0) ∨
          ∃ e after, h.run ⟨step.program, step.args, directory⟩ middle = (.error e, after)) := by
  induction steps generalizing transcript s with
  | nil => exact .inl ⟨transcript, s, .nothing⟩
  | cons step steps ih =>
    cases run : h.run ⟨step.program, step.args, directory⟩ s with
    | mk r after =>
      cases r with
      | error e => exact .inr ⟨[], step, steps, _, s, rfl, .nothing, .inr ⟨e, after, run⟩⟩
      | ok result =>
        by_cases good : result.code = some 0
        · rcases ih (transcript ++ result.output) after with
            ⟨whole, ended, ran⟩ | ⟨done, other, rest, whole, middle, rfl, ran, stopped⟩
          · exact .inl ⟨whole, ended, .step run good ran⟩
          · exact .inr ⟨step :: done, other, rest, whole, middle, rfl, .step run good ran, stopped⟩
        · exact .inr ⟨[], step, steps, _, s, rfl, .nothing, .inl ⟨result, after, run, good⟩⟩

theorem runBuild_ran (ran : Ran h directory steps "" s whole after) :
    runBuild h steps directory s = (.ok whole, after) := by
  have all := runSteps_ran ran []
  rw [List.append_nil] at all
  exact all

theorem runBuild_broke (broke : Broke h directory steps s name transcript after) :
    runBuild h steps directory s = (.error (.ofInstall (.build name transcript)), after) := by
  obtain ⟨rfl, ran, run, bad⟩ := broke
  rw [runBuild, runSteps_ran ran, runSteps_unsuccessful run bad]

/-- A recipe ends with its transcript, or at a step without success, or because a program did not
start. -/
theorem runBuild_cases (h : Host σ) (steps : List BuildStep) (directory : String) (s : σ) :
    (∃ whole after, Ran h directory steps "" s whole after) ∨
      (∃ name transcript after, Broke h directory steps s name transcript after) ∨
      ∃ command middle e after, h.run command middle = (.error e, after) ∧
        runBuild h steps directory s = (.error e, after) := by
  rcases ran_or_stopped h directory steps "" s with
    ran | ⟨done, step, rest, whole, middle, split, ran, ⟨result, after, run, bad⟩ | ⟨e, after, run⟩⟩
  · exact .inl ran
  · exact .inr (.inl ⟨_, _, after, .broke split ran run bad⟩)
  · refine .inr (.inr ⟨_, middle, e, after, run, ?_⟩)
    rw [runBuild, split, runSteps_ran ran, runSteps_unstarted run]

end MolecularTools
