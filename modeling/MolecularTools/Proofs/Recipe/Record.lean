import MolecularTools.Host.Events
import MolecularTools.Proofs.Recipe

/-! What is seen of a recipe: which commands are run, and how it ends. Every step is run up to the
first one that does not succeed, and what that one wrote is part of what is reported. -/
namespace MolecularTools.Recipe

variable {σ : Type} {h : Host σ} {directory : String} {steps : List BuildStep}

/-- The steps were run in order, and each succeeded with the result beside it. -/
inductive Succeeded (h : Host σ) (directory : String) :
    List (BuildStep × CommandResult) → σ → σ → Prop
  | nothing : Succeeded h directory [] s s
  | next : h.run ⟨step.program, step.args, directory⟩ s = (.ok result, middle) →
      result.code = some 0 →
      Succeeded h directory rest middle after →
      Succeeded h directory ((step, result) :: rest) s after

def transcript (done : List (BuildStep × CommandResult)) : String :=
  String.join (done.map fun d => d.2.output)

def commands (directory : String) (steps : List BuildStep) : List Event :=
  steps.map fun step => .run ⟨step.program, step.args, directory⟩

/-- How a recipe ends, and the notes of the commands that were run for it. -/
inductive Worked (h : Host σ) (directory : String) (steps : List BuildStep) (s : σ) :
    Except Failure String → List Event → σ → Prop
  /-- All steps succeed. -/
  | finished : steps = done.map Prod.fst → Succeeded h directory done s after →
      Worked h directory steps s (.ok (transcript done)) (commands directory steps) after
  /-- A step exits without success, the first to do so. -/
  | unsuccessful : steps = done.map Prod.fst ++ step :: rest →
      Succeeded h directory done s middle →
      h.run ⟨step.program, step.args, directory⟩ middle = (.ok result, after) →
      result.code ≠ some 0 →
      Worked h directory steps s
        (.error { cause := .install (.build step.name (transcript (done ++ [(step, result)]))) })
        (commands directory (done.map Prod.fst ++ [step])) after
  /-- A program does not start, and all steps before it succeed. -/
  | unstarted : steps = done.map Prod.fst ++ step :: rest →
      Succeeded h directory done s middle →
      h.run ⟨step.program, step.args, directory⟩ middle = (.error e, after) →
      Worked h directory steps s (.error e) (commands directory (done.map Prod.fst ++ [step])) after

theorem transcript_cons (d : BuildStep × CommandResult)
    (done : List (BuildStep × CommandResult)) :
    transcript (d :: done) = d.2.output ++ transcript done :=
  String.join_cons

theorem transcript_concat (done : List (BuildStep × CommandResult)) (step : BuildStep)
    (result : CommandResult) :
    transcript (done ++ [(step, result)]) = transcript done ++ result.output := by
  simp only [transcript, List.map_append, String.join_append, List.map_cons, List.map_nil,
    String.join_cons, String.join_nil, String.append_empty]

theorem commands_cons (directory : String) (step : BuildStep) (steps : List BuildStep) :
    commands directory (step :: steps) =
      [.run ⟨step.program, step.args, directory⟩] ++ commands directory steps := rfl

theorem Succeeded.ran (succeeded : Succeeded h directory done s after) (before : String) :
    Ran h directory (done.map Prod.fst) before s (before ++ transcript done) after := by
  induction succeeded generalizing before with
  | nothing =>
    show Ran h directory [] before _ (before ++ "") _
    rw [String.append_empty]
    exact .nothing
  | next run good _ ih =>
    rw [transcript_cons, ← String.append_assoc]
    exact .step run good (ih _)

theorem succeeded_of_ran (ran : Ran h directory steps before s whole after) :
    ∃ done, steps = done.map Prod.fst ∧ Succeeded h directory done s after := by
  induction ran with
  | nothing => exact ⟨[], rfl, .nothing⟩
  | step run good _ ih =>
    obtain ⟨done, rfl, succeeded⟩ := ih
    exact ⟨(_, _) :: done, rfl, .next run good succeeded⟩

/-- Running a command is noted, whatever becomes of it. -/
theorem run_noted (run : h.run c s = (r, after)) (log : List Event) :
    h.noted.run c (log, s) = (r, log ++ [.run c], after) := by
  show ((h.run c s).1, log ++ [.run c], (h.run c s).2) = _
  rw [run]

theorem run_noted_behind (run : h.run ⟨step.program, step.args, directory⟩ s = (r, after))
    (log : List Event) (steps : List BuildStep) :
    h.noted.run ⟨step.program, step.args, directory⟩ (log ++ commands directory steps, s) =
      (r, log ++ commands directory (steps ++ [step]), after) := by
  rw [run_noted run, List.append_assoc, commands, commands, List.map_append]
  rfl

theorem Succeeded.noted (succeeded : Succeeded h directory done s after) (log : List Event) :
    Succeeded h.noted directory done (log, s)
      (log ++ commands directory (done.map Prod.fst), after) := by
  induction succeeded generalizing log with
  | nothing =>
    show Succeeded h.noted directory [] (log, _) (log ++ [], _)
    rw [List.append_nil]
    exact .nothing
  | next run good _ ih =>
    rw [List.map_cons, commands_cons, ← List.append_assoc]
    exact .next (run_noted run log) good (ih _)

/-- A recipe does on a host that takes notes what it does without, and its commands are noted. -/
theorem Worked.noted (worked : Worked h directory steps s result events after)
    (log : List Event) :
    Worked h.noted directory steps (log, s) result events (log ++ events, after) := by
  cases worked with
  | finished all succeeded =>
    have behind := succeeded.noted log
    rw [← all] at behind
    exact .finished all behind
  | unsuccessful split succeeded run bad =>
    exact .unsuccessful split (succeeded.noted log) (run_noted_behind run log _) bad
  | unstarted split succeeded run =>
    exact .unstarted split (succeeded.noted log) (run_noted_behind run log _)

/-- A recipe does as is told of it. -/
theorem Worked.runBuild (worked : Worked h directory steps s result events after) :
    runBuild h steps directory s = (result, after) := by
  cases worked with
  | finished all succeeded =>
    subst all
    have ran := runBuild_ran (succeeded.ran "")
    rwa [String.empty_append] at ran
  | unsuccessful split succeeded run bad =>
    subst split
    rw [MolecularTools.runBuild, runSteps_ran (succeeded.ran ""), runSteps_unsuccessful run bad,
      String.empty_append, transcript_concat]
    rfl
  | unstarted split succeeded run =>
    subst split
    rw [MolecularTools.runBuild, runSteps_ran (succeeded.ran ""), runSteps_unstarted run]

theorem work_ends (h : Host σ) (directory : String) (steps : List BuildStep) (s : σ) :
    ∃ result events after, Worked h directory steps s result events after := by
  rcases ran_or_stopped h directory steps "" s with
    ⟨_, after, ran⟩ | ⟨before, step, rest, _, middle, split, ran, stopped⟩
  · obtain ⟨done, all, succeeded⟩ := succeeded_of_ran ran
    exact ⟨_, _, after, .finished all succeeded⟩
  · obtain ⟨done, rfl, succeeded⟩ := succeeded_of_ran ran
    rcases stopped with ⟨result, after, run, bad⟩ | ⟨e, after, run⟩
    · exact ⟨_, _, after, .unsuccessful split succeeded run bad⟩
    · exact ⟨_, _, after, .unstarted split succeeded run⟩

/-- A recipe runs its steps in order and in the directory it is given, up to the first that does
not succeed and none behind it. If all succeed, it returns all that they wrote. At an exit without
success it fails with the name of the step and all that was written, by that step, too; where a
program does not start, it fails with the reason. -/
theorem runBuild_worked_iff (h : Host σ) (steps : List BuildStep) (directory : String) (s : σ)
    (result : Except Failure String) (events : List Event) (after : σ) :
    runBuild h steps directory s = (result, after) ∧
      runBuild h.noted steps directory ([], s) = (result, events, after) ↔
    Worked h directory steps s result events after := by
  constructor
  · rintro ⟨-, noted⟩
    obtain ⟨r, seen, ended, worked⟩ := work_ends h directory steps s
    have whole := (worked.noted []).runBuild.symm.trans noted
    simp only [List.nil_append, Prod.mk.injEq] at whole
    obtain ⟨rfl, rfl, rfl⟩ := whole
    exact worked
  · exact fun worked => ⟨worked.runBuild, (worked.noted []).runBuild⟩

end MolecularTools.Recipe
