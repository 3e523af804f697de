import MolecularTools.Host.Basic
import MolecularTools.Proofs.Fallback

/-! What is seen of a search over several sources: which ones are tried, what is warned of, and how
it ends. Every source is tried up to the first success, and each failed one that has another behind
it is warned of. -/
namespace MolecularTools.Fallback

variable {σ α : Type}

structure Record where
  tried : List String := []
  warned : List String := []

namespace Record

def append (first second : Record) : Record :=
  ⟨first.tried ++ second.tried, first.warned ++ second.warned⟩

instance : Append Record := ⟨append⟩

theorem append_def (first second : Record) :
    first ++ second = ⟨first.tried ++ second.tried, first.warned ++ second.warned⟩ := rfl

theorem append_assoc (first second third : Record) :
    first ++ second ++ third = first ++ (second ++ third) := by
  simp only [append_def, List.append_assoc]

theorem empty_append (record : Record) : {} ++ record = record := rfl

theorem append_empty (record : Record) : record ++ {} = record := by
  simp only [append_def, List.append_nil]

end Record

def recorded (attempt : String → Task σ α) (source : String) : Task (Record × σ) α := do
  .act fun s => (s.1 ++ ⟨[source], []⟩, s.2)
  (attempt source).below

def warnRecorded (text : String) : Task (Record × σ) Unit :=
  .act fun s => (s.1 ++ ⟨[], [text]⟩, s.2)

/-- The sources were tried in order, and each failed with the error beside it. -/
inductive Failed (attempt : String → Task σ α) : List (String × Failure) → σ → σ → Prop
  | nothing : Failed attempt [] s s
  | next : attempt source s = (.error e, middle) → Failed attempt rest middle after →
      Failed attempt ((source, e) :: rest) s after

/-- One warning for each failed source that has another behind it: it names the source, its error
with all that led to it, and the source behind it. -/
def warnings (operation : String) (failed : List (String × Failure)) (sources : List String) :
    List String :=
  List.zipWith (fun (source, e) next => operation ++ ": " ++ source ++ " failed (" ++
    ": ".intercalate (e.contexts ++ [e.cause.text]) ++ "). Trying fallback URL " ++ next)
    failed sources.tail

/-- How a search over `sources` ends, and what is seen of it. -/
inductive Search (operation : String) (attempt : String → Task σ α) (sources : List String)
    (s : σ) : Except Failure α → Record → σ → Prop
  /-- A source succeeds, the first to do so. -/
  | found : sources = failed.map Prod.fst ++ source :: rest → Failed attempt failed s middle →
      attempt source middle = (.ok a, after) →
      Search operation attempt sources s (.ok a)
        ⟨failed.map Prod.fst ++ [source], warnings operation failed sources⟩ after
  /-- All fail, and the error of the last one counts. -/
  | exhausted : sources = failed.map Prod.fst → Failed attempt failed s after →
      failed.getLast? = some (source, e) →
      Search operation attempt sources s (.error e) ⟨sources, warnings operation failed sources⟩
        after
  | nothing : sources = [] → Search operation attempt sources s
      (.error { cause := .message (operation ++ ": no sources to try") }) {} s

variable {operation : String} {attempt : String → Task σ α} {sources : List String}

theorem recorded_apply (attempt : String → Task σ α) (source : String) (record : Record) (s : σ) :
    recorded attempt source (record, s) =
      ((attempt source s).1, record ++ ⟨[source], []⟩, (attempt source s).2) := rfl

/-- A source that fails hands over to the one behind it. -/
theorem tryEach_handover (bad : attempt source s = (.error e, middle)) (record : Record) :
    tryEach warnRecorded operation (recorded attempt) (source :: next :: rest) (record, s) =
      tryEach warnRecorded operation (recorded attempt) (next :: rest)
        (record ++ ⟨[source], [warning operation source next e]⟩, middle) := by
  have tried : recorded attempt source (record, s) =
      (.error e, record ++ ⟨[source], []⟩, middle) := by
    rw [recorded_apply, bad]
  apply tryEach_error tried
  simp only [warnRecorded, Task.act_apply, Record.append_def, List.append_nil]

theorem tryEach_found (failures : Failed attempt failed s middle)
    (good : attempt source middle = (.ok a, after)) (rest : List String) (record : Record) :
    tryEach warnRecorded operation (recorded attempt) (failed.map Prod.fst ++ source :: rest)
        (record, s) =
      (.ok a, record ++ ⟨failed.map Prod.fst ++ [source],
        warnings operation failed (failed.map Prod.fst ++ source :: rest)⟩, after) := by
  induction failures generalizing record with
  | nothing =>
    apply tryEach_ok
    rw [recorded_apply, good]
    rfl
  | @next first s e between failed middle bad _ ih =>
    obtain ⟨next, others, split⟩ : ∃ next others, failed.map Prod.fst ++ source :: rest =
        next :: others := List.exists_cons_of_ne_nil (by simp)
    rw [List.map_cons, List.cons_append, split, tryEach_handover bad, ← split, ih good,
      Record.append_assoc, split]
    rfl

theorem tryEach_exhausted (failures : Failed attempt failed s after)
    (last : failed.getLast? = some (source, e)) (record : Record) :
    tryEach warnRecorded operation (recorded attempt) (failed.map Prod.fst) (record, s) =
      (.error e, record ++ ⟨failed.map Prod.fst, warnings operation failed (failed.map Prod.fst)⟩,
        after) := by
  induction failures generalizing record with
  | nothing => contradiction
  | @next first s e' between failed after bad behind ih =>
    cases failed with
    | nil =>
      obtain ⟨rfl, rfl⟩ := Prod.mk.inj (Option.some.inj last)
      cases behind
      show recorded attempt first (record, s) = _
      rw [recorded_apply, bad]
      rfl
    | cons second failed =>
      rw [List.getLast?_cons_cons] at last
      rw [List.map_cons, List.map_cons, tryEach_handover bad, ← List.map_cons, ih last,
        Record.append_assoc]
      rfl

/-- A search does as is told of it. -/
theorem Search.tryEach (search : Search operation attempt sources s result seen after)
    (record : Record) :
    tryEach warnRecorded operation (recorded attempt) sources (record, s) =
      (result, record ++ seen, after) := by
  cases search with
  | found split failures good =>
    subst split
    exact tryEach_found failures good _ record
  | exhausted all failures last =>
    subst all
    exact tryEach_exhausted failures last record
  | nothing none =>
    subst none
    rw [Record.append_empty]
    rfl

/-- A first source succeeds, or all fail. -/
theorem found_or_failed (attempt : String → Task σ α) (sources : List String) (s : σ) :
    (∃ failed source rest middle a after, sources = failed.map Prod.fst ++ source :: rest ∧
      Failed attempt failed s middle ∧ attempt source middle = (.ok a, after)) ∨
    ∃ failed after, sources = failed.map Prod.fst ∧ Failed attempt failed s after := by
  induction sources generalizing s with
  | nil => exact .inr ⟨[], s, rfl, .nothing⟩
  | cons first sources ih =>
    cases ended : attempt first s with
    | mk r middle =>
      cases r with
      | ok a => exact .inl ⟨[], first, sources, s, a, middle, rfl, .nothing, ended⟩
      | error e =>
        rcases ih middle with
          ⟨failed, source, rest, between, a, after, rfl, failures, good⟩ |
            ⟨failed, after, rfl, failures⟩
        · exact .inl ⟨(first, e) :: failed, source, rest, between, a, after, rfl,
            .next ended failures, good⟩
        · exact .inr ⟨(first, e) :: failed, after, rfl, .next ended failures⟩

theorem search_ends (operation : String) (attempt : String → Task σ α) (sources : List String)
    (s : σ) : ∃ result seen after, Search operation attempt sources s result seen after := by
  rcases found_or_failed attempt sources s with
    ⟨failed, source, rest, middle, a, after, split, failures, good⟩ |
      ⟨failed, after, all, failures⟩
  · exact ⟨_, _, after, .found split failures good⟩
  · cases last : failed.getLast? with
    | none =>
      obtain rfl := List.getLast?_eq_none_iff.mp last
      exact ⟨_, _, s, .nothing all⟩
    | some bad => exact ⟨_, _, after, .exhausted all failures last⟩

/-- A search tries as many of its sources as it may, in order: all up to the first success, whose
value it returns, or else all of them, and then it returns the error of the last. -/
theorem run_search_iff (f : Fallback) (operation : String) (attempt : String → Task σ α) (s : σ)
    (result : Except Failure α) (record : Record) (after : σ) :
    f.run warnRecorded operation (recorded attempt) ({}, s) = (result, record, after) ↔
      Search operation attempt (f.sources.take (min f.maxAttempts f.sources.length)) s result
        record after := by
  rw [← List.take_eq_take_min]
  constructor
  · intro ran
    obtain ⟨r, seen, ended, search⟩ := search_ends operation attempt f.tried s
    have whole := search.tryEach {}
    rw [Record.empty_append] at whole
    have same := whole.symm.trans ran
    simp only [Prod.mk.injEq] at same
    obtain ⟨rfl, rfl, rfl⟩ := same
    exact search
  · exact fun search => search.tryEach {}

/-- Of three sources two may be tried. The second is the last then, and is not warned of. -/
example : (run ⟨["a", "b", "c"], 2⟩ warnRecorded "get" (recorded fun source =>
    .fail (.ofMessage ("no " ++ source))) ({}, ()) : Except Failure Unit × Record × Unit) =
      (.error (.ofMessage "no b"),
        ⟨["a", "b"], ["get: a failed (no a). Trying fallback URL b"]⟩, ()) := by
  rfl

end MolecularTools.Fallback
