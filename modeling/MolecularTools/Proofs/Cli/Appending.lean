import MolecularTools.Cli.TabulateAngle
import MolecularTools.Machine.Basic
import MolecularTools.Proofs.Files.Creation
import MolecularTools.Proofs.Table.ReadBack

/-! Calls of `tabulate-angle` that name one file. What a call comes to is decided by its arguments
before any file is opened; only a call that has a table opens the file, and then it puts the table
behind what the file holds. So the file grows by whole tables, in the order of the calls. -/
namespace MolecularTools

namespace FileTree

/-- The file at the location can be written to by this path, or made by it if it is not there. -/
def Opens (t : FileTree) (p : String) (l : Location) : Prop :=
  ∃ new, t.openToWrite p = .ok (l, new)

theorem opens_iff {t : FileTree} : t.Opens p l ↔ (t.openToWrite p).toOption.map (·.1) = some l := by
  rw [Opens]
  cases t.openToWrite p with
  | error e => simp [Except.toOption]
  | ok opened => simp [Except.toOption, Prod.ext_iff]

instance (t : FileTree) : Decidable (t.Opens p l) := decidable_of_iff _ opens_iff.symm

/-- The bytes came behind those of the file at the location, which the same paths lead to. -/
structure Grown (old new : FileTree) (l : Location) (bytes : ByteArray) : Prop where
  content : new.contentAt l = old.contentAt l ++ bytes
  opens : ∀ p, old.Opens p l → new.Opens p l

theorem Grown.refl (t : FileTree) (l : Location) : Grown t t l .empty :=
  ⟨ByteArray.append_empty.symm, fun _ opens => opens⟩

theorem Grown.trans {old between new : FileTree} (first : Grown old between l a)
    (second : Grown between new l b) : Grown old new l (a ++ b) where
  content := by rw [second.content, first.content, ByteArray.append_assoc]
  opens p opens := second.opens p (first.opens p opens)

variable {t old new : FileTree}

/-- A path that could be opened can be opened again. -/
theorem Furnished.opens (furnished : Furnished old new l f) (write : mayWrite f.mode = true)
    (opens : old.Opens p l) : new.Opens p l := by
  obtain ⟨opened, opens⟩ := opens
  obtain ⟨place, dots, _, walked, room, -⟩ := openToWrite_ok opens
  have found := furnished.walk .create (by decide) (fun _ => rfl) room walked
  refine ⟨new, ?_⟩
  rw [openToWrite, found]
  exact if_pos write

theorem Furnished.grown (furnished : Furnished old new l f) (write : mayWrite f.mode = true)
    (held : f.bytes = old.contentAt l ++ bytes) : Grown old new l bytes where
  content := by rw [contentAt_file furnished.here, held]
  opens _ opens := furnished.opens write opens

end FileTree

namespace Machine

/-- Lines written one by one come as one text behind what a file holds. -/
theorem writeLines_furnished {m : Machine} (stands : m.files.node? l = some (.file f))
    (ls : List (List Char)) : ∃ files,
    (fileWriter l).writeLines ls m = (.ok (), { m with files }) ∧
      m.files.Furnished files l
        { f with bytes := f.bytes ++ (String.ofList (Layout.unlines ls)).toUTF8 } := by
  induction ls generalizing m f with
  | nil =>
    refine ⟨m.files, rfl, ?_⟩
    have nothing : f.bytes ++ (String.ofList (Layout.unlines [])).toUTF8 = f.bytes :=
      ByteArray.append_empty
    rw [nothing]
    exact .refl stands
  | cons line ls ih =>
    have first := FileTree.Furnished.changeFile stands
      fun f => { f with bytes := f.bytes ++ (String.ofList (line ++ ['\n'])).toUTF8 }
    obtain ⟨files, written, others⟩ := ih
      (m := { m with files := m.files.append l (String.ofList (line ++ ['\n'])).toUTF8 }) first.here
    refine ⟨files, written, ?_⟩
    have both := first.trans others
    rw [ByteArray.append_assoc, ← Layout.toUTF8_unlines_cons] at both
    exact both

theorem appendFile_apply (w : Surroundings) (p : String) (m : Machine) :
    (host w).appendFile p m = match m.files.openToWrite p with
      | .ok (l, files) => (.ok (fileWriter l), { m with files })
      | .error e => (.error (.ofIo e), m) := by
  simp only [host, map_eq_pure_bind, Task.bind_apply, atOnce]
  cases m.files.openToWrite p with
  | ok opened => rfl
  | error e => rfl

/-- A table that is written to an opened file comes behind what the file holds. -/
theorem write_grown (w : Surroundings) {m : Machine} (named : p ≠ "-") (opens : m.files.Opens p l)
    (t : AngleTable Float) (h : Heading) : ∃ after,
    (openTableFile (host w) p >>= t.write h) m = (.ok (), after) ∧
      m.files.Grown after.files l (Layout.text h t).toUTF8 := by
  obtain ⟨files, opened⟩ := opens
  obtain ⟨-, -, f, -, -, made, write, held⟩ := FileTree.openToWrite_ok opened
  obtain ⟨after, written, grown⟩ :=
    writeLines_furnished (m := { m with files }) made.here (Layout.lines h t)
  have writer : openTableFile (host w) p m = (.ok (fileWriter l), { m with files }) := by
    rw [openTableFile, if_neg named, Task.within_apply, appendFile_apply, opened]
    rfl
  refine ⟨{ m with files := after }, ?_, ?_⟩
  · rw [Task.bind_ok (by rw [writer]), writer, AngleTable.write, Task.bind_ok (by rw [written]),
      written, Task.within_apply]
    rfl
  · refine (made.trans grown).grown write ?_
    rw [held]
    rfl

end Machine

namespace Cli.TabulateAngle

structure Invocation where
  today : List Char
  args : List String

inductive Verdict where
  /-- The arguments are not read to their end. -/
  | refused
  | answered
  /-- There is no such table. -/
  | rejected (e : TableError)
  | tabulated (text : String)

namespace Verdict

def exit : Verdict → Exit
  | refused => Exit.usage
  | answered => ⟨0, ""⟩
  | rejected e => ⟨1, report (.ofMessage e.text)⟩
  | tabulated _ => ⟨0, ""⟩

def text? : Verdict → Option String
  | tabulated text => some text
  | _ => none

end Verdict

namespace Invocation

/-- What a call comes to is told by its arguments; the day is written into the table. -/
def verdict (i : Invocation) : Verdict :=
  match read switches {} i.args with
  | .error .usage => .refused
  | .error .answered => .answered
  | .ok g => match table g.settings with
    | .error e => .rejected e
    | .ok t => .tabulated (Layout.text ⟨i.today, g.settings.comment⟩ t)

def run (w : Surroundings) (i : Invocation) : Task Machine Exit :=
  main (Machine.host w) i.today i.args

def Names (t : FileTree) (l : Location) (i : Invocation) : Prop :=
  ∀ g, read switches {} i.args = .ok g → g.settings.file ≠ "-" ∧ t.Opens g.settings.file l

instance (t : FileTree) (l : Location) (i : Invocation) : Decidable (i.Names t l) :=
  match given : read switches {} i.args with
  | .error _ => .isTrue fun g same => by rw [given] at same; contradiction
  | .ok g => decidable_of_iff (g.settings.file ≠ "-" ∧ t.Opens g.settings.file l) (by
      simp [Names, given])

/-- Arguments that are read give a table unless the points are too few or the label is no word. -/
theorem text?_isSome_iff {i : Invocation} (given : read switches {} i.args = .ok g) :
    i.verdict.text?.isSome = true ↔
      2 ≤ g.settings.sampling.points ∧ isWord g.settings.label = true := by
  rw [verdict, given]
  constructor
  · intro written
    cases tabulated : table g.settings with
    | error e => simp [tabulated, Verdict.text?] at written
    | ok t => exact Sampling.tabulate_accepts tabulated
  · rintro ⟨enough, word⟩
    obtain ⟨t, tabulated⟩ := Sampling.tabulate_succeeds enough word differenceStep
      (.harmonicAngle g.settings.k g.settings.center) g.settings.units
    have there : table g.settings = .ok t := tabulated
    simp [there, Verdict.text?]

/-- A call without a table writes to no file. -/
theorem run_unwritten {i : Invocation} (none : i.verdict.text? = none) (w : Surroundings)
    (m : Machine) : ∃ after, i.run w m = (.ok i.verdict.exit, after) ∧ after.files = m.files := by
  cases given : read switches {} i.args with
  | error stop =>
    rw [run, main, verdict, given]
    cases stop with
    | usage => exact ⟨m, rfl, rfl⟩
    | answered => exact ⟨_, rfl, rfl⟩
  | ok g =>
    cases tabulated : table g.settings with
    | error e =>
      have ran : TabulateAngle.run (Machine.host w) i.today g.settings m =
          (.error (.ofMessage e.text), m) := by
        rw [TabulateAngle.run, tabulated]
        rfl
      refine ⟨m, ?_, rfl⟩
      rw [Invocation.run, main, verdict, given]
      simp [tabulated, Verdict.exit, Task.bind_apply, ran, Exit.ofOutcome]
    | ok t => simp [verdict, given, tabulated, Verdict.text?] at none

/-- A call with a table writes it behind what the file holds. -/
theorem run_written {i : Invocation} (some : i.verdict.text? = some text) {m : Machine}
    (names : i.Names m.files l) (w : Surroundings) : ∃ after,
    i.run w m = (.ok i.verdict.exit, after) ∧ m.files.Grown after.files l text.toUTF8 := by
  rw [verdict] at some
  split at some
  · contradiction
  · contradiction
  rename_i g given
  cases tabulated : table g.settings with
  | error e => simp [tabulated, Verdict.text?] at some
  | ok t =>
    simp only [tabulated, Verdict.text?, Option.some.injEq] at some
    obtain ⟨named, opens⟩ := names g given
    obtain ⟨after, written, grown⟩ :=
      Machine.write_grown w named opens t ⟨i.today, g.settings.comment⟩
    have ran : TabulateAngle.run (Machine.host w) i.today g.settings m = (.ok (), after) := by
      simp only [TabulateAngle.run, tabulated]
      exact written
    refine ⟨after, ?_, some ▸ grown⟩
    rw [Invocation.run, main, verdict, given]
    simp [tabulated, Verdict.exit, Task.bind_apply, ran, Exit.ofOutcome]

theorem run_grown {i : Invocation} {m : Machine} (names : i.Names m.files l) (w : Surroundings) :
    ∃ after, i.run w m = (.ok i.verdict.exit, after) ∧
      m.files.Grown after.files l (i.verdict.text?.getD "").toUTF8 := by
  cases written : i.verdict.text? with
  | none =>
    obtain ⟨after, ran, same⟩ := run_unwritten written w m
    exact ⟨after, ran, same ▸ .refl m.files l⟩
  | some text => exact run_written written names w

theorem Names.grown {i : Invocation} (names : i.Names old l)
    (grown : FileTree.Grown old new l bytes) : i.Names new l := by
  intro g given
  obtain ⟨named, opens⟩ := names g given
  exact ⟨named, grown.opens _ opens⟩

end Invocation

def runAll (w : Surroundings) (calls : List Invocation) : Task Machine (List Exit) :=
  calls.mapM (Invocation.run w)

def written (calls : List Invocation) : String :=
  String.join (calls.filterMap fun i => i.verdict.text?)

theorem written_cons (i : Invocation) (calls : List Invocation) :
    (written (i :: calls)).toUTF8 =
      (i.verdict.text?.getD "").toUTF8 ++ (written calls).toUTF8 := by
  rw [written, List.filterMap_cons]
  cases i.verdict.text? with
  | none => exact ByteArray.empty_append.symm
  | some text =>
    rw [String.join_cons]
    rfl

theorem runAll_grown (w : Surroundings) {m : Machine} (calls : List Invocation)
    (names : ∀ i ∈ calls, i.Names m.files l) : ∃ after,
    runAll w calls m = (.ok (calls.map fun i => i.verdict.exit), after) ∧
      m.files.Grown after.files l (written calls).toUTF8 := by
  induction calls generalizing m with
  | nil => exact ⟨m, rfl, .refl m.files l⟩
  | cons i calls ih =>
    obtain ⟨between, first, grown⟩ := Invocation.run_grown (names i List.mem_cons_self) w
    obtain ⟨after, others, further⟩ := ih (m := between) fun j member =>
      (names j (List.mem_cons_of_mem i member)).grown grown
    refine ⟨after, ?_, ?_⟩
    · have rest : calls.mapM (Invocation.run w) between = _ := others
      rw [runAll, List.mapM_cons, Task.bind_ok (by rw [first]), first, Task.bind_ok (by rw [rest]),
        rest]
      rfl
    · rw [written_cons]
      exact grown.trans further

theorem exit_code_iff (i : Invocation) : i.verdict.exit.code = 0 ↔
    i.verdict.text?.isSome = true ∨ read switches {} i.args = .error .answered := by
  rw [Invocation.verdict]
  cases read switches {} i.args with
  | error stop =>
    cases stop with
    | usage => simp [Verdict.exit, Verdict.text?, Exit.usage]
    | answered => simp [Verdict.exit, Verdict.text?]
  | ok g =>
    dsimp only
    cases table g.settings with
    | error e => simp [Verdict.exit, Verdict.text?]
    | ok t => simp [Verdict.exit, Verdict.text?]

/-- Calls that name one file append to it the tables of those that have one, in order, and nothing
else. A call has a table if its arguments are read to the end, the points are enough and the label
is a word; those calls and the ones that are answered end well. A call without a table leaves all
files as they are, whenever it is made. -/
theorem tables_appended (w : Surroundings) (m : Machine) (l : Location) (calls : List Invocation)
    (names : ∀ i ∈ calls, i.Names m.files l) :
    (∃ after, runAll w calls m = (.ok (calls.map fun i => i.verdict.exit), after) ∧
      after.files.contentAt l = m.files.contentAt l ++ (written calls).toUTF8 ∧
      ∀ i ∈ calls, i.Names after.files l) ∧
    ∀ i : Invocation,
      (i.verdict.text? = none → ∀ before, (i.run w before).2.files = before.files) ∧
      (i.verdict.exit.code = 0 ↔
        i.verdict.text?.isSome = true ∨ read switches {} i.args = .error .answered) ∧
      ∀ g, read switches {} i.args = .ok g → (i.verdict.text?.isSome = true ↔
        2 ≤ g.settings.sampling.points ∧ isWord g.settings.label = true) := by
  constructor
  · obtain ⟨after, ran, grown⟩ := runAll_grown w calls names
    exact ⟨after, ran, grown.content, fun i member => (names i member).grown grown⟩
  · intro i
    refine ⟨fun none before => ?_, exit_code_iff i, fun g given => i.text?_isSome_iff given⟩
    obtain ⟨after, ran, same⟩ := i.run_unwritten none w before
    rw [ran, same]

/-- Four calls that name a file in two ways. The second has too few points, and the third is
refused for its units. -/
def fourCalls : List Invocation :=
  [⟨"2024-06-03".toList, ["-n", "2", "-f", "/angle.table"]⟩,
    ⟨"2024-06-03".toList, ["-n", "1", "-f", "/angle.table"]⟩,
    ⟨"2024-06-04".toList, ["-u", "imperial", "-f", "/angle.table"]⟩,
    ⟨"2024-06-05".toList, ["-n3", "-lBEND", "--filename=./angle.table"]⟩]

theorem two_of_four_tables_appended : ∃ after : Machine,
    runAll { command := fun _ _ t => (.ok ⟨some 0, ""⟩, t) } fourCalls {} =
      (.ok [⟨0, ""⟩, ⟨1, "Error: A table needs at least 2 points, got 1\n"⟩,
        ⟨2, "error: invalid arguments\n"⟩, ⟨0, ""⟩], after) ∧
    after.files.contentAt ["angle.table"] = .empty ++ (written fourCalls).toUTF8 ∧
    (fourCalls.map fun i => i.verdict.text?.isSome) = [true, false, false, true] := by
  have names : ∀ i ∈ fourCalls, i.Names ({} : Machine).files ["angle.table"] := by decide +kernel
  obtain ⟨⟨after, ran, content, -⟩, -⟩ := tables_appended
    { command := fun _ _ t => (.ok ⟨some 0, ""⟩, t) } {} ["angle.table"] fourCalls names
  have exits : (fourCalls.map fun i => i.verdict.exit) =
      [⟨0, ""⟩, ⟨1, "Error: A table needs at least 2 points, got 1\n"⟩,
        ⟨2, "error: invalid arguments\n"⟩, ⟨0, ""⟩] := by decide +kernel
  have none : ({} : Machine).files.contentAt ["angle.table"] = .empty := rfl
  exact ⟨after, exits ▸ ran, none ▸ content, by decide +kernel⟩

end Cli.TabulateAngle

end MolecularTools
