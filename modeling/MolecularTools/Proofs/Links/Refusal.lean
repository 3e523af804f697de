import MolecularTools.Proofs.Links.Replacing

/-! What a refused call leaves. No link is made, but the first name is cleared before the second one
is looked at. -/
namespace MolecularTools

open FileTree

def Task.FailsByIo (t : Task Machine α) : Prop :=
  ∀ m e, (t m).1 = .error e → ∃ i, e.cause = .io i

theorem Task.FailsByIo.bind {t : Task Machine α} {f : α → Task Machine β} (first : t.FailsByIo)
    (second : ∀ a, (f a).FailsByIo) : (t >>= f).FailsByIo := by
  intro m e failed
  cases ended : (t m).1 with
  | ok a =>
    rw [bind_ok ended] at failed
    exact second a _ e failed
  | error f =>
    rw [bind_error ended] at failed
    obtain rfl := Except.error.inj failed
    exact first m _ ended

theorem makeLinkTo_failsByIo (w : Surroundings) (p target : String) :
    (makeLinkTo (Machine.host w) p target).FailsByIo := by
  intro m e failed
  rw [makeLinkTo_apply] at failed
  cases made : m.files.makeLink target p with
  | ok files =>
    rw [made] at failed
    contradiction
  | error i =>
    rw [made] at failed
    exact ⟨i, (congrArg Failure.cause (Except.error.inj failed)).symm⟩

theorem occupied_ne {e : Failure} (reason : e.cause = .io i) (p : String) : e ≠ occupied p := by
  rintro rfl
  contradiction

/-- A name is refused before anything is changed. -/
theorem refused_unchanged (w : Surroundings) {m : Machine} {q r : String} {next : Task Machine Unit}
    (later : next.FailsByIo)
    (refused : ((removeStale (Machine.host w) q >>= fun _ => next) m).1 = .error (occupied r)) :
    ((removeStale (Machine.host w) q >>= fun _ => next) m).2 = m := by
  have ended := removeStale_clears w q m
  rw [Task.bind_apply] at refused ⊢
  generalize removeStale (Machine.host w) q m = outcome at ended refused ⊢
  cases ended with
  | removed =>
    obtain ⟨i, reason⟩ := later _ _ refused
    exact absurd rfl (occupied_ne reason r)
  | kept _ _ reason => exact absurd (Except.error.inj refused) (occupied_ne reason r)
  | occupied => rfl
  | vacant =>
    obtain ⟨i, reason⟩ := later _ _ refused
    exact absurd rfl (occupied_ne reason r)

section

variable {m : Machine} {l : Location} {names : LinkNames} {targets : LinkTargets}

/-- A refused call has at most cleared the first name. -/
theorem relink_refused_state (w : Surroundings) (place : LinkPlace m.files l names)
    (refused : (relink (Machine.host w) (Path.absolute l) names targets m).1 = .error (occupied r)) :
    let p := Path.absolute (l ++ [names.headers])
    (relink (Machine.host w) (Path.absolute l) names targets m).2 = { m with
      files := if m.files.isLink p || m.files.isFile p then m.files.erase (l ++ [names.headers])
        else m.files } := by
  intro p
  let q := Path.absolute (l ++ [names.libraries])
  let links : Task Machine Unit := do
    makeLinkTo (Machine.host w) p targets.headers
    makeLinkTo (Machine.host w) q targets.libraries
  have later : links.FailsByIo :=
    (makeLinkTo_failsByIo w _ _).bind fun _ => makeLinkTo_failsByIo w _ _
  have steps : relink (Machine.host w) (Path.absolute l) names targets =
      removeStale (Machine.host w) p >>= fun _ =>
        removeStale (Machine.host w) q >>= fun _ => links := by
    rw [relink, place.join place.headers.whole, place.join place.libraries.whole]
  have ended := removeStale_clears w p m
  rw [steps, Task.bind_apply] at refused ⊢
  generalize removeStale (Machine.host w) p m = outcome at ended refused ⊢
  cases ended with
  | removed stale gone =>
    rw [if_pos stale, ← place.reached.removeFile_child place.headers gone]
    exact refused_unchanged w later refused
  | kept _ _ reason => exact absurd (Except.error.inj refused) (occupied_ne reason _)
  | occupied other =>
    rw [if_neg (by simp [other])]
  | vacant other =>
    rw [if_neg (by simp [other])]
    exact refused_unchanged w later refused

theorem not_stale_of_directory {t : FileTree} (reached : t.Reached l) (proper : Path.Proper name)
    (directory : t.node? (l ++ [name]) = some (.directory mode)) :
    (t.isLink (Path.absolute (l ++ [name])) || t.isFile (Path.absolute (l ++ [name]))) = false := by
  cases search : t.searchable l with
  | false =>
    have hidden : ∀ aim, t.walk aim (Path.absolute (l ++ [name])) = .error (hiddenFault l name) :=
      fun _ => reached.walk_hidden search proper
    simp [isLink, isFile, lookup, lookupEntry, Path.endsInSlash_child l proper, hidden, bind,
      Except.bind]
  | true =>
    have entry := reached.lookupEntry search proper
    have target := reached.lookup_unlinked search proper
    rw [directory] at entry
    cases fault : childFault l name with
    | some e =>
      rw [fault] at entry
      rw [entry] at target
      simp [isLink, isFile, entry, target]
    | none =>
      rw [fault] at entry
      rw [entry] at target
      simp [isLink, isFile, entry, target]

end

/-- A call that is refused for what stands at a name makes no link. It changes nothing but the
first name, and that one only when a link or a file stood there; a directory there stays, and so does
all else. -/
theorem relink_refused (w : Surroundings) {m : Machine} {directory : String} {names : LinkNames}
    (rooted : m.files.Rooted) (canonical : m.files.canonical directory = .ok directory)
    (isDirectory : m.files.isDirectory directory = true) (headers : Path.Proper names.headers)
    (libraries : Path.Proper names.libraries) (apart : names.headers ≠ names.libraries)
    {targets : LinkTargets}
    (refused : (relink (Machine.host w) directory names targets m).1 = .error (occupied r)) :
    let p := Path.join directory names.headers
    let h := Path.names directory ++ [names.headers]
    let after := (relink (Machine.host w) directory names targets m).2
    after = { m with
        files := if m.files.isLink p || m.files.isFile p then m.files.erase h else m.files } ∧
      ((∃ mode, m.files.node? h = some (.directory mode)) → after = m) := by
  obtain ⟨place, path⟩ :=
    linkPlace_of_canonical rooted canonical isDirectory headers libraries apart
  have joined : Path.join directory names.headers =
      Path.absolute (Path.names directory ++ [names.headers]) :=
    (congrArg (Path.join · names.headers) path).trans (place.join headers.whole)
  have call : relink (Machine.host w) directory names targets m =
      relink (Machine.host w) (Path.absolute (Path.names directory)) names targets m := by
    rw [← path]
  intro p h after
  have state : after = { m with
      files := if m.files.isLink p || m.files.isFile p then m.files.erase h else m.files } := by
    rw [call] at refused
    simp only [after, p, h, call, joined]
    exact relink_refused_state w place refused
  refine ⟨state, ?_⟩
  rintro ⟨mode, directory⟩
  have other := not_stale_of_directory place.reached headers directory
  rw [state, if_neg]
  simp only [p, joined, other, Bool.false_eq_true, not_false_iff]

def error? : Except ε α → Option ε
  | .ok _ => none
  | .error e => some e

theorem eq_error_of_error? {r : Except ε α} (some : error? r = .some e) : r = .error e := by
  cases r with
  | ok a => contradiction
  | error f => rw [Option.some.inj some]

/-- A working directory with a link to a directory at the first name and a directory at the second. -/
def halfUsedNames : Machine where
  files := (((FileTree.empty.put ["real"] (.directory directoryMode)).put ["w"]
    (.directory directoryMode)).put ["w", "includelink"] (.link "/real")).put ["w", "liblink"]
      (.directory directoryMode)

/-- The link is gone, and all else is as it was. -/
theorem relink_refused_half :
    let w : Surroundings := { command := fun _ _ t => (.ok ⟨some 0, ""⟩, t) }
    let call := relink (Machine.host w) "/w" LinkNames.standard ⟨"/opt/include", "/opt/lib"⟩
    (call halfUsedNames).1 = .error (occupied "/w/liblink") ∧
      (call halfUsedNames).2 =
        { halfUsedNames with files := halfUsedNames.files.erase ["w", "includelink"] } := by
  intro w call
  have refused : (call halfUsedNames).1 = .error (occupied "/w/liblink") :=
    eq_error_of_error? (by decide +kernel)
  have names : Path.names "/w" = ["w"] := by decide +kernel
  have headers : Path.Proper LinkNames.standard.headers :=
    Path.proper_of_mem (c := 'l') (by decide) (by decide) (by decide)
  have libraries : Path.Proper LinkNames.standard.libraries :=
    Path.proper_of_mem (c := 'l') (by decide) (by decide) (by decide)
  obtain ⟨state, -⟩ := relink_refused w (by decide +kernel) (eq_ok_of_toOption (by decide +kernel))
    (by decide +kernel) headers libraries (by decide) refused
  rw [names] at state
  have link : (halfUsedNames.files.isLink (Path.join "/w" LinkNames.standard.headers) ||
      halfUsedNames.files.isFile (Path.join "/w" LinkNames.standard.headers)) = true := by
    decide +kernel
  rw [if_pos link] at state
  exact ⟨refused, state⟩

/-- A refused call does not leave both names as they were. -/
theorem relink_refused_loses_link :
    let w : Surroundings := { command := fun _ _ t => (.ok ⟨some 0, ""⟩, t) }
    let call := relink (Machine.host w) "/w" LinkNames.standard ⟨"/opt/include", "/opt/lib"⟩
    (halfUsedNames.files.Rooted ∧ halfUsedNames.files.canonical "/w" = .ok "/w" ∧
      halfUsedNames.files.isDirectory "/w" = true) ∧
      (call halfUsedNames).1 = .error (occupied "/w/liblink") ∧
      halfUsedNames.files.node? ["w", "includelink"] = some (.link "/real") ∧
      (call halfUsedNames).2.files.node? ["w", "includelink"] = none := by
  intro w call
  exact ⟨⟨by decide +kernel, eq_ok_of_toOption (by decide +kernel), by decide +kernel⟩,
    eq_error_of_error? (by decide +kernel), by decide +kernel, by decide +kernel⟩

end MolecularTools
