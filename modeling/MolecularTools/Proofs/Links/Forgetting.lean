import MolecularTools.Proofs.Links.Conditions

/-! Relinking forgets every earlier call. What a call leaves is cleared away by the next one as if
the call had never been made. -/
namespace MolecularTools

open FileTree

section

variable {m : Machine} {l : Location} {name : String} {names : LinkNames}

theorem blocked_put_link {t : FileTree} (free : t.blocked l name = false) (other target : String) :
    (t.put (l ++ [other]) (.link target)).blocked l name = false := by
  by_cases same : other = name
  · rw [same, blocked, node?_put t (by simp), if_pos rfl]
    exact Bool.and_false _
  · rw [blocked_congr (t := t) (by rw [node?_put t (by simp), if_neg (entry_ne same l)]), free]

/-- How the task ends, and what it makes of the files, is decided by the files. -/
def Task.OnFiles (t : Task Machine α) : Prop :=
  ∀ m m' : Machine, m'.files = m.files → (t m').1 = (t m).1 ∧ (t m').2.files = (t m).2.files

theorem Task.OnFiles.bind {t : Task Machine α} {f : α → Task Machine β} (first : t.OnFiles)
    (second : ∀ a, (f a).OnFiles) : (t >>= f).OnFiles := by
  intro m m' same
  obtain ⟨result, files⟩ := first m m' same
  cases ended : (t m).1 with
  | error e =>
    rw [ended] at result
    rw [bind_error ended, bind_error result]
    exact ⟨rfl, files⟩
  | ok a =>
    rw [ended] at result
    rw [bind_ok ended, bind_ok result]
    exact second a _ _ files

theorem makeLinkTo_onFiles (w : Surroundings) (p target : String) :
    (makeLinkTo (Machine.host w) p target).OnFiles := by
  intro m m' same
  rw [makeLinkTo_apply, makeLinkTo_apply, same]
  cases m.files.makeLink target p with
  | ok files => exact ⟨rfl, rfl⟩
  | error e => exact ⟨rfl, same⟩

/-- A tree in which no directory is in the way of a link, and what is left of it without both
entries. -/
structure Settled (l : Location) (names : LinkNames) (left t : FileTree) : Prop where
  place : LinkPlace t l names
  alterable : t.alterable l = true
  headers : t.blocked l names.headers = false
  libraries : t.blocked l names.libraries = false
  bare : t.bare l names = left

namespace Settled

variable {t left : FileTree}

/-- Clearing the way leaves a settled tree. -/
theorem of_bare (place : LinkPlace t l names) (alterable : t.alterable l = true) :
    Settled l names (t.bare l names) (t.bare l names) where
  place := place.bare
  alterable := (alterable_bare t l names).trans alterable
  headers := by
    rw [FileTree.bare, blocked_clearEntry_of_ne place.apart]
    exact blocked_clearEntry t l names.headers
  libraries := blocked_clearEntry _ l names.libraries
  bare := by
    rw [FileTree.bare, FileTree.bare, clearEntry_comm _ l names.libraries names.headers,
      clearEntry_clearEntry, clearEntry_clearEntry]

/-- It stays so when one of the entries becomes a link. -/
theorem put_link (settled : Settled l names left t)
    (member : name = names.headers ∨ name = names.libraries) (sound : childFault l name = none)
    (target : String) : Settled l names left (t.put (l ++ [name]) (.link target)) where
  place := settled.place.put name _
  alterable := (alterable_put t l name _).trans settled.alterable
  headers := blocked_put_link settled.headers name target
  libraries := blocked_put_link settled.libraries name target
  bare := by
    rw [← settled.bare, FileTree.bare, FileTree.bare]
    rcases member with rfl | rfl
    · rw [clearEntry_put sound]
    · rw [clearEntry_put_of_ne settled.place.apart.symm, clearEntry_put sound]

end Settled

theorem clearLinks_settled (w : Surroundings) {left : FileTree}
    (settled : Settled l names left m.files) :
    clearLinks (Machine.host w) (Path.absolute l) names m = (.ok (), { m with files := left }) := by
  rw [clearLinks_entries w settled.place settled.alterable, settled.headers, settled.libraries,
    ← settled.bare]
  rfl

/-- Clearing the way on the second machine ends as it does on the first, with the same files. -/
structure SameClearing (w : Surroundings) (l : Location) (names : LinkNames) (m m' : Machine) :
    Prop where
  place : LinkPlace m'.files l names
  result : (clearLinks (Machine.host w) (Path.absolute l) names m').1 =
    (clearLinks (Machine.host w) (Path.absolute l) names m).1
  files : (clearLinks (Machine.host w) (Path.absolute l) names m').2.files =
    (clearLinks (Machine.host w) (Path.absolute l) names m).2.files

namespace SameClearing

variable {w : Surroundings} {m' : Machine}

/-- After a call that was refused at the second name. The first entry is gone, and the directory at
the second is in the way again. -/
theorem of_half (place : LinkPlace m.files l names) (alterable : m.files.alterable l = true)
    (first : m.files.blocked l names.headers = false)
    (second : m.files.blocked l names.libraries = true) :
    SameClearing w l names m { m with files := m.files.clearEntry l names.headers } := by
  have cleared := clearLinks_entries w place alterable
  have again := clearLinks_entries w (m := { m with files := m.files.clearEntry l names.headers })
    (place.clearEntry names.headers) ((alterable_clearEntry _ l names.headers).trans alterable)
  rw [first, second] at cleared
  rw [blocked_clearEntry, blocked_clearEntry_of_ne place.apart.symm, second,
    clearEntry_clearEntry] at again
  refine ⟨place.clearEntry names.headers, ?_, ?_⟩
  · rw [again, cleared]
    rfl
  · rw [again, cleared]
    rfl

/-- After a call that took both entries away, whatever links it made then. -/
theorem of_settled (place : LinkPlace m.files l names) (alterable : m.files.alterable l = true)
    (first : m.files.blocked l names.headers = false)
    (second : m.files.blocked l names.libraries = false)
    (settled : Settled l names (m.files.bare l names) m'.files) : SameClearing w l names m m' := by
  have cleared := clearLinks_entries w place alterable
  have again := clearLinks_settled w settled
  rw [first, second] at cleared
  refine ⟨settled.place, ?_, ?_⟩
  · rw [again, cleared]
    rfl
  · rw [again, cleared]
    rfl

end SameClearing

/-- Relinking changes nothing that matters to the next call. -/
theorem relink_sameClearing (w : Surroundings) (place : LinkPlace m.files l names)
    (targets : LinkTargets) :
    SameClearing w l names m (relink (Machine.host w) (Path.absolute l) names targets m).2 := by
  cases alterable : m.files.alterable l with
  | false =>
    obtain ⟨e, kept⟩ := relink_sealed w place alterable targets
    rw [kept]
    exact ⟨place, rfl, rfl⟩
  | true =>
    rw [relink_entries w place alterable]
    cases first : m.files.blocked l names.headers with
    | true => exact ⟨place, rfl, rfl⟩
    | false => cases second : m.files.blocked l names.libraries with
      | true => exact .of_half place alterable first second
      | false =>
        have bare := Settled.of_bare place alterable
        cases headers : linkFault l names.headers targets.headers with
        | some e => exact .of_settled place alterable first second bare
        | none =>
          have one := bare.put_link (.inl rfl) (linkFault_eq_none.mp headers).sound targets.headers
          cases libraries : linkFault l names.libraries targets.libraries with
          | some e => exact .of_settled place alterable first second one
          | none =>
            have both := one.put_link (.inr rfl) (linkFault_eq_none.mp libraries).sound
              targets.libraries
            exact .of_settled place alterable first second both

/-- A call is decided by how clearing the way ends. -/
theorem SameClearing.relink {w : Surroundings} {m' : Machine} (same : SameClearing w l names m m')
    (targets : LinkTargets) :
    (relink (Machine.host w) (Path.absolute l) names targets m').1 =
        (relink (Machine.host w) (Path.absolute l) names targets m).1 ∧
      (relink (Machine.host w) (Path.absolute l) names targets m').2.files =
        (relink (Machine.host w) (Path.absolute l) names targets m).2.files := by
  have result := same.result
  rw [relink_eq]
  cases ended : (clearLinks (Machine.host w) (Path.absolute l) names m).1 with
  | error e =>
    rw [ended] at result
    rw [Task.bind_error ended, Task.bind_error result]
    exact ⟨rfl, same.files⟩
  | ok a =>
    rw [ended] at result
    rw [Task.bind_ok ended, Task.bind_ok result]
    exact (makeLinkTo_onFiles w _ _).bind (fun _ => makeLinkTo_onFiles w _ _) _ _ same.files

/-- Earlier calls, with whatever targets and however they ended, change nothing that matters. -/
theorem relinks_sameClearing (w : Surroundings) (place : LinkPlace m.files l names)
    (earlier : List LinkTargets) :
    SameClearing w l names m (earlier.foldl
      (fun m targets => (relink (Machine.host w) (Path.absolute l) names targets m).2) m) := by
  induction earlier generalizing m with
  | nil => exact ⟨place, rfl, rfl⟩
  | cons targets earlier ih =>
    have first := relink_sameClearing w place targets
    have others := ih first.place
    exact ⟨others.place, others.result.trans first.result, others.files.trans first.files⟩

end

end MolecularTools
