import MolecularTools.Proofs.Links.Replacing

/-! When relinking succeeds, and what it leaves then. -/
namespace MolecularTools

open FileTree

namespace FileTree

variable {t : FileTree} {l : Location} {name : String}

theorem removeFile_sealed (reached : t.Reached l) (shut : t.alterable l = false)
    (proper : Path.Proper name) : ∃ e, t.removeFile (Path.absolute (l ++ [name])) = .error e := by
  cases walked : t.walk .entry (Path.absolute (l ++ [name])) with
  | error e => exact ⟨e, by rw [removeFile, walked]; rfl⟩
  | ok spot =>
    obtain ⟨-, rfl⟩ | ⟨n, -, rfl⟩ := reached.walk_ok proper (.inl rfl) walked
    · exact ⟨.noEntry, by rw [removeFile, walked]; rfl⟩
    · exact ⟨.permission, by simp [removeFile, walked, bind, Except.bind, shut]⟩

theorem makeLink_sealed (reached : t.Reached l) (shut : t.alterable l = false)
    (proper : Path.Proper name) (target : String) :
    ∃ e, t.makeLink target (Path.absolute (l ++ [name])) = .error e := by
  cases made : t.makeLink target (Path.absolute (l ++ [name])) with
  | error e => exact ⟨e, rfl⟩
  | ok u =>
    obtain ⟨d, x, walked, alterable, -, -⟩ := makeLink_ok made
    obtain ⟨-, vacant⟩ | ⟨n, -, found⟩ := reached.walk_ok proper (.inl rfl) walked
    · cases vacant
      rw [alterable] at shut
      contradiction
    · cases found

/-- What the name and the target of a link must be like. -/
structure AcceptableLink (l : Location) (name target : String) : Prop where
  target : Passable target
  path : Passable (Path.absolute (l ++ [name]))
  short : name.utf8ByteSize ≤ nameBound

theorem childFault_eq_none : childFault l name = none ↔
    Passable (Path.absolute (l ++ [name])) ∧ name.utf8ByteSize ≤ nameBound := by
  simp only [childFault]
  constructor
  · intro sound
    split at sound
    · contradiction
    rename_i unmarked
    split at sound
    · contradiction
    rename_i short
    split at sound
    · contradiction
    rename_i narrow
    exact ⟨⟨Path.absolute_ne_empty _, by simpa using unmarked, Nat.le_of_not_lt short⟩,
      Nat.le_of_not_lt narrow⟩
  · rintro ⟨passable, narrow⟩
    rw [if_neg (by simp [passable.unmarked]), if_neg (Nat.not_lt.mpr passable.short),
      if_neg (Nat.not_lt.mpr narrow)]

theorem linkFault_eq_none {target : String} :
    linkFault l name target = none ↔ AcceptableLink l name target := by
  rw [linkFault, Option.or_eq_none_iff, childFault_eq_none, targetFault]
  constructor
  · rintro ⟨sound, path, narrow⟩
    split at sound
    · contradiction
    rename_i unmarked
    split at sound
    · contradiction
    rename_i some
    split at sound
    · contradiction
    rename_i short
    rw [Bool.or_eq_true, not_or] at unmarked
    exact ⟨⟨some, by simpa using unmarked.1, Nat.le_of_not_lt short⟩, path, narrow⟩
  · rintro ⟨target, path, narrow⟩
    refine ⟨?_, path, narrow⟩
    rw [if_neg (by simp [target.unmarked, path.unmarked]), if_neg target.some,
      if_neg (Nat.not_lt.mpr target.short)]

theorem AcceptableLink.sound {target : String} (acceptable : AcceptableLink l name target) :
    childFault l name = none :=
  childFault_eq_none.mpr ⟨acceptable.path, acceptable.short⟩

end FileTree

section

variable {m : Machine} {l : Location} {name : String}

theorem removeStale_sealed (w : Surroundings) (reached : m.files.Reached l)
    (shut : m.files.alterable l = false) (proper : Path.Proper name) :
    (removeStale (Machine.host w) (Path.absolute (l ++ [name])) m).2 = m := by
  obtain ⟨e, failed⟩ := removeFile_sealed reached shut proper
  have ended := removeStale_clears w (Path.absolute (l ++ [name])) m
  generalize removeStale (Machine.host w) (Path.absolute (l ++ [name])) m = r at ended ⊢
  cases ended with
  | removed _ gone =>
    rw [failed] at gone
    contradiction
  | kept => rfl
  | occupied => rfl
  | vacant => rfl

theorem makeLinkTo_sealed (w : Surroundings) (reached : m.files.Reached l)
    (shut : m.files.alterable l = false) (proper : Path.Proper name) (target : String) :
    ∃ e, makeLinkTo (Machine.host w) (Path.absolute (l ++ [name])) target m = (.error e, m) := by
  obtain ⟨e, kept⟩ := makeLink_sealed reached shut proper target
  exact ⟨_, by rw [makeLinkTo_apply, kept]⟩

variable {names : LinkNames}

theorem clearLinks_sealed (w : Surroundings) (place : LinkPlace m.files l names)
    (shut : m.files.alterable l = false) :
    (clearLinks (Machine.host w) (Path.absolute l) names m).2 = m := by
  rw [clearLinks, place.join place.headers.whole, place.join place.libraries.whole]
  have first := removeStale_sealed w place.reached shut place.headers
  have second := removeStale_sealed w place.reached shut place.libraries
  cases ended : (removeStale (Machine.host w) (Path.absolute (l ++ [names.headers])) m).1 with
  | error e => rw [Task.bind_error ended, first]
  | ok _ => rw [Task.bind_ok ended, first, second]

/-- Where the directory may not be changed, nothing is, and relinking fails. -/
theorem relink_sealed (w : Surroundings) (place : LinkPlace m.files l names)
    (shut : m.files.alterable l = false) (targets : LinkTargets) :
    ∃ e, relink (Machine.host w) (Path.absolute l) names targets m = (.error e, m) := by
  have kept := clearLinks_sealed w place shut
  obtain ⟨e, failed⟩ := makeLinkTo_sealed w place.reached shut place.headers targets.headers
  rw [relink_eq, place.join place.headers.whole]
  cases ended : (clearLinks (Machine.host w) (Path.absolute l) names m).1 with
  | error e => exact ⟨e, by rw [Task.bind_error ended, kept]⟩
  | ok _ =>
    refine ⟨e, ?_⟩
    rw [Task.bind_ok ended, kept, Task.bind_apply, failed]

/-- What a call that succeeded met and did. -/
theorem relink_ok (w : Surroundings) (place : LinkPlace m.files l names) {targets : LinkTargets}
    (relinked : (relink (Machine.host w) (Path.absolute l) names targets m).1 = .ok ()) :
    m.files.alterable l = true ∧
      (m.files.blocked l names.headers = false ∧ m.files.blocked l names.libraries = false) ∧
      (AcceptableLink l names.headers targets.headers ∧
        AcceptableLink l names.libraries targets.libraries) ∧
      (relink (Machine.host w) (Path.absolute l) names targets m).2 =
        (Machine.linked { m with files := m.files.bare l names } l names.headers
          targets.headers).linked l names.libraries targets.libraries := by
  cases alterable : m.files.alterable l with
  | false =>
    obtain ⟨e, failed⟩ := relink_sealed w place alterable targets
    rw [failed] at relinked
    contradiction
  | true =>
    rw [relink_entries w place alterable] at relinked ⊢
    cases first : m.files.blocked l names.headers with
    | true => simp [first] at relinked
    | false =>
      cases second : m.files.blocked l names.libraries with
      | true => simp [first, second] at relinked
      | false =>
        rw [first, second] at relinked
        cases headers : linkFault l names.headers targets.headers with
        | some e => simp [headers] at relinked
        | none =>
          cases libraries : linkFault l names.libraries targets.libraries with
          | some e => simp [headers, libraries] at relinked
          | none =>
            exact ⟨rfl, ⟨rfl, rfl⟩, ⟨linkFault_eq_none.mp headers, linkFault_eq_none.mp libraries⟩, rfl⟩

theorem blocked_eq_false {t : FileTree} (sound : childFault l name = none) :
    t.blocked l name = false ↔ ∀ mode, t.node? (l ++ [name]) ≠ some (.directory mode) := by
  rw [blocked, sound]
  cases t.node? (l ++ [name]) with
  | none => simp
  | some n => cases n with
    | directory mode => simp [Node.isDirectory]
    | file f => simp [Node.isDirectory]
    | link target => simp [Node.isDirectory]

/-- Relinking succeeds where both links can be made and no directory is in the way. -/
theorem relink_ok_iff (w : Surroundings) (place : LinkPlace m.files l names)
    (targets : LinkTargets) :
    (relink (Machine.host w) (Path.absolute l) names targets m).1 = .ok () ↔
      ((∀ mode, m.files.node? (l ++ [names.headers]) ≠ some (.directory mode)) ∧
        ∀ mode, m.files.node? (l ++ [names.libraries]) ≠ some (.directory mode)) ∧
      m.files.alterable l = true ∧ AcceptableLink l names.headers targets.headers ∧
        AcceptableLink l names.libraries targets.libraries := by
  constructor
  · intro relinked
    obtain ⟨alterable, ⟨first, second⟩, ⟨headers, libraries⟩, -⟩ := relink_ok w place relinked
    exact ⟨⟨(blocked_eq_false headers.sound).mp first, (blocked_eq_false libraries.sound).mp second⟩,
      alterable, headers, libraries⟩
  · rintro ⟨⟨first, second⟩, alterable, headers, libraries⟩
    rw [relink_entries w place alterable, (blocked_eq_false headers.sound).mpr first,
      (blocked_eq_false libraries.sound).mpr second, linkFault_eq_none.mpr headers,
      linkFault_eq_none.mpr libraries]
    rfl

theorem bare_eq_erase {t : FileTree} (headers : childFault l names.headers = none)
    (libraries : childFault l names.libraries = none) :
    t.bare l names = (t.erase (l ++ [names.libraries])).erase (l ++ [names.headers]) := by
  rw [FileTree.bare, clearEntry, if_pos libraries, clearEntry, if_pos headers, erase_comm]

/-- The two new links are all that is left of a call that succeeded. -/
theorem relink_ok_state (w : Surroundings) (place : LinkPlace m.files l names)
    {targets : LinkTargets}
    (relinked : (relink (Machine.host w) (Path.absolute l) names targets m).1 = .ok ()) :
    (relink (Machine.host w) (Path.absolute l) names targets m).2 =
      let h := l ++ [names.headers]
      let k := l ++ [names.libraries]
      let between := (m.files.erase k).put h (.link targets.headers)
      let files := (m.files.put h (.link targets.headers)).put k (.link targets.libraries)
      { m with
        files
        warnings := m.warnings ++ dangling between (Path.absolute h) targets.headers ++
          dangling files (Path.absolute k) targets.libraries } := by
  obtain ⟨-, -, ⟨headers, libraries⟩, after⟩ := relink_ok w place relinked
  have apart := entry_ne place.apart l
  rw [after, Machine.linked, Machine.linked, bare_eq_erase headers.sound libraries.sound, put_erase]
  have last : ((m.files.erase (l ++ [names.libraries])).put (l ++ [names.headers])
        (.link targets.headers)).put (l ++ [names.libraries]) (.link targets.libraries) =
      (m.files.put (l ++ [names.headers]) (.link targets.headers)).put (l ++ [names.libraries])
        (.link targets.libraries) := by
    rw [← erase_put_of_ne m.files apart, put_erase]
  simp only [last]

end

end MolecularTools
