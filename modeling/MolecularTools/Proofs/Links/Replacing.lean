import MolecularTools.Proofs.Links.Clearing

/-! What setting the links makes of their directory. Both entries become links, whatever files or
links they were before, and earlier calls leave no trace. -/
namespace MolecularTools

namespace FileTree

def Free (t : FileTree) (l : Location) (name : String) : Prop :=
  childFault l name = none → t.node? (l ++ [name]) = none

def linkFault (l : Location) (name target : String) : Option IoError :=
  (targetFault target (Path.absolute (l ++ [name]))).or (childFault l name)

variable {t : FileTree} {l : Location} {name other : String}

theorem free_clearEntry (t : FileTree) (l : Location) (name : String) :
    (t.clearEntry l name).Free l name := by
  intro sound
  rw [clearEntry, if_pos sound, node?_erase t (by simp), if_pos rfl]

theorem Free.congr {u : FileTree} (free : t.Free l name)
    (same : u.node? (l ++ [name]) = t.node? (l ++ [name])) : u.Free l name := by
  intro sound
  rw [same, free sound]

theorem makeLink_entry (reached : t.Reached l) (alterable : t.alterable l = true)
    (proper : Path.Proper name) (free : t.Free l name) (target : String) :
    t.makeLink target (Path.absolute (l ++ [name])) = match linkFault l name target with
      | some e => .error e
      | none => .ok (t.put (l ++ [name]) (.link target)) := by
  rw [makeLink_eq, linkFault]
  cases targetFault target (Path.absolute (l ++ [name])) with
  | some e => rfl
  | none =>
    rw [Option.none_or, reached.walk_child (searchable_of_alterable alterable) proper]
    cases sound : childFault l name with
    | some e => rfl
    | none =>
      rw [free sound]
      simp [linkAt, alterable, bind, Except.bind]

end FileTree

open FileTree

def dangling (t : FileTree) (p target : String) : List String :=
  if t.isDirectory p then [] else [danglingWarning p target]

def linkFailure (p target : String) (e : IoError) : Failure :=
  ((Failure.ofIo e).within "Failed to create symlink").within
    ("Failed to link " ++ Text.quoted p ++ " to " ++ Text.quoted target)

theorem makeLinkTo_apply (w : Surroundings) (p target : String) (m : Machine) :
    makeLinkTo (Machine.host w) p target m = match m.files.makeLink target p with
      | .ok files => (.ok (), { m with files, warnings := m.warnings ++ dangling files p target })
      | .error e => (.error (linkFailure p target e), m) := by
  rw [makeLinkTo_eq, Task.bind_apply, Task.within_apply]
  simp only [Machine.host, Machine.within_changing]
  cases m.files.makeLink target p with
  | ok files => exact Machine.warnDangling_apply w p target { m with files }
  | error e => rfl

def Machine.linked (m : Machine) (l : Location) (name target : String) : Machine :=
  let files := m.files.put (l ++ [name]) (.link target)
  { m with
    files
    warnings := m.warnings ++ dangling files (Path.absolute (l ++ [name])) target }

theorem makeLinkTo_entry (w : Surroundings) {m : Machine} {l : Location} {name : String}
    (reached : m.files.Reached l) (alterable : m.files.alterable l = true)
    (proper : Path.Proper name) (free : m.files.Free l name) (target : String) :
    makeLinkTo (Machine.host w) (Path.absolute (l ++ [name])) target m =
      match linkFault l name target with
      | some e => (.error (linkFailure (Path.absolute (l ++ [name])) target e), m)
      | none => (.ok (), m.linked l name target) := by
  rw [makeLinkTo_apply, makeLink_entry reached alterable proper free target]
  cases linkFault l name target with
  | some e => rfl
  | none => rfl

structure LinkPlace (t : FileTree) (l : Location) (names : LinkNames) : Prop where
  reached : t.Reached l
  headers : Path.Proper names.headers
  libraries : Path.Proper names.libraries
  apart : names.headers ≠ names.libraries

def FileTree.bare (t : FileTree) (l : Location) (names : LinkNames) : FileTree :=
  (t.clearEntry l names.headers).clearEntry l names.libraries

namespace LinkPlace

variable {t : FileTree} {l : Location} {names : LinkNames}

theorem clearEntry (place : LinkPlace t l names) (name : String) :
    LinkPlace (t.clearEntry l name) l names :=
  { place with reached := place.reached.clearEntry name }

theorem put (place : LinkPlace t l names) (name : String) (n : Node) :
    LinkPlace (t.put (l ++ [name]) n) l names :=
  { place with reached := place.reached.put name n }

theorem bare (place : LinkPlace t l names) : LinkPlace (t.bare l names) l names :=
  (place.clearEntry names.headers).clearEntry names.libraries

theorem free_headers (place : LinkPlace t l names) : (t.bare l names).Free l names.headers :=
  (free_clearEntry t l names.headers).congr (node?_clearEntry (entry_ne place.apart l))

/-- The first link is not in the way of the second. -/
theorem free_libraries (place : LinkPlace t l names) (n : Node) :
    ((t.bare l names).put (l ++ [names.headers]) n).Free l names.libraries := by
  have free : (t.bare l names).Free l names.libraries := free_clearEntry _ l names.libraries
  exact free.congr (by rw [node?_put _ (by simp), if_neg (entry_ne place.apart l)])

theorem join (place : LinkPlace t l names) (whole : '/' ∉ name.toList) :
    Path.join (Path.absolute l) name = Path.absolute (l ++ [name]) :=
  Path.join_absolute place.reached.proper.each whole

end LinkPlace

/-- A directory that is given by its canonical path is reached by it. -/
theorem linkPlace_of_canonical {t : FileTree} {directory : String} {names : LinkNames}
    (rooted : t.Rooted) (canonical : t.canonical directory = .ok directory)
    (isDirectory : t.isDirectory directory = true) (headers : Path.Proper names.headers)
    (libraries : Path.Proper names.libraries) (apart : names.headers ≠ names.libraries) :
    LinkPlace t (Path.names directory) names ∧
      directory = Path.absolute (Path.names directory) := by
  obtain ⟨l, reached, path⟩ := reached_of_canonical rooted canonical isDirectory
  have names_eq : Path.names directory = l := by
    rw [path]
    exact reached.proper.names_absolute
  rw [names_eq]
  exact ⟨⟨reached, headers, libraries, apart⟩, path⟩

section

variable {m : Machine} {l : Location} {names : LinkNames}

theorem alterable_put (t : FileTree) (l : Location) (name : String) (n : Node) :
    (t.put (l ++ [name]) n).alterable l = t.alterable l :=
  alterable_congr (by rw [node?_put t (by simp), if_neg (by simp)])

theorem alterable_bare (t : FileTree) (l : Location) (names : LinkNames) :
    (t.bare l names).alterable l = t.alterable l := by
  rw [FileTree.bare, alterable_clearEntry, alterable_clearEntry]

/-- Both entries are taken away, one after the other, until a directory is in the way. -/
theorem clearLinks_entries (w : Surroundings) (place : LinkPlace m.files l names)
    (alterable : m.files.alterable l = true) :
    clearLinks (Machine.host w) (Path.absolute l) names m =
      if m.files.blocked l names.headers then
        (.error (occupied (Path.absolute (l ++ [names.headers]))), m)
      else if m.files.blocked l names.libraries then
        (.error (occupied (Path.absolute (l ++ [names.libraries]))),
          { m with files := m.files.clearEntry l names.headers })
      else (.ok (), { m with
        files := (m.files.clearEntry l names.headers).clearEntry l names.libraries }) := by
  rw [clearLinks, place.join place.headers.whole, place.join place.libraries.whole, Task.bind_apply,
    removeStale_entry w place.reached alterable place.headers]
  cases m.files.blocked l names.headers with
  | true => rfl
  | false =>
    let between : Machine := { m with files := m.files.clearEntry l names.headers }
    have second := removeStale_entry w (m := between) (place.reached.clearEntry names.headers)
      ((alterable_clearEntry _ _ _).trans alterable) place.libraries
    rw [blocked_clearEntry_of_ne place.apart.symm] at second
    exact second

/-- Setting the links, step by step. -/
theorem relink_entries (w : Surroundings) (place : LinkPlace m.files l names)
    (alterable : m.files.alterable l = true) (targets : LinkTargets) :
    relink (Machine.host w) (Path.absolute l) names targets m =
      if m.files.blocked l names.headers then
        (.error (occupied (Path.absolute (l ++ [names.headers]))), m)
      else if m.files.blocked l names.libraries then
        (.error (occupied (Path.absolute (l ++ [names.libraries]))),
          { m with files := m.files.clearEntry l names.headers })
      else
        let cleared : Machine := { m with files := m.files.bare l names }
        match linkFault l names.headers targets.headers with
        | some e =>
          (.error (linkFailure (Path.absolute (l ++ [names.headers])) targets.headers e), cleared)
        | none =>
          let between := cleared.linked l names.headers targets.headers
          match linkFault l names.libraries targets.libraries with
          | some e =>
            (.error (linkFailure (Path.absolute (l ++ [names.libraries])) targets.libraries e), between)
          | none => (.ok (), between.linked l names.libraries targets.libraries) := by
  rw [relink_eq, Task.bind_apply, clearLinks_entries w place alterable,
    place.join place.headers.whole, place.join place.libraries.whole]
  cases m.files.blocked l names.headers with
  | true => rfl
  | false => cases m.files.blocked l names.libraries with
    | true => rfl
    | false =>
      let cleared : Machine := { m with files := m.files.bare l names }
      let between := cleared.linked l names.headers targets.headers
      have changeable : cleared.files.alterable l = true :=
        (alterable_bare m.files l names).trans alterable
      have still : between.files.alterable l = true :=
        (alterable_put _ _ _ _).trans changeable
      have first := makeLinkTo_entry w (m := cleared) place.bare.reached changeable place.headers
        place.free_headers targets.headers
      have second := makeLinkTo_entry w (m := between) (place.bare.put _ _).reached still
        place.libraries (place.free_libraries _) targets.libraries
      change (makeLinkTo _ _ targets.headers >>= fun _ => makeLinkTo _ _ targets.libraries) cleared = _
      rw [Task.bind_apply, first]
      cases linkFault l names.headers targets.headers with
      | some e => rfl
      | none => exact second

end

end MolecularTools
