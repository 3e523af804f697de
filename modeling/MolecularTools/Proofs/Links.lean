import MolecularTools.Proofs.Files.Linking
import MolecularTools.Proofs.Install.Stages
import MolecularTools.Proofs.Machine

/-! Setting the two links on a machine. Old links are out of the way before the first new one is
made, and a link that was made stays. -/
namespace MolecularTools

variable {σ : Type}

def clearLinks (h : Host σ) (directory : String) (names : LinkNames) : Task σ Unit := do
  removeStale h (Path.join directory names.headers)
  removeStale h (Path.join directory names.libraries)

theorem relink_eq (h : Host σ) (directory : String) (names : LinkNames) (targets : LinkTargets) :
    relink h directory names targets = (do
      clearLinks h directory names
      makeLinkTo h (Path.join directory names.headers) targets.headers
      makeLinkTo h (Path.join directory names.libraries) targets.libraries) := by
  simp only [clearLinks, bind_assoc]
  rfl

def danglingWarning (p target : String) : String :=
  Text.quoted p ++ " does not resolve to a directory (" ++ Text.quoted target ++ ")"

/-- What can be said of a link in the end that was made between two states. It leads to a
directory, or else there is a warning; there is none if the target was a directory by then and the
links on the way are not too many. -/
structure Made (p target : String) (before after final : Machine) : Prop where
  link : ∃ l, final.files.lookupEntry p = .ok (l, .link target)
  warned : after.warnings = before.warnings ∧ final.files.isDirectory p = true ∨
    after.warnings = before.warnings ++ [danglingWarning p target]
  usable : ∀ links more, links + more < FileTree.linkBound →
    before.files.isPlaceWithin links p = true → before.files.isDirectoryWithin more target = true →
      after.warnings = before.warnings ∧ final.files.isDirectory p = true

namespace Machine

variable (w : Surroundings) {m : Machine}

theorem changing_keeps_warnings (f : FileTree → Except IoError FileTree) :
    (changing f).Preserves Machine.warnings := by
  intro m
  rw [changing_apply]
  cases f m.files with
  | ok files => rfl
  | error e => rfl

theorem warnDangling_apply (p target : String) (m : Machine) :
    warnDangling (host w) p target m = (.ok (), { m with
      warnings := m.warnings ++ if m.files.isDirectory p then [] else [danglingWarning p target] }) := by
  simp only [warnDangling, host, Task.bind_apply, Task.ask_apply]
  cases m.files.isDirectory p with
  | true => simp
  | false => rfl

theorem makeLinkTo_ok (made : (makeLinkTo (host w) p target m).1 = .ok a) :
    ∃ files, m.files.makeLink target p = .ok files ∧
      (makeLinkTo (host w) p target m).2 = { m with
        files
        warnings := m.warnings ++ if files.isDirectory p then [] else [danglingWarning p target] } := by
  rw [makeLinkTo_eq] at made ⊢
  cases linked : m.files.makeLink target p with
  | error e =>
    obtain ⟨_, through, -⟩ := Task.bind_eq_ok made
    simp [host, changing_apply, linked] at through
  | ok files =>
    refine ⟨files, rfl, ?_⟩
    have through : ((host w).makeLink target p).within
        ("Failed to link " ++ Text.quoted p ++ " to " ++ Text.quoted target) m =
          (.ok (), { m with files }) := by
      simp [host, changing_apply, linked]
    rw [Task.bind_apply, through]
    exact congrArg Prod.snd (warnDangling_apply w p target _)

end Machine

/-- A new link is there in the end if nothing but one more link came after it. -/
theorem made_of_makeLinkTo (w : Surroundings) {before final : Machine} {p target : String}
    (rooted : Path.isAbsolute target = true)
    (made : (makeLinkTo (Machine.host w) p target before).1 = .ok a)
    (later : final = (makeLinkTo (Machine.host w) p target before).2 ∨
      ∃ other q, (makeLinkTo (Machine.host w) p target before).2.files.makeLink other q =
        .ok final.files) :
    Made p target before (makeLinkTo (Machine.host w) p target before).2 final := by
  obtain ⟨files, linked, after⟩ := Machine.makeLinkTo_ok w made
  obtain ⟨l, walked⟩ := FileTree.makeLink_walk linked
  rw [after] at later ⊢
  dsimp only at later
  have keepsLink : final.files.walk .entry p = .ok ⟨.found l (.link target), false, none⟩ := by
    rcases later with rfl | ⟨other, q, more⟩
    · exact walked
    · exact FileTree.makeLink_keeps more walked
  have keepsDirectory : files.isDirectory p = true → final.files.isDirectory p = true := by
    intro directory
    rcases later with rfl | ⟨other, q, more⟩
    · exact directory
    · exact FileTree.makeLink_isDirectory more directory
  refine ⟨⟨l, FileTree.lookupEntry_of_walk keepsLink⟩, ?_, ?_⟩
  · cases directory : files.isDirectory p with
    | true => exact .inl ⟨by simp, keepsDirectory directory⟩
    | false => exact .inr (by simp)
  · intro links more few place directory
    have usable := FileTree.makeLink_usable linked rooted place directory few
    exact ⟨by simp [usable], keepsDirectory usable⟩

theorem removeStale_keeps_warnings (w : Surroundings) (p : String) :
    (removeStale (Machine.host w) p).Preserves Machine.warnings := by
  intro m
  rw [removeStale]
  cases (Machine.host w).isLink p m with
  | true => exact (Machine.changing_keeps_warnings _).within m
  | false =>
    cases (Machine.host w).isFile p m with
    | true => exact (Machine.changing_keeps_warnings _).within m
    | false => cases (Machine.host w).pathExists p m <;> rfl

theorem clearLinks_keeps_warnings (w : Surroundings) (directory : String) (names : LinkNames) :
    (clearLinks (Machine.host w) directory names).Preserves Machine.warnings :=
  (removeStale_keeps_warnings w _).bind fun _ => removeStale_keeps_warnings w _

/-- Both links that were set, each with the state in which it was made. -/
theorem relink_made (w : Surroundings) {directory : String} {names : LinkNames}
    {targets : LinkTargets} {m : Machine}
    (headersRooted : Path.isAbsolute targets.headers = true)
    (librariesRooted : Path.isAbsolute targets.libraries = true)
    (relinked : (relink (Machine.host w) directory names targets m).1 = .ok a) :
    let headers := Path.join directory names.headers
    let cleared := (clearLinks (Machine.host w) directory names m).2
    let between := (makeLinkTo (Machine.host w) headers targets.headers cleared).2
    let final := (relink (Machine.host w) directory names targets m).2
    cleared.warnings = m.warnings ∧ Made headers targets.headers cleared between final ∧
      Made (Path.join directory names.libraries) targets.libraries between final final := by
  intro headers cleared between final
  have warnings := clearLinks_keeps_warnings w directory names m
  have all : final = (relink (Machine.host w) directory names targets m).2 := rfl
  rw [relink_eq] at relinked all
  obtain ⟨_, clear, relinked⟩ := Task.bind_eq_ok relinked
  rw [Task.bind_ok clear] at all
  obtain ⟨_, first, second⟩ := Task.bind_eq_ok relinked
  rw [Task.bind_ok first] at all
  have last := made_of_makeLinkTo w librariesRooted second (.inl all)
  rw [← all] at last
  obtain ⟨files, linked, after⟩ := Machine.makeLinkTo_ok w second
  have files : final.files = files := by rw [all, after]
  rw [← files] at linked
  exact ⟨warnings, made_of_makeLinkTo w headersRooted first (.inr ⟨_, _, linked⟩), last⟩

end MolecularTools
