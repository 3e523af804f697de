import MolecularTools.Proofs.Files.Entries
import MolecularTools.Proofs.Install.Progress

/-! What an archive costs that is not recognised. An earlier source tree is removed before the
archive is looked at, so it is lost although nothing comes in its place. -/
namespace MolecularTools

namespace Archive

/-- The file at a path can be read, and what it holds begins with a member. -/
def Recognised (t : FileTree) (p : String) : Prop := ∃ bytes source,
  t.Holds p bytes ∧ contents (.whole bytes) = .ok source ∧ hasMember source = true

/-- Taking entries away makes no archive of a file. -/
theorem Recognised.of_pruned (pruned : Pruned rest whole) (recognised : Recognised rest p) :
    Recognised whole p := by
  obtain ⟨bytes, source, held, inside, member⟩ := recognised
  exact ⟨bytes, source, pruned.openToRead held, inside, member⟩

theorem openAt_ok (w : Surroundings) {m : Machine} :
    (openAt (Machine.host w) p m).1 = .ok source ↔
      ∃ s, m.files.openToRead p = .ok s ∧ contents s = .ok source := by
  have same (s : Stream) : ((Machine.host w).openFile p).within
      ("Failed to open archive at " ++ Text.quoted p) m = (.ok s, m) ↔
        m.files.openToRead p = .ok s := by
    rw [← Machine.openFile_ok w, ← Task.within_ok, Prod.ext_iff]
    exact and_iff_left ((Machine.openFile_preserves w p).within m)
  constructor
  · intro opened
    obtain ⟨s, found, here⟩ := Task.bind_eq_ok opened
    refine ⟨s, (Machine.openFile_ok w).mp (Task.within_ok.mp found), ?_⟩
    cases inside : contents s with
    | error e =>
      rw [inside] at here
      contradiction
    | ok other =>
      rw [inside] at here
      obtain rfl : other = source := Except.ok.inj here
      rfl
  · rintro ⟨s, found, inside⟩
    rw [openAt, Task.bind_apply, (same s).mpr found]
    simp [inside]

end Archive

namespace Install

open FileTree

variable {w : Surroundings} {supply : Supply} {c : Config} {p : InstallPaths} {m : Machine}

theorem isArchive_iff (w : Surroundings) (supply : Supply) :
    ((Tools.onMachine w supply).extractor.isArchive path m).1 = .ok true ↔
      Archive.Recognised m.files path := by
  simp only [Tools.answered, Archive.extractor, Task.bind_apply, Task.outcome_apply]
  constructor
  · intro recognised
    cases opened : (Archive.openAt (Machine.host w) path m).1 with
    | error e =>
      rw [opened] at recognised
      have wrong : false = true := Except.ok.inj recognised
      contradiction
    | ok source =>
      rw [opened] at recognised
      obtain ⟨s, found, inside⟩ := (Archive.openAt_ok w).mp opened
      have member : Archive.hasMember source = true := Except.ok.inj recognised
      obtain ⟨bytes, rfl⟩ | rfl := openToRead_cases found
      · exact ⟨bytes, source, found, inside, member⟩
      · contradiction
  · rintro ⟨bytes, source, held, inside, member⟩
    rw [(Archive.openAt_ok w).mpr ⟨_, held, inside⟩]
    exact congrArg Except.ok member

/-- Once the way is clear, an archive that was none before is refused. -/
theorem unpack_cleared (cleared : Cleared p.sourceDir m.files files)
    (other : ((Tools.onMachine w supply).extractor.isArchive p.archive m).1 = .ok false) :
    unpack (.onMachine w supply) c p m = (.error (.ofInstall (.archive p.archive)),
      { m.said ("Unpacking " ++ c.library ++ " tarball ...") with files }) := by
  let said := m.said ("Unpacking " ++ c.library ++ " tarball ...")
  have way := makeWay_cleared (c := c) w supply (Tools.onMachine w supply).extractor
    (clearing_done (w := w) (m := said) cleared)
  obtain ⟨b, answer⟩ := isArchive_answers w supply p.archive { said with files }
  have still : b = false := by
    rw [← Bool.not_eq_true]
    rintro rfl
    have recognised : Archive.Recognised files p.archive :=
      (isArchive_iff w supply (m := { said with files })).mp (by rw [answer])
    have before := (isArchive_iff w supply).mpr (recognised.of_pruned cleared.pruned)
    rw [other] at before
    cases before
  rw [still] at answer
  have refused : makeWay (.onMachine w supply) c p m =
      (.error (.ofInstall (.archive p.archive)), { said with files }) := by
    refine way.trans ?_
    rw [recognise, Task.bind_apply, answer]
    rfl
  rw [unpack_eq, Task.bind_apply, refused]

/-- A removal that fails ends the work with its own error. -/
theorem unpack_uncleared (there : m.files.pathExists p.sourceDir = true)
    (failed : m.files.removeTree p.sourceDir = (.error e, files)) :
    unpack (.onMachine w supply) c p m =
      (.error ((Failure.ofIo e).within "Failed to remove directory and its contents"),
        { m.said ("Unpacking " ++ c.library ++ " tarball ...") with files }) := by
  let said := m.said ("Unpacking " ++ c.library ++ " tarball ...")
  have stopped : Task.whenever ((Machine.host w).pathExists p.sourceDir)
      ((Machine.host w).removeTree p.sourceDir) said =
        (.error ((Failure.ofIo e).within "Failed to remove directory and its contents"),
          { said with files }) := by
    rw [Task.whenever, if_pos (by exact there)]
    simp only [Machine.host, Task.within_apply, Machine.stepwise_apply]
    rw [show said.files = m.files from rfl, failed]
    rfl
  rw [unpack_eq, Task.bind_apply, makeWay_uncleared stopped]

/-- An archive that is not recognised costs nothing exactly if there was no earlier source tree.
Where there was one it is removed before the archive is looked at: it is gone, or the removal stops
halfway and its error is told instead. -/
theorem unpack_unrecognised
    (other : ((Tools.onMachine w supply).extractor.isArchive p.archive m).1 = .ok false) :
    let t := Tools.onMachine w supply
    let rejection := Failure.ofInstall (.archive p.archive)
    let said := m.said ("Unpacking " ++ c.library ++ " tarball ...")
    ((unpack t c p m).1 = .error rejection ∧ (unpack t c p m).2.files = m.files ↔
      m.files.pathExists p.sourceDir = false) ∧
    (m.files.pathExists p.sourceDir = false → unpack t c p m = (.error rejection, said)) ∧
    (∀ files, m.files.pathExists p.sourceDir = true →
      m.files.removeTree p.sourceDir = (.ok (), files) →
        unpack t c p m = (.error rejection, { said with files }) ∧
          files.pathExists p.sourceDir = false) ∧
    (∀ e files, m.files.pathExists p.sourceDir = true →
      m.files.removeTree p.sourceDir = (.error e, files) →
        unpack t c p m = (.error ((Failure.ofIo e).within
          "Failed to remove directory and its contents"), { said with files })) ∧
    Pruned (unpack t c p m).2.files m.files := by
  intro t rejection said
  have spared : m.files.pathExists p.sourceDir = false →
      unpack t c p m = (.error rejection, said) :=
    fun missing => unpack_cleared (.absent missing) other
  have lost : ∀ files, m.files.pathExists p.sourceDir = true →
      m.files.removeTree p.sourceDir = (.ok (), files) →
        unpack t c p m = (.error rejection, { said with files }) ∧
          files.pathExists p.sourceDir = false :=
    fun files there removed =>
      ⟨unpack_cleared (.removed there removed) other, removeTree_gone removed⟩
  have stuck : ∀ e files, m.files.pathExists p.sourceDir = true →
      m.files.removeTree p.sourceDir = (.error e, files) →
        unpack t c p m = (.error ((Failure.ofIo e).within
          "Failed to remove directory and its contents"), { said with files }) :=
    fun e files there failed => unpack_uncleared there failed
  by_cases there : m.files.pathExists p.sourceDir = true
  · have pruned := removeTree_pruned m.files p.sourceDir
    refine ⟨iff_of_false ?_ (by simp [there]), spared, lost, stuck, ?_⟩
    · rintro ⟨told, same⟩
      cases removed : m.files.removeTree p.sourceDir with
      | mk r files =>
        cases r with
        | ok _ =>
          obtain ⟨ended, gone⟩ := lost files there removed
          have kept : files = m.files := by rw [ended] at same; exact same
          rw [kept, there] at gone
          contradiction
        | error e =>
          rw [stuck e files there removed] at told
          have classified := congrArg Failure.reported? told
          contradiction
    · cases removed : m.files.removeTree p.sourceDir with
      | mk r files =>
        rw [removed] at pruned
        cases r with
        | ok _ => rw [(lost files there removed).1]; exact pruned
        | error e => rw [stuck e files there removed]; exact pruned
  · have missing : m.files.pathExists p.sourceDir = false := by simpa using there
    have ended := spared missing
    refine ⟨iff_of_true ⟨by rw [ended], by rw [ended]; rfl⟩ missing, spared, lost, stuck, ?_⟩
    rw [ended]
    exact .refl m.files

def pagePlace : FileTree :=
  emptyPlace.put ["w", "scafacos-9.tar.gz"] (lone fileMode "<html>rate limited</html>".toUTF8)

theorem page_refused :
    let w : Surroundings := { command := fun _ => Machine.shell }
    let t := Tools.onMachine w fun _ _ => {}
    let p := InstallPaths.ofVersion Config.standard "/w" "9"
    let m : Machine := { files := pagePlace }
    (t.extractor.isArchive p.archive m).1 = .ok false ∧
      (unpack t Config.standard p m).1 = .error (.ofInstall (.archive p.archive)) ∧
        (unpack t Config.standard p m).2.files = m.files := by
  intro w t p m
  have other : (t.extractor.isArchive p.archive m).1 = .ok false :=
    eq_ok_of_toOption (by decide +kernel)
  have missing : m.files.pathExists p.sourceDir = false := by decide +kernel
  exact ⟨other, (unpack_unrecognised other).1.mpr missing⟩

/-- The same page beside the source tree of an earlier run. -/
def usedPagePlace : FileTree :=
  (pagePlace.put ["w", "scafacos-9"] (.directory directoryMode)).put ["w", "scafacos-9", "keep"]
    (lone fileMode "x".toUTF8)

theorem page_costs_source_tree :
    let w : Surroundings := { command := fun _ => Machine.shell }
    let t := Tools.onMachine w fun _ _ => {}
    let p := InstallPaths.ofVersion Config.standard "/w" "9"
    let m : Machine := { files := usedPagePlace }
    (t.extractor.isArchive p.archive m).1 = .ok false ∧
      m.files.isFile "/w/scafacos-9/keep" = true ∧
      (unpack t Config.standard p m).1 = .error (.ofInstall (.archive p.archive)) ∧
      (unpack t Config.standard p m).2.files.pathExists p.sourceDir = false := by
  intro w t p m
  have other : (t.extractor.isArchive p.archive m).1 = .ok false :=
    eq_ok_of_toOption (by decide +kernel)
  have there : m.files.pathExists p.sourceDir = true := by decide +kernel
  have removed : m.files.removeTree p.sourceDir = (.ok (), (m.files.removeTree p.sourceDir).2) :=
    Prod.ext (eq_ok_of_toOption (by decide +kernel)) rfl
  have ended := unpack_cleared (c := Config.standard) (.removed there removed) other
  refine ⟨other, by decide +kernel, by rw [ended], ?_⟩
  rw [ended]
  exact removeTree_gone removed

end Install

end MolecularTools
