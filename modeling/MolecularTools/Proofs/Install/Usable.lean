import MolecularTools.Archive.Extract
import MolecularTools.Machine.Unpack
import MolecularTools.Proofs.Install.Places
import MolecularTools.Proofs.Links

/-! The links that an installation leaves. They are made last, once the old ones are gone, so a
target that was reached through an old link is found missing only then: the installation warns, and
it succeeds all the same. -/
namespace MolecularTools

namespace Path

theorem isAbsolute_join (rooted : isAbsolute base = true) (p : String) :
    isAbsolute (join base p) = true := by
  have some : base.toList ≠ [] := by
    intro none
    rw [isAbsolute, none] at rooted
    contradiction
  obtain ⟨c, cs, letters⟩ := List.exists_cons_of_ne_nil some
  rw [isAbsolute, letters] at rooted
  rw [join]
  split
  · rename_i either
    rcases Bool.or_eq_true_iff.mp either with whole | none
    · exact whole
    · have none : base = "" := by simpa using none
      simp [none] at some
  · split
    · simpa [isAbsolute, letters] using rooted
    · simpa [isAbsolute, letters] using rooted

theorem isAbsolute_absolute (l : List String) : isAbsolute (absolute l) = true := by
  simp [isAbsolute, absolute]

end Path

theorem FileTree.isAbsolute_of_canonical {t : FileTree} (found : t.canonical p = .ok real) :
    Path.isAbsolute real = true := by
  obtain ⟨-, l, n, -, rfl⟩ := canonical_ok found
  exact Path.isAbsolute_absolute l

theorem Machine.isAbsolute_of_canonical (w : Surroundings) {m : Machine}
    (found : ((host w).canonical p m).1 = .ok real) : Path.isAbsolute real = true := by
  simp only [host, Task.within_apply, reading_apply] at found
  cases stands : m.files.canonical p with
  | error e => simp [stands] at found
  | ok path =>
    rw [stands] at found
    cases found
    exact FileTree.isAbsolute_of_canonical stands

namespace Install

variable {σ : Type}

def arrange (t : Tools σ) (r : Request) : Task σ (Config × String × LinkTargets) := do
  let d ← .ofExcept ((Directive.ofFlags r.build r.path).mapError .ofInstall)
  let c ← configuration t.host r.config
  let workDir ← workDirectory t.host r.workDir
  let targets ← prepare t c (r.version.getD c.defaultVersion) workDir d
  t.host.say ("Creating links to " ++ c.library ++ " include and lib files")
  return (c, workDir, targets)

theorem serve_arranged (t : Tools σ) (r : Request) :
    serve t r = (do
      let a ← arrange t r
      relink t.host a.2.1 a.1.linkNames a.2.2
      return a.2.2) := by
  simp only [serve_eq, run_eq, arrange, bind_assoc, pure_bind]

/-- An installation that succeeds ends with setting the links that were arranged. -/
theorem serve_ok {t : Tools σ} {r : Request} {s : σ} (installed : (serve t r s).1 = .ok targets) :
    ∃ c workDir, (arrange t r s).1 = .ok (c, workDir, targets) ∧
      (relink t.host workDir c.linkNames targets (arrange t r s).2).1 = .ok () ∧
      (serve t r s).2 = (relink t.host workDir c.linkNames targets (arrange t r s).2).2 := by
  rw [serve_arranged] at installed ⊢
  obtain ⟨⟨c, workDir, prepared⟩, arranged, rest⟩ := Task.bind_eq_ok installed
  rw [Task.bind_ok arranged]
  obtain ⟨_, relinked, done⟩ := Task.bind_eq_ok rest
  rw [Task.bind_ok relinked]
  obtain rfl : prepared = targets := Except.ok.inj done
  exact ⟨c, workDir, arranged, relinked, rfl⟩

theorem arrange_ok {t : Tools σ} {r : Request} {s : σ}
    (arranged : (arrange t r s).1 = .ok (c, workDir, targets)) :
    (configuration t.host r.config s).1 = .ok c ∧
      (workDirectory t.host r.workDir (configuration t.host r.config s).2).1 = .ok workDir ∧
      ∃ version d before, (prepare t c version workDir d before).1 = .ok targets := by
  rw [arrange] at arranged
  obtain ⟨d, asked, arranged⟩ := Task.bind_eq_ok arranged
  have same : (Task.ofExcept ((Directive.ofFlags r.build r.path).mapError .ofInstall) s).2 = s := by
    cases Directive.ofFlags r.build r.path <;> rfl
  rw [same] at arranged
  obtain ⟨c', loaded, arranged⟩ := Task.bind_eq_ok arranged
  obtain ⟨workDir', found, arranged⟩ := Task.bind_eq_ok arranged
  obtain ⟨targets', prepared, arranged⟩ := Task.bind_eq_ok arranged
  obtain ⟨_, -, arranged⟩ := Task.bind_eq_ok arranged
  cases Except.ok.inj arranged
  exact ⟨loaded, found, _, d, _, prepared⟩

variable (w : Surroundings)

theorem workDirectory_absolute {p : Option String} {m : Machine}
    (found : (workDirectory (Machine.host w) p m).1 = .ok workDir) :
    Path.isAbsolute workDir = true := by
  cases p with
  | none =>
    cases found
    decide
  | some p =>
    obtain ⟨_, -, found⟩ := Task.bind_eq_ok found
    exact Machine.isAbsolute_of_canonical w found

/-- The targets of both links are written from the root. -/
theorem prepare_absolute {t : Tools Machine} (tools : t.host = Machine.host w) {c : Config}
    {version workDir : String} (rooted : Path.isAbsolute workDir = true) {d : Directive} {m : Machine}
    (prepared : (prepare t c version workDir d m).1 = .ok targets) :
    Path.isAbsolute targets.headers = true ∧ Path.isAbsolute targets.libraries = true := by
  cases d with
  | existing root =>
    rw [prepare, resolveExisting_eq] at prepared
    obtain ⟨_, -, prepared⟩ := Task.bind_eq_ok prepared
    obtain ⟨_, -, prepared⟩ := Task.bind_eq_ok prepared
    obtain ⟨real, found, prepared⟩ := Task.bind_eq_ok prepared
    rw [tools] at found
    have rooted := Machine.isAbsolute_of_canonical w found
    cases prepared
    refine ⟨Path.isAbsolute_join rooted _, ?_⟩
    simp only [LinkTargets.ofExisting]
    split
    · exact Path.isAbsolute_join rooted _
    · exact Path.isAbsolute_join rooted _
  | build =>
    obtain ⟨_, -, prepared⟩ := Task.bind_eq_ok prepared
    obtain ⟨_, -, prepared⟩ := Task.bind_eq_ok prepared
    rw [build_eq] at prepared
    obtain ⟨_, -, prepared⟩ := Task.bind_eq_ok prepared
    obtain ⟨_, -, prepared⟩ := Task.bind_eq_ok prepared
    obtain ⟨_, -, prepared⟩ := Task.bind_eq_ok prepared
    obtain ⟨_, -, prepared⟩ := Task.bind_eq_ok prepared
    rw [checkBuilt] at prepared
    obtain ⟨_, -, prepared⟩ := Task.bind_eq_ok prepared
    obtain ⟨_, -, prepared⟩ := Task.bind_eq_ok prepared
    cases prepared
    have rooted := Path.isAbsolute_join rooted c.prefixDir
    exact ⟨Path.isAbsolute_join rooted _, Path.isAbsolute_join rooted _⟩

theorem configuration_preserves (file : Option String) :
    (configuration (Machine.host w) file).Preserves id := by
  cases file with
  | none => exact Task.pure_preserves _
  | some p =>
    have read : ((Machine.host w).readText p).Preserves id := by
      intro m
      simp only [Machine.host, Task.within_apply, Machine.reading_apply]
    refine (read.within).bind fun text => ?_
    split
    · exact Task.fail_preserves _
    · split
      · exact Task.fail_preserves _
      · exact Task.pure_preserves _

/-- An installation that succeeds leaves two links with the texts that it returns. Each leads to a
directory, or there is a warning about it; there is none if the target still was a directory once
the old links were gone. -/
theorem installed_links (downloader : Downloader Machine) (extractor : Extractor Machine)
    {r : Request} {m : Machine} {targets : LinkTargets}
    (installed : (serve ⟨Machine.host w, downloader, extractor⟩ r m).1 = .ok targets) :
    let h := Machine.host w
    let t : Tools Machine := ⟨h, downloader, extractor⟩
    ∃ c workDir, (configuration h r.config m).1 = .ok c ∧
      (workDirectory h r.workDir m).1 = .ok workDir ∧
      (arrange t r m).1 = .ok (c, workDir, targets) ∧
      let arranged := (arrange t r m).2
      let cleared := (clearLinks h workDir c.linkNames arranged).2
      let headers := Path.join workDir c.includeLink
      let between := (makeLinkTo h headers targets.headers cleared).2
      let final := (serve t r m).2
      cleared.warnings = arranged.warnings ∧ Made headers targets.headers cleared between final ∧
        Made (Path.join workDir c.libLink) targets.libraries between final final := by
  intro h t
  obtain ⟨c, workDir, arranged, relinked, final⟩ := serve_ok installed
  obtain ⟨loaded, found, version, d, before, prepared⟩ := arrange_ok arranged
  have unchanged : (configuration h r.config m).2 = m := configuration_preserves w r.config m
  have found : (workDirectory h r.workDir m).1 = .ok workDir := by
    rw [← unchanged]
    exact found
  have rooted := workDirectory_absolute w found
  obtain ⟨headers, libraries⟩ := prepare_absolute w rfl rooted prepared
  refine ⟨c, workDir, loaded, found, arranged, ?_⟩
  have made := relink_made w headers libraries relinked
  rw [final]
  exact made

/-- A working directory with an old link, and an installation without headers. -/
def headless : FileTree :=
  ((((FileTree.empty.put ["w"] (.directory directoryMode)).put ["w", "includelink"]
    (.link "/real")).put ["real"] (.directory directoryMode)).put ["opt"]
      (.directory directoryMode)).put ["opt", "lib"] (.directory directoryMode)

/-- An installation with headers of its own, and one whose headers are reached by the old link. -/
def separate : Machine where files := headless.put ["opt", "include"] (.directory directoryMode)
def tangled : Machine where files := headless.put ["opt", "include"] (.link "/w/includelink")

def offline : Tools Machine :=
  ⟨Machine.host idle, fun _ _ => .fail (.ofMessage "no network"),
    Archive.extractor (Machine.host idle) Machine.unpack⟩

theorem separate_installation_linked :
    let r : Request := { path := some "/opt", workDir := some "/w" }
    let final := (serve offline r separate).2.files
    (serve offline r separate).1 = .ok ⟨"/opt/include", "/opt/lib"⟩ ∧
      (∃ l, final.lookupEntry "/w/includelink" = .ok (l, .link "/opt/include")) ∧
      final.isDirectory "/w/includelink" = true ∧
      (∃ l, final.lookupEntry "/w/liblink" = .ok (l, .link "/opt/lib")) ∧
      final.isDirectory "/w/liblink" = true := by
  intro r final
  have installed : (serve offline r separate).1 = .ok ⟨"/opt/include", "/opt/lib"⟩ :=
    eq_ok_of_toOption (by decide +kernel)
  have found : (workDirectory (Machine.host idle) (some "/w") separate).1 = .ok "/w" :=
    eq_ok_of_toOption (by decide +kernel)
  obtain ⟨c, workDir, loaded, same, -, -, headers, libraries⟩ :=
    installed_links idle offline.downloader offline.extractor installed
  obtain rfl : Config.standard = c := Except.ok.inj loaded
  obtain rfl : workDir = "/w" := Except.ok.inj (same.symm.trans found)
  have usable := headers.usable 0 0 (by decide) (by decide +kernel) (by decide +kernel)
  have usableToo := libraries.usable 0 0 (by decide) (by decide +kernel) (by decide +kernel)
  exact ⟨installed, headers.link, usable.2, libraries.link, usableToo.2⟩

/-- The headers were there when they were looked for, and the link to them leads nowhere. -/
theorem tangled_installation_dangles :
    let r : Request := { path := some "/opt", workDir := some "/w" }
    tangled.files.isDirectory "/opt/include" = true ∧
      (serve offline r tangled).1 = .ok ⟨"/opt/include", "/opt/lib"⟩ ∧
      (serve offline r tangled).2.files.isDirectory "/w/includelink" = false := by
  refine ⟨by decide +kernel, eq_ok_of_toOption ?_, ?_⟩
  · decide +kernel
  · decide +kernel

end Install

end MolecularTools
