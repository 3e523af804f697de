import MolecularTools.Install.Run
import MolecularTools.Proofs.Task

/-! The stages of an installation as plain sequences of steps, each with what it asks of the
state in which it is taken. -/
namespace MolecularTools

variable {σ : Type}

def warnDangling (h : Host σ) (p target : String) : Task σ Unit := do
  if !(← .ask (h.isDirectory p)) then
    h.warn (Text.quoted p ++ " does not resolve to a directory (" ++ Text.quoted target ++ ")")

theorem makeLinkTo_eq (h : Host σ) (p target : String) :
    makeLinkTo h p target = (do
      (h.makeLink target p).within
        ("Failed to link " ++ Text.quoted p ++ " to " ++ Text.quoted target)
      warnDangling h p target) := rfl

namespace Install

def warnUnknown (h : Host σ) (c : Config) (version : String) : Task σ Unit :=
  if (c.checksums.lookup version).isNone then
    h.warn ("No known checksum for " ++ c.library ++ " version " ++ version ++
      "; the download will not be verified")
  else pure ()

theorem sources_tried (c : Config) (version : String) : (sources c version).tried =
    [c.primaryUrl version, c.fallbackUrl version].take (min 2 c.maxAttempts) := by
  rw [Fallback.tried, List.take_eq_take_min, Nat.min_comm]
  rfl

theorem fetch_eq (t : Tools σ) (c : Config) (p : InstallPaths) (version : String) :
    fetch t c p version = (do
      t.host.say ("Downloading " ++ c.library ++ " ...")
      warnUnknown t.host c version
      Fallback.tryEach t.host.warn "download" (fetchFrom t c version p.archive)
        ([c.primaryUrl version, c.fallbackUrl version].take (min 2 c.maxAttempts))) := by
  rw [← sources_tried]
  unfold fetch warnUnknown
  split
  · rfl
  · rfl

def verifyKnown (h : Host σ) (c : Config) (version archive url : String) : Task σ Unit :=
  match c.checksums.lookup version with
  | some checksum => verify h c version checksum archive url
  | none => pure ()

theorem fetchFrom_eq (t : Tools σ) (c : Config) (version archive url : String) :
    fetchFrom t c version archive url = (do
      let _ ← (downloadFile t.host t.downloader url archive).recast fun e =>
        .ofInstall (.network (url ++ ": " ++ e.chain))
      verifyKnown t.host c version archive url) := by
  rw [Task.recast_bind]
  refine bind_congr fun r => ?_
  cases r with
  | error e => rfl
  | ok count => rfl

def recognise (e : Extractor σ) (archive : String) : Task σ Unit := do
  if !(← e.isArchive archive) then .fail (.ofInstall (.archive archive))

theorem recognise_bind (e : Extractor σ) (archive : String) (f : Unit → Task σ α) :
    recognise e archive >>= f = (do
      let recognised ← e.isArchive archive
      if (!recognised) = true then Task.fail (.ofInstall (.archive archive)) >>= f else f ()) := by
  rw [recognise, bind_assoc]
  refine bind_congr fun recognised => ?_
  cases recognised <;> rfl

/-- Removes an earlier source tree and has a look at the archive. -/
def makeWay (t : Tools σ) (c : Config) (p : InstallPaths) : Task σ Unit := do
  t.host.say ("Unpacking " ++ c.library ++ " tarball ...")
  Task.whenever (t.host.pathExists p.sourceDir) (t.host.removeTree p.sourceDir)
  recognise t.extractor p.archive

/-- Removes the extracted archive, which must have held the source tree. -/
def dropArchive (h : Host σ) (p : InstallPaths) : Task σ Unit := do
  (h.removeFile p.archive).within ("Failed to remove " ++ Text.quoted p.archive)
  Task.require (h.isDirectory p.sourceDir) (.ofMessage
    ("Archive did not contain the expected directory " ++ Text.quoted p.sourceDir))

def placeContent (t : Tools σ) (p : InstallPaths) : Task σ Unit := do
  t.extractor.extract p.archive p.workDir
  dropArchive t.host p

theorem unpack_eq (t : Tools σ) (c : Config) (p : InstallPaths) :
    unpack t c p = (do
      makeWay t c p
      placeContent t p) := by
  simp only [makeWay, placeContent, dropArchive, bind_assoc]
  simp only [Task.whenever_bind, recognise_bind, Task.require_eq]
  rfl

def checkBuilt (h : Host σ) (output : String) (targets : LinkTargets) : Task σ LinkTargets := do
  Task.require (h.isDirectory targets.headers)
    (.ofInstall (missing output "include" targets.headers))
  Task.require (h.isDirectory targets.libraries)
    (.ofInstall (missing output "lib" targets.libraries))
  return targets

theorem build_eq (h : Host σ) (c : Config) (p : InstallPaths) :
    build h c p = (do
      h.say ("Building " ++ c.library ++ " ...")
      let processors ← .ask h.processors
      let output ← runBuild h (autotoolsSteps p.sourceDir p.installDir c.configureArgs
        c.makeProgram (c.jobs.getD processors)) p.sourceDir
      h.say output
      checkBuilt h output (.ofBuild p.installDir)) := by
  simp only [checkBuilt, Task.require_bind]
  rfl

theorem resolveExisting_eq (h : Host σ) (c : Config) (root : String) :
    resolveExisting h c root = (do
      Task.require (h.isDirectory (Path.join root "include"))
        (.ofInstall (.path (c.library ++ " include") root))
      Task.require
        (fun s => h.isDirectory (Path.join root "lib64") s || h.isDirectory (Path.join root "lib") s)
        (.ofInstall (.path (c.library ++ " lib") root))
      let real ← h.canonical root
      .ask (LinkTargets.ofExisting h real)) := by
  funext s
  simp only [resolveExisting, Task.bind_apply, Task.ask_apply, Task.require]
  cases h.isDirectory (Path.join root "include") s with
  | false => rfl
  | true =>
    cases wide : h.isDirectory (Path.join root "lib64") s <;>
      cases plain : h.isDirectory (Path.join root "lib") s <;>
        simp [Task.bind_apply, wide, plain]

/-- Finds or makes what the links will lead to. -/
def prepare (t : Tools σ) (c : Config) (version workDir : String) : Directive →
    Task σ LinkTargets
  | .existing root => resolveExisting t.host c root
  | .build => do
    let p := InstallPaths.ofVersion c workDir version
    fetch t c p version
    unpack t c p
    build t.host c p

theorem run_eq (t : Tools σ) (c : Config) (d : Directive) (version workDir : String) :
    run t c d version workDir = (do
      let targets ← prepare t c version workDir d
      t.host.say ("Creating links to " ++ c.library ++ " include and lib files")
      relink t.host workDir c.linkNames targets
      return targets) := by
  cases d with
  | existing root => rfl
  | build => simp only [run, prepare, bind_assoc]

/-- What is done once the archive was extracted. -/
def complete (t : Tools σ) (c : Config) (p : InstallPaths) (workDir : String) :
    Task σ LinkTargets := do
  dropArchive t.host p
  let targets ← build t.host c p
  t.host.say ("Creating links to " ++ c.library ++ " include and lib files")
  relink t.host workDir c.linkNames targets
  return targets

theorem run_build_eq (t : Tools σ) (c : Config) (version workDir : String) :
    run t c .build version workDir = (do
      let p := InstallPaths.ofVersion c workDir version
      fetch t c p version
      makeWay t c p
      t.extractor.extract p.archive p.workDir
      complete t c p workDir) := by
  rw [run_eq, prepare]
  simp only [unpack_eq, placeContent, complete, bind_assoc]

def configuration (h : Host σ) : Option String → Task σ Config
  | some p => Config.load h p
  | none => pure Config.standard

theorem serve_eq (t : Tools σ) (r : Request) :
    serve t r = (do
      let d ← .ofExcept ((Directive.ofFlags r.build r.path).mapError .ofInstall)
      let c ← configuration t.host r.config
      let workDir ← workDirectory t.host r.workDir
      run t c d (r.version.getD c.defaultVersion) workDir) := by
  unfold serve
  cases Directive.ofFlags r.build r.path with
  | error e => rfl
  | ok d =>
    cases r.config with
    | some p => rfl
    | none => rfl

end Install

end MolecularTools
