import MolecularTools.Checksum.Verify
import MolecularTools.Download
import MolecularTools.Fallback
import MolecularTools.Install.Paths
import MolecularTools.Links.Relink
import MolecularTools.Recipe
import MolecularTools.Text.Blank

/-! The stages of an installation. Each one relies on what the stages before it left. -/
namespace MolecularTools.Install

variable {σ : Type}

/-- What an installation works with. -/
structure Tools (σ : Type) where
  host : Host σ
  downloader : Downloader σ
  extractor : Extractor σ

/-- Refuses the archive if it has not the checksum. -/
def verify (h : Host σ) (c : Config) (version : String) (checksum : Checksum)
    (archive url : String) : Task σ Unit := do
  if !(← checksum.verifyFile h archive) then
    h.say ("Checksum did not match for " ++ url ++ ".")
    .fail (.ofInstall (.integrity c.library version))

/-- Downloads the archive from one source and verifies it if a checksum is known. -/
def fetchFrom (t : Tools σ) (c : Config) (version archive url : String) : Task σ Unit := do
  match ← (downloadFile t.host t.downloader url archive).outcome with
  | .error e => .fail (.ofInstall (.network (url ++ ": " ++ e.chain)))
  | .ok _ => match c.checksums.lookup version with
    | some checksum => verify t.host c version checksum archive url
    | none => pure ()

/-- The primary address and the fallback one, in the order they are tried. -/
def sources (c : Config) (version : String) : Fallback where
  sources := [c.primaryUrl version, c.fallbackUrl version]
  maxAttempts := c.maxAttempts

/-- Fetches the archive from the first source that has a good one. -/
def fetch (t : Tools σ) (c : Config) (p : InstallPaths) (version : String) : Task σ Unit := do
  t.host.say ("Downloading " ++ c.library ++ " ...")
  if (c.checksums.lookup version).isNone then
    t.host.warn ("No known checksum for " ++ c.library ++ " version " ++ version ++
      "; the download will not be verified")
  (sources c version).run t.host.warn "download" (fetchFrom t c version p.archive)

/-- Replaces an earlier source tree by the content of the archive, and removes the archive. -/
def unpack (t : Tools σ) (c : Config) (p : InstallPaths) : Task σ Unit := do
  t.host.say ("Unpacking " ++ c.library ++ " tarball ...")
  if ← .ask (t.host.pathExists p.sourceDir) then
    t.host.removeTree p.sourceDir
  if !(← t.extractor.isArchive p.archive) then
    Task.fail (.ofInstall (.archive p.archive))
  t.extractor.extract p.archive p.workDir
  (t.host.removeFile p.archive).within ("Failed to remove " ++ Text.quoted p.archive)
  if !(← .ask (t.host.isDirectory p.sourceDir)) then
    Task.fail (.ofMessage
      ("Archive did not contain the expected directory " ++ Text.quoted p.sourceDir))

/-- The failure of a build that made no directory of a kind. -/
def missing (output kind directory : String) : InstallError :=
  .build "make install"
    (String.ofList (Text.trimEnd output.toList) ++ "\n" ++ kind ++ " directory " ++ directory ++
      " was not created")

/-- Builds and installs the library; both directories that links lead to must be there then. -/
def build (h : Host σ) (c : Config) (p : InstallPaths) : Task σ LinkTargets := do
  h.say ("Building " ++ c.library ++ " ...")
  let jobs := c.jobs.getD (← .ask h.processors)
  let steps := autotoolsSteps p.sourceDir p.installDir c.configureArgs c.makeProgram jobs
  let output ← runBuild h steps p.sourceDir
  h.say output
  let targets := LinkTargets.ofBuild p.installDir
  if !(← .ask (h.isDirectory targets.headers)) then
    Task.fail (.ofInstall (missing output "include" targets.headers))
  if !(← .ask (h.isDirectory targets.libraries)) then
    Task.fail (.ofInstall (missing output "lib" targets.libraries))
  return targets

/-- Finds the directories of an existing installation. -/
def resolveExisting (h : Host σ) (c : Config) (root : String) : Task σ LinkTargets := do
  if !(← .ask (h.isDirectory (Path.join root "include"))) then
    Task.fail (.ofInstall (.path (c.library ++ " include") root))
  if !(← .ask (h.isDirectory (Path.join root "lib64"))) &&
      !(← .ask (h.isDirectory (Path.join root "lib"))) then
    Task.fail (.ofInstall (.path (c.library ++ " lib") root))
  let root ← h.canonical root
  .ask (LinkTargets.ofExisting h root)

end MolecularTools.Install
