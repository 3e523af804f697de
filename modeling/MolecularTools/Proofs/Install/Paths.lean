import MolecularTools.Install.Paths
import MolecularTools.Proofs.Files.Paths

/-! Where an installation of a plain version works: in entries of its working directory. -/
namespace MolecularTools

variable {c : Config} {version : String} {l : List String}

namespace Config

structure Plain (c : Config) (version : String) : Prop where
  package : '/' ∉ c.package.toList
  version : '/' ∉ version.toList

theorem Plain.sourceDirName (plain : c.Plain version) : Path.Proper (c.sourceDirName version) := by
  have dash : '-' ∈ (c.sourceDirName version).toList := by simp [Config.sourceDirName]
  refine Path.proper_of_mem dash (by decide) ?_
  simp [Config.sourceDirName, plain.package, plain.version]

theorem Plain.archiveName (plain : c.Plain version) : Path.Proper (c.archiveName version) := by
  have dash : '-' ∈ (c.archiveName version).toList := by
    simp [Config.archiveName, Config.sourceDirName]
  refine Path.proper_of_mem dash (by decide) ?_
  simp [Config.archiveName, Config.sourceDirName, plain.package, plain.version]

theorem archiveName_ne_sourceDirName (c : Config) (version : String) :
    c.archiveName version ≠ c.sourceDirName version := by
  intro same
  have lengths := congrArg String.length same
  simp [archiveName] at lengths

end Config

namespace InstallPaths

theorem archive_absolute (above : ∀ name ∈ l, Path.Proper name) (plain : c.Plain version) :
    (ofVersion c (Path.absolute l) version).archive = Path.absolute (l ++ [c.archiveName version]) :=
  Path.join_absolute above plain.archiveName.whole

theorem sourceDir_absolute (above : ∀ name ∈ l, Path.Proper name) (plain : c.Plain version) :
    (ofVersion c (Path.absolute l) version).sourceDir =
      Path.absolute (l ++ [c.sourceDirName version]) :=
  Path.join_absolute above plain.sourceDirName.whole

end InstallPaths

end MolecularTools
