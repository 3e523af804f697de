import MolecularTools.Config.Load
import MolecularTools.Machine.Basic
import MolecularTools.Proofs.Config.RoundTrip
import MolecularTools.Proofs.Files.Lexical
import MolecularTools.Proofs.Install.Paths
import MolecularTools.Proofs.Task

/-! Where the paths of an installation lie when their texts alone decide. A configuration that was
loaded has two different link names; that its names stay inside the working directory is not
checked, and depends on each name alone. -/
namespace MolecularTools

namespace Config

theorem load_valid {h : Host σ} {file : String} {s : σ} {c : Config}
    (loaded : (load h file s).1 = .ok c) : c.validate = .ok () := by
  obtain ⟨-, -, -, valid⟩ := load_ok.mp loaded
  exact valid

theorem links_differ {c : Config} (valid : c.validate = .ok ()) : c.includeLink ≠ c.libLink := by
  intro same
  rw [validate, if_pos same] at valid
  split at valid
  · contradiction
  · split at valid
    · contradiction
    · split at valid
      · contradiction
      · contradiction

end Config

open MolecularTools.Path

theorem Path.Normal.alwaysBelow {name : String} (normal : Normal name) :
    AlwaysBelow fun base => join base name := by
  intro l above
  obtain ⟨ns, some, proper, rfl⟩ := normal
  exact ⟨ns, some, place_join_normal above some proper⟩

theorem Path.Proper.normal {name : String} (proper : Proper name) : Normal name :=
  ⟨[name], by simp, by simpa using proper, by simp⟩

namespace Install

/-- Each path of an installation lies below every working directory exactly if its name leads
inward; without slashes in package and version the archive and the source directory do. Links with
normal names are two. -/
theorem loaded_config_places {h : Host σ} {file : String} {s : σ} {c : Config}
    (loaded : (Config.load h file s).1 = .ok c) (version : String) :
    (AlwaysBelow (fun w => (InstallPaths.ofVersion c w version).archive) ↔
      Inward (c.archiveName version)) ∧
    (AlwaysBelow (fun w => (InstallPaths.ofVersion c w version).sourceDir) ↔
      Inward (c.sourceDirName version)) ∧
    (AlwaysBelow (fun w => (InstallPaths.ofVersion c w version).installDir) ↔
      Inward c.prefixDir) ∧
    (AlwaysBelow (fun w => join w c.linkNames.headers) ↔ Inward c.includeLink) ∧
    (AlwaysBelow (fun w => join w c.linkNames.libraries) ↔ Inward c.libLink) ∧
    (c.Plain version → Inward (c.archiveName version) ∧ Inward (c.sourceDirName version)) ∧
    (Normal c.includeLink → Normal c.libLink → ∀ l, (∀ name ∈ l, Proper name) →
      place (join (absolute l) c.linkNames.headers) ≠
        place (join (absolute l) c.linkNames.libraries)) := by
  refine ⟨alwaysBelow_join _, alwaysBelow_join _, alwaysBelow_join _, alwaysBelow_join _,
    alwaysBelow_join _, ?_, ?_⟩
  · intro plain
    exact ⟨(alwaysBelow_join _).mp plain.archiveName.normal.alwaysBelow,
      (alwaysBelow_join _).mp plain.sourceDirName.normal.alwaysBelow⟩
  · intro headers libraries l above same
    have different := Config.links_differ (Config.load_valid loaded)
    exact different (place_join_injective above headers libraries same)

def configured (text : String) : Machine where
  files := FileTree.empty.put ["c"] (.file { bytes := text.toUTF8 })

def idle : Surroundings where
  command _ _ files := (.error (.ofMessage "no programs"), files)

theorem standard_config_stays_inside :
    let c := Config.standard
    (Config.load (Machine.host idle) "/c" (configured "\x7b\x7d")).1 = .ok c ∧
    AlwaysBelow (fun w => (InstallPaths.ofVersion c w "9").archive) ∧
    AlwaysBelow (fun w => (InstallPaths.ofVersion c w "9").sourceDir) ∧
    AlwaysBelow (fun w => (InstallPaths.ofVersion c w "9").installDir) ∧
    AlwaysBelow (fun w => join w c.linkNames.headers) ∧
    AlwaysBelow (fun w => join w c.linkNames.libraries) := by
  have loaded : (Config.load (Machine.host idle) "/c" (configured "\x7b\x7d")).1 =
      .ok Config.standard := rfl
  obtain ⟨archive, source, install, headers, libraries, plain, -⟩ := loaded_config_places loaded "9"
  obtain ⟨one, two⟩ := plain ⟨by decide, by decide⟩
  refine ⟨loaded, archive.mpr one, source.mpr two, install.mpr ?_, headers.mpr ?_, libraries.mpr ?_⟩
  · decide +kernel
  · decide +kernel
  · decide +kernel

/-- A configuration that is accepted, and a source directory outside of the working directory. -/
theorem accepted_config_leaves_directory :
    ∃ c, (Config.load (Machine.host idle) "/c"
        (configured "\x7b\"package\": \"../data\"\x7d")).1 = .ok c ∧
      ¬Below ["w"] (place (InstallPaths.ofVersion c "/w" "9").sourceDir) := by
  have package : (Config.load (Machine.host idle) "/c"
      (configured "\x7b\"package\": \"../data\"\x7d")).1.toOption.map (·.package) =
        some "../data" := by
    decide +kernel
  cases loaded : (Config.load (Machine.host idle) "/c"
      (configured "\x7b\"package\": \"../data\"\x7d")).1 with
  | error e =>
    rw [loaded] at package
    contradiction
  | ok c =>
    rw [loaded] at package
    have data : c.package = "../data" := Option.some.inj package
    have name : c.sourceDirName "9" = "../data-9" := by
      rw [Config.sourceDirName, data]
      rfl
    have outside : place (join "/w" "../data-9") = ["data-9"] := by decide +kernel
    refine ⟨c, rfl, ?_⟩
    rintro ⟨rest, -, below⟩
    rw [InstallPaths.ofVersion, name, outside] at below
    simp at below

end Install

end MolecularTools
