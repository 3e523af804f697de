import MolecularTools.Proofs.Links.Forgetting

/-! Relinking from one end to the other: when it succeeds, what it leaves, and that it forgets every
earlier call. -/
namespace MolecularTools

open FileTree

/-- Relinking succeeds where both links can be made and no directory is in the way. It then puts
the two links into the files, whatever their entries were, and warns of those that lead to no
directory by then. Earlier calls leave no trace in the files. -/
theorem relink_replaces (w : Surroundings) {m : Machine} {directory : String} {names : LinkNames}
    (rooted : m.files.Rooted) (canonical : m.files.canonical directory = .ok directory)
    (isDirectory : m.files.isDirectory directory = true) (headers : Path.Proper names.headers)
    (libraries : Path.Proper names.libraries) (apart : names.headers ≠ names.libraries)
    (targets : LinkTargets) :
    let l := Path.names directory
    let h := l ++ [names.headers]
    let k := l ++ [names.libraries]
    let call := relink (Machine.host w) directory names
    ((call targets m).1 = .ok () ↔
        ((∀ mode, m.files.node? h ≠ some (.directory mode)) ∧
          ∀ mode, m.files.node? k ≠ some (.directory mode)) ∧
        m.files.alterable l = true ∧ AcceptableLink l names.headers targets.headers ∧
          AcceptableLink l names.libraries targets.libraries) ∧
      ((call targets m).1 = .ok () →
        let between := (m.files.erase k).put h (.link targets.headers)
        let files := (m.files.put h (.link targets.headers)).put k (.link targets.libraries)
        (call targets m).2 = { m with
          files
          warnings := m.warnings ++
            dangling between (Path.join directory names.headers) targets.headers ++
            dangling files (Path.join directory names.libraries) targets.libraries }) ∧
      ∀ earlier : List LinkTargets,
        let before := earlier.foldl (fun m other => (call other m).2) m
        (call targets before).1 = (call targets m).1 ∧
          (call targets before).2.files = (call targets m).2.files := by
  obtain ⟨place, path⟩ :=
    linkPlace_of_canonical rooted canonical isDirectory headers libraries apart
  intro l h k call
  have call_eq : call = relink (Machine.host w) (Path.absolute l) names := by rw [← path]
  rw [call_eq]
  refine ⟨relink_ok_iff w place targets, fun relinked => ?_, fun earlier => ?_⟩
  · have first : Path.join directory names.headers = Path.absolute h :=
      (congrArg (Path.join · names.headers) path).trans (place.join headers.whole)
    have second : Path.join directory names.libraries = Path.absolute k :=
      (congrArg (Path.join · names.libraries) path).trans (place.join libraries.whole)
    rw [first, second]
    exact relink_ok_state w place relinked
  · exact (relinks_sameClearing w place earlier).relink targets

def usedNames : Machine where
  files := ((FileTree.empty.put ["w"] (.directory directoryMode)).put ["w", "includelink"]
    (.link "/gone")).put ["w", "liblink"] (.file {})

/-- A link that leads nowhere and a file make way, and both new links are warned of. -/
theorem relink_replaces_used :
    let w : Surroundings := { command := fun _ _ t => (.ok ⟨some 0, ""⟩, t) }
    let targets : LinkTargets := ⟨"/opt/include", "/opt/lib"⟩
    let call := relink (Machine.host w) "/w" LinkNames.standard
    (call targets usedNames).1 = .ok () ∧
      (call targets usedNames).2.files = (usedNames.files.put ["w", "includelink"]
        (.link "/opt/include")).put ["w", "liblink"] (.link "/opt/lib") ∧
      (call targets usedNames).2.warnings = [danglingWarning "/w/includelink" "/opt/include",
        danglingWarning "/w/liblink" "/opt/lib"] ∧
      (call targets (call ⟨"/a", "/b"⟩ usedNames).2).2.files = (call targets usedNames).2.files := by
  intro w targets call
  have names : Path.names "/w" = ["w"] := by decide +kernel
  have canonical : usedNames.files.canonical "/w" = .ok "/w" := eq_ok_of_toOption (by decide +kernel)
  have headers : Path.Proper LinkNames.standard.headers :=
    Path.proper_of_mem (c := 'l') (by decide) (by decide) (by decide)
  have libraries : Path.Proper LinkNames.standard.libraries :=
    Path.proper_of_mem (c := 'l') (by decide) (by decide) (by decide)
  have link : usedNames.files.node? ["w", "includelink"] = some (.link "/gone") := by
    decide +kernel
  have file : usedNames.files.node? ["w", "liblink"] = some (.file {}) := by decide +kernel
  obtain ⟨succeeds, state, forgets⟩ := relink_replaces w (by decide +kernel) canonical
    (by decide +kernel) headers libraries (by decide) targets
  rw [names] at succeeds state
  have done : (call targets usedNames).1 = .ok () := by
    refine succeeds.mpr ⟨⟨fun mode => ?_, fun mode => ?_⟩, by decide +kernel, ?_, ?_⟩
    · exact link ▸ nofun
    · exact file ▸ nofun
    · exact ⟨⟨by decide, by decide, by decide⟩, ⟨by decide, by decide, by decide⟩, by decide⟩
    · exact ⟨⟨by decide, by decide, by decide⟩, ⟨by decide, by decide, by decide⟩, by decide⟩
  refine ⟨done, congrArg Machine.files (state done),
    (congrArg Machine.warnings (state done)).trans ?_, (forgets [⟨"/a", "/b"⟩]).2⟩
  decide +kernel

/-- A name that is too long, a target that no link can hold, and a directory that may not be
changed: relinking fails, though no directory is in the way. -/
theorem relink_fails_without_directory :
    let w : Surroundings := { command := fun _ _ t => (.ok ⟨some 0, ""⟩, t) }
    let place (mode : Nat) : Machine := { files := FileTree.empty.put ["w"] (.directory mode) }
    let long := String.ofList (List.replicate 256 'l')
    let longer := long ++ long ++ long ++ long
    let fails (mode : Nat) (names : LinkNames) (targets : LinkTargets) : Prop :=
      ((place mode).files.Rooted ∧ (place mode).files.canonical "/w" = .ok "/w" ∧
        (place mode).files.isDirectory "/w" = true) ∧
      (Path.Proper names.headers ∧ Path.Proper names.libraries ∧ names.headers ≠ names.libraries) ∧
      ((place mode).files.node? ["w", names.headers] = none ∧
        (place mode).files.node? ["w", names.libraries] = none) ∧
      (targets.headers ≠ "" ∧ targets.libraries ≠ "") ∧
      (relink (Machine.host w) "/w" names targets (place mode)).1 ≠ .ok ()
    fails directoryMode ⟨long, "liblink"⟩ ⟨"/opt/include", "/opt/lib"⟩ ∧
      fails directoryMode .standard ⟨"/opt\x00/include", "/opt/lib"⟩ ∧
      fails directoryMode .standard ⟨longer ++ longer ++ longer ++ longer, "/opt/lib"⟩ ∧
      fails 0o555 .standard ⟨"/opt/include", "/opt/lib"⟩ := by
  intro w place long longer fails
  have proper : ∀ {name}, 'l' ∈ name.toList → '/' ∉ name.toList → Path.Proper name :=
    fun member whole => Path.proper_of_mem member (by decide) whole
  have standard : Path.Proper "includelink" ∧ Path.Proper "liblink" ∧ "includelink" ≠ "liblink" :=
    ⟨proper (by decide) (by decide), proper (by decide) (by decide), by decide⟩
  have size : long.utf8ByteSize = 256 := by decide +kernel
  have bare : ∀ mode name, (place mode).files.node? ["w", name] = none := by
    intro mode name
    simp [place, FileTree.node?, nodes_put, FileTree.empty]
  have conditions : ∀ {mode names targets}, mode ∈ [directoryMode, 0o555] →
      (Path.Proper names.headers ∧ Path.Proper names.libraries ∧ names.headers ≠ names.libraries) →
      (targets.headers ≠ "" ∧ targets.libraries ≠ "") →
      ((place mode).files.alterable ["w"] = true →
        AcceptableLink ["w"] names.headers targets.headers → False) →
      fails mode names targets := by
    intro mode names targets among good filled broken
    have sound : ∀ mode ∈ [directoryMode, 0o555], (place mode).files.Rooted ∧
        ((place mode).files.canonical "/w").toOption = some "/w" ∧
        (place mode).files.isDirectory "/w" = true := by decide +kernel
    obtain ⟨rooted, canonical, directory⟩ := sound mode among
    have canonical := eq_ok_of_toOption canonical
    refine ⟨⟨rooted, canonical, directory⟩, good, ⟨bare _ _, bare _ _⟩, filled, fun relinked => ?_⟩
    obtain ⟨there, -⟩ := linkPlace_of_canonical rooted canonical directory good.1 good.2.1 good.2.2
    have names_eq : Path.names "/w" = ["w"] := by decide +kernel
    have path : Path.absolute ["w"] = "/w" := by decide +kernel
    rw [names_eq] at there
    rw [← path] at relinked
    obtain ⟨-, alterable, headers, -⟩ := (relink_ok_iff w there targets).mp relinked
    exact broken alterable headers
  refine ⟨?_, ?_, ?_, ?_⟩
  · have apart : long ≠ "liblink" := fun same => absurd (same ▸ size) (by decide)
    have letters : long.toList = List.replicate 256 'l' := String.toList_ofList
    have whole : '/' ∉ long.toList := fun slash =>
      absurd (List.eq_of_mem_replicate (letters ▸ slash)) (by decide)
    have first : 'l' ∈ long.toList := letters ▸ List.mem_replicate.mpr ⟨by decide, rfl⟩
    refine conditions (by decide) ⟨proper first whole, standard.2.1, apart⟩ ⟨by decide, by decide⟩
      fun _ acceptable => ?_
    exact absurd acceptable.short (by rw [size]; decide)
  · exact conditions (by decide) standard ⟨by decide, by decide⟩ fun _ acceptable =>
      absurd acceptable.target.unmarked (by decide)
  · refine conditions (by decide) standard ⟨?_, by decide⟩ fun _ acceptable => ?_
    · intro empty
      have none := congrArg String.utf8ByteSize empty
      simp [longer, String.utf8ByteSize_append, size] at none
    · exact absurd acceptable.target.short
        (by simp [longer, String.utf8ByteSize_append, size, pathBound])
  · exact conditions (by decide) standard ⟨by decide, by decide⟩ fun alterable _ =>
      absurd alterable (by decide +kernel)

end MolecularTools
