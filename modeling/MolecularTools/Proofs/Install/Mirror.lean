import MolecularTools.Proofs.Host.Mirror
import MolecularTools.Proofs.Install.Fetching
import MolecularTools.Proofs.Install.Order

/-! An installation under watch does what it does without a watch. -/
namespace MolecularTools

variable {σ τ : Type}

theorem Delivery.handOver_mirrors (delivery : Delivery) (url : String) (out : Writer σ) :
    (delivery.handOver url (out.below : Writer (τ × σ))).Mirrors (delivery.handOver url out) := by
  rw [handOver_eq, handOver_eq]
  cases delivery.refusal url with
  | some e => exact .fail _
  | none =>
    refine (Task.Mirrors.below _).bind fun _ => ?_
    unfold conclusion
    split
    · exact .fail _
    · exact .pure _

namespace Install

variable (h : Host σ) (request : String → Task σ Delivery)
  (unpack : Archive.Source → String → Task σ Unit)

/-- Tools where sources answer requests, with their effects entered in a log. -/
def Tools.followed : Tools (Log σ × σ) := .watched h (.ofDeliveries request) unpack

def Tools.answered : Tools σ := ⟨h, Delivery.downloader request, Archive.extractor h unpack⟩

theorem downloadFile_mirrors (url archive : String) :
    (downloadFile h.watched (Tools.followed h request unpack).downloader url archive).Mirrors
      (downloadFile h (Delivery.downloader request) url archive) := by
  rw [downloadFile, downloadFile, Task.within_eq, Task.within_eq]
  simp only [Host.watched, Host.below, ← Task.map_watched, ← Task.map_recast]
  refine .map_bind Writer.below ((Task.Mirrors.below _).watched _ _).recast fun out => ?_
  refine .watched (.bind (.below _) fun delivery => ?_) _ _
  exact delivery.handOver_mirrors url out

theorem warnUnknown_mirrors (c : Config) (version : String) :
    (warnUnknown h.watched c version).Mirrors (warnUnknown h c version) := by
  unfold warnUnknown
  split
  · exact .below _
  · exact .pure ()

theorem verifyKnown_mirrors (c : Config) (version archive url : String) :
    (verifyKnown h.watched c version archive url).Mirrors (verifyKnown h c version archive url) := by
  unfold verifyKnown
  split
  · rename_i checksum _
    have below : checksum.verifyFile h.watched archive = (checksum.verifyFile h archive).below :=
      Checksum.verifyFile_below h checksum archive
    rw [verify, verify, below]
    refine .bind (.below _) fun good => ?_
    split
    · exact .bind (.below _) fun _ => .fail _
    · exact .pure ()
  · exact .pure ()

theorem fetch_mirrors (c : Config) (p : InstallPaths) (version : String) :
    (fetch (Tools.followed h request unpack) c p version).Mirrors
      (fetch (Tools.answered h request unpack) c p version) := by
  rw [fetch_eq, fetch_eq]
  refine .bind (.below _) fun _ => .bind (warnUnknown_mirrors h c version) fun _ => ?_
  refine .tryEach _ (fun _ => .below _) (fun url => ?_) _
  rw [fetchFrom_eq, fetchFrom_eq]
  refine .bind (downloadFile_mirrors h request unpack url _).recast fun _ => ?_
  exact verifyKnown_mirrors h c version _ url

theorem openAt_mirrors (archive : String) :
    (Archive.openAt h.watched archive).Mirrors (Archive.openAt h archive) := by
  refine .bind (Task.Mirrors.below _).within fun s => ?_
  split
  · exact .pure _
  · exact .fail _

theorem extract_mirrors (archive directory : String) :
    ((Tools.followed h request unpack).extractor.extract archive directory).Mirrors
      ((Tools.answered h request unpack).extractor.extract archive directory) := by
  refine .watched (.bind (.watched (.below _) _ _) fun _ => ?_) _ _
  exact .bind (openAt_mirrors h archive) fun s => (Task.Mirrors.below _).within

theorem recognise_mirrors (archive : String) :
    (recognise (Tools.followed h request unpack).extractor archive).Mirrors
      (recognise (Tools.answered h request unpack).extractor archive) := by
  refine .bind (.bind (openAt_mirrors h archive).outcome fun opened => ?_) fun recognised => ?_
  · cases opened with
    | ok s => exact .pure _
    | error e => exact .pure _
  · split
    · exact .fail _
    · exact .pure ()

theorem dropArchive_mirrors (p : InstallPaths) :
    (dropArchive h.watched p).Mirrors (dropArchive h p) := by
  refine .bind (Task.Mirrors.within (.watched (.below _) _ _)) fun _ => ?_
  exact .require (fun _ => rfl) _

theorem unpack_mirrors (c : Config) (p : InstallPaths) :
    (Install.unpack (Tools.followed h request unpack) c p).Mirrors
      (Install.unpack (Tools.answered h request unpack) c p) := by
  rw [unpack_eq, unpack_eq]
  refine .bind (.bind (.below _) fun _ => .bind ?_ fun _ => recognise_mirrors h request unpack _) ?_
  · exact .whenever (fun _ => rfl) (.watched (.below _) _ _)
  · exact fun _ => .bind (extract_mirrors h request unpack _ _) fun _ => dropArchive_mirrors h p

theorem runSteps_mirrors (directory before : String) (steps : List BuildStep) :
    (runSteps h.watched directory before steps).Mirrors (runSteps h directory before steps) := by
  induction steps generalizing before with
  | nil => exact .pure before
  | cons step steps ih =>
    refine .bind (.watched (.below _) _ _) fun result => ?_
    split
    · exact ih _
    · exact .fail _

theorem checkBuilt_mirrors (output : String) (targets : LinkTargets) :
    (checkBuilt h.watched output targets).Mirrors (checkBuilt h output targets) := by
  refine .bind (.require (fun _ => rfl) _) fun _ => .bind (.require (fun _ => rfl) _) fun _ => ?_
  exact .pure _

theorem build_mirrors (c : Config) (p : InstallPaths) :
    (build h.watched c p).Mirrors (build h c p) := by
  rw [build_eq, build_eq]
  refine .bind (.below _) fun _ => .bind (.below (.ask h.processors)) fun processors => ?_
  refine .bind (runSteps_mirrors h _ _ _) fun output => .bind (.below _) fun _ => ?_
  exact checkBuilt_mirrors h output _

theorem resolveExisting_mirrors (c : Config) (root : String) :
    (resolveExisting h.watched c root).Mirrors (resolveExisting h c root) := by
  rw [resolveExisting_eq, resolveExisting_eq]
  refine .bind (.require (fun _ => rfl) _) fun _ => .bind (fun s => ?_) fun _ => ?_
  · exact Task.Mirrors.require (c := fun m => h.isDirectory (Path.join root "lib64") m ||
      h.isDirectory (Path.join root "lib") m) (fun _ => rfl) _ s
  · exact .bind (.below _) fun real => .below (.ask (LinkTargets.ofExisting h real))

theorem prepare_mirrors (c : Config) (version workDir : String) (d : Directive) :
    (prepare (Tools.followed h request unpack) c version workDir d).Mirrors
      (prepare (Tools.answered h request unpack) c version workDir d) := by
  cases d with
  | existing root => exact resolveExisting_mirrors h c root
  | build =>
    refine .bind (fetch_mirrors h request unpack c _ version) fun _ => ?_
    exact .bind (unpack_mirrors h request unpack c _) fun _ => build_mirrors h c _

theorem removeStale_mirrors (p : String) : (removeStale h.watched p).Mirrors (removeStale h p) := by
  intro s
  show _ = removeStale h p s.2
  rw [removeStale, removeStale]
  cases link : h.isLink p s.2 with
  | true =>
    rw [show h.watched.isLink p s = true from link]
    rfl
  | false =>
    rw [show h.watched.isLink p s = false from link]
    cases file : h.isFile p s.2 with
    | true =>
      rw [show h.watched.isFile p s = true from file]
      rfl
    | false =>
      rw [show h.watched.isFile p s = false from file]
      cases there : h.pathExists p s.2 with
      | true =>
        rw [show h.watched.pathExists p s = true from there]
        rfl
      | false =>
        rw [show h.watched.pathExists p s = false from there]
        rfl

theorem warnDangling_mirrors (p target : String) :
    (warnDangling h.watched p target).Mirrors (warnDangling h p target) := by
  refine .bind (.below (.ask (h.isDirectory p))) fun leads => ?_
  split
  · exact .below _
  · exact .pure ()

theorem makeLinkTo_mirrors (p target : String) :
    (makeLinkTo h.watched p target).Mirrors (makeLinkTo h p target) := by
  rw [makeLinkTo_eq, makeLinkTo_eq]
  refine .bind (Task.Mirrors.within (.watched (.below _) _ _)) fun _ => ?_
  exact warnDangling_mirrors h p target

/-- What the log of an installation tells is about the installation without a log. -/
theorem run_mirrors (c : Config) (d : Directive) (version workDir : String) :
    (run (Tools.followed h request unpack) c d version workDir).Mirrors
      (run (Tools.answered h request unpack) c d version workDir) := by
  rw [run_eq, run_eq]
  refine .bind (prepare_mirrors h request unpack c version workDir d) fun targets => ?_
  refine .bind (.below _) fun _ => .bind ?_ fun _ => .pure targets
  refine .bind (removeStale_mirrors h _) fun _ => .bind (removeStale_mirrors h _) fun _ => ?_
  exact .bind (makeLinkTo_mirrors h _ _) fun _ => makeLinkTo_mirrors h _ _

end Install

end MolecularTools
