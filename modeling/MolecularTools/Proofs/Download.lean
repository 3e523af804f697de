import MolecularTools.Download
import MolecularTools.Proofs.Delivery
import MolecularTools.Proofs.Files.Creation
import MolecularTools.Proofs.Machine

/-! Downloads into files of a machine: what they leave, and how they fail. -/
namespace MolecularTools

def Machine.asked (m : Machine) (files : FileTree) (url : String) : Machine :=
  { m with files, requests := m.requests ++ [url] }

def unmade (p : String) (e : IoError) : Failure :=
  ((Failure.ofIo e).within "Failed to create file").within
    ("Failed to create download file at " ++ Text.quoted p)

variable {supply : Supply} {p url : String} {m after : Machine}

/-- A file is made, and a source delivers all it has. -/
inductive Delivered (supply : Supply) (p url : String) (m : Machine) : Machine → Prop
  | whole : m.files.createFile p = .ok (l, t) → (supply m.requests url).refusal url = none →
      (supply m.requests url).error = none →
      Delivered supply p url m (m.asked (t.append l (supply m.requests url).body) url)

/-- No file can be made, the answer is a refusal, or it breaks off behind a part. -/
inductive Undelivered (supply : Supply) (p url : String) (m : Machine) : Failure → Machine → Prop
  | uncreated : m.files.createFile p = .error e →
      Undelivered supply p url m (unmade p e) m
  | refused : m.files.createFile p = .ok (l, t) →
      (supply m.requests url).refusal url = some e →
      Undelivered supply p url m { cause := .status e } (m.asked t url)
  | broken : m.files.createFile p = .ok (l, t) → (supply m.requests url).refusal url = none →
      (supply m.requests url).error = some text →
      Undelivered supply p url m (.ofMessage text)
        (m.asked (t.append l (supply m.requests url).body) url)

theorem delivered_or_undelivered (supply : Supply) (p url : String) (m : Machine) :
    (∃ after, Delivered supply p url m after) ∨ ∃ e after, Undelivered supply p url m e after := by
  cases made : m.files.createFile p with
  | error e => exact .inr ⟨_, _, .uncreated made⟩
  | ok r =>
    obtain ⟨l, t⟩ := r
    cases answer : (supply m.requests url).refusal url with
    | some e => exact .inr ⟨_, _, .refused made answer⟩
    | none =>
      cases ended : (supply m.requests url).error with
      | none => exact .inl ⟨_, .whole made answer ended⟩
      | some text => exact .inr ⟨_, _, .broken made answer ended⟩

/-- After a delivery the path names a file that holds the body and nothing else. -/
theorem Delivered.lookup (delivered : Delivered supply p url m after) :
    ∃ l f, after.files.lookup p = .ok (l, .file f) ∧ f.bytes = (supply m.requests url).body := by
  cases delivered with
  | @whole l t made _ _ =>
    obtain ⟨f, found, empty⟩ := FileTree.createFile_lookup made
    refine ⟨l, _, FileTree.append_lookup found _, ?_⟩
    simp only [empty, ByteArray.empty_append]

namespace Machine

variable (w : Surroundings)

theorem createFile_ok (made : m.files.createFile p = .ok (l, t)) :
    (host w).createFile p m = (.ok (fileWriter l), { m with files := t }) := by
  simp only [host, map_eq_pure_bind, Task.bind_apply, Task.within_apply, atOnce, made]
  rfl

theorem createFile_error (failed : m.files.createFile p = .error e) :
    (host w).createFile p m = (.error ((Failure.ofIo e).within "Failed to create file"), m) := by
  simp only [host, map_eq_pure_bind, Task.bind_apply, Task.within_apply, atOnce, failed]
  rfl

/-- A file was made: what follows is the hand-over of the source's answer. -/
theorem downloadFile_created (made : m.files.createFile p = .ok (l, t)) :
    downloadFile (host w) (Delivery.downloader (request supply)) url p m =
      (supply m.requests url).handOver url (fileWriter l) (m.asked t url) := by
  have created : (((host w).createFile p).within
      ("Failed to create download file at " ++ Text.quoted p)) m =
        (.ok (fileWriter l), { m with files := t }) := by
    rw [Task.within_apply, createFile_ok w made]
    rfl
  rw [downloadFile, Task.bind_apply, created]
  rfl

theorem downloadFile_delivered (delivered : Delivered supply p url m after) :
    downloadFile (host w) (Delivery.downloader (request supply)) url p m =
      (.ok (supply m.requests url).body.size, after) := by
  cases delivered with
  | whole made answer ended =>
    rw [downloadFile_created w made, Delivery.handOver_eq, answer]
    simp only [Delivery.conclusion, ended]
    rfl

theorem downloadFile_undelivered (undelivered : Undelivered supply p url m e after) :
    downloadFile (host w) (Delivery.downloader (request supply)) url p m = (.error e, after) := by
  cases undelivered with
  | @uncreated reason failed =>
    have refused : (((host w).createFile p).within
        ("Failed to create download file at " ++ Text.quoted p)) m = (.error (unmade p reason), m) := by
      rw [Task.within_apply, createFile_error w failed]
      rfl
    rw [downloadFile, Task.bind_apply, refused]
  | refused made answer =>
    rw [downloadFile_created w made, Delivery.handOver_eq, answer]
    rfl
  | broken made answer ended =>
    rw [downloadFile_created w made, Delivery.handOver_eq, answer]
    simp only [Delivery.conclusion, ended]
    rfl

end Machine

end MolecularTools
