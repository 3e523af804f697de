import MolecularTools.Host.Events
import MolecularTools.Http.Client
import MolecularTools.Proofs.Download

/-! Downloads over a network. The file is made before anything is asked for, and in the end it holds
what arrived of a successful answer and nothing else. -/
namespace MolecularTools

namespace Http

variable {σ τ : Type}

def Success (status : Nat) : Prop := 200 ≤ status ∧ status < 300

inductive Refusal (url : String) : Nat → StatusError → Prop
  | notFound : Refusal url 404 (.notFound url)
  | unauthorized : Refusal url 401 (.forbidden url)
  | forbidden : Refusal url 403 (.forbidden url)
  | rateLimited : Refusal url 429 (.rateLimited url)
  | server : 500 ≤ status → status < 600 → Refusal url status (.server status url)
  | client : ¬Success status → status ∉ [404, 401, 403, 429] → (500 ≤ status → 600 ≤ status) →
      Refusal url status (.client status url)

/-- What a request leaves in an empty file, and how it ends. -/
inductive Transfer (url : String) : Exchange → ByteArray → Except Failure Nat → Prop
  | unanswered : Transfer url (.unanswered detail) .empty
      (.error ⟨["Failed to start download request for " ++ url], .transfer detail⟩)
  | refused : Refusal url status e →
      Transfer url (.answered status chunks broken) .empty (.error { cause := .status e })
  | broken : Success status → Transfer url (.answered status chunks (some detail))
      (Stream.bytes { chunks })
      (.error ⟨["Failed to read chunk from download stream"], .transfer detail⟩)
  | whole : Success status → Transfer url (.answered status chunks none)
      (Stream.bytes { chunks }) (.ok (Stream.bytes { chunks }).size)

theorem checkStatus_success (success : Success status) (url : String) :
    checkStatus status url = .ok () :=
  if_pos success

theorem checkStatus_refused (refused : ¬Success status) (url : String) :
    ∃ e, checkStatus status url = .error e ∧ Refusal url status e := by
  have plain : checkStatus status url = if status = 404 then .error (.notFound url)
      else if status = 401 ∨ status = 403 then .error (.forbidden url)
      else if status = 429 then .error (.rateLimited url)
      else if 500 ≤ status ∧ status < 600 then .error (.server status url)
      else .error (.client status url) := if_neg refused
  rw [plain]
  split
  case isTrue same =>
    subst same
    exact ⟨_, rfl, .notFound⟩
  split
  case isTrue same =>
    obtain rfl | rfl := same
    · exact ⟨_, rfl, .unauthorized⟩
    · exact ⟨_, rfl, .forbidden⟩
  split
  case isTrue same =>
    subst same
    exact ⟨_, rfl, .rateLimited⟩
  split
  case isTrue within => exact ⟨_, rfl, .server within.1 within.2⟩
  case isFalse missing denied many beyond =>
    refine ⟨_, rfl, .client refused ?_ fun least => Nat.le_of_not_lt fun less => ?_⟩
    · simp [missing, many, not_or.mp denied]
    · exact beyond ⟨least, less⟩

theorem writeChunks_below (out : Writer σ) (count : Nat) (chunks : List ByteArray) :
    (writeChunks out.below count chunks : Task (τ × σ) Nat) =
      (writeChunks out count chunks).below := by
  induction chunks generalizing count with
  | nil => rfl
  | cons c cs ih =>
    rw [writeChunks, writeChunks, Task.below_bind, Task.below_within, funext fun _ => ih _]
    rfl

theorem fetch_below (network : Network) (url : String) (out : Writer σ) :
    (fetch network url (pure out.below) : Task (τ × σ) Nat) =
      (fetch network url (pure out)).below := by
  unfold fetch
  cases network url with
  | unanswered detail => rfl
  | answered status chunks broken =>
    dsimp only
    cases checkStatus status url with
    | error e => rfl
    | ok _ =>
      simp only [pure_bind, Task.below_bind, writeChunks_below]
      cases broken with
      | some detail => rfl
      | none =>
        simp only [Task.below_bind, Task.below_within]
        rfl

/-- Making a file is noted, whatever becomes of it. -/
theorem createFile_noted (h : Host σ) (p : String) (log : List Event) (s : σ) :
    h.noted.createFile p (log, s) =
      ((h.createFile p s).1.map Writer.below, log ++ [.createFile p], (h.createFile p s).2) := by
  simp only [Host.noted, note, Host.below, map_eq_pure_bind, Task.bind_apply, Task.act_apply,
    Task.below_apply]
  rcases h.createFile p s with ⟨_ | _, after⟩ <;> rfl

/-- The address is asked for exactly if the file could be made. -/
theorem downloadFile_noted (h : Host σ) (network : Network) (url p : String) (log : List Event)
    (s : σ) :
    downloadFile h.noted (Downloader.noted (downloader network)) url p (log, s) =
      ((downloadFile h (downloader network) url p s).1,
        log ++ .createFile p :: (if (h.createFile p s).1.isOk then [.download url] else []),
        (downloadFile h (downloader network) url p s).2) := by
  simp only [downloadFile, Task.bind_apply, Task.within_apply, createFile_noted]
  rcases h.createFile p s with ⟨e | out, after⟩
  · rfl
  · show (note (.download url) >>= fun _ => fetch network url (pure out.below))
      (log ++ [.createFile p], after) = _
    rw [fetch_below, Task.bind_apply]
    simp [note, downloader, Except.isOk, Except.toBool]

end Http

namespace Machine

variable {l : Location} {f : File} {m : Machine}

/-- Chunks are put behind what the file holds, one after the other. -/
theorem writeChunks_file (chunks : List ByteArray)
    (found : m.files.lookup p = .ok (l, .file f)) :
    ∃ g after, Http.writeChunks (fileWriter l) f.bytes.size chunks m = (.ok g.bytes.size, after) ∧
      after.files.lookup p = .ok (l, .file g) ∧ g.bytes = chunks.foldl (· ++ ·) f.bytes := by
  induction chunks generalizing m f with
  | nil => exact ⟨f, m, rfl, found, rfl⟩
  | cons c cs ih =>
    obtain ⟨g, after, written, held, joined⟩ := ih (FileTree.append_lookup found c)
      (m := { m with files := m.files.append l c })
    refine ⟨g, after, ?_, held, joined⟩
    rw [Http.writeChunks, ← written, ByteArray.size_append]
    rfl

/-- An empty file takes in what a request brings. -/
theorem fetch_file (network : Http.Network) (url : String)
    (found : m.files.lookup p = .ok (l, .file f)) (empty : f.bytes = .empty) :
    ∃ result g after, Http.fetch network url (pure (fileWriter l)) m = (result, after) ∧
      after.files.lookup p = .ok (l, .file g) ∧
      Http.Transfer url (network url) g.bytes result := by
  unfold Http.fetch
  cases network url with
  | unanswered detail =>
    refine ⟨_, f, m, rfl, found, ?_⟩
    rw [empty]
    exact .unanswered
  | answered status chunks broken =>
    by_cases success : Http.Success status
    · obtain ⟨g, after, written, held, joined⟩ := writeChunks_file chunks found
      have arrived : g.bytes = Stream.bytes { chunks } := by rw [joined, empty, Stream.bytes]
      rw [empty, ByteArray.size_empty] at written
      simp only [Http.checkStatus_success success, Task.bind_apply, Task.pure_apply, written]
      cases broken with
      | some detail =>
        refine ⟨_, g, after, rfl, held, ?_⟩
        rw [arrived]
        exact .broken success
      | none =>
        refine ⟨_, g, after, rfl, held, ?_⟩
        rw [arrived]
        exact .whole success
    · obtain ⟨e, answer, refusal⟩ := Http.checkStatus_refused success url
      refine ⟨.error { cause := .status e }, f, m, ?_, found, ?_⟩
      · simp only [answer]
        rfl
      · rw [empty]
        exact .refused refusal

end Machine

/-- Where the file of a download cannot be made, the address is not asked for and nothing changes.
Where it can, the address is asked for once, and then the path names the file that was made. It
holds what arrived and nothing of an earlier file: nothing without an answer or with a refusal, the
chunks that came before the answer broke off, or the whole body, whose length is told. -/
theorem downloadFile_leaves (w : Surroundings) (network : Http.Network) (url p : String)
    (m : Machine) :
    ∃ result events after,
      downloadFile (Machine.host w) (Http.downloader network) url p m = (result, after) ∧
      downloadFile (Machine.host w).noted (Downloader.noted (Http.downloader network)) url p
        ([], m) = (result, events, after) ∧
      match m.files.createFile p with
      | .error e => result = .error (unmade p e) ∧ events = [.createFile p] ∧ after = m
      | .ok (l, _) => events = [.createFile p, .download url] ∧
        ∃ f, after.files.lookup p = .ok (l, .file f) ∧
          Http.Transfer url (network url) f.bytes result := by
  have noted := Http.downloadFile_noted (Machine.host w) network url p [] m
  cases made : m.files.createFile p with
  | error e =>
    have refused : downloadFile (Machine.host w) (Http.downloader network) url p m =
        (.error (unmade p e), m) := by
      rw [downloadFile, Task.bind_apply, Task.within_apply, Machine.createFile_error w made]
      rfl
    rw [refused, Machine.createFile_error w made] at noted
    exact ⟨_, _, m, refused, noted, rfl, rfl, rfl⟩
  | ok r =>
    obtain ⟨l, t⟩ := r
    obtain ⟨f, found, empty⟩ := FileTree.createFile_lookup made
    obtain ⟨result, g, after, fetched, held, transfer⟩ :=
      Machine.fetch_file (m := { m with files := t }) network url found empty
    have ended : downloadFile (Machine.host w) (Http.downloader network) url p m =
        (result, after) := by
      rw [downloadFile, Task.bind_apply, Task.within_apply, Machine.createFile_ok w made]
      exact fetched
    rw [ended, Machine.createFile_ok w made] at noted
    exact ⟨result, _, after, ended, noted, rfl, g, held, transfer⟩

end MolecularTools
