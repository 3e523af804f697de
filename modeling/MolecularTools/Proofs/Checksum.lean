import MolecularTools.Checksum.Verify
import MolecularTools.Proofs.Checksum.Pieces
import MolecularTools.Proofs.Files.Reading
import MolecularTools.Proofs.Machine

/-! Verification of files on a machine. -/
namespace MolecularTools.Checksum

/-- The digits of the hash of the bytes are those of the checksum, the case of letters aside. -/
def Matches (c : Checksum) (bytes : ByteArray) : Prop :=
  (Text.hex (c.algorithm.hash.ofBytes bytes)).map Char.toLower = c.hex.toList.map Char.toLower

instance (c : Checksum) (bytes : ByteArray) : Decidable (c.Matches bytes) :=
  inferInstanceAs (Decidable (_ = _))

/-- The path names a file that can be read and has the digest. -/
def Verified (c : Checksum) (t : FileTree) (p : String) : Prop :=
  ∃ bytes, t.Holds p bytes ∧ c.Matches bytes

def unopened (p : String) (e : IoError) : Failure :=
  ((Failure.ofIo e).within "Failed to open file").within
    ("Failed to open " ++ Text.quoted p ++ " for checksum verification")

theorem digest_whole (a : Algorithm) (bytes : ByteArray) :
    digest a (.whole bytes) = .ok (String.ofList (Text.hex (a.hash.ofBytes bytes))) := by
  have all : (Stream.whole bytes).chunks.foldl (· ++ ·) .empty = bytes :=
    Except.ok.inj (Stream.readAll_whole bytes)
  show Except.ok (String.ofList (Text.hex (a.hash.ofPieces (Stream.whole bytes).chunks))) = _
  rw [BlockHash.ofPieces_eq_ofBytes (BlockHash.blockwise_algorithm a), all]

variable (w : Surroundings) (c : Checksum) {m : Machine} {p : String}

theorem accepts_hash (bytes : ByteArray) :
    c.accepts (String.ofList (Text.hex (c.algorithm.hash.ofBytes bytes))) =
      decide (c.Matches bytes) := by
  rw [accepts, String.toList_ofList]
  rfl

theorem verifyFile_apply (m : Machine) : c.verifyFile (Machine.host w) p m =
    (match m.files.openToRead p with
      | .error e => .error (unopened p e)
      | .ok s => (digest c.algorithm s).map c.accepts, m) := by
  rw [verifyFile, Task.bind_apply, Task.within_apply]
  simp only [Machine.host, Task.within_apply, Machine.reading_apply]
  cases m.files.openToRead p with
  | error e => rfl
  | ok s =>
    show (Task.ofExcept (digest c.algorithm s) >>= fun digest => pure (c.accepts digest)) m =
      ((digest c.algorithm s).map c.accepts, m)
    cases digest c.algorithm s with
    | error e => rfl
    | ok digest => rfl

theorem verifyFile_unopened (refused : m.files.openToRead p = .error e) :
    c.verifyFile (Machine.host w) p m = (.error (unopened p e), m) := by
  rw [verifyFile_apply, refused]

theorem verifyFile_holds (held : m.files.Holds p bytes) :
    c.verifyFile (Machine.host w) p m = (.ok (decide (c.Matches bytes)), m) := by
  rw [verifyFile_apply, held]
  show ((digest c.algorithm (.whole bytes)).map c.accepts, m) = _
  rw [digest_whole, Except.map, accepts_hash]

theorem verifyFile_preserves (p : String) : (c.verifyFile (Machine.host w) p).Preserves id := by
  intro m
  rw [verifyFile_apply]

theorem verifyFile_verified (good : (c.verifyFile (Machine.host w) p m).1 = .ok true) :
    c.Verified m.files p := by
  rw [verifyFile_apply] at good
  cases opened : m.files.openToRead p with
  | error e =>
    rw [opened] at good
    contradiction
  | ok s =>
    rw [opened] at good
    obtain ⟨bytes, rfl⟩ | rfl := FileTree.openToRead_cases opened
    · have accepted : (digest c.algorithm (.whole bytes)).map c.accepts = .ok true := good
      rw [digest_whole, Except.map, accepts_hash] at accepted
      exact ⟨bytes, opened, of_decide_eq_true (Except.ok.inj accepted)⟩
    · contradiction

/-- A host with more in its state verifies like the host it is made from. -/
theorem verifyFile_below {σ τ : Type} (h : Host σ) (c : Checksum) (p : String) :
    c.verifyFile (h.below : Host (τ × σ)) p = (c.verifyFile h p).below := by
  rw [verifyFile, verifyFile, Task.below_bind, Task.below_within]
  refine bind_congr fun s => ?_
  cases digest c.algorithm s with
  | error e => rfl
  | ok digest => rfl

end MolecularTools.Checksum
