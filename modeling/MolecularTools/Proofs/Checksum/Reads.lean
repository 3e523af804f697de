import MolecularTools.Checksum.Verify
import MolecularTools.Machine.Basic
import MolecularTools.Proofs.Checksum.Grammar
import MolecularTools.Proofs.Checksum.Pieces
import MolecularTools.Proofs.Stream
import MolecularTools.Proofs.Task

/-! Digests of what is read. A stream is hashed by asking for bytes until none are given, and
neither its digest nor the verification of a file depends on how the bytes are cut into reads. -/
namespace MolecularTools

namespace Text

theorem hexDigit_lower (bound : n < 16) : (hexDigit n).toLower = hexDigit n := by
  have each : ∀ n < 16, (hexDigit n).toLower = hexDigit n := by decide
  exact each n bound

theorem hex_lower (bytes : List UInt8) : (hex bytes).map Char.toLower = hex bytes := by
  induction bytes with
  | nil => rfl
  | cons b bytes ih =>
    have bound := b.toNat_lt
    rw [hex, List.flatMap_cons, ← hex, List.map_append, ih, hexByte, List.map_cons, List.map_cons,
      hexDigit_lower (by omega), hexDigit_lower (Nat.mod_lt _ (by decide)), List.map_nil]

end Text

namespace Checksum

open BlockHash

def bufferSize : Nat := 65536

/-- Hashes what requests bring, up to the first that brings nothing. -/
def hashReads (h : BlockHash) (p : Progress h) (s : Stream) : Except IoError (List UInt8) :=
  match _given : s.read bufferSize with
  | .error e => .error e
  | .ok (piece, rest) =>
    if piece.size = 0 then .ok (h.finish p)
    else hashReads h (h.update p piece) rest
termination_by s.bytes.size
decreasing_by
  rw [← Stream.read_bytes _given, ByteArray.size_append]
  omega

section

variable {h : BlockHash} {p : Progress h} {s : Stream}

theorem hashReads_failed (failed : s.read bufferSize = .error e) : hashReads h p s = .error e := by
  rw [hashReads]
  split
  · rename_i other
    rw [failed] at other
    rw [Except.error.inj other]
  · rename_i other
    rw [failed] at other
    contradiction

theorem hashReads_given (given : s.read bufferSize = .ok (piece, rest)) :
    hashReads h p s =
      if piece.size = 0 then .ok (h.finish p) else hashReads h (h.update p piece) rest := by
  rw [hashReads]
  split
  · rename_i other
    rw [given] at other
    contradiction
  · rename_i other
    rw [given] at other
    obtain ⟨rfl, rfl⟩ := Prod.mk.inj (Except.ok.inj other)
    rfl

/-- The hash of what is read is that of the bytes at hand. By induction on how many bytes are still
to come; what was hashed so far covers the bytes in front of them. -/
theorem hashReads_schedule (blockwise : h.Blockwise) (schedule : Schedule content)
    (broken : Option IoError) (covers : Covers h p front) :
    hashReads h p (schedule.stream broken) = match broken with
      | some e => .error e
      | none => .ok (h.ofBytes (front ++ content)) := by
  induction size : content.size using Nat.strong_induction_on generalizing content front p with
  | _ n ih =>
    rcases schedule.read_cases broken (by decide : 0 < bufferSize) with
      ⟨rfl, ended⟩ | ⟨piece, rest, later, rfl, some, given⟩
    · cases broken with
      | some e => exact hashReads_failed ended
      | none =>
        rw [hashReads_given ended, if_pos ByteArray.size_empty, covers.finish blockwise,
          ByteArray.append_empty]
    · have less : rest.size < n := by
        rw [← size, ByteArray.size_append]
        omega
      rw [hashReads_given given, if_neg (Nat.ne_of_gt some),
        ih _ less later (covers.update blockwise piece) rfl, ByteArray.append_assoc]

end

def unread (e : IoError) : Failure :=
  (Failure.ofIo e).within "Failed to read data for checksum"

def digestReads (a : Algorithm) (s : Stream) : Except Failure String :=
  match hashReads a.hash a.hash.begin s with
  | .error e => .error (unread e)
  | .ok hash => .ok (String.ofList (Text.hex hash))

def digested (a : Algorithm) (content : ByteArray) : Option IoError → Except Failure String
  | some e => .error (unread e)
  | none => .ok (String.ofList (Text.hex (a.hash.ofBytes content)))

theorem digestReads_schedule (a : Algorithm) (schedule : Schedule content)
    (broken : Option IoError) :
    digestReads a (schedule.stream broken) = digested a content broken := by
  rw [digestReads, hashReads_schedule (blockwise_algorithm a) schedule broken (covers_begin _),
    ByteArray.empty_append]
  cases broken <;> rfl

theorem digest_schedule (a : Algorithm) (schedule : Schedule content) (broken : Option IoError) :
    digest a (schedule.stream broken) = digested a content broken := by
  cases broken with
  | some e => rfl
  | none =>
    show Except.ok (String.ofList (Text.hex (a.hash.ofPieces schedule.reads))) = _
    rw [ofPieces_eq_ofBytes (blockwise_algorithm a)]
    exact congrArg (fun bytes => Except.ok (String.ofList (Text.hex (a.hash.ofBytes bytes))))
      schedule.delivers

theorem accepts_eq {c : Checksum} (same : c.hex.toList = Text.hex expected) (hash : List UInt8) :
    c.accepts (String.ofList (Text.hex hash)) = decide (hash = expected) := by
  rw [accepts, String.toList_ofList, same, Text.hex_lower, Text.hex_lower]
  exact decide_eq_decide.mpr ⟨Text.hex_injective, congrArg Text.hex⟩

theorem verifyFile_opened {σ : Type} {h : Host σ} {s after : σ} (c : Checksum)
    (opened : h.openFile p s = (.ok data, after)) :
    c.verifyFile h p s = ((digest c.algorithm data).map c.accepts, after) := by
  rw [verifyFile, Task.bind_apply, Task.within_apply, opened]
  show (Task.ofExcept (digest c.algorithm data) >>= fun digest => pure (c.accepts digest)) after = _
  cases digest c.algorithm data with
  | error e => rfl
  | ok digest => rfl

/-- The digits of a checksum that was read stand for bytes, and so do those of the text. -/
theorem parse_denotes {t : String} (parsed : parse t = .ok c) : ∃ expected,
    Text.bytes? c.hex.toList = some expected ∧ c.hex.toList = Text.hex expected ∧
      ∀ digits, Spells (Text.trim t.toList) c.algorithm digits →
        Text.bytes? digits = some expected := by
  have shown {digits : List Char} (spells : Spells (Text.trim t.toList) c.algorithm digits) :
      ∃ bytes, Text.bytes? digits = some bytes ∧ c.hex.toList = Text.hex bytes := by
    obtain ⟨bytes, read, lower⟩ := Text.bytes?_digits spells.hexes.1 spells.hexes.2
    have same := spells.parse.symm.trans parsed
    refine ⟨bytes, read, ?_⟩
    rw [← Except.ok.inj same, String.toList_ofList, lower]
  obtain ⟨digits, spells, -⟩ := parse_ok_iff.mp parsed
  obtain ⟨expected, -, same⟩ := shown spells
  refine ⟨expected, by rw [same, Text.bytes?_hex], same, fun others spelt => ?_⟩
  obtain ⟨bytes, read, again⟩ := shown spelt
  rw [read, Text.hex_injective (again.symm.trans same)]

/-- However some bytes are cut into reads, their digest is the lower-case hexadecimal text of the
hash of all of them at once, and there is none exactly if a read fails before the end. A checksum
that is read from a text stands for bytes, those that the digits of the text stand for, and a file
is verified exactly if these are the hash of what is read of it. -/
theorem digest_any_reads (schedule : Schedule content) (broken : Option IoError) :
    (∀ a : Algorithm,
      digestReads a (schedule.stream broken) = digest a (schedule.stream broken) ∧
      digest a (schedule.stream broken) = match broken with
        | none => .ok (String.ofList (Text.hex (a.hash.ofBytes content)))
        | some e => .error ⟨["Failed to read data for checksum"], .io e⟩) ∧
    ∀ text c, parse text = .ok c → ∃ expected,
      Text.bytes? c.hex.toList = some expected ∧
      (∀ digits, Spells (Text.trim text.toList) c.algorithm digits →
        Text.bytes? digits = some expected) ∧
      ∀ {σ : Type} (h : Host σ) (p : String) (s after : σ),
        h.openFile p s = (.ok (schedule.stream broken), after) →
        c.verifyFile h p s = (match broken with
          | none => .ok (decide (c.algorithm.hash.ofBytes content = expected))
          | some e => .error ⟨["Failed to read data for checksum"], .io e⟩, after) := by
  refine ⟨fun a => ⟨?_, ?_⟩, fun text c parsed => ?_⟩
  · rw [digestReads_schedule, digest_schedule]
  · rw [digest_schedule]
    cases broken <;> rfl
  · obtain ⟨expected, denoted, same, spelt⟩ := parse_denotes parsed
    refine ⟨expected, denoted, spelt, fun h p s after opened => ?_⟩
    rw [verifyFile_opened c opened, digest_schedule]
    cases broken with
    | none => exact congrArg (fun b => (Except.ok b, after)) (accepts_eq same _)
    | some e => rfl

/-- The checksum is given in capitals and behind a blank, and the file is read in two pieces. -/
theorem capitals_verified :
    let schedule : Schedule "abc".toUTF8 := ⟨["a".toUTF8, "bc".toUTF8], by decide, rfl⟩
    let w : Surroundings := { command := fun _ _ t => (.ok ⟨some 0, ""⟩, t) }
    let h := { Machine.host w with openFile := fun _ => pure (schedule.stream none) }
    let c : Checksum := ⟨.md5, "900150983cd24fb0d6963f7d28e17f72"⟩
    parse " 900150983CD24FB0D6963F7D28E17F72" = .ok c ∧
      h.openFile "/abc" {} = (.ok (schedule.stream none), {}) ∧
      c.verifyFile h "/abc" {} = (.ok true, {}) := by
  intro schedule w h c
  have parsed : parse " 900150983CD24FB0D6963F7D28E17F72" = .ok c := by decide +kernel
  obtain ⟨expected, denoted, -, verified⟩ := (digest_any_reads schedule none).2 _ c parsed
  have hash : c.algorithm.hash.ofBytes "abc".toUTF8 = expected := by
    apply Option.some.inj
    rw [← denoted]
    decide +kernel
  refine ⟨parsed, rfl, ?_⟩
  rw [verified h "/abc" {} {} rfl, hash, decide_eq_true rfl]

end Checksum

end MolecularTools
