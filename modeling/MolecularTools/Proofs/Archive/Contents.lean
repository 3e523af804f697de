import MolecularTools.Archive.Extract
import MolecularTools.Machine.Unpack
import MolecularTools.Proofs.Stream
import MolecularTools.Proofs.Task

/-! What is taken for the content of an archive. Its first two bytes are looked at and stay part of
it, so it is the same bytes, from the first one on, that are recognised and that are extracted,
however the file is read. -/
namespace MolecularTools.Archive

/-- The list of some bytes, as its loop collects them. -/
theorem toList_loop (b : ByteArray) (i : Nat) (done : List UInt8) :
    ByteArray.toList.loop b i done = done.reverse ++ b.data.toList.drop i := by
  fun_induction ByteArray.toList.loop b i done with
  | case1 i done within ih =>
    have here : i < b.data.toList.length := within
    rw [ih, List.drop_eq_getElem_cons here]
    simp [ByteArray.get!, within]
  | case2 i done beyond =>
    rw [List.drop_eq_nil_of_le (Nat.le_of_not_lt beyond), List.append_nil]

theorem toList_extract (b : ByteArray) (n : Nat) : (b.extract 0 n).toList = b.toList.take n := by
  have data (b : ByteArray) : b.toList = b.data.toList := toList_loop b 0 []
  rw [data, data, ByteArray.data_extract]
  simp

/-- What a file with these bytes holds: what they are the compression of if they begin with the
mark of one, and else the bytes themselves. -/
def holding (content : ByteArray) : Source :=
  if gzipMark <+: content.toList then Gzip.decode content else { bytes := content }

theorem marked_iff (content : ByteArray) :
    (content.extract 0 2).toList = gzipMark ↔ gzipMark <+: content.toList := by
  rw [toList_extract, List.prefix_iff_eq_take]
  exact eq_comm

theorem contents_whole (chunks : List ByteArray) :
    contents { chunks } = .ok (holding (Stream.bytes { chunks })) := by
  obtain ⟨rest, taken, joined⟩ := Stream.take_whole chunks 2
  have all : Source.ofStream
      { chunks := (Stream.bytes { chunks }).extract 0 2 :: rest } =
        { bytes := Stream.bytes { chunks } } := by
    rw [Source.ofStream, Stream.bytes_cons, joined]
    rfl
  rw [contents, taken]
  show Except.ok _ = _
  simp only [all, holding, marked_iff]

variable {σ : Type} {h : Host σ} {unpack : Source → String → Task σ Unit} {p : String} {s : σ}

theorem openAt_opened (opened : h.openFile p s = (.ok data, after))
    (inside : contents data = .ok source) : openAt h p s = (.ok source, after) := by
  rw [openAt, Task.bind_apply, Task.within_apply, opened]
  simp [inside]

theorem isArchive_opened (opened : openAt h p s = (.ok source, after)) :
    (extractor h unpack).isArchive p s = (.ok (hasMember source), after) := by
  simp only [extractor, Task.bind_apply, Task.outcome_apply, opened]
  rfl

theorem extract_opened (made : h.makeDirectories directory s = (.ok (), middle))
    (opened : openAt h p middle = (.ok source, after)) :
    (extractor h unpack).extract p directory s =
      (unpack source directory).within
        ("Failed to extract " ++ Text.quoted p ++ " to " ++ Text.quoted directory) after := by
  simp only [extractor, Task.bind_apply, made, opened]

/-- Looking at the first two bytes loses none. However a file is cut into reads, they are the first
two of it, or all if there are fewer, and with what is read behind them they are the whole file. So
the archive is what the file is the compression of if it begins with the mark of one, and the file
from its first byte on otherwise; this is what is recognised and, though it be cut in another way,
what is extracted. -/
theorem contents_any_reads (asked extracted : Schedule content) :
    (∃ front rest, (asked.stream none).gather 2 = .ok (front, ⟨rest, none⟩) ∧
      front = content.extract 0 2 ∧ Stream.bytes { chunks := front :: rest } = content) ∧
    contents (asked.stream none) = .ok (holding content) ∧
    ∀ {σ : Type} (h : Host σ) (unpack : Source → String → Task σ Unit) (p directory : String),
      (∀ s after, h.openFile p s = (.ok (asked.stream none), after) →
        (extractor h unpack).isArchive p s = (.ok (hasMember (holding content)), after)) ∧
      ∀ s middle after, h.makeDirectories directory s = (.ok (), middle) →
        h.openFile p middle = (.ok (extracted.stream none), after) →
        (extractor h unpack).extract p directory s =
          (unpack (holding content) directory).within
            ("Failed to extract " ++ Text.quoted p ++ " to " ++ Text.quoted directory) after := by
  have whole (schedule : Schedule content) :
      contents (schedule.stream none) = .ok (holding content) := by
    rw [Schedule.stream, contents_whole, schedule.delivers]
  refine ⟨?_, whole asked, fun h unpack p directory => ⟨?_, ?_⟩⟩
  · obtain ⟨rest, taken, joined⟩ := Stream.take_whole asked.reads 2
    rw [asked.delivers] at taken joined
    refine ⟨_, rest, ?_, rfl, ?_⟩
    · rw [Schedule.stream, Stream.gather_eq_take asked.filled, taken]
    · rw [Stream.bytes_cons, joined]
  · intro s after opened
    exact isArchive_opened (openAt_opened opened (whole asked))
  · intro s middle after made opened
    exact extract_opened made (openAt_opened opened (whole extracted))

/-- The mark of a compression that breaks off is read in two pieces when the file is recognised, and
at once when it is extracted. -/
theorem split_mark_refused :
    let content : ByteArray := ⟨#[0x1f, 0x8b, 0x08]⟩
    let asked : Schedule content := ⟨[⟨#[0x1f]⟩, ⟨#[0x8b, 0x08]⟩], by decide, rfl⟩
    let extracted : Schedule content := ⟨[content], by decide, rfl⟩
    let w : Surroundings := { command := fun _ _ t => (.ok ⟨some 0, ""⟩, t) }
    let h (schedule : Schedule content) := { Machine.host w with
      makeDirectories := fun _ => pure ()
      openFile := fun _ => pure (schedule.stream none) }
    gzipMark <+: content.toList ∧
      (h asked).openFile "/a" {} = (.ok (asked.stream none), {}) ∧
      (h extracted).openFile "/a" {} = (.ok (extracted.stream none), {}) ∧
      (extractor (h asked) Machine.unpack).isArchive "/a" {} = (.ok false, {}) ∧
      (extractor (h extracted) Machine.unpack).extract "/a" "/" {} =
        (Machine.unpack (Gzip.decode content) "/").within
          ("Failed to extract " ++ Text.quoted "/a" ++ " to " ++ Text.quoted "/") {} := by
  intro content asked extracted w h
  have marked : gzipMark <+: content.toList := by decide +kernel
  have decoded : holding content = Gzip.decode content := if_pos marked
  have refused : hasMember (holding content) = false := by
    rw [decoded]
    decide +kernel
  obtain ⟨-, -, opened⟩ := contents_any_reads asked extracted
  refine ⟨marked, rfl, rfl, ?_, ?_⟩
  · rw [(opened (h asked) Machine.unpack "/a" "/").1 {} {} rfl, refused]
  · rw [(opened (h extracted) Machine.unpack "/a" "/").2 {} {} {} rfl rfl, decoded]

end MolecularTools.Archive
