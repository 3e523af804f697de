import MolecularTools.Proofs.Task
import MolecularTools.Table.Output

/-! What sinks hold of what is written to them. However few bytes a sink takes at a time, and
wherever a text is cut into writes, it ends up with the whole text, or with the first bytes of it
if its room is used up before. A table counts as written if it fits and the flush behind it
succeeds. -/
namespace MolecularTools

theorem Layout.toUTF8_unlines_cons (l : List Char) (ls : List (List Char)) :
    (String.ofList (unlines (l :: ls))).toUTF8 =
      (String.ofList (l ++ ['\n'])).toUTF8 ++ (String.ofList (unlines ls)).toUTF8 := by
  have text : String.ofList (unlines (l :: ls)) =
      String.ofList (l ++ ['\n']) ++ String.ofList (unlines ls) := by
    rw [← String.ofList_append]
    rfl
  rw [text]
  rfl

namespace Sink

/-- Takes everything that it is offered, in portions of any size. -/
def Roomy (s : Sink) : Prop := s.room = none ∧ s.flushFails = false

section

/-! Room, as a number of bytes or without an end. -/

def fits (room : Option Nat) (n : Nat) : Bool := room.all fun k => n ≤ k

def left (room : Option Nat) (n : Nat) : Option Nat := room.map (· - n)

def kept (room : Option Nat) (bytes : ByteArray) : ByteArray := room.elim bytes (bytes.extract 0)

variable {room : Option Nat} {bytes front : ByteArray}

theorem kept_fitting (enough : fits room bytes.size = true) : kept room bytes = bytes := by
  cases room with
  | none => rfl
  | some k =>
    have within : bytes.size ≤ k := by simpa [fits] using enough
    show bytes.extract 0 k = bytes
    rw [← Nat.max_eq_left within]
    exact ByteArray.extract_zero_max_size

theorem kept_append (enough : fits room front.size = true) (back : ByteArray) :
    kept room (front ++ back) = front ++ kept (left room front.size) back := by
  have whole := kept_fitting enough
  cases room with
  | none => rfl
  | some k =>
    show (front ++ back).extract 0 k = front ++ back.extract 0 (k - front.size)
    rw [ByteArray.extract_append, Nat.zero_sub]
    exact congrArg (· ++ _) whole

theorem fits_append (enough : fits room front.size = true) (back : ByteArray) :
    fits (left room front.size) back.size = fits room (front ++ back).size := by
  cases room with
  | none => rfl
  | some k =>
    have within : front.size ≤ k := by simpa [fits] using enough
    have same : back.size ≤ k - front.size ↔ front.size + back.size ≤ k := by omega
    simp [fits, left, ByteArray.size_append, same]

theorem left_append (room : Option Nat) (front back : ByteArray) :
    left (left room front.size) back.size = left room (front ++ back).size := by
  cases room with
  | none => rfl
  | some k => simp [left, ByteArray.size_append, Nat.sub_sub]

/-- What does not fit leaves nothing of what comes behind it. -/
theorem over_append (short : fits room front.size = false) (back : ByteArray) :
    fits room (front ++ back).size = false ∧ kept room (front ++ back) = kept room front ∧
      left room (front ++ back).size = left room front.size := by
  cases room with
  | none => contradiction
  | some k =>
    have less : k < front.size := by simpa [fits] using short
    refine ⟨?_, ?_, ?_⟩
    · simp only [fits, Option.all_some, ByteArray.size_append, decide_eq_false_iff_not]
      omega
    · show (front ++ back).extract 0 k = front.extract 0 k
      rw [ByteArray.extract_append, Nat.sub_eq_zero_of_le (Nat.le_of_lt less), Nat.zero_sub,
        ByteArray.extract_same, ByteArray.append_empty]
    · simp only [left, Option.map_some, ByteArray.size_append, Option.some.injEq]
      omega

end

/-- Offers these bytes. A sink with less room keeps the first of them and says that it is full. -/
def Fills (t : Task Sink Unit) (bytes : ByteArray) : Prop :=
  ∀ s, ∃ after, after.held = s.held ++ kept s.room bytes ∧ after.room = left s.room bytes.size ∧
    after.flushFails = s.flushFails ∧
    t s = (if fits s.room bytes.size then .ok () else .error (.ofIo .noSpace), after)

theorem fills_nothing : Fills (pure ()) .empty := by
  intro s
  have enough : fits s.room ByteArray.empty.size = true := by
    cases s.room <;> simp [fits]
  refine ⟨s, ?_, ?_, rfl, ?_⟩
  · rw [kept_fitting enough, ByteArray.append_empty]
  · cases s.room <;> simp [left]
  · simp only [enough, if_true, Task.pure_apply]

/-- Where bytes are cut into writes makes no difference. -/
theorem Fills.bind {t u : Task Sink Unit} {front back : ByteArray} (first : Fills t front)
    (second : Fills u back) : Fills (t >>= fun _ => u) (front ++ back) := by
  intro s
  obtain ⟨middle, held, room, flush, done⟩ := first s
  cases enough : fits s.room front.size with
  | true =>
    obtain ⟨after, holds, rest, flushed, ended⟩ := second middle
    rw [room] at holds rest ended
    refine ⟨after, ?_, ?_, flushed.trans flush, ?_⟩
    · rw [holds, held, kept_fitting enough, kept_append enough, ByteArray.append_assoc]
    · rw [rest, left_append]
    · rw [Task.bind_apply, done, if_pos enough]
      simp only [ended, fits_append enough]
  | false =>
    obtain ⟨short, same, none⟩ := over_append enough back
    refine ⟨middle, ?_, ?_, flush, ?_⟩
    · rw [held, same]
    · rw [room, none]
    · rw [Task.bind_apply, done, enough, short]
      rfl

/-- While there is room, a request takes at least one byte, and no more than there is room for. -/
theorem portion_bounds {s : Sink} (room : s.room ≠ some 0) (offered : 0 < n) :
    0 < s.portion n ∧ s.portion n ≤ n ∧ fits s.room (s.portion n) = true := by
  rw [portion]
  cases limit : s.room with
  | none =>
    cases s.pace with
    | none => exact ⟨offered, Nat.le_refl n, rfl⟩
    | some f =>
      refine ⟨?_, Nat.min_le_left n _, rfl⟩
      exact Nat.lt_min.mpr ⟨offered, Nat.le_max_left 1 _⟩
  | some k =>
    have some : 0 < k := Nat.pos_of_ne_zero fun none => room (none ▸ limit)
    cases s.pace with
    | none =>
      simp only [fits, Option.all_some, decide_eq_true_eq]
      omega
    | some f =>
      simp only [fits, Option.all_some, decide_eq_true_eq]
      omega

theorem accept_full {s : Sink} (full : s.room = some 0) (bytes : ByteArray) :
    accept bytes s = (.error (.ofIo .noSpace), s) := by
  have nothing : s.portion bytes.size = 0 := by
    rw [portion, full]
    exact Nat.min_zero _
  exact if_pos nothing

theorem accept_takes {s : Sink} (room : s.room ≠ some 0) {bytes : ByteArray}
    (offered : 0 < bytes.size) :
    ∃ n after, accept bytes s = (.ok n, after) ∧ 0 < n ∧ n ≤ bytes.size ∧ fits s.room n = true ∧
      after.held = s.held ++ bytes.extract 0 n ∧ after.room = left s.room n ∧
      after.flushFails = s.flushFails := by
  obtain ⟨some, within, enough⟩ := portion_bounds room offered
  exact ⟨s.portion bytes.size, _, if_neg (Nat.ne_of_gt some), some, within, enough, rfl, rfl, rfl⟩

/-- By induction on the requests that may be made. Each one takes a front part of what is offered,
until nothing or no room is left. -/
theorem writeWithin_fills {bytes : ByteArray} (enough : bytes.size ≤ fuel) :
    Fills (writeWithin fuel bytes) bytes := by
  induction fuel generalizing bytes with
  | zero =>
    obtain rfl : bytes = .empty := ByteArray.size_eq_zero_iff.mp (Nat.le_zero.mp enough)
    exact fills_nothing
  | succ fuel ih =>
    intro s
    rw [writeWithin]
    by_cases done : bytes.size = 0
    · rw [if_pos done, ByteArray.size_eq_zero_iff.mp done]
      exact fills_nothing s
    have offered : 0 < bytes.size := Nat.pos_of_ne_zero done
    rw [if_neg done]
    by_cases full : s.room = some 0
    · refine ⟨s, ?_, ?_, rfl, ?_⟩
      · simp [full, kept]
      · simp [full, left]
      · rw [Task.bind_apply, accept_full full]
        simp [full, fits, done]
    · obtain ⟨n, middle, accepted, some, within, room, held, rest, flush⟩ :=
        accept_takes full offered
      have split : bytes.extract 0 n ++ bytes.extract n bytes.size = bytes := by
        rw [← ByteArray.extract_eq_extract_append_extract n (Nat.zero_le n) within,
          ByteArray.extract_zero_size]
      have size : (bytes.extract 0 n).size = n := by
        rw [ByteArray.size_extract, Nat.min_eq_left within, Nat.sub_zero]
      have fewer : (bytes.extract n bytes.size).size ≤ fuel := by
        rw [ByteArray.size_extract, Nat.min_self]
        omega
      rw [← size] at room rest
      obtain ⟨after, holds, remains, flushed, ended⟩ := ih fewer middle
      rw [rest] at holds remains ended
      refine ⟨after, ?_, ?_, flushed.trans flush, ?_⟩
      · rw [holds, held, ByteArray.append_assoc, ← kept_append room, split]
      · rw [remains, left_append, split]
      · rw [Task.bind_apply, accepted]
        simp only [ended, fits_append room, split]

theorem writeAll_fills (bytes : ByteArray) : Fills (writeAll bytes) bytes :=
  writeWithin_fills (Nat.le_refl _)

theorem writeLines_fills (ls : List (List Char)) :
    Fills (writer.writeLines ls) (String.ofList (Layout.unlines ls)).toUTF8 := by
  induction ls with
  | nil => exact fills_nothing
  | cons l ls ih =>
    rw [Layout.toUTF8_unlines_cons]
    exact (writeAll_fills _).bind ih

end Sink

/-- Lines are written without a flush. -/
theorem Writer.writeLines_unflushed {σ : Type} (out : Writer σ) (flush : Task σ Unit)
    (ls : List (List Char)) : { out with flush }.writeLines ls = out.writeLines ls := by
  induction ls with
  | nil => rfl
  | cons l ls ih => simp only [Writer.writeLines, ih]

namespace AngleTable

/-- What a sink holds of a table, and when the flush is reached. -/
theorem write_fills (t : AngleTable Float) (h : Heading) (s : Sink) :
    ∃ after : Sink, after.held = s.held ++ Sink.kept s.room (Layout.text h t).toUTF8 ∧
      after.flushFails = s.flushFails ∧ ∀ flush, t.write h { Sink.writer with flush } s =
        if Sink.fits s.room (Layout.text h t).toUTF8.size then
          flush.within "Failed to flush table output" after
        else (.error (.ofIo .noSpace), after) := by
  obtain ⟨after, held, -, flushed, ended⟩ := Sink.writeLines_fills (Layout.lines h t) s
  refine ⟨after, held, flushed, fun flush => ?_⟩
  rw [write, Writer.writeLines_unflushed, Task.bind_apply, ended, Layout.text]
  cases Sink.fits s.room (String.ofList (Layout.unlines (Layout.lines h t))).toUTF8.size with
  | true => rfl
  | false => rfl

/-- A table reaches a roomy sink whole. -/
theorem write_roomy {s : Sink} (roomy : s.Roomy) (t : AngleTable Float) (h : Heading) :
    ∃ after, t.write h Sink.writer s = (.ok (), after) ∧
      after.held = s.held ++ (Layout.text h t).toUTF8 := by
  obtain ⟨after, held, flushed, written⟩ := t.write_fills h s
  have reached := written Sink.flush
  rw [roomy.1] at held reached
  refine ⟨after, reached.trans ?_, held⟩
  rw [Task.within_apply, Sink.flush, flushed, roomy.2]
  rfl

/-- A sink that takes bytes in portions of any size and gives out behind the first `k` holds the
first `k` bytes of the table then, or all if there are no more. The writing succeeds exactly if
there is room for all and the flush succeeds; without the room, no flush is made: whatever one
would do, nothing else happens. -/
theorem write_limited (t : AngleTable Float) (h : Heading) (s : Sink) (k : Nat) :
    ∃ result after, t.write h Sink.writer { s with room := some k } = (result, after) ∧
      after.held = s.held ++
        (Layout.text h t).toUTF8.extract 0 (min k (Layout.text h t).toUTF8.size) ∧
      (result = .ok () ↔ (Layout.text h t).toUTF8.size ≤ k ∧ s.flushFails = false) ∧
      (k < (Layout.text h t).toUTF8.size → result = .error (.ofIo .noSpace) ∧
        ∀ flush, t.write h { Sink.writer with flush } { s with room := some k } =
          (result, after)) := by
  obtain ⟨after, held, flushed, written⟩ := t.write_fills h { s with room := some k }
  have reached := written Sink.flush
  by_cases enough : (Layout.text h t).toUTF8.size ≤ k
  · have room : Sink.fits (some k) (Layout.text h t).toUTF8.size = true := decide_eq_true enough
    rw [if_pos room, Task.within_apply] at reached
    refine ⟨_, _, reached, ?_, ?_, fun short => absurd enough (Nat.not_le.mpr short)⟩
    · rw [Nat.min_eq_right enough, ByteArray.extract_zero_size, ← Sink.kept_fitting room]
      exact held
    · rw [and_iff_right enough, Sink.flush, flushed]
      cases s.flushFails <;> simp
  · have short : ¬Sink.fits (some k) (Layout.text h t).toUTF8.size = true :=
      mt of_decide_eq_true enough
    rw [if_neg short] at reached
    refine ⟨_, after, reached, ?_, ?_, fun _ => ⟨rfl, fun flush => ?_⟩⟩
    · rw [Nat.min_eq_left (Nat.le_of_not_le enough)]
      exact held
    · exact iff_of_false (by simp) fun both => enough both.1
    · rw [written flush, if_neg short]

end AngleTable

end MolecularTools
