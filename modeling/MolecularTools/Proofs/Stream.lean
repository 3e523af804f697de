import MolecularTools.Stream

/-! Reads of a stream. Whoever reads asks for at most so many bytes at a time and is given what is
left of the stream's next chunk, as far as asked for; nothing is given at the end only. So every
stream without empty chunks is a schedule for the bytes that it delivers: one way of cutting them
into reads. -/
namespace MolecularTools

section

variable {c : ByteArray}

theorem extract_split (c : ByteArray) (n : Nat) : c.extract 0 n ++ c.extract n c.size = c := by
  rw [ByteArray.extract_append_extract, Nat.zero_min, ByteArray.extract_zero_max_size]

theorem extract_whole (short : c.size ≤ n) : c.extract 0 n = c := by
  rw [← Nat.max_eq_left short, ByteArray.extract_zero_max_size]

theorem size_front (long : n < c.size) : (c.extract 0 n).size = n := by
  rw [ByteArray.size_extract, Nat.min_eq_left (Nat.le_of_lt long), Nat.sub_zero]

end

/-- A way to deliver some bytes in reads, none of which brings nothing. -/
structure Schedule (content : ByteArray) where
  reads : List ByteArray
  filled : ∀ c ∈ reads, 0 < c.size
  delivers : Stream.bytes { chunks := reads } = content

namespace Stream

def read (s : Stream) (n : Nat) : Except IoError (ByteArray × Stream) :=
  match s.chunks with
  | [] => match s.broken with
    | some e => .error e
    | none => .ok (.empty, s)
  | c :: cs =>
    if c.size ≤ n then .ok (c, { s with chunks := cs })
    else .ok (c.extract 0 n, { s with chunks := c.extract n c.size :: cs })

/-- Asks for what is missing of `n` bytes until nothing is missing or nothing is given. -/
def gather (s : Stream) (n : Nat) : Except IoError (ByteArray × Stream) :=
  if n = 0 then .ok (.empty, s)
  else match s.read n with
    | .error e => .error e
    | .ok (piece, rest) =>
      if piece.size = 0 then .ok (.empty, rest)
      else do
        let (more, rest) ← gather rest (n - piece.size)
        .ok (piece ++ more, rest)
termination_by n

variable {c : ByteArray} {cs : List ByteArray}

theorem foldl_append (front : ByteArray) (chunks : List ByteArray) :
    chunks.foldl (· ++ ·) front = front ++ bytes { chunks } := by
  rw [bytes]
  induction chunks generalizing front with
  | nil => rw [List.foldl_nil, List.foldl_nil, ByteArray.append_empty]
  | cons c cs ih =>
    rw [List.foldl_cons, List.foldl_cons, ih, ByteArray.empty_append, ih c, ByteArray.append_assoc]

theorem bytes_cons (c : ByteArray) (cs : List ByteArray) :
    bytes { chunks := c :: cs } = c ++ bytes { chunks := cs } := by
  rw [bytes, List.foldl_cons, ByteArray.empty_append, foldl_append]

theorem read_short (short : c.size ≤ n) (broken : Option IoError) :
    read ⟨c :: cs, broken⟩ n = .ok (c, ⟨cs, broken⟩) := if_pos short

theorem read_long (long : n < c.size) (broken : Option IoError) :
    read ⟨c :: cs, broken⟩ n = .ok (c.extract 0 n, ⟨c.extract n c.size :: cs, broken⟩) :=
  if_neg (Nat.not_le.mpr long)

/-- What is given and what is left are what there was. -/
theorem read_bytes {s : Stream} (given : s.read n = .ok (piece, rest)) :
    piece ++ rest.bytes = s.bytes := by
  obtain ⟨chunks, broken⟩ := s
  cases chunks with
  | nil =>
    cases broken with
    | none =>
      obtain ⟨rfl, rfl⟩ := Prod.mk.inj (Except.ok.inj given)
      rfl
    | some e => contradiction
  | cons c cs =>
    by_cases short : c.size ≤ n
    · rw [read_short short] at given
      obtain ⟨rfl, rfl⟩ := Prod.mk.inj (Except.ok.inj given)
      exact (bytes_cons _ _).symm
    · rw [read_long (Nat.not_le.mp short)] at given
      obtain ⟨rfl, rfl⟩ := Prod.mk.inj (Except.ok.inj given)
      show _ ++ bytes { chunks := _ :: cs } = bytes { chunks := c :: cs }
      rw [bytes_cons, bytes_cons, ← ByteArray.append_assoc, extract_split]

theorem gather_ended (wanted : n ≠ 0) {s : Stream} (ended : s.read n = .ok (.empty, rest)) :
    s.gather n = .ok (.empty, rest) := by
  rw [gather, if_neg wanted, ended]
  rfl

theorem gather_failed (wanted : n ≠ 0) {s : Stream} (failed : s.read n = .error e) :
    s.gather n = .error e := by
  rw [gather, if_neg wanted, failed]

theorem gather_given (wanted : n ≠ 0) {s : Stream} (given : s.read n = .ok (piece, rest))
    (some : 0 < piece.size) :
    s.gather n = (rest.gather (n - piece.size)).map fun r => (piece ++ r.1, r.2) := by
  rw [gather, if_neg wanted, given]
  dsimp only
  rw [if_neg (Nat.ne_of_gt some)]
  cases rest.gather (n - piece.size) <;> rfl

theorem take_short (short : c.size ≤ n) (wanted : n ≠ 0) (broken : Option IoError) :
    take ⟨c :: cs, broken⟩ n =
      (take ⟨cs, broken⟩ (n - c.size)).map fun r => (c ++ r.1, r.2) := by
  have less (front : ByteArray) : (c ++ front).size < n ↔ front.size < n - c.size := by
    rw [ByteArray.size_append]
    omega
  cases broken with
  | none => simp only [take, splitChunks, if_neg wanted, if_pos short, Except.map]
  | some e =>
    simp only [take, splitChunks, if_neg wanted, if_pos short, less]
    split <;> rfl

theorem take_long (long : n < c.size) (wanted : n ≠ 0) (broken : Option IoError) :
    take ⟨c :: cs, broken⟩ n = .ok (c.extract 0 n, ⟨c.extract n c.size :: cs, broken⟩) := by
  have split : splitChunks n (c :: cs) = (c.extract 0 n, c.extract n c.size :: cs) := by
    rw [splitChunks, if_neg wanted, if_neg (Nat.not_le.mpr long)]
  cases broken with
  | none => simp only [take, split]
  | some e => simp only [take, split, size_front long, if_neg (Nat.lt_irrefl n)]

theorem gather_zero (s : Stream) : s.gather 0 = .ok (.empty, s) := by
  rw [gather, if_pos rfl]

theorem take_zero (s : Stream) : s.take 0 = .ok (.empty, s) := by
  obtain ⟨chunks, broken⟩ := s
  cases chunks <;> cases broken <;> rfl

/-- Where no chunk is empty, asking again and again brings what is taken off at once. By induction
on the chunks: each request uses up the first one or cuts it. -/
theorem gather_eq_take {chunks : List ByteArray} (filled : ∀ c ∈ chunks, 0 < c.size)
    (broken : Option IoError) (n : Nat) : gather ⟨chunks, broken⟩ n = take ⟨chunks, broken⟩ n := by
  induction chunks generalizing n with
  | nil =>
    by_cases wanted : n = 0
    · rw [wanted, gather_zero, take_zero]
    cases broken with
    | none => exact gather_ended wanted rfl
    | some e =>
      rw [gather_failed wanted rfl, take]
      exact (if_pos (Nat.pos_of_ne_zero wanted)).symm
  | cons c cs ih =>
    have some : 0 < c.size := filled c List.mem_cons_self
    by_cases wanted : n = 0
    · rw [wanted, gather_zero, take_zero]
    by_cases short : c.size ≤ n
    · rw [gather_given wanted (read_short short broken) some, take_short short wanted,
        ih fun c member => filled c (List.mem_cons_of_mem _ member)]
    · have long := Nat.not_le.mp short
      rw [gather_given wanted (read_long long broken) (by rw [size_front long]; omega),
        take_long long wanted, size_front long, Nat.sub_self, gather_zero]
      simp only [Except.map, ByteArray.append_empty]

/-- What is taken off a stream are the first bytes, and behind them the others stay. -/
theorem take_whole (chunks : List ByteArray) (n : Nat) :
    ∃ rest : List ByteArray,
      take { chunks } n = .ok ((bytes { chunks }).extract 0 n, { chunks := rest }) ∧
      (bytes { chunks }).extract 0 n ++ bytes { chunks := rest } = bytes { chunks } := by
  induction chunks generalizing n with
  | nil =>
    have none : (bytes {}).extract 0 n = .empty := extract_whole (Nat.zero_le n)
    exact ⟨[], by rw [none]; rfl, by rw [none]; rfl⟩
  | cons c cs ih =>
    by_cases wanted : n = 0
    · subst wanted
      refine ⟨c :: cs, ?_, ?_⟩
      · rw [take_zero, ByteArray.extract_same]
      · rw [ByteArray.extract_same, ByteArray.empty_append]
    rw [bytes_cons]
    by_cases short : c.size ≤ n
    · obtain ⟨rest, taken, joined⟩ := ih (n - c.size)
      have front : (c ++ bytes { chunks := cs }).extract 0 n =
          c ++ (bytes { chunks := cs }).extract 0 (n - c.size) := by
        rw [ByteArray.extract_append, extract_whole short, Nat.zero_sub]
      refine ⟨rest, ?_, ?_⟩
      · rw [take_short short wanted, taken, front]
        rfl
      · rw [front, ByteArray.append_assoc, joined]
    · have long := Nat.not_le.mp short
      have front : (c ++ bytes { chunks := cs }).extract 0 n = c.extract 0 n := by
        rw [ByteArray.extract_append, Nat.sub_eq_zero_of_le (Nat.le_of_lt long), Nat.zero_sub,
          ByteArray.extract_same, ByteArray.append_empty]
      refine ⟨c.extract n c.size :: cs, ?_, ?_⟩
      · rw [take_long long wanted, front]
      · rw [front, bytes_cons, ← ByteArray.append_assoc, extract_split]

end Stream

namespace Schedule

variable {content : ByteArray}

def stream (schedule : Schedule content) (broken : Option IoError) : Stream :=
  ⟨schedule.reads, broken⟩

/-- A request is given some of the bytes if there are any, and the others are delivered behind
them. Else it comes to the end, or to where the stream breaks off. -/
theorem read_cases (schedule : Schedule content) (broken : Option IoError) (wanted : 0 < n) :
    (content = .empty ∧ (schedule.stream broken).read n =
      match broken with
      | some e => .error e
      | none => .ok (.empty, schedule.stream none)) ∨
    ∃ (piece rest : ByteArray) (later : Schedule rest), content = piece ++ rest ∧
      0 < piece.size ∧ (schedule.stream broken).read n = .ok (piece, later.stream broken) := by
  obtain ⟨reads, filled, rfl⟩ := schedule
  cases reads with
  | nil =>
    refine .inl ⟨rfl, ?_⟩
    cases broken <;> rfl
  | cons c cs =>
    refine .inr ?_
    have some : 0 < c.size := filled c List.mem_cons_self
    have others : ∀ d ∈ cs, 0 < d.size := fun d member => filled d (List.mem_cons_of_mem _ member)
    by_cases short : c.size ≤ n
    · exact ⟨c, _, ⟨cs, others, rfl⟩, Stream.bytes_cons c cs, some, Stream.read_short short broken⟩
    · have long := Nat.not_le.mp short
      have behind : 0 < (c.extract n c.size).size := by
        rw [ByteArray.size_extract, Nat.min_self]
        omega
      refine ⟨c.extract 0 n, _, ⟨c.extract n c.size :: cs, ?_, rfl⟩, ?_, ?_, ?_⟩
      · exact List.forall_mem_cons.mpr ⟨behind, others⟩
      · rw [Stream.bytes_cons, Stream.bytes_cons, ← ByteArray.append_assoc, extract_split]
      · rw [size_front long]
        exact wanted
      · exact Stream.read_long long broken

end Schedule

end MolecularTools
