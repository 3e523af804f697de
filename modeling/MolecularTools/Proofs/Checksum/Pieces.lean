import MolecularTools.Checksum.Digest

/-! Hashes of data that arrives in pieces. A compression reads one block and nothing else, so what
was compressed of the pieces so far is what is compressed of the data as a whole. -/
namespace MolecularTools.Checksum

theorem byteAt_append_left {front : ByteArray} (within : i < front.size) (back : ByteArray) :
    byteAt (front ++ back) i = byteAt front i := by
  have whole : i < (front ++ back).size := by
    rw [ByteArray.size_append]
    omega
  rw [byteAt, byteAt, dif_pos whole, dif_pos within, ByteArray.getElem_append_left within]

theorem byteAt_append_right (front back : ByteArray) (i : Nat) :
    byteAt (front ++ back) (front.size + i) = byteAt back i := by
  by_cases within : i < back.size
  · have whole : front.size + i < (front ++ back).size := by
      rw [ByteArray.size_append]
      omega
    rw [byteAt, byteAt, dif_pos whole, dif_pos within,
      ByteArray.getElem_append_right (Nat.le_add_right _ _)]
    simp only [Nat.add_sub_cancel_left]
  · have beyond : ¬front.size + i < (front ++ back).size := by
      rw [ByteArray.size_append]
      omega
    rw [byteAt, byteAt, dif_neg beyond, dif_neg within]

def SameBlock (data data' : ByteArray) (i j : Nat) : Prop :=
  ∀ k < blockSize, byteAt data (i + k) = byteAt data' (j + k)

theorem SameBlock.byte (same : SameBlock data data' i j) (word : k < 16) (part : n < 4) :
    byteAt data (i + 4 * k + n) = byteAt data' (j + 4 * k + n) := by
  rw [Nat.add_assoc, Nat.add_assoc]
  exact same (4 * k + n) (by rw [blockSize]; omega)

namespace Md5

theorem wordAt_congr (same : SameBlock data data' i j) (bound : k < 16) :
    wordAt data i k = wordAt data' j k := by
  have byte (n : Nat) (part : n < 4) := same.byte bound part
  simp only [wordAt, byte 0 (by decide), byte 1 (by decide), byte 2 (by decide),
    byte 3 (by decide)]

theorem mix_bound (i : Nat) (w : Words) : (mix i w).2 < 16 := by
  simp only [mix]
  split
  · assumption
  split
  · exact Nat.mod_lt _ (by decide)
  split
  · exact Nat.mod_lt _ (by decide)
  · exact Nat.mod_lt _ (by decide)

theorem compress_congr (w : Words) (same : SameBlock data data' i j) :
    compress w data i = compress w data' j := by
  have rounds : (fun r (_ : r < 64) v => round data i r v) = fun r _ v => round data' j r v := by
    funext r _ v
    simp only [round, wordAt_congr same (mix_bound r v)]
  simp only [compress, rounds]

end Md5

namespace Sha256

theorem wordAt_congr (same : SameBlock data data' i j) (bound : k < 16) :
    wordAt data i k = wordAt data' j k := by
  have byte (n : Nat) (part : n < 4) := same.byte bound part
  simp only [wordAt, byte 0 (by decide), byte 1 (by decide), byte 2 (by decide),
    byte 3 (by decide)]

theorem schedule_congr (same : SameBlock data data' i j) : schedule data i = schedule data' j := by
  have words : (List.range 16).map (wordAt data i) = (List.range 16).map (wordAt data' j) :=
    List.map_congr_left fun k member => wordAt_congr same (List.mem_range.mp member)
  simp only [schedule, words]

theorem compress_congr (v : Words) (same : SameBlock data data' i j) :
    compress v data i = compress v data' j := by
  simp only [compress, schedule_congr same]

end Sha256

namespace BlockHash

/-- Compression reads the block at its place and nothing else. -/
def Blockwise (h : BlockHash) : Prop :=
  ∀ chain {data data' i j}, SameBlock data data' i j →
    h.compress chain data i = h.compress chain data' j

theorem blockwise_algorithm (a : Algorithm) : a.hash.Blockwise := by
  cases a with
  | md5 => exact fun chain _ _ _ _ same => Md5.compress_congr chain same
  | sha256 => exact fun chain _ _ _ _ same => Sha256.compress_congr chain same

/-- What was hashed of some bytes: their first blocks are compressed, and the rest is pending. -/
inductive Covers (h : BlockHash) : Progress h → ByteArray → Prop
  | cut (blocks pending : ByteArray) (whole : blocks.size = blockSize * n) :
      Covers h ⟨h.compressBlocks h.start blocks n, pending, (blocks ++ pending).size⟩
        (blocks ++ pending)

theorem covers_begin (h : BlockHash) : Covers h h.begin .empty :=
  .cut .empty .empty (Nat.mul_zero blockSize).symm

variable {h : BlockHash} {front : ByteArray}

theorem compressBlocks_succ (chain : h.Chain) (data : ByteArray) (n : Nat) :
    h.compressBlocks chain data (n + 1) =
      h.compress (h.compressBlocks chain data n) data (blockSize * n) :=
  Nat.fold_succ ..

theorem compressBlocks_left (blockwise : h.Blockwise) (chain : h.Chain)
    (enough : blockSize * n ≤ front.size) (back : ByteArray) :
    h.compressBlocks chain (front ++ back) n = h.compressBlocks chain front n := by
  induction n with
  | zero => rfl
  | succ n ih =>
    rw [Nat.mul_succ] at enough
    have block : SameBlock (front ++ back) front (blockSize * n) (blockSize * n) :=
      fun k bound => byteAt_append_left (by omega) back
    rw [compressBlocks_succ, compressBlocks_succ, ih (by omega), blockwise _ block]

/-- Blocks behind whole blocks are compressed as if they stood alone. -/
theorem compressBlocks_append (blockwise : h.Blockwise) (chain : h.Chain)
    (whole : front.size = blockSize * m) (back : ByteArray) (n : Nat) :
    h.compressBlocks chain (front ++ back) (m + n) =
      h.compressBlocks (h.compressBlocks chain front m) back n := by
  induction n with
  | zero => exact compressBlocks_left blockwise chain (Nat.le_of_eq whole.symm) back
  | succ n ih =>
    have block : SameBlock (front ++ back) back (blockSize * (m + n)) (blockSize * n) := by
      intro k _
      rw [Nat.mul_add, ← whole, Nat.add_assoc]
      exact byteAt_append_right front back _
    rw [← Nat.add_assoc, compressBlocks_succ, compressBlocks_succ, ih, blockwise _ block]

/-- A further piece completes blocks, which are compressed, and leaves a new rest. -/
theorem Covers.update (blockwise : h.Blockwise) (covers : Covers h p bytes) (piece : ByteArray) :
    Covers h (h.update p piece) (bytes ++ piece) := by
  cases covers with
  | @cut n blocks pending whole =>
    let data := pending ++ piece
    let m := data.size / blockSize
    let front := data.extract 0 (blockSize * m)
    let back := data.extract (blockSize * m) data.size
    have within : blockSize * m ≤ data.size := Nat.mul_div_le _ _
    have cut : data = front ++ back := by
      rw [← ByteArray.extract_eq_extract_append_extract _ (Nat.zero_le _) within,
        ByteArray.extract_zero_size]
    have size : front.size = blockSize * m := by
      rw [ByteArray.size_extract, Nat.min_eq_left within, Nat.sub_zero]
    have bytes : blocks ++ pending ++ piece = (blocks ++ front) ++ back := by
      rw [ByteArray.append_assoc, ByteArray.append_assoc, ← cut]
    have chain : h.compressBlocks (h.compressBlocks h.start blocks n) data m =
        h.compressBlocks h.start (blocks ++ front) (n + m) := by
      rw [compressBlocks_append blockwise _ whole, cut,
        compressBlocks_left blockwise _ (Nat.le_of_eq size.symm)]
    have updated : h.update ⟨h.compressBlocks h.start blocks n, pending, (blocks ++ pending).size⟩
        piece = ⟨h.compressBlocks h.start (blocks ++ front) (n + m), back,
          ((blocks ++ front) ++ back).size⟩ := by
      rw [← chain, ← bytes, ByteArray.size_append (a := blocks ++ pending)]
      rfl
    rw [updated, bytes]
    refine .cut _ back ?_
    rw [ByteArray.size_append, whole, size, Nat.mul_add]

/-- Padding and compressing what is pending ends as if all were padded and compressed at once. -/
theorem Covers.finish (blockwise : h.Blockwise) (covers : Covers h p bytes) :
    h.finish p = h.ofBytes bytes := by
  cases covers with
  | @cut n blocks pending whole =>
    have count (rest : ByteArray) :
        (blocks ++ rest).size / blockSize = n + rest.size / blockSize := by
      rw [ByteArray.size_append, whole, Nat.mul_add_div (by decide)]
    simp only [BlockHash.finish, ofBytes, ByteArray.append_assoc, count,
      compressBlocks_append blockwise _ whole]

theorem Covers.updates (blockwise : h.Blockwise) (covers : Covers h p bytes)
    (pieces : List ByteArray) :
    Covers h (pieces.foldl h.update p) (pieces.foldl (· ++ ·) bytes) := by
  induction pieces generalizing p bytes with
  | nil => exact covers
  | cons piece pieces ih => exact ih (covers.update blockwise piece)

/-- However data is cut into pieces, its hash is that of the data at hand. -/
theorem ofPieces_eq_ofBytes (blockwise : h.Blockwise) (pieces : List ByteArray) :
    h.ofPieces pieces = h.ofBytes (pieces.foldl (· ++ ·) .empty) :=
  ((covers_begin h).updates blockwise pieces).finish blockwise

end BlockHash

end MolecularTools.Checksum
