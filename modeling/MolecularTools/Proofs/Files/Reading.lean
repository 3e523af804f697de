import MolecularTools.Proofs.Files.Pruning

/-! What reading a path can deliver. -/
namespace MolecularTools

theorem Stream.whole_inj {a b : ByteArray} (same : Stream.whole a = .whole b) : a = b := by
  have pieces : (if a.size = 0 then [] else [a]) = if b.size = 0 then [] else [b] :=
    congrArg Stream.chunks same
  split at pieces
  · split at pieces
    · rename_i emptyA emptyB
      rw [ByteArray.size_eq_zero_iff.mp emptyA, ByteArray.size_eq_zero_iff.mp emptyB]
    · contradiction
  · split at pieces
    · contradiction
    · exact (List.cons.inj pieces).1

theorem Stream.readAll_whole (bytes : ByteArray) : (whole bytes).readAll = .ok bytes := by
  simp only [readAll, whole, Stream.bytes]
  split
  · rename_i none
    rw [ByteArray.size_eq_zero_iff.mp none]
    rfl
  · exact congrArg Except.ok ByteArray.empty_append

namespace FileTree

/-- The path names a file with these bytes that can be read. -/
def Holds (t : FileTree) (p : String) (bytes : ByteArray) : Prop :=
  t.openToRead p = .ok (.whole bytes)

theorem Holds.unique {t : FileTree} (one : t.Holds p a) (other : t.Holds p b) : a = b :=
  Stream.whole_inj (Except.ok.inj (one.symm.trans other))

/-- A text that was written to a file is read from it. -/
theorem Holds.readText {t : FileTree} {s : String} (holds : t.Holds p s.toUTF8) :
    t.readText p = .ok s := by
  have opened : t.openToRead p = .ok (.whole s.toUTF8) := holds
  have text : String.fromUTF8? s.toUTF8 = some s := dif_pos s.isValidUTF8
  simp only [FileTree.readText, opened, bind, Except.bind, Stream.readAll_whole, text]

/-- A file is read as a whole, and of a directory nothing can be read. -/
theorem openToRead_cases {t : FileTree} (opened : t.openToRead p = .ok s) :
    (∃ bytes, s = .whole bytes) ∨ s = .failing .isDirectory := by
  obtain ⟨⟨l, node⟩, -, here⟩ := bind_eq_ok_iff.mp opened
  cases node with
  | file f =>
    dsimp only at here
    split at here
    · exact .inl ⟨f.bytes, (Except.ok.inj here).symm⟩
    · contradiction
  | link target => simp only [reduceCtorEq] at here
  | directory mode =>
    dsimp only at here
    split at here
    · exact .inr (Except.ok.inj here).symm
    · contradiction

/-- A file that can be opened can be read. -/
theorem holds_of_opened {t : FileTree} (found : t.lookup p = .ok (l, .file f))
    (opened : t.openToRead p = .ok s) : t.Holds p f.bytes := by
  have readable : t.openToRead p =
      if mayRead f.mode then .ok (.whole f.bytes) else .error .permission := by
    rw [openToRead, found]
    rfl
  rw [Holds]
  rw [readable] at opened ⊢
  split at opened
  · rw [if_pos ‹_›]
  · contradiction

end FileTree

end MolecularTools
