import MolecularTools.Proofs.Table.Reader
import MolecularTools.Proofs.Writer

/-! Tables that were sampled, written and read again. The label is one word and the samples are
numbered from one, so the reader gets back what the table holds, and nothing is left behind it. -/
namespace MolecularTools

namespace Sampling

variable {α : Type} [Scalar α]

theorem tabulate_succeeds {s : Sampling} (enough : 2 ≤ s.points) {label : String}
    (word : isWord label = true) (step : α) (p : Potential α) (units : Units) :
    ∃ t, s.tabulate step p label units = .ok t := by
  rw [tabulate, if_neg (Nat.not_lt.mpr enough), word]
  exact ⟨_, rfl⟩

variable {s : Sampling} {step : α} {p : Potential α} {label : String} {units : Units}
  {t : AngleTable α}

theorem tabulate_accepts (tabulated : s.tabulate step p label units = .ok t) :
    2 ≤ s.points ∧ isWord label = true := by
  rw [tabulate] at tabulated
  by_cases few : s.points < 2
  · rw [if_pos few] at tabulated
    contradiction
  · rw [if_neg few] at tabulated
    cases word : isWord label with
    | true => exact ⟨Nat.not_lt.mp few, rfl⟩
    | false =>
      rw [word] at tabulated
      contradiction

/-- What is in a table that a potential was sampled into. A shift changes energies only. -/
theorem tabulate_ok (tabulated : s.tabulate step p label units = .ok t) :
    t.label = label ∧ t.units = units ∧
      (t.samples = s.samples step p ∨ ∃ least, t.samples = (s.samples step p).map (lowered least)) := by
  obtain ⟨enough, word⟩ := tabulate_accepts tabulated
  rw [tabulate, if_neg (Nat.not_lt.mpr enough), word] at tabulated
  cases tabulated
  refine ⟨rfl, rfl, ?_⟩
  dsimp only
  split
  · exact .inr ⟨_, rfl⟩
  · exact .inl rfl

/-- The units are a word of the header and change nothing else. -/
theorem tabulate_units (tabulated : s.tabulate step p label units = .ok t) (other : Units) :
    s.tabulate step p label other = .ok { t with units := other } := by
  obtain ⟨enough, word⟩ := tabulate_accepts tabulated
  rw [tabulate, if_neg (Nat.not_lt.mpr enough), word] at tabulated ⊢
  cases tabulated
  rfl

theorem samples_length (tabulated : s.tabulate step p label units = .ok t) :
    t.samples.length = s.points := by
  obtain ⟨-, -, plain | ⟨least, shifted⟩⟩ := tabulate_ok tabulated
  · simp [plain, samples]
  · simp [shifted, samples]

/-- Samples are numbered from one, in their order. -/
theorem index_of_sample (tabulated : s.tabulate step p label units = .ok t)
    {q : Sample α} (there : t.samples[i]? = some q) : q.index = i + 1 := by
  obtain ⟨-, -, plain | ⟨least, shifted⟩⟩ := tabulate_ok tabulated
  · rw [plain, samples, List.getElem?_map] at there
    obtain ⟨j, at_i, rfl⟩ := Option.map_eq_some_iff.mp there
    obtain ⟨-, rfl⟩ := List.getElem?_eq_some_iff.mp at_i
    simp [sample]
  · rw [shifted, samples, List.map_map, List.getElem?_map] at there
    obtain ⟨j, at_i, rfl⟩ := Option.map_eq_some_iff.mp there
    obtain ⟨-, rfl⟩ := List.getElem?_eq_some_iff.mp at_i
    simp [sample, lowered]

end Sampling

namespace Layout

/-- A reader finds the rows of a sampled table in their order. -/
theorem rows_in_order {s : Sampling} {step : Float} {p : Potential Float} {label : String}
    {units : Units} {t : AngleTable Float} (tabulated : s.tabulate step p label units = .ok t) :
    (t.samples.map fun q => rowWords q.index q.angle q.energy q.force) =
      t.samples.mapIdx fun i q => rowWords (i + 1) q.angle q.energy q.force := by
  apply List.ext_getElem?
  intro i
  rw [List.getElem?_map, List.getElem?_mapIdx]
  cases there : t.samples[i]? with
  | none => rfl
  | some q => simp only [Option.map_some, Sampling.index_of_sample tabulated there]

/-- What is written of a sampled table is its header and its body. The body reads back as the
words of the table with nothing behind them, and it is the same in all units and under every
heading. -/
theorem written_table_reads_back {s : Sampling} {step : Float} {p : Potential Float}
    {label : String} {units : Units} {t : AngleTable Float}
    (tabulated : s.tabulate step p label units = .ok t) (h : Heading) {sink : Sink}
    (roomy : sink.Roomy) :
    (∃ after, t.write h Sink.writer sink = (.ok (), after) ∧ after.held = sink.held ++
      (String.ofList (unlines (header h units) ++ unlines (body t))).toUTF8) ∧
    read? (unlines (body t)) =
      some (⟨label.toList, s.points, (Decimal.general t.equilibrium 6).toList,
        t.samples.mapIdx fun i q => rowWords (i + 1) q.angle q.energy q.force⟩, []) ∧
    t.samples.length = s.points ∧
    ∀ other : Units, ∃ u, s.tabulate step p label other = .ok u ∧ body u = body t := by
  obtain ⟨-, word⟩ := Sampling.tabulate_accepts tabulated
  obtain ⟨rfl, rfl, -⟩ := Sampling.tabulate_ok tabulated
  have length := Sampling.samples_length tabulated
  refine ⟨?_, ?_, length, fun other => ⟨_, Sampling.tabulate_units tabulated other, rfl⟩⟩
  · obtain ⟨after, written, held⟩ := AngleTable.write_roomy roomy t h
    have parts : unlines (lines h t) = unlines (header h t.units) ++ unlines (body t) :=
      List.flatMap_append
    exact ⟨after, written, by rw [held, text, parts]⟩
  · have back := read?_body t word []
    rw [List.append_nil, length, rows_in_order tabulated] at back
    exact back

/-- The standard potential at two angles, into a sink that takes one byte at a time. -/
theorem standard_table_reads_back : ∃ t : AngleTable Float,
    Sampling.tabulate { points := 2 } differenceStep .standard "HARM" .real = .ok t ∧
    (∃ after : Sink, t.write ⟨"2024-06-03".toList, "two\nlines"⟩ Sink.writer
        { pace := some fun _ => 1 } = (.ok (), after) ∧
      after.held = .empty ++ (String.ofList
        (unlines (header ⟨"2024-06-03".toList, "two\nlines"⟩ .real) ++ unlines (body t))).toUTF8) ∧
    read? (unlines (body t)) =
      some (⟨"HARM".toList, 2, (Decimal.general t.equilibrium 6).toList,
        t.samples.mapIdx fun i q => rowWords (i + 1) q.angle q.energy q.force⟩, []) := by
  have word : isWord "HARM" = true := by decide +kernel
  have roomy : Sink.Roomy { pace := some fun _ => 1 } := ⟨rfl, rfl⟩
  obtain ⟨t, tabulated⟩ := Sampling.tabulate_succeeds (s := { points := 2 }) (Nat.le_refl 2)
    word differenceStep .standard .real
  obtain ⟨written, back, -, -⟩ :=
    written_table_reads_back tabulated ⟨"2024-06-03".toList, "two\nlines"⟩ roomy
  exact ⟨t, tabulated, written, back⟩

end Layout

end MolecularTools
