import GeoPolicy.CommandLine.Run
import GeoPolicy.Proofs.Parity

/-!
# What a difference tells

A report on two scripts that are not on a par tells the lines of each normal form that the other
one lacks. Parity compares the statements in order, and the difference asks only whether a
statement is there, so scripts that have the same statements in another order or number are told
apart without a line that says why.

## Main definitions

* `Parity.missingStatements` — the statements that another script lacks.
* `ParityReport.difference` — the lines that tell how two scripts differ.
-/

namespace GeoPolicy

open Text

namespace Parity

/-- The statements of a script that another one does not have. -/
def missingStatements (a b : String) : List (List Char) :=
  (statements a).filter (· ∉ statements b)

theorem missingLines_normalize (a b : String) :
    missingLines (normalize a) (normalize b) = (missingStatements a b).map String.ofList := by
  rw [missingLines, lines_normalize, lines_normalize, significantLines_eq_statements,
    significantLines_eq_statements]
  refine congrArg (List.map String.ofList) (List.filter_congr fun s _ => ?_)
  simp

theorem missingLines_normalize_eq_nil_iff (a b : String) :
    missingLines (normalize a) (normalize b) = [] ↔ ∀ s ∈ statements a, s ∈ statements b := by
  rw [missingLines_normalize, List.map_eq_nil_iff, missingStatements, List.filter_eq_nil_iff]
  simp

end Parity

namespace ParityReport

/-- The lines that tell how two scripts differ: first the lines that the second one lacks, then
those that the first one lacks. -/
def difference (r : ParityReport) : List String :=
  (Parity.missingLines r.normalizedA r.normalizedB).map ("- " ++ ·) ++
    (Parity.missingLines r.normalizedB r.normalizedA).map ("+ " ++ ·)

theorem difference_compare_eq_nil_iff (a b : String) :
    (compare a b).difference = [] ↔
      ∀ s, s ∈ Parity.statements a ↔ s ∈ Parity.statements b := by
  rw [difference, List.append_eq_nil_iff, List.map_eq_nil_iff, List.map_eq_nil_iff, compare]
  dsimp only
  rw [Parity.missingLines_normalize_eq_nil_iff, Parity.missingLines_normalize_eq_nil_iff]
  simp only [iff_def, forall_and]

/-- What is printed of a report: the digests, and whether the scripts are on a par or how they
differ. -/
theorem reportLines_eq (r : ParityReport) :
    CommandLine.reportLines r = [s!"local:  {r.digestA}", s!"remote: {r.digestB}"] ++
      if r.isMatch then ["Functional parity verified."]
      else "Functional logic mismatch:" :: r.difference := by
  rw [CommandLine.reportLines, difference, List.append_assoc, List.singleton_append]

/-- The lines that tell of a mismatch are the statements of each script that the other one does not
have, with a mark for the script. So a mismatch is told without any of them exactly if the scripts
have the same statements in another order or number. -/
theorem mismatch_unexplained_iff (a b : String) :
    (CommandLine.reportLines (compare a b) =
      [s!"local:  {(compare a b).digestA}", s!"remote: {(compare a b).digestB}"] ++
        if (compare a b).isMatch then ["Functional parity verified."]
        else "Functional logic mismatch:" ::
          ((Parity.missingStatements a b).map ("- " ++ String.ofList ·) ++
            (Parity.missingStatements b a).map ("+ " ++ String.ofList ·))) ∧
    ((compare a b).isMatch = false ∧
        Parity.missingStatements a b = [] ∧ Parity.missingStatements b a = [] ↔
      Parity.statements a ≠ Parity.statements b ∧
        ∀ s, s ∈ Parity.statements a ↔ s ∈ Parity.statements b) := by
  have hdifference : (compare a b).difference =
      (Parity.missingStatements a b).map ("- " ++ String.ofList ·) ++
        (Parity.missingStatements b a).map ("+ " ++ String.ofList ·) := by
    rw [difference, compare]
    dsimp only
    rw [Parity.missingLines_normalize, Parity.missingLines_normalize, List.map_map, List.map_map]
    rfl
  have hmatch : (compare a b).isMatch = false ↔ Parity.statements a ≠ Parity.statements b := by
    rw [← Bool.not_eq_true, isMatch_compare_iff_statements]
  constructor
  · rw [reportLines_eq, hdifference]
  · have hnil : Parity.missingStatements a b = [] ∧ Parity.missingStatements b a = [] ↔
        (compare a b).difference = [] := by
      rw [hdifference, List.append_eq_nil_iff, List.map_eq_nil_iff, List.map_eq_nil_iff]
    rw [hnil, hmatch, difference_compare_eq_nil_iff]

/-- A server that sends a script twice is not on a par with the compiler, and nothing tells why. -/
theorem difference_script_twice {t : Timestamp} {p : Policy} {c : CompiledPolicy}
    (h : Compiler.compile t p = .ok c) :
    (compare c.script (c.script ++ "\n" ++ c.script)).isMatch = false ∧
      (compare c.script (c.script ++ "\n" ++ c.script)).difference = [] := by
  have hne : Parity.statements c.script ≠ [] := by
    obtain ⟨variant, -, rfl⟩ := Script.compile_eq_ok_iff.1 h
    rw [← Parity.significantLines_eq_statements, Compiler.significantLines_script]
    exact fun hnil => by simp [Compiler.statements] at hnil
  constructor
  · rw [← Bool.not_eq_true, isMatch_compare_iff_statements, Parity.statements_append]
    exact fun hsame => hne (List.self_eq_append_left.1 hsame)
  · rw [difference_compare_eq_nil_iff, Parity.statements_append]
    exact fun s => by simp

/-- The default policy against a server that sends its script twice, and two normal forms of which
one repeats a statement. -/
theorem mismatch_unexplained_repeated :
    (∃ c, Compiler.compile ⟨0, 0⟩ Policy.default = .ok c ∧
      (compare c.script (c.script ++ "\n" ++ c.script)).isMatch = false ∧
      (compare c.script (c.script ++ "\n" ++ c.script)).difference = []) ∧
    Parity.normalize "nft list\nnft list" = "nft list\nnft list" ∧
    Parity.normalize "nft list" = "nft list" ∧ "nft list\nnft list" ≠ "nft list" ∧
    Parity.missingLines "nft list\nnft list" "nft list" = [] ∧
    Parity.missingLines "nft list" "nft list\nnft list" = [] := by
  have hcompile := (Script.compile_eq_ok_iff (t := ⟨0, 0⟩) (p := Policy.default)).2
    ⟨.addressSets, rfl, rfl⟩
  refine ⟨⟨_, hcompile, difference_script_twice hcompile⟩, ?_⟩
  decide +kernel

end ParityReport

end GeoPolicy
