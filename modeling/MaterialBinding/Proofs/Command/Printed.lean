import MaterialBinding.Command.Run

/-!
# What a run prints

The text of a run is told character by character: each line with a line feed behind it, one line
after the other (`Outcome.Prints`).  A run prints lines in this way, and succeeds, exactly if it
ends with `Outcome.success` (`Outcome.prints_iff`).
-/

namespace MaterialBinding.Command

/-- The lines of a text, each with a line feed behind it. -/
theorem toList_unlines (lines : List String) :
    (unlines lines).toList = lines.flatMap fun line => line.toList ++ ['\n'] := by
  induction lines with
  | nil => rfl
  | cons line rest ih =>
      have hjoin : unlines (line :: rest) = line ++ "\n" ++ unlines rest := by
        simp [unlines, String.join_cons]
      rw [hjoin, String.toList_append, String.toList_append, ih, List.flatMap_cons]
      rfl

namespace Outcome

variable {outcome : Outcome} {lines : List String}

/-- The run succeeds and prints these lines, each with a line feed behind it, and no errors. -/
structure Prints (outcome : Outcome) (lines : List String) : Prop where
  exit : outcome.exit = 0
  out : outcome.out.toList = lines.flatMap fun line => line.toList ++ ['\n']
  err : outcome.err = ""

/-- **What a run that succeeds prints.** -/
theorem prints_iff : outcome.Prints lines ↔ outcome = .success lines := by
  constructor
  · obtain ⟨exit, out, err⟩ := outcome
    rintro ⟨hexit, hout, herr⟩
    have hlines : out = unlines lines := by
      rw [← String.toList_inj, toList_unlines]
      exact hout
    rw [success, ← hlines, ← hexit, ← herr]
  · rintro rfl
    exact ⟨rfl, toList_unlines lines, rfl⟩

end Outcome

end MaterialBinding.Command
