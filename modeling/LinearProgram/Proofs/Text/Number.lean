import LinearProgram.Label
import LinearProgram.Cell
import LinearProgram.Proofs.Attempt
import LinearProgram.Proofs.Decimal.Fixed
import LinearProgram.Proofs.Text.Table
/-!
# The characters of numbers and labels

The texts of numbers and the labels of columns are solid: none of their characters is blank, a bar or an
opening bracket.  So they can be told in a table, with brackets around them or without, and brackets around
one of them stand out.
-/

namespace LinearProgram

open Text

/-! ## Solid texts -/

/-- A text with no blank, no bar and no opening bracket. -/
def Text.IsSolid (s : String) : Prop :=
  ∀ c ∈ s.toList, isBlank c = false ∧ c ≠ '|' ∧ c ≠ '['

/-- A text that can be told in a table and has no opening bracket. -/
structure Text.IsUnbracketed (s : String) : Prop extends IsCell s where
  bracket : '[' ∉ s.toList

instance (s : String) : Decidable (IsSolid s) :=
  List.decidableBAll _ _

namespace Text.IsSolid

variable {s t : String}

theorem append (hs : IsSolid s) (ht : IsSolid t) : IsSolid (s ++ t) := by
  intro c hc
  rw [String.toList_append, List.mem_append] at hc
  exact hc.elim (hs c) (ht c)

theorem isUnbracketed (h : IsSolid s) : IsUnbracketed s where
  toIsCell := isCell_of_forall fun c hc => ⟨(h c hc).1, (h c hc).2.1⟩
  bracket hc := (h _ hc).2.2 rfl

end Text.IsSolid

/-! ## Numbers and labels -/

theorem isBlank_of_isDigit {c : Char} (h : c.isDigit = true) : isBlank c = false := by
  obtain ⟨hlow, hhigh⟩ : 48 ≤ c.toNat ∧ c.toNat ≤ 57 := Char.isDigit_iff_toNat.1 h
  simp only [isBlank, isWhite, inRuns, whiteRuns, separatorRuns, List.any_cons, List.any_nil,
    Bool.or_eq_false_iff, Bool.and_eq_false_iff, decide_eq_false_iff_not, and_true]
  omega

theorem isSolid_repr (n : Nat) : IsSolid (Nat.repr n) := by
  intro c hc
  rw [Nat.toList_repr] at hc
  have hdigit := Nat.isDigit_of_mem_toDigits (by decide) (by decide) hc
  refine ⟨isBlank_of_isDigit hdigit, ?_, ?_⟩ <;> (rintro rfl; cases hdigit)

theorem isSolid_paddedDigits (width n : Nat) : IsSolid (paddedDigits width n) := by
  refine IsSolid.append (fun c hc => ?_) (isSolid_repr n)
  rw [String.toList_ofList] at hc
  rw [List.eq_of_mem_replicate hc]
  decide

theorem isSolid_placed (places units : Nat) : IsSolid (placed places units) := by
  unfold placed
  split
  · exact isSolid_repr _
  · exact ((isSolid_repr _).append (by decide)).append (isSolid_paddedDigits _ _)

theorem Reading.isSolid_fixed (r : Reading) (zeroSigned : Bool) (places : Nat) :
    IsSolid (r.fixed zeroSigned places) := by
  cases r with
  | nan =>
    have hnan : IsSolid "nan" := by decide
    exact hnan
  | infinite negative =>
    have hinfinite : ∀ b : Bool, IsSolid (if b then "-inf" else "inf") := by decide
    exact hinfinite negative
  | finite negative n d =>
    rw [fixed_finite]
    have hsign : ∀ b : Bool, IsSolid (if b then "-" else "") := by decide
    exact (hsign _).append (isSolid_placed _ _)

theorem isSolid_cellText {α : Type} [DecimalScalar α] {decimals : Int} {x : α} {text : String}
    (h : cellText decimals x = .ok text) : IsSolid text := by
  obtain ⟨-, rfl⟩ := cellText_eq_ok_iff.1 h
  exact Reading.isSolid_fixed _ _ _

theorem isSolid_variableLabel (j : Nat) : IsSolid (variableLabel j) :=
  IsSolid.append (by decide) (isSolid_repr _)

end LinearProgram
