import LinearProgram.Proofs.Json.Accepted
import LinearProgram.Proofs.Ratio
/-!
# Reading back what is written

Whatever is accepted as a problem can be solved: it has an objective, one relation and one limit for each
row, and every relation is one of the three signs, in whichever spelling it was given.  And each type of
the domain is read back from what is written of it, field by field: numbers as they are, NaN and the
infinities included, words in their one spelling, and what is missing as missing.

Proved:
* `Relation.decode_eq_accepted_iff`: the spellings that are accepted, and what they stand for.
* `Problem.decode_encode_iff`: the problems that are accepted as they are written are the admissible ones.
* `Snapshot.stable`, `Solution.stable`: the nested types, from their parts.
* `accepted_admissible_and_stable`: what is accepted as a problem, and that accepted values are read back as
  they were.
-/

namespace LinearProgram

open Verdict

variable {fields : List (String × Json)}

/-! ## Words -/

theorem Decode.oneOf_eq_accepted_iff {α : Type} {choices : List String} {ofWord? : String → Option α}
    {v : Json} {x : α} :
    oneOf choices ofWord? v = .accepted x ↔ ∃ s, v = .text s ∧ ofWord? s = some x := by
  cases v with
  | text s =>
    simp only [oneOf, Json.text.injEq, exists_eq_left']
    cases ofWord? s with
    | none => exact ⟨nofun, nofun⟩
    | some y =>
      exact ⟨fun h => congrArg _ (Verdict.accepted.inj h), fun h => congrArg _ (Option.some.inj h)⟩
  | _ => exact ⟨nofun, nofun⟩

namespace Relation

/-- All spellings of the three signs. -/
def spellings : List (String × Relation) :=
  [("<=", .atMost), ("=", .equal), (">=", .atLeast)] ++ aliases

theorem mem_spellings_ofSymbol {s : String} (h : (ofSymbol s).isKnown = true) :
    (s, ofSymbol s) ∈ spellings := by
  unfold ofSymbol at h ⊢
  split_ifs at h ⊢ with hatMost hequal hatLeast
  · subst hatMost; decide
  · subst hequal; decide
  · subst hatLeast; decide
  · cases h

theorem mem_spellings_ofSpelling {s : String} (h : (ofSpelling s).isKnown = true) :
    (s, ofSpelling s) ∈ spellings := by
  unfold ofSpelling at h ⊢
  cases hlookup : aliases.lookup s with
  | none =>
    rw [hlookup] at h
    exact mem_spellings_ofSymbol h
  | some r =>
    obtain ⟨before, after, haliases, -⟩ := List.lookup_eq_some_iff.1 hlookup
    have hr : (s, r) ∈ aliases := haliases ▸ List.mem_append_right _ List.mem_cons_self
    exact List.mem_append_right _ hr

theorem ofSpelling?_eq_some_iff {s : String} {r : Relation} :
    ofSpelling? s = some r ↔ (s, r) ∈ spellings := by
  constructor
  · intro h
    unfold ofSpelling? at h
    split_ifs at h with hknown
    exact Option.some.inj h ▸ mem_spellings_ofSpelling hknown
  · have hall : ∀ x ∈ spellings, ofSpelling? x.1 = some x.2 := by decide
    exact hall (s, r)

/-- A relation is accepted in one of its spellings, and only in these. -/
theorem decode_eq_accepted_iff {v : Json} {r : Relation} :
    decode v = .accepted r ↔ ∃ s, v = .text s ∧ (s, r) ∈ spellings := by
  simp only [decode, Decode.oneOf_eq_accepted_iff, ofSpelling?_eq_some_iff]

theorem isKnown_of_spellings {s : String} {r : Relation} (h : (s, r) ∈ spellings) :
    r.isKnown = true := by
  have hall : ∀ x ∈ spellings, x.2.isKnown = true := by decide
  exact hall _ h

theorem symbol_mem_choices {r : Relation} (h : r.isKnown = true) : r.symbol ∈ choices := by
  cases r with
  | other symbol => cases h
  | _ => decide

/-- The sign of a relation that constrains is one of its spellings. -/
theorem symbol_mem_spellings {r : Relation} (h : r.isKnown = true) : (r.symbol, r) ∈ spellings := by
  cases r with
  | other symbol => cases h
  | _ => decide

theorem decode_encode {r : Relation} (h : r.isKnown = true) : decode r.encode = .accepted r :=
  decode_eq_accepted_iff.2 ⟨r.symbol, rfl, symbol_mem_spellings h⟩

theorem stable : Stable decode encode := by
  intro v r hr
  obtain ⟨s, -, hs⟩ := decode_eq_accepted_iff.1 hr
  exact decode_encode (isKnown_of_spellings hs)

/-- Relations are accepted as a list of spellings, and stand for what is spelled. -/
theorem exists_spellings {v : Json} {rs : List Relation}
    (h : Decode.list decode v = .accepted rs) :
    ∃ spelled, v = Json.ofStrings spelled ∧
      List.Forall₂ (fun s r => (s, r) ∈ spellings) spelled rs := by
  obtain ⟨vs, rfl, hmembers⟩ := Decode.list_eq_accepted_iff.1 h
  clear h
  induction hmembers with
  | nil => exact ⟨[], rfl, .nil⟩
  | cons hr _ ih =>
    obtain ⟨s, rfl, hs⟩ := decode_eq_accepted_iff.1 hr
    obtain ⟨spelled, hvs, hspelled⟩ := ih
    refine ⟨s :: spelled, ?_, .cons hs hspelled⟩
    rw [Json.list.inj hvs]
    rfl

end Relation

theorem Sign.decode_encode (s : Sign) : decode s.encode = .accepted s := by cases s <;> rfl

theorem Sign.stable : Stable decode encode := .of_forall decode_encode

theorem Method.stable : Stable decode encode := .of_forall fun m => by cases m <;> rfl

theorem Status.stable : Stable decode encode := .of_forall fun s => by cases s <;> rfl

/-! ## Problems and options -/

theorem Decode.floats_stable : Stable floats Json.ofFloats := Stable.float.list

theorem Decode.strings_stable : Stable strings Json.ofStrings := Stable.string.list

namespace Problem

theorem ofFields_eq_accepted_iff {p : Problem Float} :
    ofFields fields = .accepted p ↔
      Decode.defaulted Decode.bool "maximize" true fields = .accepted p.maximize ∧
      Decode.required Decode.floats "objective" fields = .accepted p.objective ∧
      Decode.required (Decode.list Decode.floats) "constraints" fields = .accepted p.constraints ∧
      Decode.required (Decode.list Relation.decode) "relations" fields = .accepted p.relations ∧
      Decode.required Decode.floats "rhs" fields = .accepted p.rhs ∧
      Decode.defaulted (Decode.option Sign.decode) "objective_sign" none fields =
        .accepted p.objectiveSign ∧
      Decode.defaulted (Decode.option (Decode.list Sign.decode)) "constraint_signs" none fields =
        .accepted p.constraintSigns := by
  cases p
  simp only [ofFields, seq_eq_accepted_iff, map_eq_accepted_iff, existsAndEq, exists_and_left,
    and_assoc, and_true, mk.injEq]

/-- A problem keeps the rule across its fields exactly if it has an objective, and one relation and one
limit for each row. -/
theorem checked_eq_accepted_iff {α : Type} {p q : Problem α} :
    checked p = .accepted q ↔
      (p.objective ≠ [] ∧ p.relations.length = p.constraints.length ∧
        p.rhs.length = p.constraints.length) ∧ p = q := by
  have hrule : p.brokenRule? = none ↔ p.objective ≠ [] ∧
      p.relations.length = p.constraints.length ∧ p.rhs.length = p.constraints.length := by
    unfold brokenRule?
    split_ifs with hobjective hlengths
    · simp_all
    · simp_all
      omega
    · simp_all
  rw [← hrule, checked]
  cases p.brokenRule? with
  | none => exact ⟨fun h => ⟨rfl, Verdict.accepted.inj h⟩, fun h => congrArg _ h.2⟩
  | some rule => exact ⟨nofun, nofun⟩

theorem decode_eq_accepted_iff {v : Json} {p : Problem Float} :
    decode v = .accepted p ↔ (∃ fields, v = .object fields ∧ ofFields fields = .accepted p) ∧
      p.objective ≠ [] ∧ p.relations.length = p.constraints.length ∧
        p.rhs.length = p.constraints.length := by
  rw [decode, andThen_eq_accepted_iff]
  simp only [checked_eq_accepted_iff, Decode.object_eq_accepted_iff]
  constructor
  · rintro ⟨_, hfields, hrule, rfl⟩
    exact ⟨hfields, hrule⟩
  · rintro ⟨hfields, hrule⟩
    exact ⟨p, hfields, hrule, rfl⟩

theorem admissible_of_decode {v : Json} {p : Problem Float} (h : decode v = .accepted p) :
    p.Admissible := by
  obtain ⟨⟨fields, -, hfields⟩, hobjective, hlengths, hrhs⟩ := decode_eq_accepted_iff.1 h
  refine ⟨hobjective, hlengths, hrhs, fun r hr => ?_⟩
  obtain ⟨-, -, -, hrelations, -⟩ := ofFields_eq_accepted_iff.1 hfields
  obtain ⟨v, -, hlist⟩ := Decode.required_eq_accepted_iff.1 hrelations
  obtain ⟨w, hw⟩ := Decode.exists_of_mem_list hlist hr
  obtain ⟨s, -, hs⟩ := Relation.decode_eq_accepted_iff.1 hw
  exact Relation.isKnown_of_spellings hs

/-- The problems that are accepted as they are written are the admissible ones. -/
theorem decode_encode_iff {p : Problem Float} :
    decode p.encode = .accepted p ↔ p.Admissible := by
  refine ⟨admissible_of_decode, fun h => decode_eq_accepted_iff.2 ⟨⟨_, rfl, ?_⟩, h.1, h.2, h.3⟩⟩
  have hfloats : ∀ xs, Decode.floats (Json.ofFloats xs) = .accepted xs :=
    fun _ => Decode.list_encode fun _ _ => rfl
  have hrows : Decode.list Decode.floats (Json.ofList Json.ofFloats p.constraints) =
      .accepted p.constraints := Decode.list_encode fun _ _ => hfloats _
  have hrelations : Decode.list Relation.decode (Json.ofList Relation.encode p.relations) =
      .accepted p.relations := Decode.list_encode fun r hr => Relation.decode_encode (h.isKnown r hr)
  exact ofFields_eq_accepted_iff.2 ⟨rfl,
    Decode.required_eq_accepted_iff.2 ⟨_, rfl, hfloats _⟩,
    Decode.required_eq_accepted_iff.2 ⟨_, rfl, hrows⟩,
    Decode.required_eq_accepted_iff.2 ⟨_, rfl, hrelations⟩,
    Decode.required_eq_accepted_iff.2 ⟨_, rfl, hfloats _⟩,
    Decode.defaulted_eq_accepted_iff.2
      (.inl ⟨_, rfl, Decode.option_encode nofun fun s _ => s.decode_encode⟩),
    Decode.defaulted_eq_accepted_iff.2
      (.inl ⟨_, rfl, Decode.option_encode nofun fun _ _ => Decode.list_encode fun s _ => s.decode_encode⟩)⟩

theorem stable : Stable decode encode := by
  intro v p hp
  obtain ⟨⟨fields, -, hfields⟩, hrule⟩ := decode_eq_accepted_iff.1 hp
  obtain ⟨hmaximize, hobjective, hconstraints, hrelations, hrhs, hsign, hsigns⟩ :=
    ofFields_eq_accepted_iff.1 hfields
  refine decode_eq_accepted_iff.2 ⟨⟨_, rfl, ofFields_eq_accepted_iff.2 ?_⟩, hrule⟩
  exact ⟨Stable.bool.defaulted rfl rfl hmaximize,
    Decode.floats_stable.required rfl hobjective,
    Decode.floats_stable.list.required rfl hconstraints,
    Relation.stable.list.required rfl hrelations,
    Decode.floats_stable.required rfl hrhs,
    (Sign.stable.option nofun).defaulted rfl rfl hsign,
    (Sign.stable.list.option nofun).defaulted rfl rfl hsigns⟩

end Problem

namespace Options

theorem ofFields_eq_accepted_iff {o : Options Float} :
    ofFields fields = .accepted o ↔
      Decode.defaulted Decode.int "max_iters" (standard (α := Float)).maxIterations fields =
        .accepted o.maxIterations ∧
      Decode.defaulted Decode.float "pivot_tol" standard.pivotTolerance fields =
        .accepted o.pivotTolerance ∧
      Decode.defaulted Decode.float "feas_tol" standard.feasibilityTolerance fields =
        .accepted o.feasibilityTolerance ∧
      Decode.defaulted Decode.float "det_tol" standard.determinantTolerance fields =
        .accepted o.determinantTolerance ∧
      Decode.defaulted Decode.int "decimals" (standard (α := Float)).decimals fields =
        .accepted o.decimals := by
  cases o
  simp only [ofFields, seq_eq_accepted_iff, map_eq_accepted_iff, existsAndEq, exists_and_left,
    and_assoc, and_true, mk.injEq]

theorem stable : Stable decode encode := by
  intro v o ho
  obtain ⟨fields, -, hfields⟩ := Decode.object_eq_accepted_iff.1 ho
  obtain ⟨hmax, hpivot, hfeasibility, hdeterminant, hdecimals⟩ := ofFields_eq_accepted_iff.1 hfields
  exact ofFields_eq_accepted_iff.2
    ⟨Stable.int.defaulted rfl rfl hmax,
      Stable.float.defaulted rfl rfl hpivot,
      Stable.float.defaulted rfl rfl hfeasibility,
      Stable.float.defaulted rfl rfl hdeterminant,
      Stable.int.defaulted rfl rfl hdecimals⟩

end Options

/-! ## Solutions -/

namespace Pivot

theorem ofFields_eq_accepted_iff {p : Pivot} :
    ofFields fields = .accepted p ↔
      Decode.required Decode.int "row" fields = .accepted p.row ∧
      Decode.required Decode.int "col" fields = .accepted p.col := by
  cases p
  simp only [ofFields, seq_eq_accepted_iff, map_eq_accepted_iff, existsAndEq, exists_and_left,
    and_true, mk.injEq]

theorem stable : Stable decode encode := by
  intro v p hp
  obtain ⟨fields, -, hfields⟩ := Decode.object_eq_accepted_iff.1 hp
  obtain ⟨hrow, hcol⟩ := ofFields_eq_accepted_iff.1 hfields
  exact ofFields_eq_accepted_iff.2
    ⟨Stable.int.required rfl hrow, Stable.int.required rfl hcol⟩

end Pivot

/-- A ratio is written as the double it stands for. -/
theorem Ratio.encode_eq (r : Ratio Float) : r.encode = .number r.value := by cases r <;> rfl

theorem Ratio.stable : Stable decode encode := by
  intro v r hr
  obtain ⟨q, -, rfl⟩ := map_eq_accepted_iff.1 hr
  rw [encode_eq, value_ofQuotient]
  rfl

namespace Snapshot

theorem ofFields_eq_accepted_iff {s : Snapshot Float} :
    ofFields fields = .accepted s ↔
      Decode.required Decode.int "index" fields = .accepted s.index ∧
      Decode.required (Decode.list Decode.floats) "tableau" fields = .accepted s.tableau ∧
      Decode.required Decode.strings "basis" fields = .accepted s.basis ∧
      Decode.defaulted (Decode.option Pivot.decode) "pivot" none fields = .accepted s.pivot ∧
      Decode.defaulted (Decode.option (Decode.list Ratio.decode)) "ratios" none fields =
        .accepted s.ratios ∧
      Decode.defaulted (Decode.option Decode.string) "entering_label" none fields =
        .accepted s.entering ∧
      Decode.defaulted (Decode.option Decode.string) "leaving_label" none fields =
        .accepted s.leaving ∧
      Decode.defaulted Decode.bool "is_optimal" false fields = .accepted s.isOptimal := by
  cases s
  simp only [ofFields, seq_eq_accepted_iff, map_eq_accepted_iff, existsAndEq, exists_and_left,
    and_assoc, and_true, mk.injEq]

theorem stable : Stable decode encode := by
  intro v s hs
  obtain ⟨fields, -, hfields⟩ := Decode.object_eq_accepted_iff.1 hs
  obtain ⟨hindex, htableau, hbasis, hpivot, hratios, hentering, hleaving, hoptimal⟩ :=
    ofFields_eq_accepted_iff.1 hfields
  exact ofFields_eq_accepted_iff.2
    ⟨Stable.int.required rfl hindex,
      Decode.floats_stable.list.required rfl htableau,
      Decode.strings_stable.required rfl hbasis,
      (Pivot.stable.option nofun).defaulted rfl rfl hpivot,
      (Ratio.stable.list.option nofun).defaulted rfl rfl hratios,
      (Stable.string.option nofun).defaulted rfl rfl hentering,
      (Stable.string.option nofun).defaulted rfl rfl hleaving,
      Stable.bool.defaulted rfl rfl hoptimal⟩

end Snapshot

namespace Table

theorem ofFields_eq_accepted_iff {t : Table} :
    ofFields fields = .accepted t ↔
      Decode.defaulted Decode.strings "headers" [] fields = .accepted t.headers ∧
      Decode.defaulted (Decode.list Decode.strings) "rows" [] fields = .accepted t.rows := by
  cases t
  simp only [ofFields, seq_eq_accepted_iff, map_eq_accepted_iff, existsAndEq, exists_and_left,
    and_true, mk.injEq]

theorem stable : Stable decode encode := by
  intro v t ht
  obtain ⟨fields, -, hfields⟩ := Decode.object_eq_accepted_iff.1 ht
  obtain ⟨hheaders, hrows⟩ := ofFields_eq_accepted_iff.1 hfields
  exact ofFields_eq_accepted_iff.2
    ⟨Decode.strings_stable.defaulted rfl rfl hheaders,
      Decode.strings_stable.list.defaulted rfl rfl hrows⟩

end Table

namespace Solution

theorem ofFields_eq_accepted_iff {s : Solution Float} :
    ofFields fields = .accepted s ↔
      Decode.required Decode.bool "valid" fields = .accepted s.valid ∧
      Decode.defaulted Decode.floats "point" [] fields = .accepted s.point ∧
      Decode.defaulted Decode.float "objective_value" 0 fields = .accepted s.objectiveValue ∧
      Decode.defaulted Table.decode "display_table" .empty fields = .accepted s.table ∧
      Decode.defaulted (Decode.option (Decode.list Snapshot.decode)) "iterations" none fields =
        .accepted s.iterations ∧
      Decode.defaulted (Decode.option Decode.floats) "costs" none fields = .accepted s.costs ∧
      Decode.defaulted Status.decode "status" .optimal fields = .accepted s.status ∧
      Decode.defaulted (Decode.option Method.decode) "method" none fields = .accepted s.method ∧
      Decode.defaulted Decode.string "message" "" fields = .accepted s.message := by
  cases s
  simp only [ofFields, seq_eq_accepted_iff, map_eq_accepted_iff, existsAndEq, exists_and_left,
    and_assoc, and_true, mk.injEq]

theorem stable : Stable decode encode := by
  intro v s hs
  obtain ⟨fields, -, hfields⟩ := Decode.object_eq_accepted_iff.1 hs
  obtain ⟨hvalid, hpoint, hvalue, htable, htrace, hcosts, hstatus, hmethod, hmessage⟩ :=
    ofFields_eq_accepted_iff.1 hfields
  exact ofFields_eq_accepted_iff.2
    ⟨Stable.bool.required rfl hvalid,
      Decode.floats_stable.defaulted rfl rfl hpoint,
      Stable.float.defaulted rfl rfl hvalue,
      Table.stable.defaulted rfl rfl htable,
      (Snapshot.stable.list.option nofun).defaulted rfl rfl htrace,
      (Decode.floats_stable.option nofun).defaulted rfl rfl hcosts,
      Status.stable.defaulted rfl rfl hstatus,
      (Method.stable.option nofun).defaulted rfl rfl hmethod,
      Stable.string.defaulted rfl rfl hmessage⟩

end Solution

/-! ## The whole schema -/

/-- Whatever is accepted as a problem is admissible, with the three signs for its relations in whichever
spelling each of them was given; and what is accepted as a value of any type of the domain is read back
as the same value from what is written of it. -/
theorem accepted_admissible_and_stable :
    (∀ v p, Problem.decode v = .accepted p →
      p.Admissible ∧ (∀ r ∈ p.relations, r.symbol ∈ Relation.choices) ∧
      ∃ fields spelled, v = .object fields ∧
        Json.field? fields "relations" = some (Json.ofStrings spelled) ∧
        List.Forall₂ (fun s r => (s, r) ∈ Relation.spellings) spelled p.relations) ∧
    Stable Problem.decode Problem.encode ∧
    Stable Options.decode Options.encode ∧
    Stable Pivot.decode Pivot.encode ∧
    Stable Snapshot.decode Snapshot.encode ∧
    Stable Table.decode Table.encode ∧
    Stable Solution.decode Solution.encode := by
  refine ⟨fun v p h => ?_, Problem.stable, Options.stable, Pivot.stable, Snapshot.stable,
    Table.stable, Solution.stable⟩
  have hadmissible := Problem.admissible_of_decode h
  refine ⟨hadmissible, fun r hr => Relation.symbol_mem_choices (hadmissible.isKnown r hr), ?_⟩
  obtain ⟨⟨fields, rfl, hfields⟩, -⟩ := Problem.decode_eq_accepted_iff.1 h
  obtain ⟨-, -, -, hrelations, -⟩ := Problem.ofFields_eq_accepted_iff.1 hfields
  obtain ⟨w, hw, hlist⟩ := Decode.required_eq_accepted_iff.1 hrelations
  obtain ⟨spelled, rfl, hspelled⟩ := Relation.exists_spellings hlist
  exact ⟨fields, spelled, rfl, hw, hspelled⟩

/-- Three rows with their relations in other spellings, one number as a text and one that is none: the
problem is accepted with the three signs, and read back from what is written of it. -/
theorem accepted_admissible_and_stable_other_spellings :
    ∃ p, Problem.decode (.object [("objective", .list [.int 1, .text "nan"]),
        ("constraints", .list [.list [.int 1, .int 0], .list [.int 0, .int 1], .list [.int 1, .int 1]]),
        ("relations", .list [.text "==", .text "≤", .text "=>"]),
        ("rhs", .list [.int 4, .text "1.5", .number 2])]) = .accepted p ∧
      p.relations = [.equal, .atMost, .atLeast] ∧ p.Admissible ∧
      Problem.decode p.encode = .accepted p := by
  obtain ⟨p, hp, hrelations⟩ : ∃ p, Problem.decode (.object
      [("objective", .list [.int 1, .text "nan"]),
        ("constraints", .list [.list [.int 1, .int 0], .list [.int 0, .int 1], .list [.int 1, .int 1]]),
        ("relations", .list [.text "==", .text "≤", .text "=>"]),
        ("rhs", .list [.int 4, .text "1.5", .number 2])]) = .accepted p ∧
      p.relations = [.equal, .atMost, .atLeast] := ⟨_, rfl, rfl⟩
  obtain ⟨haccepted, hstable, -⟩ := accepted_admissible_and_stable
  exact ⟨p, hp, hrelations, (haccepted _ p hp).1, hstable _ p hp⟩

end LinearProgram
