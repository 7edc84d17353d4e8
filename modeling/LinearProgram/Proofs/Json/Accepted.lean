import LinearProgram.Json.Schema
import LinearProgram.Proofs.Attempt
/-!
# When data values are accepted

Verdicts that are combined accept exactly if each of them accepts in its turn: an object if each of its
fields does, a list if each of its members does.  What is written of a value can be read again if the same
holds part by part, so `Stable`, that whatever is accepted is read back from what is written of it, passes
from the parts of a data value to the whole.

Proved:
* `seq_eq_accepted_iff`, `andThen_eq_accepted_iff`, `list_eq_accepted_iff`: when combined verdicts accept.
* `Stable.list`, `Stable.option`: lists and values that may be missing.
* `Stable.required`, `Stable.defaulted`: what has been read from a field is read back from the field written
  of it.
-/

namespace LinearProgram

variable {α β : Type}

/-! ## Combined verdicts -/

namespace Verdict

theorem map_eq_accepted_iff {f : α → β} {x : Verdict α} {y : β} :
    f <$> x = .accepted y ↔ ∃ z, x = .accepted z ∧ f z = y := by
  cases x with
  | refused issues => exact ⟨nofun, nofun⟩
  | accepted z => exact ⟨fun h => ⟨z, rfl, Verdict.accepted.inj h⟩, fun ⟨_, hz, h⟩ => by
      rw [Verdict.accepted.inj hz, ← h]; rfl⟩

theorem seq_eq_accepted_iff {f : Verdict (α → β)} {x : Verdict α} {y : β} :
    f <*> x = .accepted y ↔ ∃ g z, f = .accepted g ∧ x = .accepted z ∧ g z = y := by
  cases f with
  | refused issues => cases x <;> exact ⟨nofun, nofun⟩
  | accepted g =>
    cases x with
    | refused issues => exact ⟨nofun, nofun⟩
    | accepted z =>
      refine ⟨fun h => ⟨g, z, rfl, rfl, Verdict.accepted.inj h⟩, ?_⟩
      rintro ⟨_, _, hg, hz, rfl⟩
      rw [← Verdict.accepted.inj hg, ← Verdict.accepted.inj hz]
      rfl

theorem inside_eq_accepted_iff {step : Step} {x : Verdict α} {y : α} :
    x.inside step = .accepted y ↔ x = .accepted y := by
  cases x with
  | refused issues => exact ⟨nofun, nofun⟩
  | accepted z => exact Iff.rfl

theorem andThen_eq_accepted_iff {x : Verdict α} {f : α → Verdict β} {y : β} :
    x.andThen f = .accepted y ↔ ∃ z, x = .accepted z ∧ f z = .accepted y := by
  cases x with
  | refused issues => exact ⟨nofun, nofun⟩
  | accepted z => exact ⟨fun h => ⟨z, rfl, h⟩, fun ⟨_, hz, h⟩ => Verdict.accepted.inj hz ▸ h⟩

theorem listFrom_eq_accepted_iff {decode : Json → Verdict α} {i : Nat} {vs : List Json}
    {xs : List α} :
    listFrom decode i vs = .accepted xs ↔
      List.Forall₂ (fun v x => decode v = .accepted x) vs xs := by
  induction vs generalizing i xs with
  | nil =>
    rw [listFrom, Verdict.accepted.injEq, List.forall₂_nil_left_iff]
    exact eq_comm
  | cons v vs ih =>
    simp only [listFrom, seq_eq_accepted_iff, map_eq_accepted_iff, inside_eq_accepted_iff, ih,
      List.forall₂_cons_left_iff]
    constructor
    · rintro ⟨_, rest, ⟨x, hx, rfl⟩, hrest, rfl⟩
      exact ⟨x, rest, hx, hrest, rfl⟩
    · rintro ⟨x, rest, hx, hrest, rfl⟩
      exact ⟨_, rest, ⟨x, hx, rfl⟩, hrest, rfl⟩

end Verdict

/-! ## Lists, objects and fields -/

namespace Decode

variable {decode : Json → Verdict α} {name : String} {fields : List (String × Json)} {x : α}

theorem list_eq_accepted_iff {v : Json} {xs : List α} :
    list decode v = .accepted xs ↔
      ∃ vs, v = .list vs ∧ List.Forall₂ (fun v x => decode v = .accepted x) vs xs := by
  cases v with
  | list vs =>
    refine Verdict.listFrom_eq_accepted_iff.trans ⟨fun h => ⟨vs, rfl, h⟩, ?_⟩
    rintro ⟨_, hvs, h⟩
    rwa [Json.list.inj hvs]
  | _ => exact ⟨nofun, nofun⟩

theorem exists_of_mem_list {v : Json} {xs : List α} (h : list decode v = .accepted xs) (hx : x ∈ xs) :
    ∃ v, decode v = .accepted x := by
  obtain ⟨vs, -, hmembers⟩ := list_eq_accepted_iff.1 h
  obtain ⟨v, -, hv⟩ := exists_of_mem_forall₂ hmembers hx
  exact ⟨v, hv⟩

/-- A list is read back from what is written of it if its members are. -/
theorem list_encode {encode : α → Json} {xs : List α}
    (h : ∀ x ∈ xs, decode (encode x) = .accepted x) :
    list decode (Json.ofList encode xs) = .accepted xs := by
  refine list_eq_accepted_iff.2 ⟨xs.map encode, rfl, ?_⟩
  rwa [List.forall₂_map_left_iff, List.forall₂_same]

theorem exists_of_option {v : Json} (h : option decode v = .accepted (some x)) :
    ∃ v, decode v = .accepted x := by
  unfold option at h
  split at h
  · cases h
  · obtain ⟨y, hy, hyx⟩ := Verdict.map_eq_accepted_iff.1 h
    exact ⟨_, Option.some.inj hyx ▸ hy⟩

/-- A value that may be missing is told from none as long as nothing is written like none. -/
theorem option_encode {encode : α → Json} (hnull : ∀ x, encode x ≠ .null) {o : Option α}
    (h : ∀ x ∈ o, decode (encode x) = .accepted x) :
    option decode (Json.ofOption encode o) = .accepted o := by
  cases o with
  | none => rfl
  | some x =>
    rw [Json.ofOption, option, Verdict.map_eq_accepted_iff]
    · exact ⟨x, h x rfl, rfl⟩
    · exact hnull x

theorem object_eq_accepted_iff {typeName : String} {ofFields : List (String × Json) → Verdict α}
    {v : Json} :
    object typeName ofFields v = .accepted x ↔
      ∃ fields, v = .object fields ∧ ofFields fields = .accepted x := by
  cases v with
  | object fields =>
    refine ⟨fun h => ⟨fields, rfl, h⟩, ?_⟩
    rintro ⟨_, hfields, h⟩
    rwa [← Json.object.inj hfields] at h
  | _ => exact ⟨nofun, nofun⟩

theorem required_eq_accepted_iff :
    required decode name fields = .accepted x ↔
      ∃ v, Json.field? fields name = some v ∧ decode v = .accepted x := by
  unfold required
  cases hfield : Json.field? fields name with
  | none => exact ⟨nofun, nofun⟩
  | some v => simp [Verdict.inside_eq_accepted_iff]

theorem defaulted_eq_accepted_iff {default : α} :
    defaulted decode name default fields = .accepted x ↔
      (∃ v, Json.field? fields name = some v ∧ decode v = .accepted x) ∨
        (Json.field? fields name = none ∧ default = x) := by
  unfold defaulted
  cases hfield : Json.field? fields name with
  | none => simp
  | some v => simp [Verdict.inside_eq_accepted_iff]

end Decode

/-! ## What is written is read back -/

/-- Whatever is accepted, in any spelling, is read back as the same value from what is written of it. -/
def Stable (decode : Json → Verdict α) (encode : α → Json) : Prop :=
  ∀ v x, decode v = .accepted x → decode (encode x) = .accepted x

namespace Stable

variable {decode : Json → Verdict α} {encode : α → Json} {name : String}
  {fields : List (String × Json)} {x : α}

theorem of_forall (h : ∀ x, decode (encode x) = .accepted x) : Stable decode encode :=
  fun _ x _ => h x

theorem float : Stable Decode.float .number := of_forall fun _ => rfl

theorem int : Stable Decode.int .int := of_forall fun _ => rfl

theorem bool : Stable Decode.bool .bool := of_forall fun _ => rfl

theorem string : Stable Decode.string .text := of_forall fun _ => rfl

theorem list (h : Stable decode encode) : Stable (Decode.list decode) (Json.ofList encode) := by
  intro v xs hxs
  refine Decode.list_encode fun x hx => ?_
  obtain ⟨w, hw⟩ := Decode.exists_of_mem_list hxs hx
  exact h w x hw

theorem option (h : Stable decode encode) (hnull : ∀ x, encode x ≠ .null) :
    Stable (Decode.option decode) (Json.ofOption encode) := by
  intro v o ho
  refine Decode.option_encode hnull fun x hx => ?_
  subst hx
  obtain ⟨w, hw⟩ := Decode.exists_of_option ho
  exact h w x hw

section Field

variable {written : List (String × Json)}

/-- What has been read from a field that must be there is read back from the field written of it. -/
theorem required (h : Stable decode encode)
    (hwritten : Json.field? written name = some (encode x))
    (hx : Decode.required decode name fields = .accepted x) :
    Decode.required decode name written = .accepted x := by
  obtain ⟨v, -, hv⟩ := Decode.required_eq_accepted_iff.1 hx
  exact Decode.required_eq_accepted_iff.2 ⟨encode x, hwritten, h v x hv⟩

/-- What has been read from a field with a value of its own is read back, if that value is. -/
theorem defaulted (h : Stable decode encode) {default : α}
    (hdefault : decode (encode default) = .accepted default)
    (hwritten : Json.field? written name = some (encode x))
    (hx : Decode.defaulted decode name default fields = .accepted x) :
    Decode.defaulted decode name default written = .accepted x := by
  refine Decode.defaulted_eq_accepted_iff.2 (.inl ⟨encode x, hwritten, ?_⟩)
  rcases Decode.defaulted_eq_accepted_iff.1 hx with ⟨v, -, hv⟩ | ⟨-, rfl⟩
  · exact h v x hv
  · exact hdefault

end Field

end Stable

end LinearProgram
