import LinearProgram.Proofs.Order
import LinearProgram.Tableau.Basic
import Mathlib.Data.List.GetD
/-!
# The first leader

The searches of the solvers keep a leader and exchange it only for an element that beats it.  When
"beats" is a ranking (no two elements beat each other, and what beats one element beats or is beaten
by any third) the final leader beats all elements before it and is beaten by none behind it.

Proved:
* `getElem?_of_leaderIdx?`: the leader stands at its place, whatever "beats" means.
* `exists_leaderFrom_eq`: the leader of a ranking between what it beats and what does not beat it.
* `not_beats_leaderIdx?`, `beats_of_lt_leaderIdx?`: nothing in the list beats the leader, and the leader
  beats everything before it.
* `ranking_above`, `ranking_below`: over lawful scalars the orders of the two searches of the tableau
  method are rankings.
* `NaNFirst.firstBest`: in both searches the leader is the first NaN, or if there is none the first of
  the best.
* `NumbersOnly.exists_leader`: in a search that compares numbers only, a leader that is no number stays, and
  after one that is the search passes over what is none (`NumbersOnly.leaderFrom_of_not_number`).
-/

namespace LinearProgram

variable {β : Type}

/-- A strict order in which elements that do not beat each other are interchangeable. -/
structure Ranking (beats : β → β → Bool) : Prop where
  asymm : ∀ {x y}, beats x y = true → beats y x = false
  split : ∀ {x y} z, beats x y = true → beats x z = true ∨ beats z y = true

/-- A ranking read through a map is one. -/
theorem Ranking.comap {γ : Type} {beats : β → β → Bool} (h : Ranking beats) (f : γ → β) :
    Ranking fun y x => beats (f y) (f x) where
  asymm := h.asymm
  split z := h.split (f z)

theorem Ranking.irrefl {beats : β → β → Bool} (h : Ranking beats) (x : β) : beats x x = false := by
  cases hx : beats x x with
  | false => rfl
  | true => rw [← hx, h.asymm hx]

theorem leaderFrom_mem (beats : β → β → Bool) (leader : β) (xs : List β) :
    leaderFrom beats leader xs ∈ leader :: xs := by
  induction xs generalizing leader with
  | nil => simp [leaderFrom]
  | cons x xs ih =>
    unfold leaderFrom
    split
    · exact List.mem_cons_of_mem _ (ih x)
    · rcases List.mem_cons.1 (ih leader) with h | h
      · rw [h]
        exact List.mem_cons_self
      · exact List.mem_cons_of_mem _ (List.mem_cons_of_mem _ h)

/-- Two searches that run side by side, through members that are related and with the same comparisons, end
at related leaders. -/
theorem leaderFrom_related {γ : Type} {R : β → γ → Prop} {beats : β → β → Bool}
    {beats' : γ → γ → Bool}
    (hbeats : ∀ {y y' x x'}, R y y' → R x x' → beats y x = beats' y' x') {xs : List β}
    {xs' : List γ} (hxs : List.Forall₂ R xs xs') {x : β} {x' : γ} (hx : R x x') :
    R (leaderFrom beats x xs) (leaderFrom beats' x' xs') := by
  induction hxs generalizing x x' with
  | nil => exact hx
  | cons hy _ ih =>
    unfold leaderFrom
    rw [hbeats hy hx]
    split
    · exact ih hy
    · exact ih hx

theorem Ranking.trans {beats : β → β → Bool} (h : Ranking beats) {x y z : β}
    (hxy : beats x y = true) (hyz : beats y z = true) : beats x z = true := by
  rcases h.split z hxy with hxz | hzy
  · exact hxz
  · rw [h.asymm hyz] at hzy
    exact absurd hzy Bool.false_ne_true

/-- The final leader stands between elements that it beats and elements that do not beat it. -/
theorem exists_leaderFrom_eq {beats : β → β → Bool} (h : Ranking beats) (leader : β) (xs : List β) :
    ∃ before after, leader :: xs = before ++ leaderFrom beats leader xs :: after ∧
      (∀ y ∈ before, beats (leaderFrom beats leader xs) y = true) ∧
      ∀ y ∈ after, beats y (leaderFrom beats leader xs) = false := by
  induction xs generalizing leader with
  | nil => exact ⟨[], [], rfl, by simp, by simp⟩
  | cons x xs ih =>
    unfold leaderFrom
    split
    · next hx =>
      obtain ⟨before, after, heq, hbefore, hafter⟩ := ih x
      refine ⟨leader :: before, after, by rw [heq, List.cons_append], ?_, hafter⟩
      intro y hy
      rcases List.mem_cons.1 hy with rfl | hy
      · -- The old leader lost against `x`, which is the final leader or lost against it.
        cases before with
        | nil =>
          obtain ⟨hfinal, -⟩ := List.cons.inj heq
          rwa [← hfinal]
        | cons x' before =>
          obtain ⟨rfl, -⟩ := List.cons.inj heq
          exact h.trans (hbefore x List.mem_cons_self) hx
      · exact hbefore y hy
    · next hx =>
      obtain ⟨before, after, heq, hbefore, hafter⟩ := ih leader
      cases before with
      | nil =>
        obtain ⟨hfinal, hrest⟩ := List.cons.inj heq
        refine ⟨[], x :: xs, by rw [← hfinal, List.nil_append], by simp, ?_⟩
        intro y hy
        rcases List.mem_cons.1 hy with rfl | hy
        · rw [← hfinal]
          simpa using hx
        · exact hafter y (hrest ▸ hy)
      | cons leader' before =>
        obtain ⟨rfl, hrest⟩ := List.cons.inj heq
        refine ⟨leader :: x :: before, after, congrArg (fun l => leader :: x :: l) hrest, ?_, hafter⟩
        intro y hy
        have hfinal := hbefore leader List.mem_cons_self
        rcases List.mem_cons.1 hy with rfl | hy
        · exact hfinal
        · rcases List.mem_cons.1 hy with rfl | hy
          · exact (h.split y hfinal).resolve_right hx
          · exact hbefore y (List.mem_cons_of_mem _ hy)

/-- Nothing in the list beats the final leader. -/
theorem not_beats_leaderFrom {beats : β → β → Bool} (h : Ranking beats) (leader : β) (xs : List β) :
    ∀ y ∈ leader :: xs, beats y (leaderFrom beats leader xs) = false := by
  obtain ⟨before, after, heq, hbefore, hafter⟩ := exists_leaderFrom_eq h leader xs
  intro y hy
  rw [heq] at hy
  rcases List.mem_append.1 hy with hy | hy
  · exact h.asymm (hbefore y hy)
  · rcases List.mem_cons.1 hy with rfl | hy
    · exact h.irrefl _
    · exact hafter y hy

theorem leader?_mem {beats : β → β → Bool} {xs : List β} {x : β}
    (hx : leader? beats xs = some x) : x ∈ xs := by
  cases xs with
  | nil => simp [leader?] at hx
  | cons a xs =>
    rw [leader?, Option.some.injEq] at hx
    rw [← hx]
    exact leaderFrom_mem beats a xs

theorem not_beats_leader? {beats : β → β → Bool} (h : Ranking beats) {xs : List β} {x : β}
    (hx : leader? beats xs = some x) : ∀ y ∈ xs, beats y x = false := by
  cases xs with
  | nil => simp [leader?] at hx
  | cons a xs =>
    rw [leader?, Option.some.injEq] at hx
    rw [← hx]
    exact not_beats_leaderFrom h a xs

/-- The leader stands at its place. -/
theorem getElem?_of_leaderIdx? {beats : β → β → Bool} {xs : List β} {k : Nat} {x : β}
    (hx : leaderIdx? beats xs = some (k, x)) : xs[k]? = some x := by
  obtain ⟨⟨x', k'⟩, hlead, hswap⟩ := Option.map_eq_some_iff.1 hx
  obtain ⟨rfl, rfl⟩ : k' = k ∧ x' = x := by simpa using hswap
  exact List.mem_zipIdx_iff_getElem?.1 (leader?_mem hlead)

/-- Nothing in the list beats the leader. -/
theorem not_beats_leaderIdx? {beats : β → β → Bool} (h : Ranking beats) {xs : List β} {k : Nat}
    {x : β} (hx : leaderIdx? beats xs = some (k, x)) : ∀ y ∈ xs, beats y x = false := by
  obtain ⟨⟨x', k'⟩, hlead, hswap⟩ := Option.map_eq_some_iff.1 hx
  obtain ⟨rfl, rfl⟩ : k' = k ∧ x' = x := by simpa using hswap
  intro y hy
  obtain ⟨i, hi⟩ := List.getElem?_of_mem hy
  exact not_beats_leader? (h.comap Prod.fst) hlead (y, i) (List.mem_zipIdx_iff_getElem?.2 hi)

/-- The leader beats every element before it. -/
theorem beats_of_lt_leaderIdx? {beats : β → β → Bool} (h : Ranking beats) {xs : List β} {k : Nat}
    {x : β} (hx : leaderIdx? beats xs = some (k, x)) {j : Nat} {y : β} (hj : j < k)
    (hy : xs[j]? = some y) : beats x y = true := by
  obtain ⟨⟨x', k'⟩, hlead, hswap⟩ := Option.map_eq_some_iff.1 hx
  obtain ⟨rfl, rfl⟩ : k' = k ∧ x' = x := by simpa using hswap
  have hplace : xs.zipIdx[j]? = some (y, j) := by simp [hy]
  cases hzip : xs.zipIdx with
  | nil => rw [hzip] at hplace; cases hplace
  | cons first rest =>
    rw [hzip, leader?, Option.some.injEq] at hlead
    obtain ⟨before, after, heq, hbefore, -⟩ := exists_leaderFrom_eq (h.comap Prod.fst) first rest
    rw [hlead, ← hzip] at heq
    rw [hlead] at hbefore
    have hlength : before.length = k' := by
      have hleader : xs.zipIdx[before.length]? = some (x', k') := by rw [heq]; simp
      rw [List.getElem?_zipIdx] at hleader
      obtain ⟨_, -, hpair⟩ := Option.map_eq_some_iff.1 hleader
      simpa using (Prod.ext_iff.1 hpair).2
    rw [heq, List.getElem?_append_left (by omega)] at hplace
    exact hbefore (y, j) (List.mem_of_getElem? hplace)

theorem leaderIdx?_eq_none_iff {beats : β → β → Bool} {xs : List β} :
    leaderIdx? beats xs = none ↔ xs = [] := by
  cases xs with
  | nil => simp [leaderIdx?, leader?]
  | cons a xs => simp [leaderIdx?, leader?]

/-! ## Searches that pass over a NaN -/

/-- A strict order in which only numbers compare, and two numbers that do not beat each other are
interchangeable.  What is no number beats nothing and is beaten by nothing. -/
structure NumbersOnly (number : β → Bool) (beats : β → β → Bool) : Prop where
  number_of_beats : ∀ {x y}, beats y x = true → number y = true ∧ number x = true
  asymm : ∀ {x y}, beats x y = true → beats y x = false
  split : ∀ {x y} z, number z = true → beats x y = true → beats x z = true ∨ beats z y = true

/-- An order with all numbers before what is none. -/
def numbersFirst (number : β → Bool) (beats : β → β → Bool) (y x : β) : Bool :=
  number y && (!number x || beats y x)

namespace NumbersOnly

variable {number : β → Bool} {beats : β → β → Bool}

theorem ranking (h : NumbersOnly number beats) : Ranking (numbersFirst number beats) where
  asymm {x y} hxy := by
    simp only [numbersFirst, Bool.and_eq_true, Bool.or_eq_true, Bool.not_eq_true'] at hxy
    obtain ⟨hx, hy | hbeats⟩ := hxy
    · simp [numbersFirst, hy]
    · simp [numbersFirst, hx, h.asymm hbeats]
  split {x y} z hxy := by
    simp only [numbersFirst, Bool.and_eq_true, Bool.or_eq_true, Bool.not_eq_true'] at hxy ⊢
    obtain ⟨hx, hy⟩ := hxy
    cases hz : number z with
    | false => exact .inl ⟨hx, .inl rfl⟩
    | true =>
      rcases hy with hy | hbeats
      · exact .inr ⟨rfl, .inl hy⟩
      · exact (h.split z hz hbeats).imp (fun hxz => ⟨hx, .inr hxz⟩) fun hzy => ⟨rfl, .inr hzy⟩

/-- Nothing ever takes the lead from what is no number. -/
theorem leaderFrom_of_not_number (h : NumbersOnly number beats) {leader : β}
    (hleader : number leader = false) (xs : List β) : leaderFrom beats leader xs = leader := by
  induction xs with
  | nil => rfl
  | cons x xs ih =>
    unfold leaderFrom
    split
    · next hx =>
      rw [(h.number_of_beats hx).2] at hleader
      cases hleader
    · exact ih

/-- A number that leads is compared with numbers only: the others never beat it. -/
theorem leaderFrom_of_number (h : NumbersOnly number beats) {leader : β}
    (hleader : number leader = true) (xs : List β) :
    leaderFrom beats leader xs = leaderFrom (numbersFirst number beats) leader xs := by
  induction xs generalizing leader with
  | nil => rfl
  | cons x xs ih =>
    have hbeats : numbersFirst number beats x leader = beats x leader := by
      rw [numbersFirst, hleader, Bool.not_true, Bool.false_or]
      cases hx : beats x leader with
      | false => rw [Bool.and_false]
      | true => rw [(h.number_of_beats hx).1, Bool.and_self]
    unfold leaderFrom
    rw [hbeats]
    split
    · next hx => exact ih (h.number_of_beats hx).1
    · exact ih hleader

/-- Where a number leads at first, the final leader is a number that beats all numbers before it and that
nothing beats. -/
theorem exists_leader (h : NumbersOnly number beats) {leader : β}
    (hleader : number leader = true) (xs : List β) :
    ∃ before after, leader :: xs = before ++ leaderFrom beats leader xs :: after ∧
      number (leaderFrom beats leader xs) = true ∧
      (∀ y ∈ before, number y = true → beats (leaderFrom beats leader xs) y = true) ∧
      ∀ y ∈ leader :: xs, beats y (leaderFrom beats leader xs) = false := by
  obtain ⟨before, after, heq, hbefore, -⟩ := exists_leaderFrom_eq h.ranking leader xs
  have hbest := not_beats_leaderFrom h.ranking leader xs
  rw [← h.leaderFrom_of_number hleader] at heq hbefore hbest
  have hfirst := hbest leader List.mem_cons_self
  simp only [numbersFirst, Bool.and_eq_true, Bool.or_eq_true, Bool.not_eq_true'] at hbefore
  have hnumber : number (leaderFrom beats leader xs) = true := by
    by_contra hnone
    rw [Bool.not_eq_true] at hnone
    simp [numbersFirst, hleader, hnone] at hfirst
  refine ⟨before, after, heq, hnumber, fun y hy hy' => ?_, fun y hy => ?_⟩
  · exact (hbefore y hy).2.resolve_left (by simp [hy'])
  · rw [← Bool.not_eq_true]
    intro hbeats
    have hy' := hbest y hy
    simp [numbersFirst, hbeats, (h.number_of_beats hbeats).1] at hy'

end NumbersOnly
/-! ## The two searches -/

section Searches

variable {α : Type} [Scalar α]

/-- An order in which a NaN beats every number and nothing beats a NaN, and of two numbers the better
beats the worse. -/
structure NaNFirst (worse : α → α → Prop) (beats : α → α → Bool) : Prop where
  beats_iff : ∀ {x y}, beats y x = true ↔
    Scalar.isNaN x = false ∧ (Scalar.isNaN y = true ∨ worse x y)
  asymm : ∀ {x y}, worse x y → ¬ worse y x
  split : ∀ {x y} z, Scalar.isNaN z = false → worse x y → worse x z ∨ worse z y

/-- The place of the first NaN of a list, or if there is none the first place with a best value. -/
structure FirstBest (worse : α → α → Prop) (xs : List α) (k : Nat) : Prop where
  lt_length : k < xs.length
  ofNaN : (∃ x ∈ xs, Scalar.isNaN x = true) →
    Scalar.isNaN (xs.getD k 0) = true ∧ ∀ j < k, Scalar.isNaN (xs.getD j 0) = false
  ofNumbers : (∀ x ∈ xs, Scalar.isNaN x = false) →
    (∀ x ∈ xs, ¬ worse (xs.getD k 0) x) ∧ ∀ j < k, worse (xs.getD j 0) (xs.getD k 0)

namespace NaNFirst

variable {worse : α → α → Prop} {beats : α → α → Bool}

theorem ranking (h : NaNFirst worse beats) : Ranking beats where
  asymm {x y} hxy := by
    rw [← Bool.not_eq_true]
    intro hyx
    obtain ⟨hy, hxy⟩ := h.beats_iff.1 hxy
    obtain ⟨hx, hyx⟩ := h.beats_iff.1 hyx
    rw [hx] at hxy
    rw [hy] at hyx
    exact h.asymm (hxy.resolve_left Bool.false_ne_true) (hyx.resolve_left Bool.false_ne_true)
  split {x y} z hxy := by
    obtain ⟨hy, hxy⟩ := h.beats_iff.1 hxy
    rw [h.beats_iff, h.beats_iff]
    cases hz : Scalar.isNaN z with
    | true => exact .inr ⟨hy, .inl rfl⟩
    | false =>
      rcases hxy with hx | hworse
      · exact .inl ⟨rfl, .inl hx⟩
      · rcases h.split z hz hworse with hyz | hzx
        · exact .inr ⟨hy, .inr hyz⟩
        · exact .inl ⟨rfl, .inr hzx⟩

/-- An element that beats all before it and is not beaten at all is the first of the best. -/
theorem firstBest (h : NaNFirst worse beats) {xs : List α} {k : Nat} {x : α}
    (hx : xs[k]? = some x) (hbest : ∀ y ∈ xs, beats y x = false)
    (hfirst : ∀ j < k, ∀ y, xs[j]? = some y → beats x y = true) : FirstBest worse xs k := by
  have hk : k < xs.length := (List.getElem?_eq_some_iff.1 hx).1
  have hget : xs.getD k 0 = x := by rw [List.getD_eq_getElem?_getD, hx, Option.getD_some]
  have hbefore : ∀ j < k, Scalar.isNaN (xs.getD j 0) = false ∧
      (Scalar.isNaN x = true ∨ worse (xs.getD j 0) x) := fun j hj => by
    have hj' : j < xs.length := hj.trans hk
    rw [List.getD_eq_getElem _ _ hj']
    exact h.beats_iff.1 (hfirst j hj _ (List.getElem?_eq_getElem hj'))
  refine ⟨hk, ?_, ?_⟩
  · rintro ⟨y, hy, hnan⟩
    refine ⟨?_, fun j hj => (hbefore j hj).1⟩
    rw [hget]
    by_contra hnumber
    rw [Bool.not_eq_true] at hnumber
    have hbeats : beats y x = true := h.beats_iff.2 ⟨hnumber, .inl hnan⟩
    rw [hbest y hy] at hbeats
    exact Bool.false_ne_true hbeats
  · intro hnumbers
    have hnumber : Scalar.isNaN x = false := hnumbers x (List.mem_of_getElem? hx)
    rw [hget]
    refine ⟨fun y hy hworse => ?_, fun j hj => ?_⟩
    · have hbeats : beats y x = true := h.beats_iff.2 ⟨hnumber, .inr hworse⟩
      rw [hbest y hy] at hbeats
      exact Bool.false_ne_true hbeats
    · have hlead := (hbefore j hj).2
      rw [hnumber] at hlead
      exact hlead.resolve_left Bool.false_ne_true

theorem firstBest_of_leaderIdx? (h : NaNFirst worse beats) {xs : List α} {k : Nat} {x : α}
    (hx : leaderIdx? beats xs = some (k, x)) : FirstBest worse xs k :=
  h.firstBest (getElem?_of_leaderIdx? hx) (not_beats_leaderIdx? h.ranking hx) fun _ hj _ hy =>
    beats_of_lt_leaderIdx? h.ranking hx hj hy

end NaNFirst

variable [LawfulScalar α]

theorem nanFirst_above : NaNFirst (· < ·) (Scalar.above : α → α → Bool) where
  beats_iff := by simp [Scalar.above]
  asymm := LawfulScalar.lt_asymm
  split z hz h := LawfulScalar.lt_or_lt z hz h

theorem nanFirst_below :
    NaNFirst (· > ·) fun y x : α => Ratio.below (.limit y) (.limit x) where
  beats_iff := by simp [Ratio.below]
  asymm := LawfulScalar.lt_asymm
  split z hz h := (LawfulScalar.lt_or_lt z hz h).symm

theorem ranking_above : Ranking (Scalar.above : α → α → Bool) := nanFirst_above.ranking

/-- The lack of a limit is beaten by every limit and beats nothing. -/
theorem ranking_below : Ranking (Ratio.below : Ratio α → Ratio α → Bool) where
  asymm {x y} h := by
    cases x with
    | unlimited => exact absurd h Bool.false_ne_true
    | limit x =>
      cases y with
      | unlimited => rfl
      | limit y => exact nanFirst_below.ranking.asymm h
  split {x y} z h := by
    cases x with
    | unlimited => exact absurd h Bool.false_ne_true
    | limit x =>
      cases z with
      | unlimited => exact .inl rfl
      | limit z =>
        cases y with
        | unlimited => exact .inr rfl
        | limit y => exact nanFirst_below.ranking.split z h

end Searches

/-! ## The two searches over the rationals -/

theorem above_rat (y x : ℚ) : Scalar.above y x = decide (x < y) := by
  simp [Scalar.above, Scalar.isNaN]

theorem below_limit_rat (y x : ℚ) :
    Ratio.below (.limit y) (.limit x) = decide (y < x) := by
  simp [Ratio.below, Scalar.isNaN]

end LinearProgram
