import Mathlib.Data.List.Forall2
/-!
# Attempts

An attempt gives a result or a fault.  Attempts in sequence have a result exactly if each of them has one
in its turn; what follows reads such a sequence off its result, step by step, and `simp` does so by itself.
Two sequences are compared in the same way: if their steps agree they come to faults or to results that
belong together.
-/

namespace LinearProgram

variable {ε β γ : Type}

@[simp]
theorem bind_eq_ok_iff {x : Except ε β} {f : β → Except ε γ} {z : γ} :
    x >>= f = .ok z ↔ ∃ y, x = .ok y ∧ f y = .ok z := by
  cases x with
  | error fault => exact ⟨nofun, nofun⟩
  | ok y => exact ⟨fun h => ⟨y, rfl, h⟩, fun ⟨_, hy, h⟩ => Except.ok.inj hy ▸ h⟩

@[simp]
theorem map_eq_ok_iff {x : Except ε β} {f : β → γ} {z : γ} :
    x.map f = .ok z ↔ ∃ y, x = .ok y ∧ f y = z := by
  cases x with
  | error fault => exact ⟨nofun, nofun⟩
  | ok y =>
    exact ⟨fun h => ⟨y, rfl, Except.ok.inj h⟩, fun ⟨_, hy, h⟩ => by rw [hy, Except.map, h]⟩

/-- What `simp` makes of an attempt whose last step is no attempt. -/
@[simp]
theorem functor_map_eq_ok_iff {x : Except ε β} {f : β → γ} {z : γ} :
    f <$> x = .ok z ↔ ∃ y, x = .ok y ∧ f y = z :=
  map_eq_ok_iff

theorem exists_map_iff {x : Except ε β} {f : β → γ} :
    (∃ z, x.map f = .ok z) ↔ ∃ y, x = .ok y := by
  simp

/-- An attempt whose last step is none. -/
theorem exists_bind_pure_iff {x : Except ε β} {f : β → γ} :
    (∃ z, (do let y ← x; pure (f y)) = .ok z) ↔ ∃ y, x = .ok y := by
  simp

theorem exists_error_iff {x : Except ε β} : (∃ fault, x = .error fault) ↔ ¬ ∃ y, x = .ok y := by
  cases x with
  | error fault => exact ⟨fun _ => nofun, fun _ => ⟨fault, rfl⟩⟩
  | ok y => exact ⟨nofun, fun h => absurd ⟨y, rfl⟩ h⟩

@[simp]
theorem pure_eq_ok_iff {y z : β} : (pure y : Except ε β) = .ok z ↔ y = z :=
  ⟨Except.ok.inj, congrArg _⟩

/-- Attempts at all members of a list have results exactly if they have them member by member. -/
theorem mapM_eq_ok_iff {f : β → Except ε γ} {xs : List β} {ys : List γ} :
    xs.mapM f = .ok ys ↔ List.Forall₂ (fun x y => f x = .ok y) xs ys := by
  induction xs generalizing ys with
  | nil =>
    rw [List.mapM_nil, pure_eq_ok_iff, List.forall₂_nil_left_iff]
    exact eq_comm
  | cons x xs ih =>
    rw [List.mapM_cons, bind_eq_ok_iff, List.forall₂_cons_left_iff]
    refine exists_congr fun y => ?_
    rw [bind_eq_ok_iff]
    constructor
    · rintro ⟨hy, rest, hrest, h⟩
      exact ⟨rest, hy, ih.1 hrest, (pure_eq_ok_iff.1 h).symm⟩
    · rintro ⟨rest, hy, hrest, rfl⟩
      exact ⟨hy, rest, ih.2 hrest, rfl⟩

/-- Attempts at all members of a list have results exactly if each of them has one. -/
theorem exists_mapM_iff {f : β → Except ε γ} {xs : List β} :
    (∃ ys, xs.mapM f = .ok ys) ↔ ∀ x ∈ xs, ∃ y, f x = .ok y := by
  induction xs with
  | nil => simp
  | cons x xs ih =>
    rw [List.forall_mem_cons, ← ih, List.mapM_cons]
    constructor
    · rintro ⟨ys, hys⟩
      simp only [bind_eq_ok_iff] at hys
      obtain ⟨y, hy, rest, hrest, -⟩ := hys
      exact ⟨⟨y, hy⟩, rest, hrest⟩
    · rintro ⟨⟨y, hy⟩, rest, hrest⟩
      exact ⟨y :: rest, by simp [hy, hrest]⟩

theorem length_of_mapM {f : β → Except ε γ} {xs : List β} {ys : List γ} (h : xs.mapM f = .ok ys) :
    ys.length = xs.length :=
  (mapM_eq_ok_iff.1 h).length_eq.symm

theorem exists_of_mem_forall₂ {R : β → γ → Prop} {xs : List β} {ys : List γ}
    (h : List.Forall₂ R xs ys) {y : γ} (hy : y ∈ ys) : ∃ x ∈ xs, R x y := by
  obtain ⟨i, hi, rfl⟩ := List.getElem_of_mem hy
  have hi' : i < xs.length := h.length_eq ▸ hi
  exact ⟨xs[i], List.getElem_mem hi', (List.forall₂_iff_get.1 h).2 i hi' hi⟩

/-- Every result of the attempts at the members of a list is the result of one of them. -/
theorem exists_of_mem_mapM {f : β → Except ε γ} {xs : List β} {ys : List γ}
    (h : xs.mapM f = .ok ys) {y : γ} (hy : y ∈ ys) : ∃ x ∈ xs, f x = .ok y :=
  exists_of_mem_forall₂ (mapM_eq_ok_iff.1 h) hy

/-! ## Two attempts side by side -/

/-- Two attempts agree: they have the same fault, or results that are related. -/
inductive Agree (R : β → γ → Prop) : Except ε β → Except ε γ → Prop
  | error (fault : ε) : Agree R (.error fault) (.error fault)
  | ok {y : β} {z : γ} (h : R y z) : Agree R (.ok y) (.ok z)

namespace Agree

variable {β' γ' : Type} {R : β → γ → Prop} {S : β' → γ' → Prop} {x : Except ε β} {x' : Except ε γ}

theorem refl {R : β → β → Prop} (hR : ∀ y, R y y) (x : Except ε β) : Agree R x x := by
  cases x with
  | error fault => exact .error fault
  | ok y => exact .ok (hR y)

theorem map {f : β → β'} {g : γ → γ'} (h : Agree R x x') (hfg : ∀ y z, R y z → S (f y) (g z)) :
    Agree S (x.map f) (x'.map g) := by
  cases h with
  | error fault => exact .error fault
  | ok h => exact .ok (hfg _ _ h)

end Agree

/-- Two attempts agree up to their faults: they have faults that `F` relates, or results that `R` relates. -/
inductive AgreeUpTo (F : ε → ε → Prop) (R : β → γ → Prop) : Except ε β → Except ε γ → Prop
  | error {fault fault' : ε} (h : F fault fault') : AgreeUpTo F R (.error fault) (.error fault')
  | ok {y : β} {z : γ} (h : R y z) : AgreeUpTo F R (.ok y) (.ok z)

namespace AgreeUpTo

variable {F : ε → ε → Prop} {β' γ' : Type} {R : β → γ → Prop} {S : β' → γ' → Prop} {x : Except ε β}
  {x' : Except ε γ}

theorem refl {R : β → β → Prop} (hF : ∀ fault, F fault fault) (hR : ∀ y, R y y) (x : Except ε β) :
    AgreeUpTo F R x x := by
  cases x with
  | error fault => exact .error (hF fault)
  | ok y => exact .ok (hR y)

theorem bind {f : β → Except ε β'} {g : γ → Except ε γ'} (h : AgreeUpTo F R x x')
    (hfg : ∀ y z, R y z → AgreeUpTo F S (f y) (g z)) : AgreeUpTo F S (x >>= f) (x' >>= g) := by
  cases h with
  | error h => exact .error h
  | ok h => exact hfg _ _ h

/-- What follows one and the same attempt has to agree on its result only. -/
theorem bind_same (hF : ∀ fault, F fault fault) {f : β → Except ε β'} {g : β → Except ε γ'}
    (x : Except ε β) (hfg : ∀ y, AgreeUpTo F S (f y) (g y)) : AgreeUpTo F S (x >>= f) (x >>= g) := by
  cases x with
  | error fault => exact .error (hF fault)
  | ok y => exact hfg y

theorem map {f : β → β'} {g : γ → γ'} (h : AgreeUpTo F R x x') (hfg : ∀ y z, R y z → S (f y) (g z)) :
    AgreeUpTo F S (x.map f) (x'.map g) := by
  cases h with
  | error h => exact .error h
  | ok h => exact .ok (hfg _ _ h)

/-- Attempts at the members of a list agree if those at each member do. -/
theorem mapM {δ : Type} {f : δ → Except ε β} {g : δ → Except ε γ} {xs : List δ}
    (h : ∀ x ∈ xs, AgreeUpTo F R (f x) (g x)) :
    AgreeUpTo F (List.Forall₂ R) (xs.mapM f) (xs.mapM g) := by
  induction xs with
  | nil => exact .ok .nil
  | cons x xs ih =>
    rw [List.mapM_cons, List.mapM_cons]
    refine (h x List.mem_cons_self).bind fun y z hyz => ?_
    refine (ih fun x hx => h x (List.mem_cons_of_mem _ hx)).bind fun ys zs hs => ?_
    exact .ok (.cons hyz hs)

end AgreeUpTo

end LinearProgram
