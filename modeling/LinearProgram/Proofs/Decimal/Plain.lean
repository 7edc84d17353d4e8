import LinearProgram.Decimal.Numeral
import LinearProgram.Proofs.Decimal.Fixed
import LinearProgram.Proofs.Decimal.Nearest
import LinearProgram.Proofs.Text.Number
/-!
# Decimals in texts

A plain decimal is a minus sign or none, digits before the point and digits behind it.  A number of units of
the last place is written as a plain decimal, and a plain decimal is read back as the units it was written
from.

Proved:
* `Plain.ofUnits_isProper`: a number of units is written with digits only, and without needless zeros.
* `Plain.value_ofUnits`: and it is worth these units.
* `Plain.text_ofUnits`: its text is the one that tables are written with.
* `Plain.within_ofUnits_iff`: how many digits it has can be told without writing it.
* `Plain.decimal?_text`: a plain decimal is read as its units of its last place.
-/

namespace LinearProgram

/-- A minus sign or none, the digits before the point, and those behind it. -/
structure Plain where
  negative : Bool
  whole : List Char
  fraction : List Char

namespace Plain

/-- The digits of a decimal before and behind the point. -/
def digits (t : Plain) : List Char := t.whole ++ t.fraction

/-- The text of a decimal, which has a point only if there are digits behind it. -/
def text (t : Plain) : String :=
  String.ofList ((if t.negative then ['-'] else []) ++ t.whole ++
    (if t.fraction.isEmpty then [] else '.' :: t.fraction))

/-- The units of the last place, without the sign. -/
def units (t : Plain) : ℕ := Nat.ofDigitChars 10 t.digits 0

/-- The number that a decimal denotes. -/
def value (t : Plain) : ℚ := signedRat t.negative (t.units / 10 ^ t.fraction.length)

/-- There are digits only, at least one of them before the point, and a zero in front of others only if it
is the digit before the point. -/
structure IsProper (t : Plain) : Prop where
  isDigit : ∀ c ∈ t.digits, c.isDigit = true
  whole_ne_nil : t.whole ≠ []
  leading : t.whole.head? = some '0' → t.whole = ['0']

/-- At most `limit` digits stand behind the point, and at most so many from the first on that is not zero. -/
structure Within (limit : ℕ) (t : Plain) : Prop where
  fraction : t.fraction.length ≤ limit
  significant : (t.digits.dropWhile (· == '0')).length ≤ limit

/-- So many units of the last place, of which there are `places` behind the point. -/
def ofUnits (negative : Bool) (places units : ℕ) : Plain where
  negative := negative
  whole := Nat.toDigits 10 (units / 10 ^ places)
  fraction := if places = 0 then [] else (paddedDigits places (units % 10 ^ places)).toList

/-! ## Digits -/

/-- Only zero is written with a zero in front. -/
theorem eq_zero_of_head?_toDigits (n : ℕ) (h : (Nat.toDigits 10 n).head? = some '0') : n = 0 := by
  induction n using Nat.strongRecOn with
  | _ n ih =>
    rw [Nat.toDigits_eq_if (by decide)] at h
    split at h
    · exact Nat.digitChar_eq_zero.1 (Option.some.inj h)
    · next hlarge =>
      rw [List.head?_append_of_ne_nil _ Nat.toDigits_ne_nil] at h
      have hzero := ih (n / 10) (by omega) h
      omega

variable {negative : Bool} {places n : ℕ}

@[simp]
theorem length_fraction : (ofUnits negative places n).fraction.length = places := by
  rw [ofUnits]
  dsimp only
  split
  · next hzero => exact hzero.symm
  · next hne =>
    have hlt : n % 10 ^ places < 10 ^ places := Nat.mod_lt _ (Nat.pow_pos (by decide))
    have hlen := (Nat.length_toDigits_le_iff (by decide) (Nat.pos_of_ne_zero hne)).2 hlt
    rw [toList_paddedDigits, List.length_append, List.length_replicate]
    omega

theorem ofDigitChars_fraction :
    Nat.ofDigitChars 10 (ofUnits negative places n).fraction 0 = n % 10 ^ places := by
  rw [ofUnits]
  dsimp only
  split
  · next hzero => rw [hzero, pow_zero, Nat.mod_one]; rfl
  · rw [toList_paddedDigits, Nat.ofDigitChars_append, Nat.ofDigitChars_replicate_zero, mul_zero,
      Nat.ofDigitChars_ten_toDigits]

theorem units_ofUnits : (ofUnits negative places n).units = n := by
  have hwhole : Nat.ofDigitChars 10 (ofUnits negative places n).whole 0 = n / 10 ^ places :=
    Nat.ofDigitChars_ten_toDigits
  rw [units, digits, Nat.ofDigitChars_append, hwhole, Nat.ofDigitChars_eq_ofDigitChars_zero,
    length_fraction, ofDigitChars_fraction]
  exact Nat.div_add_mod n (10 ^ places)

/-- What is written is worth what it was written from. -/
theorem value_ofUnits :
    (ofUnits negative places n).value = Numeral.signed negative n * (1 / 10 ^ places) := by
  have hnegative : (ofUnits negative places n).negative = negative := rfl
  rw [value, units_ofUnits, length_fraction, hnegative, signedRat_div]

/-- What is written has digits only, and no needless zeros. -/
theorem ofUnits_isProper : (ofUnits negative places n).IsProper where
  isDigit c hc := by
    have hdigit (k : ℕ) (hc : c ∈ Nat.toDigits 10 k) : c.isDigit = true :=
      Nat.isDigit_of_mem_toDigits (by decide) (by decide) hc
    rcases List.mem_append.1 hc with hc | hc
    · exact hdigit _ hc
    · rw [ofUnits] at hc
      dsimp only at hc
      split at hc
      · cases hc
      · rw [toList_paddedDigits] at hc
        rcases List.mem_append.1 hc with hc | hc
        · rw [List.eq_of_mem_replicate hc]
          rfl
        · exact hdigit _ hc
  whole_ne_nil := Nat.toDigits_ne_nil
  leading h := by
    rw [ofUnits] at h ⊢
    dsimp only at h ⊢
    rw [eq_zero_of_head?_toDigits _ h]
    rfl

/-- A number of units is written as a plain decimal. -/
theorem text_ofUnits :
    (ofUnits negative places n).text = (if negative then "-" else "") ++ placed places n := by
  have hsign : (if negative then ['-'] else []) = (if negative then "-" else "").toList := by
    cases negative <;> rfl
  apply String.toList_inj.1
  rw [text, String.toList_ofList, String.toList_append, placed, ofUnits, hsign, List.append_assoc]
  dsimp only
  congr 1
  split
  · next hzero =>
    rw [hzero, pow_zero, Nat.div_one, Nat.toList_repr]
    simp
  · next hne =>
    have hfraction : (paddedDigits places (n % 10 ^ places)).toList ≠ [] := by
      rw [toList_paddedDigits]
      exact List.append_ne_nil_of_right_ne_nil _ Nat.toDigits_ne_nil
    rw [String.toList_append, String.toList_append, Nat.toList_repr, List.append_assoc,
      if_neg (by simpa using hfraction)]
    rfl

/-! ## Counting digits -/

/-- The digits of a decimal of `places` places that count are those of its units, or those behind the point if
there are no others. -/
theorem within_ofUnits_iff {limit : ℕ} :
    (ofUnits negative places n).Within limit ↔ places + wholeDigits places n ≤ limit := by
  have hlength : (ofUnits negative places n).fraction.length = places := length_fraction
  have hdigits : (ofUnits negative places n).digits =
      Nat.toDigits 10 (n / 10 ^ places) ++ (ofUnits negative places n).fraction := rfl
  have hle : ((ofUnits negative places n).fraction.dropWhile (· == '0')).length ≤ places :=
    (List.dropWhile_suffix _).length_le.trans_eq hlength
  unfold wholeDigits
  dsimp only
  by_cases hzero : n / 10 ^ places = 0
  · have hwhole : Nat.toDigits 10 0 = ['0'] := rfl
    rw [if_pos hzero, Nat.add_zero]
    refine ⟨fun h => hlength ▸ h.fraction, fun h => ⟨hlength.trans_le h, ?_⟩⟩
    rw [hdigits, hzero, hwhole]
    exact hle.trans h
  · have hkept : (ofUnits negative places n).digits.dropWhile (· == '0') =
        (ofUnits negative places n).digits := by
      have hne : Nat.toDigits 10 (n / 10 ^ places) ≠ [] := Nat.toDigits_ne_nil
      obtain ⟨c, cs, hcons⟩ := List.exists_cons_of_ne_nil hne
      have hc : c ≠ '0' := by
        rintro rfl
        exact hzero (eq_zero_of_head?_toDigits _ (by rw [hcons]; rfl))
      rw [hdigits, hcons, List.cons_append, List.dropWhile_cons_of_neg (by simpa using hc)]
    have hcount : (ofUnits negative places n).digits.length =
        places + (Nat.toDigits 10 (n / 10 ^ places)).length := by
      rw [hdigits, List.length_append, hlength, Nat.add_comm]
    rw [if_neg hzero, ← hcount]
    refine ⟨fun h => hkept ▸ h.significant, fun h => ⟨?_, hkept.symm ▸ h⟩⟩
    rw [hlength]
    omega

/-- A number below `10 ^ count` has at most `count` digits before the point. -/
theorem wholeDigits_le {count : ℕ} (h : n / 10 ^ places < 10 ^ count) : wholeDigits places n ≤ count := by
  unfold wholeDigits
  dsimp only
  split
  · exact Nat.zero_le _
  · next hne =>
    have hpos : 0 < count := by
      refine Nat.pos_of_ne_zero ?_
      rintro rfl
      exact hne (Nat.lt_one_iff.1 h)
    exact (Nat.length_toDigits_le_iff (by decide) hpos).2 h

/-! ## Reading back -/

theorem digit?_of_isDigit {c : Char} (h : c.isDigit = true) :
    Text.digit? c = some (c.toNat - '0'.toNat) := by
  refine Text.digit?_of_asciiDigit? (if_pos ?_)
  obtain ⟨hlow, hhigh⟩ : 48 ≤ c.toNat ∧ c.toNat ≤ 57 := Char.isDigit_iff_toNat.1 h
  omega

/-- Digits that end the text or stand before the point are a run of digits. -/
theorem moreDigits_append {ds rest : List Char} (hds : ∀ c ∈ ds, c.isDigit = true)
    (hrest : rest = [] ∨ rest.head? = some '.') :
    Numeral.moreDigits (ds ++ rest) = (ds.map fun c => c.toNat - '0'.toNat, rest) := by
  induction ds with
  | nil =>
    rcases hrest with rfl | hpoint
    · rfl
    · obtain ⟨rest, rfl⟩ := List.head?_eq_some_iff.1 hpoint
      rfl
  | cons c ds ih =>
    have hc := hds c List.mem_cons_self
    have hne : c ≠ '_' := by
      rintro rfl
      cases hc
    rw [List.cons_append, Numeral.moreDigits, digit?_of_isDigit hc]
    · rw [ih fun c hc => hds c (List.mem_cons_of_mem _ hc)]
      rfl
    · exact fun h => absurd h hne
    · exact fun _ _ h => absurd h hne

theorem digitRun_append {ds rest : List Char} (hne : ds ≠ []) (hds : ∀ c ∈ ds, c.isDigit = true)
    (hrest : rest = [] ∨ rest.head? = some '.') :
    Numeral.digitRun (ds ++ rest) = (ds.map fun c => c.toNat - '0'.toNat, rest) := by
  obtain ⟨c, ds, rfl⟩ := List.exists_cons_of_ne_nil hne
  rw [← moreDigits_append hds hrest, List.cons_append, Numeral.digitRun,
    digit?_of_isDigit (hds c List.mem_cons_self)]
  rfl

theorem value_map (ds : List Char) :
    Numeral.value (ds.map fun c => c.toNat - '0'.toNat) = Nat.ofDigitChars 10 ds 0 := by
  rw [Numeral.value, List.foldl_map]
  rfl

variable {t : Plain}

/-- A decimal without its sign is read as its units. -/
theorem unsigned?_digits (h : t.IsProper) (negative : Bool) :
    Numeral.unsigned? Numeral.digitRun negative
        (t.whole ++ (if t.fraction.isEmpty then [] else '.' :: t.fraction)) =
      some (.decimal negative t.units (-t.fraction.length)) := by
  have hwhole : ∀ c ∈ t.whole, c.isDigit = true := fun c hc => h.isDigit c (List.mem_append_left _ hc)
  have hfraction : ∀ c ∈ t.fraction, c.isDigit = true :=
    fun c hc => h.isDigit c (List.mem_append_right _ hc)
  have hne : (t.whole.map fun c => c.toNat - '0'.toNat).isEmpty = false := by
    simpa using h.whole_ne_nil
  have hunits : t.units = Numeral.value ((t.whole ++ t.fraction).map fun c => c.toNat - '0'.toNat) :=
    (value_map _).symm
  rw [hunits, List.map_append]
  by_cases hempty : t.fraction = []
  · rw [Numeral.unsigned?, hempty]
    simp only [List.isEmpty_nil, if_true, digitRun_append h.whole_ne_nil hwhole (.inl rfl), hne]
    rfl
  · have hpoint : t.fraction.isEmpty = false := by simpa using hempty
    have hrun := digitRun_append hempty hfraction (.inl rfl)
    rw [List.append_nil] at hrun
    have hrun' : Numeral.digitRun (t.whole ++ '.' :: t.fraction) =
        (t.whole.map fun c => c.toNat - '0'.toNat, '.' :: t.fraction) :=
      digitRun_append h.whole_ne_nil hwhole (.inr rfl)
    rw [Numeral.unsigned?, hpoint]
    simp only [Bool.false_eq_true, if_false, hrun', hrun, hne, Bool.false_and, Numeral.exponent?,
      Option.map_some, List.length_map, zero_sub]

theorem toLower_of_isDigit {c : Char} (h : c.isDigit = true) : c.toLower = c := by
  obtain ⟨-, hhigh⟩ : 48 ≤ c.toNat ∧ c.toNat ≤ 57 := Char.isDigit_iff_toNat.1 h
  refine dif_neg ?_
  rintro ⟨hupper, -⟩
  have hle : 65 ≤ c.toNat := hupper
  omega

/-- The characters of a decimal behind its sign. -/
def unsignedChars (t : Plain) : List Char :=
  t.whole ++ (if t.fraction.isEmpty then [] else '.' :: t.fraction)

theorem toList_text (t : Plain) :
    t.text.toList = (if t.negative then ['-'] else []) ++ t.unsignedChars := by
  rw [text, String.toList_ofList, List.append_assoc, unsignedChars]

theorem isWhite_of_mem_text (h : t.IsProper) : ∀ c ∈ t.text.toList, Text.isWhite c = false := by
  have hdigit (c : Char) (hc : c ∈ t.digits) : Text.isWhite c = false := by
    have hblank := isBlank_of_isDigit (h.isDigit c hc)
    rw [Text.isBlank, Bool.or_eq_false_iff] at hblank
    exact hblank.1
  intro c hc
  rw [toList_text, unsignedChars, List.mem_append, List.mem_append] at hc
  rcases hc with hc | hc | hc
  · split at hc
    · rw [List.mem_singleton.1 hc]
      decide
    · cases hc
  · exact hdigit c (List.mem_append_left _ hc)
  · split at hc
    · cases hc
    · rcases List.mem_cons.1 hc with rfl | hc
      · decide
      · exact hdigit c (List.mem_append_right _ hc)

/-- A proper decimal is read back. -/
theorem decimal?_text (h : t.IsProper) :
    Numeral.decimal? t.text = some (.decimal t.negative t.units (-t.fraction.length)) := by
  obtain ⟨c, whole, hwhole⟩ := List.exists_cons_of_ne_nil h.whole_ne_nil
  have hc : c.isDigit = true := h.isDigit c (List.mem_append_left _ (hwhole ▸ List.mem_cons_self))
  obtain ⟨cs, hcs⟩ : ∃ cs, t.unsignedChars = c :: cs := ⟨_, by rw [unsignedChars, hwhole]; rfl⟩
  have hsign : Numeral.sign t.text.toList = (t.negative, t.unsignedChars) := by
    rw [toList_text]
    cases t.negative with
    | true => rfl
    | false =>
      have hminus : c ≠ '-' := by
        rintro rfl
        cases hc
      have hplus : c ≠ '+' := by
        rintro rfl
        cases hc
      rw [hcs, if_neg Bool.false_ne_true, List.nil_append, Numeral.sign]
      · exact fun _ h => hminus (List.cons.inj h).1
      · exact fun _ h => hplus (List.cons.inj h).1
  -- A word would begin with a letter.
  have hword (word : String) (hhead : word.toList.head? ≠ some c) :
      String.ofList (t.unsignedChars.map Char.toLower) ≠ word := by
    rintro rfl
    refine hhead ?_
    rw [String.toList_ofList, hcs, List.map_cons, List.head?_cons, toLower_of_isDigit hc]
  have hletter (letter : Char) (hletter : letter.isDigit = false) : some letter ≠ some c := by
    rintro hsome
    rw [Option.some.inj hsome, hc] at hletter
    cases hletter
  rw [Numeral.decimal?, Text.trim_eq_self (isWhite_of_mem_text h), Numeral.written?, hsign]
  dsimp only
  rw [if_neg (hword "nan" (hletter 'n' rfl)), if_neg]
  · exact unsigned?_digits h t.negative
  · rintro (hinf | hinfinity)
    · exact hword "inf" (hletter 'i' rfl) hinf
    · exact hword "infinity" (hletter 'i' rfl) hinfinity

end Plain

end LinearProgram
