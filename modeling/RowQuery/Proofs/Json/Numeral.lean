import RowQuery.Json.Doc

/-!
# Written numbers read back

A whole number is written by its decimal digits, behind a minus sign if it is negative, and nothing
else: no plus sign, no fraction, no exponent. It is read back digit by digit as long as the
significand stays in 64 bits, so exactly the whole numbers up to the largest significand read back
as they are. A negative one has to fit in 64 bits with its sign. What follows must not carry the
numeral on.

## Main definitions

* `EndsNumeral`: no numeral goes on in a text.
* `Number.ReadsBack`: the number is read back from its text.

## Main results

* `Numeral.scan_toDigits`, `Numeral.value_toDigits`: the digits of a number and their value.
* `Number.readsBack_int`, `Number.readsBack_neg`: which whole numbers read back.
-/

namespace RowQuery.Json

/-- No numeral goes on in the text. -/
def EndsNumeral (rest : List Char) : Prop :=
  ∀ c ∈ rest.head?, c.isDigit = false ∧ c ≠ '.' ∧ c ≠ 'e' ∧ c ≠ 'E'

/-! ### Digits -/

theorem isDigit_toDigits {n : Nat} : ∀ c ∈ Nat.toDigits 10 n, c.isDigit = true :=
  fun _ h => Nat.isDigit_of_mem_toDigits (by decide) (by decide) h

/-- Only the number zero is written with a zero in front. -/
theorem head_toDigits_ne_zero (n : Nat) (hn : n ≠ 0) :
    ∃ d ds, Nat.toDigits 10 n = d :: ds ∧ d ≠ '0' := by
  induction n using Nat.strongRecOn with
  | ind n ih =>
    by_cases hlt : n < 10
    · exact ⟨n.digitChar, [], Nat.toDigits_of_lt_base hlt, by simpa using hn⟩
    · obtain ⟨d, ds, hds, hd⟩ := ih (n / 10) (by omega) (by omega)
      exact ⟨d, ds ++ [Nat.digitChar (n % 10)],
        by rw [Nat.toDigits_of_base_le (by decide) (by omega), hds, List.cons_append], hd⟩

namespace Numeral

theorem scanDigits_append {ds rest : List Char} (hne : ds ≠ [])
    (hds : ∀ c ∈ ds, c.isDigit = true) (hrest : ∀ c ∈ rest.head?, c.isDigit = false) :
    scanDigits (ds ++ rest) = .ok (ds, rest) := by
  have htake : (ds ++ rest).takeWhile Char.isDigit = ds := by
    rw [List.takeWhile_append_of_pos hds]
    cases rest with
    | nil => simp
    | cons c rest => simp [hrest c rfl]
  have hdrop : (ds ++ rest).dropWhile Char.isDigit = rest := by
    rw [List.dropWhile_append_of_pos hds]
    cases rest with
    | nil => simp
    | cons c rest => simp [hrest c rfl]
  simp [scanDigits, htake, hdrop, hne]

theorem scanWhole_toDigits (n : Nat) {rest : List Char} (hrest : EndsNumeral rest) :
    scanWhole (Nat.toDigits 10 n ++ rest) = .ok (Nat.toDigits 10 n, rest) := by
  rw [scanWhole, scanDigits_append Nat.toDigits_ne_nil isDigit_toDigits fun c hc => (hrest c hc).1]
  simp only [bind, Except.bind]
  split
  · -- A zero with another digit behind it.
    rename_i c cs hds
    by_cases hn : n = 0
    · subst hn
      cases hds
    · obtain ⟨d, ds, hds', hd⟩ := head_toDigits_ne_zero n hn
      rw [hds'] at hds
      cases hds
      exact absurd rfl hd
  · rfl

theorem scanFraction_of_ends {rest : List Char} (hrest : EndsNumeral rest) :
    scanFraction rest = .ok ([], rest) := by
  rw [scanFraction.eq_def]
  split
  · exact absurd rfl (hrest '.' rfl).2.1
  · rfl

theorem scanExponent_of_ends {rest : List Char} (hrest : EndsNumeral rest) :
    scanExponent rest = .ok (none, rest) := by
  rw [scanExponent.eq_def]
  split
  · exact absurd rfl (hrest 'e' rfl).2.2.1
  · exact absurd rfl (hrest 'E' rfl).2.2.2
  · rfl

theorem scanUnsigned_of_parts {negative : Bool} {cs cs₁ cs₂ rest whole fraction : List Char}
    {exponent : Option (Bool × List Char)} (hwhole : scanWhole cs = .ok (whole, cs₁))
    (hfraction : scanFraction cs₁ = .ok (fraction, cs₂))
    (hexponent : scanExponent cs₂ = .ok (exponent, rest)) :
    scanUnsigned negative cs = .ok (⟨negative, whole, fraction, exponent⟩, rest) := by
  simp only [scanUnsigned, hwhole, hfraction, hexponent, bind, Except.bind]

theorem scanUnsigned_toDigits (negative : Bool) (n : Nat) {rest : List Char}
    (hrest : EndsNumeral rest) : scanUnsigned negative (Nat.toDigits 10 n ++ rest)
      = .ok (⟨negative, Nat.toDigits 10 n, [], none⟩, rest) :=
  scanUnsigned_of_parts (scanWhole_toDigits n hrest) (scanFraction_of_ends hrest)
    (scanExponent_of_ends hrest)

/-- The digits of a number are a numeral of whole digits. -/
theorem scan_toDigits (n : Nat) {rest : List Char} (hrest : EndsNumeral rest) :
    scan (Nat.toDigits 10 n ++ rest) = .ok (⟨false, Nat.toDigits 10 n, [], none⟩, rest) := by
  have hunsigned : scan (Nat.toDigits 10 n ++ rest)
      = scanUnsigned false (Nat.toDigits 10 n ++ rest) := by
    rw [scan.eq_def]
    split
    · rename_i cs hcs
      have hmem : '-' ∈ Nat.toDigits 10 n := by
        cases hds : Nat.toDigits 10 n with
        | nil => exact absurd hds Nat.toDigits_ne_nil
        | cons d ds =>
          rw [hds, List.cons_append] at hcs
          cases hcs
          exact List.mem_cons_self
      exact absurd (isDigit_toDigits _ hmem) (by decide)
    · rfl
  rw [hunsigned, scanUnsigned_toDigits false n hrest]

/-- So they are behind a minus sign. -/
theorem scan_minus_toDigits (n : Nat) {rest : List Char} (hrest : EndsNumeral rest) :
    scan ('-' :: Nat.toDigits 10 n ++ rest) = .ok (⟨true, Nat.toDigits 10 n, [], none⟩, rest) :=
  scanUnsigned_toDigits true n hrest

/-! ### Value -/

/-- Taking in more digits never makes the number smaller. -/
theorem le_ofDigitChars (ds : List Char) (n : Nat) : n ≤ Nat.ofDigitChars 10 ds n := by
  rw [Nat.ofDigitChars_eq_ofDigitChars_zero]
  exact Nat.le_add_right_of_le (Nat.le_mul_of_pos_left n (Nat.pow_pos (by decide)))

/-- Digits that lead to a number within the limit are all taken in, since on the way the number only
grows. -/
theorem absorb_eq {limit : Nat} (ds : List Char) (n : Nat)
    (h : Nat.ofDigitChars 10 ds n ≤ limit) :
    absorb limit n ds = (Nat.ofDigitChars 10 ds n, []) := by
  induction ds generalizing n with
  | nil => simp [absorb]
  | cons d ds ih =>
    rw [Nat.ofDigitChars_cons, Nat.mul_comm] at h ⊢
    have hfits : n * 10 + Text.digitValue d ≤ limit := Nat.le_trans (le_ofDigitChars ds _) h
    rw [absorb]
    simp only [hfits, if_true]
    exact ih _ h

theorem value_toDigits (negative : Bool) {n : Nat} (hn : n ≤ significandLimit) :
    value ⟨negative, Nat.toDigits 10 n, [], none⟩ = .ok (wholeNumber negative n) := by
  have habsorb : absorb significandLimit 0 (Nat.toDigits 10 n) = (n, []) := by
    rw [absorb_eq _ _ (by rwa [Nat.ofDigitChars_ten_toDigits]), Nat.ofDigitChars_ten_toDigits]
  simp [value, habsorb]

end Numeral

/-- The number is read back from its text, by its first character, and wherever no numeral goes
on. -/
structure Number.ReadsBack (n : Number) : Prop where
  head : ∃ c cs, n.write = c :: cs ∧ (c = '-' ∨ c.isDigit = true)
  leaf : ∀ rest, EndsNumeral rest → numberLeaf (n.write ++ rest) = (.number (.ok n), rest)

/-- **Whole numbers read back** up to the largest significand. -/
theorem Number.readsBack_int {n : Nat} (hn : n ≤ Numeral.significandLimit) :
    (Number.int n).ReadsBack := by
  have hwrite : (Number.int n).write = Nat.toDigits 10 n := by
    show Text.intDigits (n : Int) = _
    rw [Text.intDigits, if_neg (by omega), Int.natAbs_natCast]
  constructor
  · rw [hwrite]
    cases hds : Nat.toDigits 10 n with
    | nil => exact absurd hds Nat.toDigits_ne_nil
    | cons d ds =>
      have hd : d ∈ Nat.toDigits 10 n := by rw [hds]; exact List.mem_cons_self
      exact ⟨d, ds, rfl, .inr (isDigit_toDigits d hd)⟩
  · intro rest hrest
    rw [hwrite, numberLeaf, Numeral.scan_toDigits n hrest]
    simp only [Numeral.value_toDigits false hn]
    rfl

/-- **Negative numbers read back** as far as they fit in 64 bits with a sign. -/
theorem Number.readsBack_neg {n : Nat} (hpos : 0 < n) (hn : n ≤ 0x8000000000000000) :
    (Number.int (-n)).ReadsBack := by
  have hwrite : (Number.int (-n)).write = '-' :: Nat.toDigits 10 n := by
    show Text.intDigits (-n : Int) = _
    rw [Text.intDigits, if_pos (by omega), Int.natAbs_neg, Int.natAbs_natCast]
  refine ⟨⟨'-', _, hwrite, .inl rfl⟩, fun rest hrest => ?_⟩
  have hlimit : n ≤ Numeral.significandLimit := by
    rw [Numeral.significandLimit]
    omega
  have hwhole : Numeral.wholeNumber true n = .int (-n) := by
    have hfits : Text.fitsInt64 (-n) = true := by simp [Text.fitsInt64]; omega
    simp [Numeral.wholeNumber, hfits, Nat.ne_of_gt hpos]
  rw [hwrite, numberLeaf, Numeral.scan_minus_toDigits n hrest]
  simp only [Numeral.value_toDigits true hlimit, hwhole]

end RowQuery.Json
