import RowQuery.Text.Blank
import RowQuery.Text.Caseless
import RowQuery.Text.Integer

/-!
# Decimal texts

The decimal text of a whole number is read back as that number. Its characters come before all
letters and none of them is white space, so nothing is trimmed from it, and no other text is the
same name.

## Main results

* `readInt64?_trim_showInt`: the decimal text of a 64-bit number is read back.
* `sameName_showInt_iff`: a name that differs from a decimal text at most in case is that text.
-/

namespace RowQuery.Text

/-! ### The characters of a decimal text -/

/-- A minus sign or a digit. -/
theorem toNat_of_mem_intDigits {n : Int} {c : Char} (h : c ∈ intDigits n) :
    '-'.toNat ≤ c.toNat ∧ c.toNat ≤ '9'.toNat := by
  have hdigit : ∀ m : Nat, c ∈ Nat.toDigits 10 m → '-'.toNat ≤ c.toNat ∧ c.toNat ≤ '9'.toNat := by
    intro m hm
    have hc := Nat.isDigit_of_mem_toDigits (by decide) (by decide) hm
    rw [Char.isDigit_iff_toNat] at hc
    exact ⟨Nat.le_trans (by decide) hc.1, hc.2⟩
  rw [intDigits] at h
  split at h
  · rcases List.mem_cons.mp h with rfl | h
    · decide
    · exact hdigit _ h
  · exact hdigit _ h

theorem isBlank_of_mem_intDigits {n : Int} {c : Char} (h : c ∈ intDigits n) :
    isBlank c = false := by
  have hminus : '-'.toNat = 45 := rfl
  have hnine : '9'.toNat = 57 := rfl
  obtain ⟨hlow, hhigh⟩ := toNat_of_mem_intDigits h
  simp [isBlank, blanks]
  omega

theorem trim_eq_self {cs : List Char} (h : ∀ c ∈ cs, isBlank c = false) : trim cs = cs := by
  have hfront : ∀ ds : List Char, (∀ c ∈ ds, isBlank c = false) → ds.dropWhile isBlank = ds := by
    intro ds hds
    cases ds with
    | nil => rfl
    | cons c ds => rw [List.dropWhile_cons_of_neg (by simp [hds c])]
  rw [trim, hfront cs h, hfront _ fun c hc => h c (List.mem_reverse.mp hc), List.reverse_reverse]

/-! ### Characters without a case -/

theorem toLower_of_lt {c : Char} (hc : c.toNat < 'A'.toNat) : c.toLower = c := by
  delta Char.toLower
  rw [dif_neg]
  rintro ⟨hA, -⟩
  exact absurd (UInt32.le_iff_toNat_le.mp hA) (Nat.not_le.mpr hc)

theorem le_toNat_toLower {c : Char} (hc : 'A'.toNat ≤ c.toNat) : 'A'.toNat ≤ c.toLower.toNat := by
  delta Char.toLower
  split
  · rename_i hupper
    have hZ : c.val.toNat ≤ 'Z'.toNat := UInt32.le_iff_toNat_le.mp hupper.2
    have hadd : (c.val + ('a'.val - 'A'.val)).toNat = c.val.toNat + 32 := by
      rw [UInt32.toNat_add]
      exact Nat.mod_eq_of_lt (Nat.lt_of_le_of_lt (Nat.add_le_add_right hZ _) (by decide))
    show 'A'.toNat ≤ (c.val + ('a'.val - 'A'.val)).toNat
    rw [hadd]
    exact Nat.le_add_right_of_le hc
  · exact hc

/-- Lowering keeps apart what comes before all letters and everything else. -/
theorem toLower_eq_iff {c d : Char} (hd : d.toNat < 'A'.toNat) : c.toLower = d.toLower ↔ c = d := by
  refine ⟨fun h => ?_, congrArg _⟩
  rw [toLower_of_lt hd] at h
  by_cases hc : c.toNat < 'A'.toNat
  · rwa [toLower_of_lt hc] at h
  · have hle : 'A'.toNat ≤ c.toLower.toNat := le_toNat_toLower (Nat.le_of_not_lt hc)
    rw [h] at hle
    exact absurd hd (Nat.not_lt.mpr hle)

theorem sameName_iff_eq {a b : String} (hb : ∀ c ∈ b.toList, c.toNat < 'A'.toNat) :
    sameName a b = true ↔ a = b := by
  rw [sameName_iff, fold, fold, ← String.toList_inj]
  generalize a.toList = as at *
  generalize b.toList = bs at *
  induction as generalizing bs with
  | nil => cases bs <;> simp
  | cons c as ih =>
    cases bs with
    | nil => simp
    | cons d bs =>
      obtain ⟨hd, hbs⟩ := List.forall_mem_cons.mp hb
      rw [List.map_cons, List.map_cons, List.cons.injEq, List.cons.injEq, toLower_eq_iff hd,
        ih bs hbs]

/-- A name that is a decimal text up to case is that text. -/
theorem sameName_showInt_iff {a : String} {n : Int} :
    sameName a (showInt n) = true ↔ a = showInt n := by
  refine sameName_iff_eq fun c hc => ?_
  rw [showInt, String.toList_ofList] at hc
  exact Nat.lt_of_le_of_lt (toNat_of_mem_intDigits hc).2 (by decide)

/-! ### Reading back -/

theorem fitsInt64_toInt (n : Int64) : fitsInt64 n.toInt = true := by
  have hlow := n.le_toInt
  have hhigh := n.toInt_lt
  simp only [fitsInt64, Bool.and_eq_true, decide_eq_true_eq]
  omega

theorem readNat?_toDigits (n : Nat) : readNat? (Nat.toDigits 10 n) = some n := by
  have hdigits : (Nat.toDigits 10 n).all Char.isDigit = true :=
    List.all_eq_true.mpr fun c hc => Nat.isDigit_of_mem_toDigits (by decide) (by decide) hc
  have hvalue : digitsValue (Nat.toDigits 10 n) = n := Nat.ofDigitChars_ten_toDigits
  rw [readNat?, if_pos ⟨Nat.toDigits_ne_nil, hdigits⟩, hvalue]

theorem readInt?_toDigits (n : Nat) : readInt? (Nat.toDigits 10 n) = some (n : Int) := by
  have hsign : ∀ c ∈ Nat.toDigits 10 n, c ≠ '-' ∧ c ≠ '+' := by
    intro c hc
    have hdigit := Nat.isDigit_of_mem_toDigits (by decide) (by decide) hc
    constructor <;> rintro rfl <;> cases hdigit
  rw [readInt?.eq_def]
  split
  · rename_i hds
    exact absurd rfl (hsign '-' (hds ▸ List.mem_cons_self)).1
  · rename_i hds
    exact absurd rfl (hsign '+' (hds ▸ List.mem_cons_self)).2
  · rw [readNat?_toDigits]
    rfl

theorem readInt?_intDigits (n : Int) : readInt? (intDigits n) = some n := by
  rw [intDigits]
  split
  · rename_i hn
    rw [readInt?, readNat?_toDigits]
    show some (-(n.natAbs : Int)) = some n
    rw [Option.some.injEq]
    omega
  · rename_i hn
    rw [readInt?_toDigits, Option.some.injEq]
    omega

/-- **The decimal text of a 64-bit number is read back**, with nothing trimmed from it. -/
theorem readInt64?_trim_showInt (n : Int64) :
    readInt64? (trim (showInt n.toInt).toList) = some n := by
  rw [showInt, String.toList_ofList, trim_eq_self fun c hc => isBlank_of_mem_intDigits hc,
    readInt64?, readInt?_intDigits]
  show (if fitsInt64 n.toInt then some (Int64.ofInt n.toInt) else none) = some n
  rw [if_pos (fitsInt64_toInt n), Int64.ofInt_toInt]

end RowQuery.Text
