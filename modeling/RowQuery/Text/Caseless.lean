/-!
# Names without regard to ASCII case

Property names and enum variants are looked up without regard to the case of the 26 Latin
letters. No other character has a case here.

## Main definitions

* `fold`: the text with `A` to `Z` lowered.
* `sameName`: two texts with one fold.

## Main results

* `sameName_iff`, `sameName_refl`, `sameName_symm`, `sameName_trans`: it is an equivalence.
-/

namespace RowQuery.Text

/-- The characters of a text with the Latin capitals lowered. -/
def fold (s : String) : List Char :=
  s.toList.map Char.toLower

/-- The two names differ at most in the case of Latin letters. -/
def sameName (a b : String) : Bool :=
  fold a == fold b

theorem sameName_iff {a b : String} : sameName a b = true ↔ fold a = fold b := by
  simp [sameName]

theorem sameName_eq_false_iff {a b : String} : sameName a b = false ↔ fold a ≠ fold b := by
  simp [sameName]

@[simp] theorem sameName_refl (a : String) : sameName a a = true :=
  sameName_iff.mpr rfl

theorem sameName_symm {a b : String} (h : sameName a b = true) : sameName b a = true :=
  sameName_iff.mpr (sameName_iff.mp h).symm

theorem sameName_trans {a b c : String} (h : sameName a b = true) (h' : sameName b c = true) :
    sameName a c = true :=
  sameName_iff.mpr ((sameName_iff.mp h).trans (sameName_iff.mp h'))

theorem sameName_congr_right {a b : String} (h : sameName a b = true) (c : String) :
    sameName c a = sameName c b := by
  rw [sameName, sameName, sameName_iff.mp h]

theorem sameName_congr_left {a b : String} (h : sameName a b = true) (c : String) :
    sameName a c = sameName b c := by
  rw [sameName, sameName, sameName_iff.mp h]

end RowQuery.Text
