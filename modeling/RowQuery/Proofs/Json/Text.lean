import Mathlib.Data.List.Forall2
import RowQuery.Json
import RowQuery.Json.Text

/-!
# Written strings read back

A string is written character by character, and each character as one unit: itself, an escape of
one letter, or an escape by code unit. What a unit stands for is a relation (`TextUnit.Denotes`), so
the scanner and the joiner of units meet in the middle and neither has to know the other.

Only controls are escaped by code unit, and they are far from the halves of characters beyond the
first 65536. So no written unit needs the one behind it.

## Main definitions

* `Written`: the ways in which a character is written.
* `TextUnit.Denotes`: the unit stands for a character by itself.

## Main results

* `scanUnits_writtenUnits`: the units of a written string, up to its closing quote.
* `scanText_writeText`: a written string reads back, whatever follows it.
-/

namespace RowQuery.Json

/-- The unit stands for a character by itself, and was written for it. -/
inductive TextUnit.Denotes : TextUnit → Char → Prop where
  | char (c : Char) : Denotes (.char c) c
  | code {c : Char} (h : c.toNat < 0x20) : Denotes (.code c.toNat) c

/-- The ways in which a character is written. -/
inductive Written : Char → List Char → Prop where
  | letter {c e : Char} (hu : e ≠ 'u') (he : escaped? e = some c) : Written c ['\\', e]
  | code {c : Char} (hc : c.toNat < 0x20) :
    Written c ['\\', 'u', '0', '0', hexDigit (c.toNat / 16), hexDigit (c.toNat % 16)]
  | plain {c : Char} (hquote : c ≠ '"') (hslash : c ≠ '\\') (hc : ¬ c.toNat < 0x20) : Written c [c]

theorem written_escape (c : Char) : Written c (escape c) := by
  rw [escape]
  -- The seven characters with a letter of their own.
  iterate 7
    split
    · rename_i h
      subst h
      exact .letter (by decide) rfl
  split
  · rename_i hc
    exact .code hc
  · exact .plain ‹_› ‹_› ‹_›

/-! ### Units -/

theorem codeUnit?_hexDigit : ∀ n < 0x20,
    codeUnit? '0' '0' (hexDigit (n / 16)) (hexDigit (n % 16)) = some n := by
  decide

theorem scanUnits_escape (c : Char) (rest : List Char) :
    ∃ u : TextUnit, u.Denotes c ∧
      scanUnits (escape c ++ rest) = (u :: (scanUnits rest).1, (scanUnits rest).2) := by
  have hw := written_escape c
  generalize escape c = cs at hw
  cases hw with
  | letter hu he => exact ⟨.char c, .char c, by simp [scanUnits, hu, he]⟩
  | code hc =>
    refine ⟨.code c.toNat, .code hc, ?_⟩
    simp [scanUnits, codeUnit?_hexDigit c.toNat hc]
  | plain hquote hslash hc => exact ⟨.char c, .char c, by simp [scanUnits, hslash, hc]⟩

/-- The units of a written string. -/
theorem scanUnits_writtenUnits (cs rest : List Char) :
    ∃ us, List.Forall₂ TextUnit.Denotes us cs ∧
      scanUnits (cs.flatMap escape ++ '"' :: rest) = (us, .ok rest) := by
  induction cs with
  | nil => exact ⟨[], .nil, by simp [scanUnits]⟩
  | cons c cs ih =>
    obtain ⟨us, hus, hscan⟩ := ih
    obtain ⟨u, hu, hstep⟩ := scanUnits_escape c (cs.flatMap escape ++ '"' :: rest)
    refine ⟨u :: us, .cons hu hus, ?_⟩
    rw [List.flatMap_cons, List.append_assoc, hstep, hscan]

theorem joinUnits_cons_of_denotes {atEnd : Fault} {u : TextUnit} {c : Char} {us : List TextUnit}
    {cs : List Char} (hu : u.Denotes c) (h : joinUnits atEnd us = .ok cs) :
    joinUnits atEnd (u :: us) = .ok (c :: cs) := by
  cases hu with
  | char =>
    rw [joinUnits, h]
    rfl
  | code hc =>
    have hleading : isLeading c.toNat = false := by simp [isLeading]; omega
    have htrailing : isTrailing c.toNat = false := by simp [isTrailing]; omega
    cases us with
    | nil =>
      cases h
      simp [joinUnits, hleading, htrailing]
    | cons v us =>
      cases v with
      | char d =>
        rw [joinUnits, if_neg (by simp [hleading, htrailing]), h, Char.ofNat_toNat]
        rfl
      | code m =>
        rw [joinUnits, if_neg (by simp [htrailing]), if_neg (by simp [hleading]), h,
          Char.ofNat_toNat]
        rfl

theorem joinUnits_of_denotes {atEnd : Fault} {us : List TextUnit} {cs : List Char}
    (h : List.Forall₂ TextUnit.Denotes us cs) : joinUnits atEnd us = .ok cs := by
  induction h with
  | nil => rfl
  | cons hu _ ih => exact joinUnits_cons_of_denotes hu ih

/-! ### Strings -/

/-- **A written string reads back**, whatever follows its closing quote. -/
theorem scanText_writeText (s : String) (rest : List Char) :
    scanText (s.toList.flatMap escape ++ '"' :: rest) = .ok (.ok s, rest) := by
  obtain ⟨us, hus, hscan⟩ := scanUnits_writtenUnits s.toList rest
  rw [scanText, hscan]
  simp only [joinUnits_of_denotes hus]
  rw [Except.map, String.ofList_toList]

end RowQuery.Json
