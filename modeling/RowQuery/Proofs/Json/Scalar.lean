import Mathlib.Data.List.TakeWhile
import RowQuery.Proofs.Binary64.Monotone
import RowQuery.Proofs.Json.Written
import RowQuery.Proofs.Outcome

/-!
# Texts of scalars

An array is written by putting commas between the texts of its items. The text of a truth value, a
number or a string stands for the same value there as it does alone: nothing behind it is read with
it, whatever gaps are about it, and a fault in it is the fault of the array.

Words and strings know where they end. A numeral does not: it goes on as long as it can, and what
ends it in an array is the comma or the bracket. So each part of a numeral is read in the same way
with more behind it, provided that no numeral goes on there (`Numeral.Stays`).

A text that is not written by `Json.write` may hold a scalar that is none for some readers, half of
a character or a numeral that is too large. These are texts of scalars as well: they are laid out,
and only a reader refuses them.

## Main definitions

* `Doc.isScalar`, `ScalarText`: the trees and texts of scalars other than null.
* `arrayText`: the text of an array, from the texts of its items.

## Main results

* `Doc.ofText_arrayText`, `parse_arrayText`: an array of scalars is read item by item.
-/

namespace RowQuery.Json

theorem eq_false_of_mem_head?_dropWhile {p : Char → Bool} {cs : List Char} {c : Char}
    (h : c ∈ (cs.dropWhile p).head?) : p c = false := by
  have hhead := List.head?_dropWhile_not p cs
  rw [Option.mem_def.mp h] at hhead
  exact hhead

/-! ### Gaps -/

/-- A gap in front of a text is dropped with the one that the text begins with. -/
theorem dropGap_append_of_nil {cs : List Char} (h : dropGap cs = []) (more : List Char) :
    dropGap (cs ++ more) = dropGap more :=
  List.dropWhile_append_of_pos (List.dropWhile_eq_nil_iff.mp h)

theorem isGap_of_dropGap {c : Char} {cs cs' : List Char} (h : dropGap cs = c :: cs') :
    isGap c = false := by
  have hhead : c ∈ (cs.dropWhile isGap).head? := by
    rw [← dropGap, h]
    rfl
  exact eq_false_of_mem_head?_dropWhile hhead

theorem dropGap_append_of_cons {c : Char} {cs cs' : List Char} (h : dropGap cs = c :: cs')
    (more : List Char) : dropGap (cs ++ more) = c :: cs' ++ more := by
  rw [dropGap] at h ⊢
  rw [List.dropWhile_append, h]
  rfl

/-! ### Numerals with more behind them -/

namespace Numeral

/-- What is read of a text is read of it with more behind it as well, if no numeral goes on
there. -/
def Stays {α : Type} (scan : List Char → Except Break (α × List Char)) : Prop :=
  ∀ {cs rest : List Char} {a : α}, scan cs = .ok (a, rest) → ∀ {more}, EndsNumeral more →
    scan (cs ++ more) = .ok (a, rest ++ more)

theorem scanDigits_eq_ok_iff {cs ds rest : List Char} :
    scanDigits cs = .ok (ds, rest) ↔
      ds ≠ [] ∧ cs.takeWhile Char.isDigit = ds ∧ cs.dropWhile Char.isDigit = rest := by
  simp only [scanDigits, List.isEmpty_iff]
  split
  · rename_i h
    simp only [h, reduceCtorEq, false_iff]
    rintro ⟨hne, rfl, -⟩
    exact hne rfl
  · rename_i h
    rw [Except.ok.injEq, Prod.mk.injEq, iff_and_self]
    rintro ⟨rfl, -⟩
    exact h

theorem stays_scanDigits : Stays scanDigits := by
  intro cs rest ds h more hmore
  obtain ⟨hne, rfl, rfl⟩ := scanDigits_eq_ok_iff.mp h
  have hcs := List.takeWhile_append_dropWhile (p := Char.isDigit) (l := cs)
  rw [show scanDigits (cs ++ more) = scanDigits (cs.takeWhile Char.isDigit
    ++ (cs.dropWhile Char.isDigit ++ more)) by rw [← List.append_assoc, hcs]]
  refine scanDigits_append hne (fun c => List.mem_takeWhile_imp) fun c hc => ?_
  rw [List.head?_append, Option.mem_def, Option.or_eq_some_iff] at hc
  rcases hc with hc | ⟨-, hc⟩
  · exact eq_false_of_mem_head?_dropWhile hc
  · exact (hmore c hc).1

theorem stays_scanWhole : Stays scanWhole := by
  intro cs rest ds h more hmore
  obtain ⟨⟨ds', rest'⟩, hdigits, hds⟩ := bind_eq_ok.mp h
  refine bind_eq_ok.mpr ⟨_, stays_scanDigits hdigits hmore, ?_⟩
  -- The digits alone decide whether there is a zero too many.
  dsimp only at hds ⊢
  split at hds
  · cases hds
  · cases hds
    rfl

theorem stays_scanFraction : Stays scanFraction := by
  intro cs rest ds h more hmore
  match cs with
  | [] =>
    cases h
    exact scanFraction_of_ends hmore
  | c :: cs =>
    rw [List.cons_append]
    by_cases hc : c = '.'
    · subst hc
      exact stays_scanDigits h hmore
    · have hnone (cs : List Char) : scanFraction (c :: cs) = .ok ([], c :: cs) := by
        simp [scanFraction, hc]
      rw [hnone] at h ⊢
      cases h
      rfl

theorem scanSign_append {cs : List Char} (hcs : cs ≠ []) (more : List Char) :
    scanSign (cs ++ more) = ((scanSign cs).1, (scanSign cs).2 ++ more) := by
  cases cs with
  | nil => exact absurd rfl hcs
  | cons c cs =>
    rw [List.cons_append]
    by_cases hplus : c = '+'
    · subst hplus
      rfl
    · by_cases hminus : c = '-'
      · subst hminus
        rfl
      · simp [scanSign, hplus, hminus]

theorem stays_scanPower : Stays scanPower := by
  intro cs rest power h more hmore
  have hcs : cs ≠ [] := by
    rintro rfl
    cases h
  obtain ⟨⟨ds, rest'⟩, hdigits, hpower⟩ := bind_eq_ok.mp h
  rw [scanPower, scanSign_append hcs]
  refine bind_eq_ok.mpr ⟨_, stays_scanDigits hdigits hmore, ?_⟩
  cases hpower
  rfl

theorem stays_scanExponent : Stays scanExponent := by
  intro cs rest power h more hmore
  match cs with
  | [] =>
    cases h
    exact scanExponent_of_ends hmore
  | c :: cs =>
    rw [List.cons_append]
    by_cases hc : c = 'e' ∨ c = 'E'
    · obtain rfl | rfl := hc <;> exact stays_scanPower h hmore
    · obtain ⟨hlower, hupper⟩ := not_or.mp hc
      have hnone (cs : List Char) : scanExponent (c :: cs) = .ok (none, c :: cs) := by
        simp [scanExponent, hlower, hupper]
      rw [hnone] at h ⊢
      cases h
      rfl

theorem stays_scanUnsigned (negative : Bool) : Stays (scanUnsigned negative) := by
  intro cs rest n h more hmore
  obtain ⟨⟨whole, cs₁⟩, hwhole, h⟩ := bind_eq_ok.mp h
  obtain ⟨⟨fraction, cs₂⟩, hfraction, h⟩ := bind_eq_ok.mp h
  obtain ⟨⟨exponent, cs₃⟩, hexponent, h⟩ := bind_eq_ok.mp h
  cases h
  exact scanUnsigned_of_parts (stays_scanWhole hwhole hmore) (stays_scanFraction hfraction hmore)
    (stays_scanExponent hexponent hmore)

theorem stays_scan : Stays scan := by
  intro cs rest n h more hmore
  cases cs with
  | nil => cases h
  | cons c cs =>
    by_cases hc : c = '-'
    · subst hc
      exact stays_scanUnsigned true h hmore
    · have hunsigned (cs : List Char) : scan (c :: cs) = scanUnsigned false (c :: cs) := by
        simp [scan, hc]
      rw [List.cons_append, hunsigned, ← List.cons_append]
      rw [hunsigned] at h
      exact stays_scanUnsigned false h hmore

end Numeral

/-! ### Words and strings with more behind them -/

theorem scanWord_append {word cs rest : List Char} (h : scanWord word cs = .ok rest)
    (more : List Char) : scanWord word (cs ++ more) = .ok (rest ++ more) := by
  induction word generalizing cs with
  | nil =>
    cases h
    rfl
  | cons w word ih =>
    cases cs with
    | nil => cases h
    | cons c cs =>
      rw [List.cons_append]
      by_cases hc : w = c
      · rw [scanWord, if_pos hc] at h ⊢
        exact ih h
      · rw [scanWord, if_neg hc] at h
        cases h

theorem scanUnits_append {cs rest : List Char} {units : List TextUnit}
    (h : scanUnits cs = (units, .ok rest)) (more : List Char) :
    scanUnits (cs ++ more) = (units, .ok (rest ++ more)) := by
  fun_induction scanUnits cs generalizing units with
  | case1 | case3 | case5 | case6 | case8 | case9 => cases h
  | case2 =>
    cases h
    rfl
  | case4 a b c d cs n hn units' r hr ih =>
    cases h
    simp [scanUnits, hn, ih hr]
  | case7 e cs _ hu c he units' r hr ih =>
    cases h
    have hunicode : e ≠ 'u' := hu
    simp [scanUnits, hunicode, he, ih hr]
  | case10 c cs hquote hlone _ _ hescape hplain units' r hr ih =>
    cases h
    have hslash : c ≠ '\\' := by
      rintro rfl
      cases cs with
      | nil => exact hlone rfl rfl
      | cons e cs => exact hescape e cs rfl rfl
    simp [scanUnits, hslash, hplain, ih hr]

theorem scanText_append {cs rest : List Char} {s : Except Fault String}
    (h : scanText cs = .ok (s, rest)) (more : List Char) :
    scanText (cs ++ more) = .ok (s, rest ++ more) := by
  rw [scanText] at h ⊢
  cases hscan : scanUnits cs with
  | mk units end? =>
    cases end? with
    | error f =>
      rw [hscan] at h
      dsimp only at h
      split at h <;> cases h
    | ok rest =>
      rw [hscan] at h
      cases h
      rw [scanUnits_append hscan]

/-! ### Scalars -/

/-- The tree of a scalar other than null. -/
def Doc.isScalar : Doc → Bool
  | .bool _ | .number _ | .text _ => true
  | _ => false

/-- The text of a scalar other than null, with gaps about it. -/
def ScalarText (w : String) : Prop :=
  (Doc.ofText w).1.isScalar = true ∧ (Doc.ofText w).2 = false

section Leaf

variable {cs rest more : List Char} {d : Doc}

theorem wordLeaf_append {leaf : Doc} {word : List Char} {tag : Fault → Fault}
    (h : wordLeaf leaf word tag cs = (d, rest)) (hd : d.isScalar = true) (more : List Char) :
    wordLeaf leaf word tag (cs ++ more) = (d, rest ++ more) := by
  rw [wordLeaf] at h ⊢
  cases hword : scanWord word cs with
  | error f =>
    rw [hword] at h
    cases h
    cases hd
  | ok rest =>
    rw [hword] at h
    cases h
    rw [scanWord_append hword]

theorem textLeaf_append (h : textLeaf cs = (d, rest)) (hd : d.isScalar = true)
    (more : List Char) : textLeaf (cs ++ more) = (d, rest ++ more) := by
  rw [textLeaf] at h ⊢
  cases htext : scanText cs with
  | error b =>
    rw [htext] at h
    cases h
    cases hd
  | ok text =>
    rw [htext] at h
    cases h
    rw [scanText_append htext]

theorem numberLeaf_append (h : numberLeaf cs = (d, rest)) (hd : d.isScalar = true)
    (hmore : EndsNumeral more) : numberLeaf (cs ++ more) = (d, rest ++ more) := by
  rw [numberLeaf] at h ⊢
  cases hscan : Numeral.scan cs with
  | error b =>
    rw [hscan] at h
    cases h
    cases hd
  | ok numeral =>
    rw [hscan] at h
    cases h
    rw [Numeral.stays_scan hscan hmore]

/-- **A scalar is read in the same way with more behind it**, if no numeral goes on there. -/
theorem scanLeaf_append (h : scanLeaf cs = (d, rest)) (hd : d.isScalar = true)
    (hmore : EndsNumeral more) : scanLeaf (cs ++ more) = (d, rest ++ more) := by
  rw [scanLeaf.eq_def] at h
  split at h
  case h_1 =>
    cases h
    cases hd
  case h_2 | h_3 | h_4 => exact wordLeaf_append h hd more
  case h_5 => exact textLeaf_append h hd more
  case h_6 c cs _ _ _ _ =>
    split at h
    · rename_i hc
      rw [List.cons_append, Doc.scanLeaf_numeral (by simpa using hc), ← List.cons_append]
      exact numberLeaf_append h hd hmore
    · cases h
      cases hd

end Leaf

/-! ### Arrays of scalars -/

/-- A scalar is a leaf behind a gap. -/
theorem Doc.exists_leaf_of_scan {fuel : Nat} {cs rest : List Char} {d : Doc}
    (h : scan (fuel + 1) cs = (d, rest)) (hd : d.isScalar = true) :
    ∃ c cs', dropGap cs = c :: cs' ∧ c ∉ ['[', '\x7b', ']'] ∧ scanLeaf (c :: cs') = (d, rest) := by
  rw [scan] at h
  split at h
  · cases h
    cases hd
  · cases h
    cases hd
  · rename_i harray hobject
    cases hdrop : dropGap cs with
    | nil =>
      rw [hdrop] at h
      cases h
      cases hd
    | cons c cs' =>
      rw [hdrop] at h
      refine ⟨c, cs', rfl, ?_, h⟩
      simp only [List.mem_cons, List.not_mem_nil, or_false, not_or]
      refine ⟨?_, ?_, ?_⟩ <;> rintro rfl
      · exact harray cs' hdrop
      · exact hobject cs' hdrop
      · cases h
        cases hd

/-- The text of a scalar without the gap at its start is a leaf, and only a gap follows it. -/
theorem ScalarText.exists_leaf {w : String} (h : ScalarText w) :
    ∃ c cs rest, dropGap w.toList = c :: cs ∧ StartsValue c ∧ dropGap rest = [] ∧
      ∀ fuel {more}, EndsNumeral more →
        Doc.scan (fuel + 1) (c :: cs ++ more) = ((Doc.ofText w).1, rest ++ more) := by
  obtain ⟨hscalar, hnothing⟩ := h
  cases hw : Doc.scan (3 * w.length + 3) w.toList with
  | mk d rest =>
    rw [Doc.ofText, hw] at hscalar hnothing ⊢
    obtain ⟨c, cs, hdrop, hc, hleaf⟩ := Doc.exists_leaf_of_scan hw hscalar
    simp only [List.mem_cons, List.not_mem_nil, or_false, not_or] at hc
    obtain ⟨harray, hobject, hclosed⟩ := hc
    have hgap : isGap c = false := isGap_of_dropGap hdrop
    have hrest : dropGap rest = [] := by simpa using hnothing
    refine ⟨c, cs, rest, hdrop, ⟨hgap, hclosed⟩, hrest, fun fuel more hmore => ?_⟩
    rw [List.cons_append, Doc.scan_leaf hgap harray hobject, ← List.cons_append]
    exact scanLeaf_append hleaf hscalar hmore

/-- What stands behind an item of an array: the other items and the bracket. -/
def arrayTail (ws : List String) : List Char :=
  ws.flatMap (fun w => ',' :: w.toList) ++ [']']

/-- The text of an array, from the texts of its items. -/
def arrayText (ws : List String) : String :=
  "[" ++ ",".intercalate ws ++ "]"

theorem endsNumeral_arrayTail (ws : List String) : EndsNumeral (arrayTail ws) := by
  cases ws <;> rintro c ⟨⟩ <;> decide

theorem length_lt_arrayTail (ws : List String) : ws.length < (arrayTail ws).length := by
  induction ws with
  | nil => decide
  | cons w ws ih =>
    rw [arrayTail, List.length_append] at ih ⊢
    rw [List.flatMap_cons, List.length_append, List.length_cons, List.length_cons]
    omega

theorem toList_arrayText_nil : (arrayText []).toList = ['[', ']'] := by
  simp [arrayText]

theorem toList_arrayText_cons (w : String) (ws : List String) :
    (arrayText (w :: ws)).toList = '[' :: (w.toList ++ arrayTail ws) := by
  have hitems : (",".intercalate (w :: ws)).toList
      = w.toList ++ ws.flatMap fun v => ',' :: v.toList := by
    induction ws generalizing w with
    | nil => simp
    | cons v ws ih => simp [String.intercalate_cons_cons, ih]
  simp [arrayText, hitems, arrayTail]

namespace Doc

theorem scanNextItem_arrayTail {ws : List String} (hws : ∀ w ∈ ws, ScalarText w) {fuel : Nat}
    (hfuel : 2 * ws.length + 1 ≤ fuel) {rest : List Char} (hrest : dropGap rest = []) :
    scanNextItem fuel (rest ++ arrayTail ws) = (ws.map fun w => (ofText w).1, .closed, []) := by
  induction ws generalizing fuel rest with
  | nil =>
    obtain ⟨fuel, rfl⟩ : ∃ k, fuel = k + 1 := ⟨fuel - 1, by omega⟩
    rw [scanNextItem, dropGap_append_of_nil hrest]
    rfl
  | cons w ws ih =>
    obtain ⟨hw, hws⟩ := List.forall_mem_cons.mp hws
    rw [List.length_cons] at hfuel
    obtain ⟨fuel, rfl⟩ : ∃ k, fuel = k + 3 := ⟨fuel - 3, by omega⟩
    obtain ⟨c, cs, rest', hdrop, hc, hrest', hscan⟩ := hw.exists_leaf
    have hstep : scanNextItem (fuel + 3) (rest ++ arrayTail (w :: ws))
        = scanItem (fuel + 2) (c :: cs ++ arrayTail ws) := by
      have htail : arrayTail (w :: ws) = ',' :: (w.toList ++ arrayTail ws) := by
        simp [arrayTail]
      rw [scanNextItem, dropGap_append_of_nil hrest, htail, dropGap_cons (by rfl)]
      simp [dropGap_append_of_cons hdrop, hc.2]
    rw [hstep]
    exact scanItem_cons (hscan fuel (endsNumeral_arrayTail ws)) (ih hws (by omega) hrest')

/-- **The tree of an array of scalars** is made of the trees of the scalars. -/
theorem ofText_arrayText {ws : List String} (hws : ∀ w ∈ ws, ScalarText w) :
    ofText (arrayText ws) = (.array (ws.map fun w => (ofText w).1) .closed, false) := by
  rw [ofText, ← String.length_toList]
  cases ws with
  | nil =>
    rw [toList_arrayText_nil]
    rfl
  | cons w ws =>
    obtain ⟨hw, hws⟩ := List.forall_mem_cons.mp hws
    obtain ⟨c, cs, rest, hdrop, hc, hrest, hscan⟩ := hw.exists_leaf
    rw [toList_arrayText_cons, List.length_cons, List.length_append]
    have hlength := length_lt_arrayTail ws
    obtain ⟨fuel, hfuel⟩ : ∃ k, 3 * (w.toList.length + (arrayTail ws).length + 1) + 3 = k + 4 :=
      ⟨_, (Nat.sub_add_cancel (by omega)).symm⟩
    have hfirst : scanFirstItem (fuel + 3) (w.toList ++ arrayTail ws)
        = scanItem (fuel + 2) (c :: cs ++ arrayTail ws) := by
      rw [scanFirstItem, dropGap_append_of_cons hdrop]
      simp [hc.2]
    have hitems : scanNextItem (fuel + 1) (rest ++ arrayTail ws) = _ :=
      scanNextItem_arrayTail hws (by omega) hrest
    rw [hfuel, scan_array (hfirst.trans
      (scanItem_cons (hscan fuel (endsNumeral_arrayTail ws)) hitems))]
    rfl

theorem value_of_isScalar {d : Doc} (h : d.isScalar = true) (depth depth' : Nat) :
    value depth d = value depth' d := by
  cases d with
  | bool | number | text => cases depth <;> cases depth' <;> rfl
  | _ => cases h

end Doc

theorem read_eq_ok_iff {α : Type} {reader : Doc → Except Fault α} {s : String} {a : α} :
    read reader s = .ok a ↔ reader (Doc.ofText s).1 = .ok a ∧ (Doc.ofText s).2 = false := by
  rw [read]
  cases Doc.ofText s with
  | mk d more =>
    cases hread : reader d <;> cases more <;> simp [hread, bind, Except.bind]

theorem ScalarText.parse_eq {w : String} (h : ScalarText w) (depth : Nat) :
    parse w = (Doc.ofText w).1.value depth := by
  rw [parse, read_of_ofText (Prod.ext rfl h.2), Doc.value_of_isScalar h.1]

theorem ScalarText.ne_null {w : String} (h : ScalarText w) {j : Json} (hj : parse w = .ok j) :
    j ≠ .null := by
  rintro rfl
  obtain ⟨hscalar, -⟩ := h
  obtain ⟨hvalue, -⟩ := read_eq_ok_iff.mp hj
  generalize (Doc.ofText w).1 = d at hscalar hvalue
  cases d with
  | bool => cases hvalue
  | number n =>
    rw [Doc.value, map_eq_ok] at hvalue
    obtain ⟨n, -, hn⟩ := hvalue
    cases hn
  | text s =>
    rw [Doc.value, map_eq_ok] at hvalue
    obtain ⟨s, -, hs⟩ := hvalue
    cases hs
  | _ => cases hscalar

/-- **An array of scalars is read item by item.** -/
theorem parse_arrayText {ws : List String} (hws : ∀ w ∈ ws, ScalarText w) :
    parse (arrayText ws) = (ws.mapM parse).map .array := by
  have hitems : (ws.map fun w => (Doc.ofText w).1).mapM (Doc.value (maxDepth - 1))
      = ws.mapM parse := by
    induction ws with
    | nil => rfl
    | cons w ws ih =>
      obtain ⟨hw, hws⟩ := List.forall_mem_cons.mp hws
      rw [List.map_cons, List.mapM_cons, List.mapM_cons, ih hws, hw.parse_eq]
  have hvalue := read_of_ofText (Doc.ofText_arrayText hws) (Doc.value maxDepth)
  rw [parse, hvalue, maxDepth, Doc.value]
  rw [maxDepth] at hitems
  rw [hitems]
  cases ws.mapM parse <;> rfl

end RowQuery.Json
