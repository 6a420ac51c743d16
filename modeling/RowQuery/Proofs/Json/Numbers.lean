import RowQuery.Proofs.Json.Scalar

/-!
# The numbers of a text

A JSON value may hold any number. One that is read from a text holds whole numbers of 64 bits, with
or without a sign, and finite numbers of floating point, and no others: what a numeral stands for is
in range or it is no number at all.

## Where a numeral may stand

Numerals stand in items of items and in members of members, so this is said of the whole tree of a
text, and it takes an induction on the steps of the scanner. The seven scanning functions call each
other, and each has one thing to show: a tree that it lays out holds only numbers in range
(`Doc.ScansInRange`). A tree with such numbers gives a value with such numbers, whatever the reader
refuses on the way.

## Main definitions

* `Number.InRange`, `InRange`: the numbers of 64 bits; values that hold no others.

## Main results

* `Numeral.inRange_of_value`: a numeral stands for a number in range.
* `inRange_of_parse`: a text holds no other numbers.
-/

namespace RowQuery.Json

/-- A whole number of 64 bits, with or without a sign, or a finite number of floating point. -/
def Number.InRange : Number → Prop
  | int n => -0x8000000000000000 ≤ n ∧ n < 0x10000000000000000
  | float x => x.isFinite = true

instance : DecidablePred Number.InRange
  | .int n => inferInstanceAs (Decidable (-0x8000000000000000 ≤ n ∧ n < 0x10000000000000000))
  | .float x => inferInstanceAs (Decidable (x.isFinite = true))

/-- All numbers in the value are in range. -/
def InRange (j : Json) : Prop :=
  ∀ n ∈ j.numbers, n.InRange

theorem inRange_null : null.InRange := by
  rintro n ⟨⟩

theorem inRange_number_iff {n : Number} : (number n).InRange ↔ n.InRange :=
  List.forall_mem_singleton

theorem inRange_array_iff {items : List Json} :
    (array items).InRange ↔ ∀ item ∈ items, item.InRange := by
  simp only [InRange, numbers, mem_itemNumbers, forall_exists_index, and_imp]
  exact ⟨fun h item hitem n hn => h n item hitem hn, fun h n item hitem hn => h item hitem n hn⟩

theorem inRange_object_iff {members : List (String × Json)} :
    (object members).InRange ↔ ∀ m ∈ members, m.2.InRange := by
  simp only [InRange, numbers, mem_memberNumbers, forall_exists_index, and_imp]
  exact ⟨fun h m hm n hn => h n m hm hn, fun h n m hm hn => h m hm n hn⟩

/-! ### Numerals -/

namespace Numeral

theorem absorb_le {limit n : Nat} (h : n ≤ limit) (ds : List Char) :
    (absorb limit n ds).1 ≤ limit := by
  induction ds generalizing n with
  | nil => exact h
  | cons d ds ih =>
    simp only [absorb]
    split
    · rename_i hfits
      exact ih hfits
    · exact h

theorem isFinite_of_scale {x y : Binary64} {e : Int} (h : scale x e = some y) :
    y.isFinite = true := by
  fun_induction scale x e with
  | case1 x e _ power =>
    obtain ⟨hfinite, rfl⟩ := Binary64.finite?_eq_some.mp h
    exact hfinite
  | case2 x e _ hzero =>
    cases h
    simp [Binary64.isFinite, hzero, Binary64.infinityMagnitude]
  | case3 => cases h
  | case4 x e _ _ _ ih => exact ih h

theorem isFinite_of_scaled {significand : Nat} {shift : Int}
    {exponent : Option (Bool × List Char)} {x : Binary64}
    (h : scaled significand shift exponent = some x) : x.isFinite = true := by
  rw [scaled.eq_def] at h
  split at h
  · exact isFinite_of_scale h
  · split at h
    · exact isFinite_of_scale h
    · split at h
      · cases h
      · cases h
        rfl

theorem inRange_wholeNumber {significand : Nat} (h : significand ≤ significandLimit)
    (negative : Bool) : (wholeNumber negative significand).InRange := by
  rw [significandLimit] at h
  rw [wholeNumber]
  split
  · exact ⟨by omega, by omega⟩
  · split
    · rw [Number.InRange, Binary64.isFinite_neg]
      exact Binary64.isFinite_ofInt (by omega)
    · rename_i hfits
      have hlow : Text.fitsInt64 (-significand) = true := by
        by_contra hlow
        exact hfits (.inr (by simp [hlow]))
      simp only [Text.fitsInt64, Bool.and_eq_true, decide_eq_true_eq] at hlow
      exact ⟨hlow.1, by omega⟩

/-- **A numeral stands for a number in range**, or for none. -/
theorem inRange_of_value {n : Numeral} {m : Number} (h : n.value = .ok m) : m.InRange := by
  rw [value.eq_def] at h
  dsimp only at h
  split at h
  · cases h
    exact inRange_wholeNumber (absorb_le (Nat.zero_le _) _) _
  · split at h
    · rename_i x hscaled
      have hx := isFinite_of_scaled hscaled
      cases h
      rw [Number.InRange]
      split
      · rw [Binary64.isFinite_neg, hx]
      · exact hx
    · cases h

end Numeral

/-! ### Trees of texts -/

namespace Doc

mutual

/-- The numbers in a tree. -/
def numbers : Doc → List Number
  | number (.ok n) => [n]
  | array items _ => itemNumbers items
  | object members _ => memberNumbers members
  | _ => []

/-- The numbers in the trees of items. -/
def itemNumbers : List Doc → List Number
  | [] => []
  | item :: items => numbers item ++ itemNumbers items

/-- The numbers in the trees of members. -/
def memberNumbers : List (Except Fault String × Doc) → List Number
  | [] => []
  | (_, member) :: members => numbers member ++ memberNumbers members

end

/-- All numbers in the tree are in range. -/
def InRange (d : Doc) : Prop :=
  ∀ n ∈ d.numbers, n.InRange

theorem inRange_array_iff {items : List Doc} {ending : Ending} :
    (array items ending).InRange ↔ ∀ item ∈ items, item.InRange := by
  rw [InRange, numbers]
  induction items with
  | nil => simp [itemNumbers]
  | cons item items ih =>
    rw [itemNumbers, List.forall_mem_append, ih, List.forall_mem_cons]
    rfl

theorem inRange_object_iff {members : List (Except Fault String × Doc)} {ending : Ending} :
    (object members ending).InRange ↔ ∀ m ∈ members, m.2.InRange := by
  rw [InRange, numbers]
  induction members with
  | nil => simp [memberNumbers]
  | cons m members ih =>
    rw [memberNumbers, List.forall_mem_append, ih, List.forall_mem_cons]
    rfl

theorem inRange_broken (b : Break) : (broken b).InRange := by
  rintro n ⟨⟩

theorem inRange_numberLeaf (cs : List Char) : (numberLeaf cs).1.InRange := by
  rw [numberLeaf]
  split
  · rename_i numeral rest _
    intro n hn
    cases hvalue : numeral.value with
    | error f =>
      rw [hvalue] at hn
      cases hn
    | ok m =>
      rw [hvalue] at hn
      obtain rfl := List.mem_singleton.mp hn
      exact Numeral.inRange_of_value hvalue
  · exact inRange_broken _

theorem inRange_wordLeaf {leaf : Doc} (h : leaf.InRange) (word : List Char) (tag : Fault → Fault)
    (cs : List Char) : (wordLeaf leaf word tag cs).1.InRange := by
  rw [wordLeaf]
  split
  · exact h
  · exact inRange_broken _

theorem inRange_textLeaf (cs : List Char) : (textLeaf cs).1.InRange := by
  rw [textLeaf]
  split
  · rintro n ⟨⟩
  · exact inRange_broken _

theorem inRange_scanLeaf (cs : List Char) : (scanLeaf cs).1.InRange := by
  rw [scanLeaf.eq_def]
  split
  case h_1 => exact inRange_broken _
  case h_2 | h_3 | h_4 => exact inRange_wordLeaf (by rintro n ⟨⟩) _ _ _
  case h_5 => exact inRange_textLeaf _
  case h_6 =>
    split
    · exact inRange_numberLeaf _
    · exact inRange_broken _

/-- Whatever is laid out in so many steps holds only numbers in range. -/
structure ScansInRange (fuel : Nat) : Prop where
  scan : ∀ cs, (scan fuel cs).1.InRange
  firstItem : ∀ cs, ∀ item ∈ (scanFirstItem fuel cs).1, item.InRange
  item : ∀ cs, ∀ item ∈ (scanItem fuel cs).1, item.InRange
  nextItem : ∀ cs, ∀ item ∈ (scanNextItem fuel cs).1, item.InRange
  firstMember : ∀ cs, ∀ m ∈ (scanFirstMember fuel cs).1, m.2.InRange
  member : ∀ ending cs, ∀ m ∈ (scanMember fuel ending cs).1, m.2.InRange
  nextMember : ∀ cs, ∀ m ∈ (scanNextMember fuel cs).1, m.2.InRange

/-- With no step left nothing is laid out. -/
theorem scansInRange_zero : ScansInRange 0 where
  scan _ := inRange_broken _
  firstItem _ := List.forall_mem_nil _
  item _ := List.forall_mem_nil _
  nextItem _ := List.forall_mem_nil _
  firstMember _ := List.forall_mem_nil _
  member _ _ := List.forall_mem_nil _
  nextMember _ := List.forall_mem_nil _

/-- One more step hands on what the others lay out. -/
theorem ScansInRange.succ {fuel : Nat} (h : ScansInRange fuel) : ScansInRange (fuel + 1) where
  scan cs := by
    rw [Doc.scan]
    split
    · exact inRange_array_iff.mpr (h.firstItem _)
    · exact inRange_object_iff.mpr (h.firstMember _)
    · exact inRange_scanLeaf _
  firstItem cs := by
    rw [scanFirstItem]
    split
    · exact List.forall_mem_nil _
    · exact List.forall_mem_nil _
    · exact h.item _
  item cs := by
    rw [scanItem]
    exact List.forall_mem_cons.mpr ⟨h.scan _, h.nextItem _⟩
  nextItem cs := by
    rw [scanNextItem]
    split
    · exact List.forall_mem_nil _
    · exact List.forall_mem_nil _
    · split
      · exact List.forall_mem_nil _
      · exact List.forall_mem_nil _
      · exact h.item _
    · exact List.forall_mem_nil _
  firstMember cs := by
    rw [scanFirstMember]
    split
    · exact List.forall_mem_nil _
    · exact List.forall_mem_nil _
    · exact h.member _ _
    · exact List.forall_mem_nil _
  member ending cs := by
    rw [scanMember]
    split
    · exact List.forall_mem_nil _
    · split
      · exact List.forall_mem_singleton.mpr (inRange_broken _)
      · exact List.forall_mem_cons.mpr ⟨h.scan _, h.nextMember _⟩
      · exact List.forall_mem_singleton.mpr (inRange_broken _)
  nextMember cs := by
    rw [scanNextMember]
    split
    · exact List.forall_mem_nil _
    · exact List.forall_mem_nil _
    · split
      · exact List.forall_mem_nil _
      · exact h.member _ _
      · exact List.forall_mem_nil _
    · exact List.forall_mem_nil _

theorem scansInRange (fuel : Nat) : ScansInRange fuel := by
  induction fuel with
  | zero => exact scansInRange_zero
  | succ fuel ih => exact ih.succ

/-- The value of a tree holds no numbers but those of the tree. -/
theorem inRange_of_value {depth : Nat} {d : Doc} {j : Json} (hd : d.InRange)
    (h : d.value depth = .ok j) : j.InRange := by
  induction depth using Nat.strongRecOn generalizing d j with
  | ind depth ih =>
    cases d with
    | null | bool => cases depth <;> cases h <;> rintro n ⟨⟩
    | number n =>
      rw [value, map_eq_ok] at h
      obtain ⟨n, rfl, rfl⟩ := h
      exact hd
    | text s =>
      rw [value, map_eq_ok] at h
      obtain ⟨s, -, rfl⟩ := h
      rintro n ⟨⟩
    | broken b => cases depth <;> cases h
    | array items ending =>
      cases depth with
      | zero => cases h
      | succ depth =>
        obtain ⟨js, hjs, h⟩ := bind_eq_ok.mp h
        obtain ⟨_, -, h⟩ := bind_eq_ok.mp h
        cases h
        refine Json.inRange_array_iff.mpr fun j hj => ?_
        obtain ⟨item, hitem, hj⟩ := exists_mem_of_mapM_eq_ok hjs hj
        exact ih depth (Nat.lt_succ_self _) (inRange_array_iff.mp hd item hitem) hj
    | object members ending =>
      cases depth with
      | zero => cases h
      | succ depth =>
        obtain ⟨ms, hms, h⟩ := bind_eq_ok.mp h
        obtain ⟨_, -, h⟩ := bind_eq_ok.mp h
        cases h
        refine Json.inRange_object_iff.mpr fun m hm => ?_
        obtain ⟨member, hmember, hvalue⟩ := exists_mem_of_mapM_eq_ok hms hm
        obtain ⟨name, -, hvalue⟩ := bind_eq_ok.mp hvalue
        obtain ⟨j, hj, hmj⟩ := bind_eq_ok.mp hvalue
        cases hmj
        exact ih depth (Nat.lt_succ_self _) (inRange_object_iff.mp hd member hmember) hj

end Doc

/-- **A text holds only numbers in range.** -/
theorem inRange_of_parse {raw : String} {j : Json} (h : parse raw = .ok j) : j.InRange := by
  obtain ⟨hvalue, -⟩ := read_eq_ok_iff.mp h
  have hdoc : (Doc.ofText raw).1.InRange := by
    rw [Doc.ofText]
    exact (Doc.scansInRange _).scan _
  exact Doc.inRange_of_value hdoc hvalue

end RowQuery.Json
