import RowQuery.Proofs.Filter.JsonLeaf
import RowQuery.Proofs.Reading

/-!
# Membership and equality

To be in a list is to be equal to one of its items, and not to be in it is to be equal to none. In a
filter the two are read in different ways. A list is one text, read as a sequence, and its items are
compared with the cell; an item alone is read as a value of the type of the property, and the cell
is compared with it.

The two agree because an item of a sequence is read as the same text alone is, absence allowed or
not, and because equality does not depend on the side. The guard is one for all of them. Nothing is
asked of the rows: where a cell does not have the type of its property, the two still agree. Nothing
is said of a property that holds sequences either, as none can be declared.

## Main results

* `Condition.membership_iff_equality`: a list of texts matches what one of its texts matches.
-/

namespace RowQuery

variable {ρ : Type}

namespace Condition

section

variable {s : Schema ρ} {name : String} {i : Nat} {p : Property ρ} {ws : List String}
  {vs : List Value} {row : ρ}

/-- The cell is in the list that some texts are read as if it is equal to what one of them is read
as. -/
theorem hasItem_iff {t : DataType} {cell : Value}
    (hvs : List.Forall₂ (fun w item => t.readText w = .ok item) ws vs) :
    (Value.list vs).hasItem cell = true ↔
      ∃ w ∈ ws, ∃ v, t.readText w = .ok v ∧ cell.equals v = true := by
  induction hvs with
  | nil => simp [Value.hasItem]
  | @cons w item ws vs hw _ ih =>
    have hcons : (Value.list (item :: vs)).hasItem cell
        = (cell.equals item || (Value.list vs).hasItem cell) := by
      rw [Value.equals_comm]
      rfl
    rw [hcons, Bool.or_eq_true, ih]
    simp [hw]

/-- A list of texts is read where each of the texts is. -/
theorem exists_readText_arrayText_iff {t : DataType} (hseq : t.isSequence = false)
    (hws : ∀ w ∈ ws, Json.ScalarText w) :
    (∃ v, t.sequence.readText (Json.arrayText ws) = .ok v) ↔
      ∀ w ∈ ws, ∃ v, t.readText w = .ok v := by
  rw [← exists_forall₂_iff]
  constructor
  · rintro ⟨v, hv⟩
    obtain ⟨vs, -, hvs⟩ := (DataType.readText_arrayText hseq hws).mp hv
    exact ⟨vs, hvs⟩
  · rintro ⟨vs, hvs⟩
    exact ⟨.list vs, (DataType.readText_arrayText hseq hws).mpr ⟨vs, rfl, hvs⟩⟩

theorem compiles_eq_iff (hp : s.find? name = some (i, p)) {w : String} :
    Compiles ⟨name, "eq", w⟩ s ↔ ∃ v, p.type.readText w = .ok v := by
  have h : Compiles ⟨name, Operator.eq.name, w⟩ s ↔ _ := compiles_iff hp rfl
  exact h.trans (and_iff_right rfl)

theorem matches_eq_iff (hp : s.find? name = some (i, p)) {w : String} :
    Matches ⟨name, "eq", w⟩ s row ↔ (p.type.mayBeAbsent && (p.get row).isNull) = false ∧
      ∃ v, p.type.readText w = .ok v ∧ (p.get row).equals v = true := by
  have h : Matches ⟨name, Operator.eq.name, w⟩ s row ↔ _ := matches_iff hp rfl
  exact h.trans (and_iff_right rfl)

variable (op : Operator)

/-- The two operators on lists compile where all the equalities do. -/
theorem compiles_list_iff (hp : s.find? name = some (i, p)) (hseq : p.type.isSequence = false)
    (hws : ∀ w ∈ ws, Json.ScalarText w) (hop : op = .isIn ∨ op = .notIn) :
    Compiles ⟨name, op.name, Json.arrayText ws⟩ s ↔ ∀ w ∈ ws, Compiles ⟨name, "eq", w⟩ s := by
  have hlist : Compiles ⟨name, op.name, Json.arrayText ws⟩ s ↔
      ∃ v, p.type.sequence.readText (Json.arrayText ws) = .ok v := by
    obtain rfl | rfl := hop <;> exact (compiles_iff hp rfl).trans (and_iff_right rfl)
  rw [hlist, exists_readText_arrayText_iff hseq hws]
  exact forall₂_congr fun w _ => (compiles_eq_iff hp).symm

/-- Where the equalities compile, the two operators on lists compare the cell with the list of
their constants. -/
theorem exists_matches_list_iff (hp : s.find? name = some (i, p))
    (hseq : p.type.isSequence = false) (hws : ∀ w ∈ ws, Json.ScalarText w)
    (hall : ∀ w ∈ ws, Compiles ⟨name, "eq", w⟩ s) (hop : op = .isIn ∨ op = .notIn) (row : ρ) :
    ∃ vs, List.Forall₂ (fun w item => p.type.readText w = .ok item) ws vs ∧
      (Matches ⟨name, op.name, Json.arrayText ws⟩ s row ↔
        (p.type.mayBeAbsent && (p.get row).isNull) = false ∧
          op.holds (p.get row) (.list vs) = true) := by
  obtain ⟨vs, hvs⟩ := exists_forall₂_iff.mpr fun w hw => (compiles_eq_iff hp).mp (hall w hw)
  have hread : p.type.sequence.readText (Json.arrayText ws) = .ok (.list vs) :=
    (DataType.readText_arrayText hseq hws).mpr ⟨vs, rfl, hvs⟩
  refine ⟨vs, hvs, ?_⟩
  obtain rfl | rfl := hop <;> exact matches_iff_of_read hp rfl rfl hread

/-- **To be in a list is to be equal to one of its items.** -/
theorem matches_isIn_iff (hp : s.find? name = some (i, p)) (hseq : p.type.isSequence = false)
    (hws : ∀ w ∈ ws, Json.ScalarText w) (hall : ∀ w ∈ ws, Compiles ⟨name, "eq", w⟩ s) (row : ρ) :
    Matches ⟨name, Operator.isIn.name, Json.arrayText ws⟩ s row ↔
      ∃ w ∈ ws, Matches ⟨name, "eq", w⟩ s row := by
  obtain ⟨vs, hvs, hmatches⟩ := exists_matches_list_iff .isIn hp hseq hws hall (.inl rfl) row
  rw [hmatches, Operator.holds, hasItem_iff hvs]
  constructor
  · rintro ⟨hpresent, w, hw, hequal⟩
    exact ⟨w, hw, (matches_eq_iff hp).mpr ⟨hpresent, hequal⟩⟩
  · rintro ⟨w, hw, hequal⟩
    obtain ⟨hpresent, hequal⟩ := (matches_eq_iff hp).mp hequal
    exact ⟨hpresent, w, hw, hequal⟩

/-- **Not to be in a list is to have a cell that is equal to none of its items.** -/
theorem matches_notIn_iff (hp : s.find? name = some (i, p)) (hseq : p.type.isSequence = false)
    (hws : ∀ w ∈ ws, Json.ScalarText w) (hall : ∀ w ∈ ws, Compiles ⟨name, "eq", w⟩ s) (row : ρ) :
    Matches ⟨name, Operator.notIn.name, Json.arrayText ws⟩ s row ↔
      (p.type.mayBeAbsent = true → (p.get row).isNull = false) ∧
        ∀ w ∈ ws, ¬ Matches ⟨name, "eq", w⟩ s row := by
  obtain ⟨vs, hvs, hmatches⟩ := exists_matches_list_iff .notIn hp hseq hws hall (.inr rfl) row
  have hpresent : (p.type.mayBeAbsent && (p.get row).isNull) = false ↔
      (p.type.mayBeAbsent = true → (p.get row).isNull = false) := by
    cases p.type.mayBeAbsent <;> simp
  rw [hmatches, hpresent]
  refine and_congr_right fun hcell => ?_
  rw [Operator.holds, Bool.not_eq_true', ← Bool.not_eq_true, hasItem_iff hvs]
  constructor
  · intro hno w hw hequal
    exact hno ⟨w, hw, ((matches_eq_iff hp).mp hequal).2⟩
  · rintro hno ⟨w, hw, hequal⟩
    exact hno w hw ((matches_eq_iff hp).mpr ⟨hpresent.mpr hcell, hequal⟩)

end

/-- **To be in a list is to be equal to one of its items**, and not to be in it is to have a cell
that is equal to none. -/
theorem membership_iff_equality {s : Schema ρ} {name : String} {i : Nat} {p : Property ρ}
    (hp : s.find? name = some (i, p)) (hseq : p.type.isSequence = false) {ws : List String}
    (hws : ∀ w ∈ ws, Json.ScalarText w) :
    let equal (w : String) : Condition := ⟨name, "eq", w⟩
    let isIn : Condition := ⟨name, "in", "[" ++ ",".intercalate ws ++ "]"⟩
    let notIn : Condition := ⟨name, "notin", "[" ++ ",".intercalate ws ++ "]"⟩
    ((isIn.Compiles s ↔ ∀ w ∈ ws, (equal w).Compiles s) ∧
        (isIn.Compiles s → ∀ row, isIn.Matches s row ↔ ∃ w ∈ ws, (equal w).Matches s row)) ∧
      (notIn.Compiles s ↔ ∀ w ∈ ws, (equal w).Compiles s) ∧
        (notIn.Compiles s → ∀ row, notIn.Matches s row ↔
          (p.type.mayBeAbsent = true → (p.get row).isNull = false) ∧
            ∀ w ∈ ws, ¬ (equal w).Matches s row) := by
  intro equal isIn notIn
  have hin : isIn.Compiles s ↔ ∀ w ∈ ws, (equal w).Compiles s :=
    compiles_list_iff .isIn hp hseq hws (.inl rfl)
  have hnot : notIn.Compiles s ↔ ∀ w ∈ ws, (equal w).Compiles s :=
    compiles_list_iff .notIn hp hseq hws (.inr rfl)
  exact ⟨⟨hin, fun hcompile => matches_isIn_iff hp hseq hws (hin.mp hcompile)⟩,
    hnot, fun hcompile => matches_notIn_iff hp hseq hws (hnot.mp hcompile)⟩

/-- Two numbers, the second one behind a gap. A row without a rank is not outside the list. -/
theorem membership_iff_equality_ranked :
    let s : Schema (Option Int64) :=
      ⟨"Item", [⟨"Rank", ⟨.nullable, .int⟩, fun row => row.elim .null .int⟩]⟩
    let equal (w : String) : Condition := ⟨"rank", "eq", w⟩
    let isIn : Condition := ⟨"rank", "in", "[" ++ ",".intercalate ["3", " 7"] ++ "]"⟩
    let notIn : Condition := ⟨"rank", "notin", "[" ++ ",".intercalate ["3", " 7"] ++ "]"⟩
    (∀ w ∈ ["3", " 7"], Json.ScalarText w ∧ (equal w).Compiles s) ∧
      isIn.Compiles s ∧ notIn.Compiles s ∧ (equal " 7").Matches s (some 7) ∧
      isIn.Matches s (some 7) ∧ ¬ notIn.Matches s (some 7) ∧ ¬ notIn.Matches s none := by
  intro s equal isIn notIn
  have hscalar : ∀ w ∈ ["3", " 7"], Json.ScalarText w := by
    simp only [List.forall_mem_cons, List.not_mem_nil, false_implies, implies_true, and_true]
    exact ⟨⟨rfl, rfl⟩, rfl, rfl⟩
  have hequal : ∀ w ∈ ["3", " 7"], (equal w).Compiles s := by
    simp only [List.forall_mem_cons, List.not_mem_nil, false_implies, implies_true, and_true]
    have hthree : Compiles ⟨"rank", "eq", "3"⟩ s := ⟨_, rfl⟩
    have hseven : Compiles ⟨"rank", "eq", " 7"⟩ s := ⟨_, rfl⟩
    exact ⟨hthree, hseven⟩
  have hseven : Matches ⟨"rank", "eq", " 7"⟩ s (some 7) := ⟨_, rfl, rfl⟩
  obtain ⟨⟨hin, hinside⟩, hnot, houtside⟩ :=
    @membership_iff_equality _ s "rank" 0 _ rfl rfl _ hscalar
  refine ⟨fun w hw => ⟨hscalar w hw, hequal w hw⟩, hin.mpr hequal, hnot.mpr hequal, hseven,
    (hinside (hin.mpr hequal) (some 7)).mpr ⟨" 7", by simp, hseven⟩, ?_, ?_⟩
  · intro hmatches
    exact ((houtside (hnot.mpr hequal) (some 7)).mp hmatches).2 " 7" (by simp) hseven
  · intro hmatches
    cases ((houtside (hnot.mpr hequal) none).mp hmatches).1 rfl

end Condition

end RowQuery
