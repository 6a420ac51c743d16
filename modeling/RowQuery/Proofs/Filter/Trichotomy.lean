import RowQuery.Proofs.Filter.JsonLeaf
import RowQuery.Proofs.Reading.Disciplines

/-!
# Trichotomy

The six operators that compare ask one question: how the cell stands to the constant. Each of them
allows some of the three answers. So on one property and one text the six leaves stand or fall
together, and on a row with an answer exactly one of *less*, *equal* and *greater* matches, and the
other three are unions of these.

Rows are lost where there is no answer. Three things see to it that there nearly always is one. The
constant is a value of the kind of the cells, or nothing is compiled at all; variants are read for
the enumeration of the property, so two of them never belong to different ones; and no text stands
for a NaN. What is left is a cell that holds a NaN, which is the one present cell without an answer,
and the absent cell, which is behind the guard.

A property is declared as a value, a nullable value or a reference. Sequences are types of constants
only, so nothing is said of properties that hold one.

## Main definitions

* `Operator.comparing`, `Operator.allows`: the six operators, and the answers that they allow.
* `Schema.Conforms`: a row has values of the declared types, absent only where that is declared.

## Main results

* `Condition.matches_comparing_iff`: which rows a comparison matches.
* `Condition.comparisons_trichotomy`: the six leaves on one property and one text.
-/

namespace RowQuery

variable {ρ : Type}

/-! ### Answers -/

namespace Operator

/-- The operators that compare. -/
def comparing : List Operator := [eq, neq, gt, gte, lt, lte]

/-- The operator allows that the cell stands to the constant in this way. -/
def allows (op : Operator) (o : Ordering) : Bool :=
  match op with
  | eq => o == .eq
  | neq => o != .eq
  | gt => o == .gt
  | gte => o != .lt
  | lt => o == .lt
  | lte => o != .gt
  | _ => false

theorem allows_lt_iff {o : Ordering} : lt.allows o = true ↔ o = .lt :=
  beq_iff_eq

theorem allows_lte_iff {o : Ordering} : lte.allows o = true ↔ o.isLE := by
  cases o <;> decide

theorem allows_gt_iff {o : Ordering} : gt.allows o = true ↔ o.swap = .lt := by
  cases o <;> decide

theorem allows_gte_iff {o : Ordering} : gte.allows o = true ↔ o.swap.isLE := by
  cases o <;> decide

/-- **Where there is an answer, an operator that compares holds if it allows the answer.** -/
theorem holds_of_compare? {op : Operator} (hop : op ∈ comparing) {a b : Value} {o : Ordering}
    (h : a.compare? b = some o) : op.holds a b = op.allows o := by
  have hequals := Value.equals_of_compare? h
  cases op with
  | eq => exact hequals
  | neq => exact congrArg Bool.not hequals
  | gt | gte | lt | lte => cases o <;> simp [holds, allows, h]
  | _ => exact absurd hop (by decide)

theorem asksAbsence_comparing {op : Operator} (hop : op ∈ comparing) : op.asksAbsence = false := by
  revert op
  decide

theorem constantType_comparing {op : Operator} (hop : op ∈ comparing) (t : DataType) :
    op.constantType t = t := by
  cases op <;> first | rfl | exact absurd hop (by decide)

/-- Only truth values have no order. -/
theorem acceptsKind_comparing {op : Operator} (hop : op ∈ comparing) {k : Kind} (hk : k ≠ .bool) :
    op.acceptsKind k = true := by
  cases op <;> first | rfl | exact bne_iff_ne.mpr hk | exact absurd hop (by decide)

/-- Every answer is allowed by exactly one of *less*, *equal* and *greater*. -/
theorem existsUnique_allows (o : Ordering) :
    ∃! op, op ∈ [lt, eq, gt] ∧ op.allows o = true := by
  cases o with
  | lt => exact ⟨lt, by decide, by rintro op ⟨hop, hallows⟩; revert op; decide⟩
  | eq => exact ⟨eq, by decide, by rintro op ⟨hop, hallows⟩; revert op; decide⟩
  | gt => exact ⟨gt, by decide, by rintro op ⟨hop, hallows⟩; revert op; decide⟩

/-- **One answer for six operators.** Whatever is true of those that allow an answer is true of
exactly one of *less*, *equal* and *greater*, and of the other three as these say. -/
theorem trichotomy_of_allows {holds : Operator → Prop} {o : Ordering}
    (h : ∀ op ∈ comparing, (holds op ↔ op.allows o = true)) :
    (∃! op, op ∈ [lt, eq, gt] ∧ holds op) ∧ (holds lte ↔ holds lt ∨ holds eq) ∧
      (holds gte ↔ holds gt ∨ holds eq) ∧ (holds neq ↔ holds lt ∨ holds gt) := by
  refine ⟨?_, ?_, ?_, ?_⟩
  · have hthree : ∀ op, op ∈ [lt, eq, gt] ∧ holds op ↔ op ∈ [lt, eq, gt] ∧ op.allows o = true := by
      refine fun op => and_congr_right fun hop => h op ?_
      revert op
      decide
    simpa only [hthree] using existsUnique_allows o
  · rw [h lte (by decide), h lt (by decide), h eq (by decide)]
    cases o <;> decide
  · rw [h gte (by decide), h gt (by decide), h eq (by decide)]
    cases o <;> decide
  · rw [h neq (by decide), h lt (by decide), h gt (by decide)]
    cases o <;> decide

end Operator

/-! ### Conforming rows -/

/-- Every property reads a value of its type from the row, and one that is absent only where the
type admits absence. -/
structure Schema.Conforms (s : Schema ρ) (row : ρ) : Prop where
  typed : s.Typed row
  present : ∀ p ∈ s.properties, (p.get row).isNull = true → p.type.mayBeAbsent = true

namespace Condition

section

variable {s : Schema ρ} {name raw : String} {i : Nat} {p : Property ρ} {op : Operator} {row : ρ}

/-- The leaves with an operator that compares compile where the text is read. -/
theorem compiles_comparing_iff (hp : s.find? name = some (i, p)) (hkind : p.type.kind ≠ .bool)
    (hop : op ∈ Operator.comparing) :
    Compiles ⟨name, op.name, raw⟩ s ↔ ∃ v, p.type.readText raw = .ok v := by
  rw [compiles_iff hp (Operator.asksAbsence_comparing hop), Operator.constantType_comparing hop,
    Operator.acceptsKind_comparing hop hkind]
  simp

/-- **Which rows a comparison matches**: those with a cell that stands to the constant as the
operator allows. -/
theorem matches_comparing_iff (hp : s.find? name = some (i, p)) (hseq : p.type.isSequence = false)
    (hkind : p.type.kind ≠ .bool) (hop : op ∈ Operator.comparing) {v : Value}
    (hv : p.type.readText raw = .ok v) (hnull : v ≠ .null)
    (hcell : p.type.kind.Ordered (p.get row)) :
    Matches ⟨name, op.name, raw⟩ s row ↔ op.allows ((p.get row).conditionOrder v) = true := by
  have hconstant : p.type.kind.Ordered v := DataType.ordered_of_readText hseq hv hnull
  have hpresent : (p.get row).isNull = false := hcell.admits.isNull_eq_false
  rw [← Operator.constantType_comparing hop p.type] at hv
  rw [matches_iff_of_read hp (Operator.asksAbsence_comparing hop)
    (Operator.acceptsKind_comparing hop hkind) hv, hpresent, Bool.and_false,
    Operator.holds_of_compare? hop (hcell.compare?_eq hconstant)]
  exact and_iff_right rfl

/-- A comparison matches no row without a cell, where that is declared. -/
theorem not_matches_comparing (hp : s.find? name = some (i, p)) (hop : op ∈ Operator.comparing)
    (habsent : p.type.mayBeAbsent = true) (hnull : (p.get row).isNull = true) :
    ¬ Matches ⟨name, op.name, raw⟩ s row := by
  intro hmatches
  obtain ⟨-, hpresent, -⟩ := (matches_iff hp (Operator.asksAbsence_comparing hop)).mp hmatches
  rw [habsent, hnull] at hpresent
  cases hpresent

/-- **Where there is a cell that is no NaN there is an answer**, and the six leaves go by it. -/
theorem exists_answer_comparing (hp : s.find? name = some (i, p))
    (hseq : p.type.isSequence = false) (hkind : p.type.kind ≠ .bool)
    (hraw : Json.parse raw ≠ .ok .null) (hrow : s.Typed row)
    (hread : ∃ v, p.type.readText raw = .ok v) (hpresent : (p.get row).isNull = false)
    (hnumber : (p.get row).isNaN = false) :
    ∃ o, ∀ op ∈ Operator.comparing,
      (Matches ⟨name, op.name, raw⟩ s row ↔ op.allows o = true) := by
  obtain ⟨v, hv⟩ := hread
  have hnull : v ≠ .null := DataType.ne_null_of_readText hseq hraw hv
  have hcell : p.type.kind.Ordered (p.get row) := by
    refine ⟨?_, hnumber⟩
    rcases (hrow p (Schema.mem_of_find? hp)).cell hseq with hnull | hadmits
    · rw [hnull] at hpresent
      cases hpresent
    · exact hadmits
  exact ⟨_, fun op hop => matches_comparing_iff hp hseq hkind hop hv hnull hcell⟩

end

/-- **Trichotomy.** On one property that is no truth value and one text that is not null, the six
leaves compile together or not at all. None of them matches a row without a cell, and on a row with
a cell that is no NaN exactly one of *less*, *equal* and *greater* matches, from which the other
three are put together. -/
theorem comparisons_trichotomy {s : Schema ρ} {name raw : String} {i : Nat} {p : Property ρ}
    (hp : s.find? name = some (i, p)) (hseq : p.type.isSequence = false)
    (hkind : p.type.kind ≠ .bool) (hraw : Json.parse raw ≠ .ok .null) :
    let leaf (op : Operator) : Condition := ⟨name, op.name, raw⟩
    ((∀ op ∈ Operator.comparing, (leaf op).Compiles s) ∨
        ∀ op ∈ Operator.comparing, ¬ (leaf op).Compiles s) ∧
      ∀ row, s.Conforms row →
        ((p.get row).isNull = true → ∀ op ∈ Operator.comparing, ¬ (leaf op).Matches s row) ∧
        ((leaf .eq).Compiles s → (p.get row).isNull = false → (p.get row).isNaN = false →
          (∃! op, op ∈ [Operator.lt, .eq, .gt] ∧ (leaf op).Matches s row) ∧
          ((leaf .lte).Matches s row ↔ (leaf .lt).Matches s row ∨ (leaf .eq).Matches s row) ∧
          ((leaf .gte).Matches s row ↔ (leaf .gt).Matches s row ∨ (leaf .eq).Matches s row) ∧
          ((leaf .neq).Matches s row ↔ (leaf .lt).Matches s row ∨ (leaf .gt).Matches s row)) := by
  intro leaf
  have hcompiles (op : Operator) (hop : op ∈ Operator.comparing) :
      (leaf op).Compiles s ↔ ∃ v, p.type.readText raw = .ok v :=
    compiles_comparing_iff hp hkind hop
  refine ⟨?_, fun row hrow => ⟨fun hnull op hop => ?_, fun hcompile hpresent hnumber => ?_⟩⟩
  · by_cases hread : ∃ v, p.type.readText raw = .ok v
    · exact .inl fun op hop => (hcompiles op hop).mpr hread
    · exact .inr fun op hop h => hread ((hcompiles op hop).mp h)
  · exact not_matches_comparing hp hop (hrow.present p (Schema.mem_of_find? hp) hnull) hnull
  · have hread : ∃ v, p.type.readText raw = .ok v := (hcompiles .eq (by decide)).mp hcompile
    obtain ⟨o, ho⟩ :=
      exists_answer_comparing hp hseq hkind hraw hrow.typed hread hpresent hnumber
    exact Operator.trichotomy_of_allows ho

/-- A row with a rank and one without. -/
theorem comparisons_trichotomy_ranked :
    let s : Schema (Option Int64) :=
      ⟨"Item", [⟨"Rank", ⟨.nullable, .int⟩, fun row => row.elim .null .int⟩]⟩
    let leaf (op : Operator) : Condition := ⟨"rank", op.name, "7"⟩
    s.Conforms none ∧ s.Conforms (some 3) ∧ Json.parse "7" ≠ .ok .null ∧
      (∀ op ∈ Operator.comparing, (leaf op).Compiles s) ∧
      (∀ op ∈ Operator.comparing, ¬ (leaf op).Matches s none) ∧
      (∃! op, op ∈ [Operator.lt, .eq, .gt] ∧ (leaf op).Matches s (some 3)) ∧
      (leaf .lt).Matches s (some 3) ∧ (leaf .neq).Matches s (some 3) := by
  intro s leaf
  have hrow (row : Option Int64) : s.Conforms row := by
    constructor
    · intro p hp
      obtain rfl := List.mem_singleton.mp hp
      cases row with
      | none => exact .absent
      | some n => exact .scalar rfl (.int n)
    · intro p hp _
      obtain rfl := List.mem_singleton.mp hp
      rfl
  have hraw : Json.parse "7" ≠ .ok .null := nofun
  obtain ⟨hcompile, hrows⟩ :=
    @comparisons_trichotomy _ s "rank" "7" 0 _ rfl rfl nofun hraw
  have heq : Compiles ⟨"rank", "eq", "7"⟩ s := ⟨_, rfl⟩
  have hlt : Matches ⟨"rank", "lt", "7"⟩ s (some 3) := ⟨_, rfl, rfl⟩
  have hall : ∀ op ∈ Operator.comparing, (leaf op).Compiles s :=
    hcompile.resolve_right fun hnone => hnone .eq (by decide) heq
  obtain ⟨hunique, -, -, hneq⟩ := (hrows (some 3) (hrow _)).2 heq rfl rfl
  exact ⟨hrow none, hrow (some 3), hraw, hall, (hrows none (hrow none)).1 rfl, hunique, hlt,
    hneq.mpr (.inl hlt)⟩

end Condition

end RowQuery
