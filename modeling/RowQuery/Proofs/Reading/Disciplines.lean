import RowQuery.Proofs.Reading

/-!
# Reading by kind and discipline

A JSON value is read for a type, that is, for a kind of scalars and a discipline. The kind alone
decides which scalars are read and as what. The discipline decides about null and about arrays, and
about nothing else: with absence null is read as the absent value, without it null is refused, and a
sequence is read from an array of what the kind accepts.

## Null inside an array

The items of an array are read as scalars, whatever the discipline says of the array itself. So a
sequence may be absent as a whole and its items may not, and a null among them is refused as the
value without absence refuses it, if in other words.

## Main definitions

* `DataType.Yields`: what may be read for a type.
* `DataType.Refuses`: the faults of a value that is none of the type.

## Main results

* `DataType.judged_read`: a value is read as one of the type, or refused for one of those faults.
* `DataType.yields_of_readText`, `DataType.ordered_of_readText`: what is read of a text is of the
  type, and can be compared unless it is null.
* `DataType.read_absent_iff`, `DataType.read_array_iff`: what the disciplines accept beside the
  values without absence.
* `DataType.read_disciplined`: all of this for any JSON value.
-/

namespace RowQuery

/-! ### Types -/

namespace DataType

/-- What may be read for a type: nothing where absence is allowed, a list of scalars for a sequence,
and a scalar otherwise. -/
inductive Yields (t : DataType) : Value → Prop where
  | absent (h : t.discipline ≠ .value) : Yields t .null
  | items {vs : List Value} (h : t.discipline = .array) (hvs : ∀ v ∈ vs, t.kind.Yields v) :
    Yields t (.list vs)
  | scalar {v : Value} (h : t.discipline ≠ .array) (hv : t.kind.Yields v) : Yields t v

/-- The faults of a value that is none of a type. Of an array the first item is blamed that is
refused. -/
inductive Refuses (t : DataType) : Json → ReadFault → Prop where
  | null (h : t.discipline = .value) : Refuses t .null (.nullNotAllowed t.display)
  | form {j : Json} (h : t.discipline = .array) (hnull : j ≠ .null)
      (harray : ∀ items, j ≠ .array items) : Refuses t j (.mismatch t.display j.form)
  | item {before after : List Json} {item : Json} {f : ReadFault} (h : t.discipline = .array)
      (hbefore : ∀ j ∈ before, ∃ v, t.kind.read j = .ok v) (hitem : t.kind.Refuses item f) :
    Refuses t (.array (before ++ item :: after)) f
  | scalar {j : Json} {f : ReadFault} (h : t.discipline ≠ .array) (hj : t.kind.Refuses j f) :
    Refuses t j f

/-- How a value should be read for a type. -/
inductive Judged (t : DataType) (j : Json) : Except ReadFault Value → Prop where
  | accepted {v : Value} (h : t.Yields v) : Judged t j (.ok v)
  | refused {f : ReadFault} (h : t.Refuses j f) : Judged t j (.error f)

variable {t : DataType} {j : Json}

theorem judged_scalar (ht : t.discipline ≠ .array) (hj : j.InRange) :
    t.Judged j (t.kind.read j) := by
  have h : t.kind.Judged j (t.kind.read j) := t.kind.judged_read hj
  generalize t.kind.read j = result at h ⊢
  cases h with
  | accepted h => exact .accepted (.scalar ht h)
  | refused h => exact .refused (.scalar ht h)

/-- The items are read from left to right as far as the first one that is refused. -/
theorem judged_items (ht : t.discipline = .array) {items : List Json}
    (hj : (Json.array items).InRange) :
    t.Judged (.array items) ((items.mapM t.kind.read).map .list) := by
  have hitems := Json.inRange_array_iff.mp hj
  cases hread : items.mapM t.kind.read with
  | ok vs =>
    refine .accepted (.items ht fun v hv => ?_)
    obtain ⟨item, hitem, hv⟩ := exists_mem_of_mapM_eq_ok hread hv
    exact Kind.yields_of_read (hitems item hitem) hv
  | error f =>
    obtain ⟨before, item, after, rfl, hbefore, hitem⟩ := mapM_eq_error_iff.mp hread
    have hjudged := t.kind.judged_read (hitems item (by simp))
    rw [hitem] at hjudged
    cases hjudged with
    | refused h => exact .refused (.item ht hbefore h)

/-- **A value is read as one of the type, or refused.** -/
theorem judged_read (t : DataType) {j : Json} (hj : j.InRange) : t.Judged j (t.read j) := by
  by_cases hnull : j = .null
  · subst hnull
    rw [read_null, mayBeAbsent]
    split
    · rename_i ht
      exact .accepted (.absent (by simpa using ht))
    · rename_i ht
      exact .refused (.null (by simpa using ht))
  cases ht : t.isSequence with
  | false =>
    rw [read_of_ne_null ht hnull]
    exact judged_scalar (by simpa [isSequence] using ht) hj
  | true =>
    have harray : t.discipline = .array := by simpa [isSequence] using ht
    obtain ⟨d, k⟩ := t
    cases harray
    cases j with
    | null => exact absurd rfl hnull
    | array items => exact judged_items rfl hj
    | _ => exact .refused (.form rfl (by rintro ⟨⟩) (by rintro _ ⟨⟩))

/-- **What is read of a text is of the type**, since the numbers of a text are in range. -/
theorem yields_of_readText {raw : String} {v : Value} (h : t.readText raw = .ok v) :
    t.Yields v := by
  obtain ⟨j, hparse, hread⟩ := readText_eq_ok_iff.mp h
  have hjudged : t.Judged j (t.read j) := t.judged_read (Json.inRange_of_parse hparse)
  rw [hread] at hjudged
  cases hjudged with
  | accepted h => exact h

/-- **What is read can be compared**, unless it is null. -/
theorem ordered_of_readText {raw : String} {v : Value} (ht : t.isSequence = false)
    (h : t.readText raw = .ok v) (hv : v ≠ .null) : t.kind.Ordered v := by
  cases yields_of_readText h with
  | absent => exact absurd rfl hv
  | items harray =>
    rw [isSequence, harray] at ht
    cases ht
  | scalar _ h => exact h.ordered

/-! ### Disciplines -/

theorem kind_read_null (k : Kind) : k.read .null = .error (.mismatch k.display Json.null.form) := by
  cases k <;> rfl

/-- Without absence a value is read as a scalar of its kind. If it is null it is refused, in other
words. -/
theorem read_value_iff {k : Kind} {v : Value} :
    (⟨.value, k⟩ : DataType).read j = .ok v ↔ k.read j = .ok v := by
  by_cases hj : j = .null
  · subst hj
    rw [kind_read_null]
    simp [read]
  · rw [read_of_ne_null rfl hj]

/-- **With absence** a value is read as without it, and null as the absent value. -/
theorem read_absent_iff (ht : t.isSequence = false) (habsent : t.mayBeAbsent = true) {v : Value} :
    t.read j = .ok v ↔
      (j = .null ∧ v = .null) ∨ (⟨.value, t.kind⟩ : DataType).read j = .ok v := by
  rw [read_value_iff]
  by_cases hj : j = .null
  · subst hj
    rw [read_null, if_pos habsent, kind_read_null]
    simp [eq_comm]
  · rw [read_of_ne_null ht hj]
    simp [hj]

/-- **A sequence** is read from null and from an array of what is read without absence. -/
theorem read_array_iff {k : Kind} {v : Value} :
    (⟨.array, k⟩ : DataType).read j = .ok v ↔
      (j = .null ∧ v = .null) ∨ ∃ items vs, j = .array items ∧ v = .list vs ∧
        List.Forall₂ (fun item w => (⟨.value, k⟩ : DataType).read item = .ok w) items vs := by
  simp only [read_value_iff, ← mapM_eq_ok_iff]
  cases j with
  | null => simp [read, eq_comm]
  | array items =>
    have hitems := read_sequence ⟨.value, k⟩ items
    rw [sequence] at hitems
    rw [hitems, map_eq_ok]
    simp [eq_comm, and_comm]
  | _ => simp [read]

/-- **The disciplines agree on any JSON value.** For every type it is read as a value of the type or
refused for a fault of it. A whole number is read as itself. Absence adds null to what is accepted,
and a sequence takes null and the arrays of what is accepted, and nothing else. -/
theorem read_disciplined {j : Json} (hj : j.InRange) :
    (∀ t : DataType, (∃ v, t.read j = .ok v ∧ t.Yields v) ∨
      ∃ f, t.read j = .error f ∧ t.Refuses j f) ∧
    (∀ n, (⟨.value, .int⟩ : DataType).read j = .ok (.int n) ↔ j = .number (.int n.toInt)) ∧
    ∀ (k : Kind) (v : Value),
      ((⟨.nullable, k⟩ : DataType).read j = .ok v ↔
        (j = .null ∧ v = .null) ∨ (⟨.value, k⟩ : DataType).read j = .ok v) ∧
      ((⟨.reference, k⟩ : DataType).read j = .ok v ↔
        (j = .null ∧ v = .null) ∨ (⟨.value, k⟩ : DataType).read j = .ok v) ∧
      ((⟨.array, k⟩ : DataType).read j = .ok v ↔
        (j = .null ∧ v = .null) ∨ ∃ items vs, j = .array items ∧ v = .list vs ∧
          List.Forall₂ (fun item w => (⟨.value, k⟩ : DataType).read item = .ok w) items vs) := by
  refine ⟨fun t => ?_, fun n => read_value_iff.trans Kind.read_int_iff,
    fun k v => ⟨read_absent_iff rfl rfl, read_absent_iff rfl rfl, read_array_iff⟩⟩
  have hjudged : t.Judged j (t.read j) := t.judged_read hj
  generalize t.read j = result at hjudged ⊢
  cases hjudged with
  | accepted h => exact .inl ⟨_, rfl, h⟩
  | refused h => exact .inr ⟨_, rfl, h⟩

/-- Of an array with a null inside the null is blamed, and without it the others are read. -/
theorem read_disciplined_floats :
    let three : Json := .number (.int 3)
    let half : Json := .number (.float ⟨0x3FE0000000000000⟩)
    let t : DataType := ⟨.array, .float⟩
    (Json.array [three, half]).InRange ∧ (Json.array [three, .null, half]).InRange ∧
      t.read (.array [three, half])
        = .ok (.list [.float ⟨0x4008000000000000⟩, .float ⟨0x3FE0000000000000⟩]) ∧
      ∃ f, t.read (.array [three, .null, half]) = .error f ∧
        t.Refuses (.array [three, .null, half]) f := by
  intro three half t
  have hthree : three.InRange := Json.inRange_number_iff.mpr (by decide)
  have hhalf : half.InRange := Json.inRange_number_iff.mpr (by decide)
  have hitems : (Json.array [three, half]).InRange :=
    Json.inRange_array_iff.mpr (by simp [hthree, hhalf])
  have hnull : (Json.array [three, .null, half]).InRange :=
    Json.inRange_array_iff.mpr (by simp [hthree, hhalf, Json.inRange_null])
  refine ⟨hitems, hnull, ?_, ?_⟩
  · obtain ⟨-, -, hconsistent⟩ := read_disciplined hitems
    refine (hconsistent .float _).2.2.mpr (.inr ⟨_, _, rfl, rfl, .cons ?_ (.cons ?_ .nil)⟩)
    · rfl
    · rfl
  · exact ((read_disciplined hnull).1 t).resolve_left (by rintro ⟨v, ⟨⟩, -⟩)

end DataType

end RowQuery
