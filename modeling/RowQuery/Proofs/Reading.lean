import RowQuery.Proofs.Json.Numbers
import RowQuery.Proofs.Text.Integer
import RowQuery.Proofs.Value.Comparison

/-!
# What is read from texts

A deserializer is asked for a value of a type. The one for JSON texts answers with such a value or
not at all: a scalar of the kind, of the very enumeration that the type names, and null only where
absence is allowed. The numbers of a text are in range, so no NaN and no infinity is read, and
whatever is read for a kind can be compared with all cells of the kind but NaNs.

The text of a sequence is read item by item. Each item is read as it would be alone, for a type with
or without absence, because an item is a scalar and not null.

## Main definitions

* `Kind.Yields`: what may be read for a kind.
* `Kind.Refuses`: the faults of a value that is none of the kind.

## Main results

* `Kind.judged_read`: a value is read as a scalar of the kind, or refused for one of those faults.
* `Kind.Yields.ordered`: what may be read for a kind can be compared.
* `DataType.readText_arrayText`: a sequence of scalars is read item by item.
-/

namespace RowQuery

/-! ### Scalars -/

/-- The signed numbers of 64 bits are those whole numbers that are in range for them. -/
theorem Json.int64?_eq_some_iff {j : Json} {n : Int64} :
    j.int64? = some n ↔ j = .number (.int n.toInt) := by
  constructor
  · intro h
    rw [int64?.eq_def] at h
    split at h
    · rename_i m
      split at h
      · rename_i hfits
        cases h
        simp only [Text.fitsInt64, Bool.and_eq_true, decide_eq_true_eq] at hfits
        rw [Int64.toInt_ofInt_of_le (by omega) (by omega)]
      · cases h
    · cases h
  · rintro rfl
    rw [int64?, if_pos (Text.fitsInt64_toInt n), Int64.ofInt_toInt]

namespace Kind

variable {k : Kind} {j : Json} {v : Value}

theorem expect_eq_ok_iff {w : Option Value} : k.expect j w = .ok v ↔ w = some v := by
  cases w <;> simp [expect]

/-- What may be read for a kind: a scalar of the kind, finite where it is of floating point, and a
number that the enumeration defines. -/
inductive Yields : Kind → Value → Prop where
  | bool (b : Bool) : Yields .bool (.bool b)
  | int (n : Int64) : Yields .int (.int n)
  | float {x : Binary64} (h : x.isFinite = true) : Yields .float (.float x)
  | text (s : String) : Yields .text (.text s)
  | instant (t : Instant) : Yields .instant (.instant t)
  | enum {e : EnumDef} {n : Int64} (h : e.defines n = true) : Yields (.enum e) (.enum ⟨e, n⟩)

/-- The faults of a value that is no scalar of a kind. They name the kind, and the form of the value
or the text. -/
inductive Refuses (k : Kind) (j : Json) : ReadFault → Prop where
  | form : Refuses k j (.mismatch k.display j.form)
  | undefined {e : EnumDef} {value : String} (h : k = .enum e) :
    Refuses k j (.undefinedEnum e.name value)
  | dateTime {raw : String} (h : k = .instant) (hj : j = .text raw) : Refuses k j (.dateTime raw)

/-- How a value should be read for a kind. -/
inductive Judged (k : Kind) (j : Json) : Except ReadFault Value → Prop where
  | accepted {v : Value} (h : k.Yields v) : Judged k j (.ok v)
  | refused {f : ReadFault} (h : k.Refuses j f) : Judged k j (.error f)

theorem judged_expect {k : Kind} {j : Json} {w : Option Value} (h : ∀ v, w = some v → k.Yields v) :
    k.Judged j (k.expect j w) := by
  cases w with
  | none => exact .refused .form
  | some v => exact .accepted (h v rfl)

theorem judged_readNumber (e : EnumDef) (j : Json) (n : Int64) :
    (Kind.enum e).Judged j (e.read n) := by
  rw [EnumDef.read]
  split
  · rename_i hdefined
    exact .accepted (.enum hdefined)
  · exact .refused (.undefined rfl)

theorem judged_readName (e : EnumDef) (j : Json) (s : String) :
    (Kind.enum e).Judged j (e.readName s) := by
  rw [EnumDef.readName]
  split
  · exact judged_readNumber e j _
  · exact .refused (.undefined rfl)

theorem isFinite_of_float? {j : Json} {x : Binary64} (hj : j.InRange) (h : j.float? = some x) :
    x.isFinite = true := by
  rw [Json.float?.eq_def] at h
  split at h
  · rename_i n
    obtain ⟨hlow, hhigh⟩ := Json.inRange_number_iff.mp hj
    cases h
    exact Binary64.isFinite_ofInt (by omega)
  · cases h
    exact Json.inRange_number_iff.mp hj
  · cases h

/-- **A value is read as a scalar of the kind, or refused.** -/
theorem judged_read (k : Kind) {j : Json} (hj : j.InRange) : k.Judged j (k.read j) := by
  rw [read.eq_def]
  split
  case h_1 b => exact .accepted (.bool b)
  case h_2 j =>
    refine judged_expect fun v hv => ?_
    obtain ⟨n, -, rfl⟩ := Option.map_eq_some_iff.mp hv
    exact .int n
  case h_3 j =>
    refine judged_expect fun v hv => ?_
    obtain ⟨x, hx, rfl⟩ := Option.map_eq_some_iff.mp hv
    exact .float (isFinite_of_float? hj hx)
  case h_4 s => exact .accepted (.text s)
  case h_5 s =>
    split
    · exact .accepted (.instant _)
    · exact .refused (.dateTime rfl rfl)
  case h_6 e s => exact judged_readName e _ s
  case h_7 e _ =>
    split
    · exact judged_readNumber e _ _
    · exact .refused .form
  case h_8 => exact .refused .form

theorem yields_of_read (hj : j.InRange) (h : k.read j = .ok v) : k.Yields v := by
  have hjudged : k.Judged j (k.read j) := k.judged_read hj
  rw [h] at hjudged
  cases hjudged with
  | accepted h => exact h

/-- What is read can be compared. -/
theorem Yields.ordered (h : k.Yields v) : k.Ordered v := by
  cases h with
  | bool b => exact ⟨.bool b, rfl⟩
  | int n => exact ⟨.int n, rfl⟩
  | float hx => exact ⟨.float _, Binary64.isNaN_of_isFinite hx⟩
  | text s => exact ⟨.text s, rfl⟩
  | instant t => exact ⟨.instant t, rfl⟩
  | enum hn => exact ⟨.enum _ rfl, rfl⟩

/-- A whole number is read as itself, so one beyond 64 bits is not read. -/
theorem read_int_iff {j : Json} {n : Int64} :
    Kind.int.read j = .ok (.int n) ↔ j = .number (.int n.toInt) := by
  rw [← Json.int64?_eq_some_iff, read, expect_eq_ok_iff, Option.map_eq_some_iff]
  constructor
  · rintro ⟨m, hm, ⟨⟩⟩
    exact hm
  · intro hn
    exact ⟨n, hn, rfl⟩

end Kind

/-! ### Types -/

namespace DataType

variable {t : DataType} {j : Json} {raw : String} {v : Value}

theorem readText_eq_ok_iff :
    t.readText raw = .ok v ↔ ∃ j, Json.parse raw = .ok j ∧ t.read j = .ok v := by
  rw [readText]
  cases Json.parse raw <;> simp

/-- Where absence shows matters only to null. -/
theorem read_of_ne_null (ht : t.isSequence = false) (hj : j ≠ .null) :
    t.read j = t.kind.read j := by
  obtain ⟨d, k⟩ := t
  cases d with
  | array => cases ht
  | _ => cases j <;> first | rfl | exact absurd rfl hj

theorem read_null (t : DataType) :
    t.read .null = if t.mayBeAbsent then .ok .null else .error (.nullNotAllowed t.display) := by
  obtain ⟨d, k⟩ := t
  cases d <;> rfl

theorem ne_null_of_readText (ht : t.isSequence = false) (hraw : Json.parse raw ≠ .ok .null)
    (h : t.readText raw = .ok v) : v ≠ .null := by
  obtain ⟨j, hparse, hread⟩ := readText_eq_ok_iff.mp h
  have hj : j ≠ .null := by
    rintro rfl
    exact hraw hparse
  rw [read_of_ne_null ht hj] at hread
  exact (Kind.yields_of_read (Json.inRange_of_parse hparse) hread).ordered.admits.ne_null

/-! ### Sequences -/

theorem read_sequence (t : DataType) (items : List Json) :
    t.sequence.read (.array items) = (items.mapM t.kind.read).map .list := rfl

/-- For a scalar it does not matter whether absence is allowed. -/
theorem readText_scalar_iff (ht : t.isSequence = false) {w : String} (hw : Json.ScalarText w) :
    t.readText w = .ok v ↔ ∃ j, Json.parse w = .ok j ∧ t.kind.read j = .ok v := by
  rw [readText_eq_ok_iff]
  refine exists_congr fun j => and_congr_right fun hj => ?_
  rw [read_of_ne_null ht (hw.ne_null hj)]

theorem forall₂_readText_iff (ht : t.isSequence = false) {ws : List String}
    (hws : ∀ w ∈ ws, Json.ScalarText w) {vs : List Value} :
    List.Forall₂ (fun w item => t.readText w = .ok item) ws vs ↔
      ∃ js, List.Forall₂ (fun w j => Json.parse w = .ok j) ws js ∧
        List.Forall₂ (fun j item => t.kind.read j = .ok item) js vs := by
  induction ws generalizing vs with
  | nil =>
    constructor
    · rintro ⟨⟩
      exact ⟨[], .nil, .nil⟩
    · rintro ⟨_, ⟨⟩, ⟨⟩⟩
      exact .nil
  | cons w ws ih =>
    obtain ⟨hw, hws⟩ := List.forall_mem_cons.mp hws
    constructor
    · rintro (_ | ⟨hread, hrest⟩)
      obtain ⟨j, hj, hread⟩ := (readText_scalar_iff ht hw).mp hread
      obtain ⟨js, hjs, hrest⟩ := (ih hws).mp hrest
      exact ⟨j :: js, .cons hj hjs, .cons hread hrest⟩
    · rintro ⟨_, _ | ⟨hj, hjs⟩, _ | ⟨hread, hrest⟩⟩
      exact .cons ((readText_scalar_iff ht hw).mpr ⟨_, hj, hread⟩) ((ih hws).mpr ⟨_, hjs, hrest⟩)

/-- **A sequence of scalars is read item by item**, and each item as it is read alone. -/
theorem readText_arrayText (ht : t.isSequence = false) {ws : List String}
    (hws : ∀ w ∈ ws, Json.ScalarText w) :
    t.sequence.readText (Json.arrayText ws) = .ok v ↔
      ∃ vs, v = .list vs ∧ List.Forall₂ (fun w item => t.readText w = .ok item) ws vs := by
  rw [readText_eq_ok_iff, Json.parse_arrayText hws]
  simp only [forall₂_readText_iff ht hws, map_eq_ok, mapM_eq_ok_iff]
  constructor
  · rintro ⟨_, ⟨js, hjs, rfl⟩, hread⟩
    rw [read_sequence, map_eq_ok] at hread
    obtain ⟨vs, hvs, rfl⟩ := hread
    exact ⟨vs, rfl, js, hjs, mapM_eq_ok_iff.mp hvs⟩
  · rintro ⟨vs, rfl, js, hjs, hvs⟩
    refine ⟨.array js, ⟨js, hjs, rfl⟩, ?_⟩
    rw [read_sequence, mapM_eq_ok_iff.mpr hvs]
    rfl

end DataType

end RowQuery
