import RowQuery.Proofs.Json.Numbers
import RowQuery.Proofs.Json.Written

/-!
# Values, written and read as values

A reader that wants a value of no particular shape gets back the value that was written, but for
three things that can come between.

* It goes into a limited number of nested arrays and objects, and a value that is nested further is
  malformed for it. How far a value is nested is a matter of the value alone.
* A number of floating point may be read as another one. A whole number of 64 bits is read back, and
  a text holds no others.
* A value that is kept has the members of its objects by name. If they were so when it was written,
  it is kept as it was.

## Main definitions

* `Json.depth`: the number of nested arrays and objects.
* `Json.Whole`: a value without numbers of floating point.
* `Json.Ordered`: the members of all objects stand by name, and no name stands twice.

## Main results

* `Doc.value_ofValue`: which values are read back from their trees.
* `Whole.readsBack`: the numbers of such a value are read back.
* `Ordered.canonical_eq`: such a value is kept as it is.
-/

namespace RowQuery.Json

/-! ### Nesting -/

mutual

/-- The number of arrays and objects inside one another, the value itself included. -/
def depth : Json → Nat
  | array items => itemsDepth items + 1
  | object members => membersDepth members + 1
  | _ => 0

/-- The same of the items of an array, the array not included. -/
def itemsDepth : List Json → Nat
  | [] => 0
  | item :: items => max (depth item) (itemsDepth items)

/-- The same of the members of an object. -/
def membersDepth : List (String × Json) → Nat
  | [] => 0
  | (_, value) :: members => max (depth value) (membersDepth members)

end

namespace Doc

mutual

/-- **The values that are read back** are those that are nested no further than the reader goes. -/
theorem value_ofValue (depth : Nat) (j : Json) : value depth (ofValue j) =
    if j.depth ≤ depth then .ok j else .error .malformed := by
  match j with
  | .null => cases depth <;> rfl
  | .bool b => cases depth <;> rfl
  | .number n => cases depth <;> rfl
  | .text s => cases depth <;> rfl
  | .array items =>
    cases depth with
    | zero => rfl
    | succ depth =>
      rw [ofValue, value, mapM_value_ofItems]
      simp only [Json.depth, Nat.succ_le_succ_iff]
      split <;> rfl
  | .object members =>
    cases depth with
    | zero => rfl
    | succ depth =>
      rw [ofValue, value, mapM_value_ofMembers]
      simp only [Json.depth, Nat.succ_le_succ_iff]
      split <;> rfl

/-- The items of an array. -/
theorem mapM_value_ofItems (depth : Nat) (items : List Json) :
    (ofValue.ofItems items).mapM (value depth) =
      if itemsDepth items ≤ depth then .ok items else .error .malformed := by
  match items with
  | [] => rfl
  | item :: items =>
    rw [ofValue.ofItems, List.mapM_cons, value_ofValue, mapM_value_ofItems, itemsDepth]
    by_cases hitem : item.depth ≤ depth
    · by_cases hitems : itemsDepth items ≤ depth <;> simp [hitem, hitems] <;> rfl
    · simp [hitem]
      rfl

/-- The members of an object, with their names. -/
theorem mapM_value_ofMembers (depth : Nat) (members : List (String × Json)) :
    ((ofValue.ofMembers members).mapM fun (name, member) => do
        let name ← name
        let member ← value depth member
        .ok (name, member)) =
      if membersDepth members ≤ depth then .ok members else .error .malformed := by
  match members with
  | [] => rfl
  | (name, member) :: members =>
    have hvalue := value_ofValue depth member
    rw [ofValue.ofMembers, List.mapM_cons, mapM_value_ofMembers, membersDepth]
    simp only [bind, Except.bind, hvalue]
    by_cases hmember : member.depth ≤ depth
    · by_cases hmembers : membersDepth members ≤ depth
      · simp [hmember, hmembers]
        rfl
      · simp [hmember, hmembers]
    · simp [hmember]

end

end Doc

/-! ### Whole numbers -/

/-- There is no number of floating point in the value, and its whole numbers have 64 bits. -/
def Whole (j : Json) : Prop :=
  j.InRange ∧ ∀ x, Number.float x ∉ j.numbers

theorem Number.readsBack_of_inRange {n : Int} (h : (Number.int n).InRange) :
    (Number.int n).ReadsBack := by
  obtain ⟨hlow, hhigh⟩ := h
  cases Int.lt_or_le n 0 with
  | inl hneg =>
    have hn : n = -(n.natAbs : Int) := by omega
    rw [hn]
    exact readsBack_neg (by omega) (by omega)
  | inr hpos =>
    have hn : n = (n.natAbs : Int) := by omega
    rw [hn]
    refine readsBack_int ?_
    rw [Numeral.significandLimit]
    omega

/-- **The numbers of a value without floating point** are read back. -/
theorem Whole.readsBack {j : Json} (h : j.Whole) : j.ReadsBack := by
  obtain ⟨hrange, hfloat⟩ := h
  intro n hn
  cases n with
  | int n => exact Number.readsBack_of_inRange (hrange _ hn)
  | float x => exact absurd hn (hfloat x)

/-! ### Names in order -/

/-- In every object of the value the names ascend. -/
inductive Ordered : Json → Prop where
  | scalar {j : Json} (h : j.depth = 0) : Ordered j
  | array {items : List Json} (h : ∀ item ∈ items, Ordered item) : Ordered (array items)
  | object {members : List (String × Json)} (hnames : (members.map Prod.fst).Pairwise (· < ·))
      (h : ∀ m ∈ members, Ordered m.2) : Ordered (object members)

/-- A name behind all others is put at the end. -/
theorem insertMember_of_lt {name : String} {value : Json} {done : List (String × Json)}
    (h : ∀ m ∈ done, m.1 < name) : insertMember name value done = done ++ [(name, value)] := by
  induction done with
  | nil => rfl
  | cons m done ih =>
    obtain ⟨n, v⟩ := m
    obtain ⟨hn, hdone⟩ := List.forall_mem_cons.mp h
    have hne : name ≠ n := by
      rintro rfl
      exact String.lt_irrefl _ hn
    rw [insertMember, if_neg (String.lt_asymm hn), if_neg hne, ih hdone, List.cons_append]

theorem canonicalItems_of_forall {items : List Json} (h : ∀ item ∈ items, item.canonical = item) :
    canonicalItems items = items := by
  induction items with
  | nil => rfl
  | cons item items ih =>
    obtain ⟨hitem, hitems⟩ := List.forall_mem_cons.mp h
    rw [canonicalItems, hitem, ih hitems]

theorem canonicalMembers_of_ascending {done members : List (String × Json)}
    (hnames : ((done ++ members).map Prod.fst).Pairwise (· < ·))
    (h : ∀ m ∈ members, m.2.canonical = m.2) :
    canonicalMembers done members = done ++ members := by
  induction members generalizing done with
  | nil => rw [canonicalMembers, List.append_nil]
  | cons m members ih =>
    obtain ⟨name, value⟩ := m
    obtain ⟨hm, hmembers⟩ := List.forall_mem_cons.mp h
    have hlast : ∀ m ∈ done, m.1 < name := by
      rw [List.map_append, List.pairwise_append] at hnames
      exact fun m hmem => hnames.2.2 m.1 (List.mem_map_of_mem hmem) name List.mem_cons_self
    rw [List.append_cons] at hnames ⊢
    rw [canonicalMembers, hm, insertMember_of_lt hlast, ih hnames hmembers]

/-- **A value with its members by name is kept as it is.** -/
theorem Ordered.canonical_eq {j : Json} (h : j.Ordered) : j.canonical = j := by
  induction h with
  | @scalar j h =>
    cases j with
    | array items => cases h
    | object members => cases h
    | _ => rfl
  | array h ih => rw [canonical, canonicalItems_of_forall ih]
  | object hnames h ih =>
    rw [canonical, canonicalMembers_of_ascending (by rwa [List.nil_append]) ih, List.nil_append]

end RowQuery.Json
