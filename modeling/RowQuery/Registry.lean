import RowQuery.Handler.Builtin

/-!
# Registries of operators

A registry holds operators by name, names being compared exactly.

The entries ascend by name. This is part of the type, so each name stands once, the names are
listed in their order, and two registries with the same look-ups have the same entries in the same
places. Look-up does not rely on it: it takes the first entry of the name.

## Main definitions

* `Registry`: the operators by name.
* `Registry.get?`, `insert`, `erase`, `names`, `size`.
* `Registry.builtin`: the fourteen built-in operators.

## Main results

* `Registry.get?_insert`, `Registry.get?_erase`: what a look-up finds afterwards.
-/

namespace RowQuery

namespace Registry

/-- The operator of a name among entries. -/
def lookup (name : String) : List (String × Handler) → Option Handler
  | [] => none
  | (n, h) :: rest => if n = name then some h else lookup name rest

/-- The entries with one more, which replaces an entry of the same name. -/
def insertEntry (name : String) (h : Handler) :
    List (String × Handler) → List (String × Handler)
  | [] => [(name, h)]
  | (n, g) :: rest =>
    if n = name then (name, h) :: rest
    else if name < n then (name, h) :: (n, g) :: rest
    else (n, g) :: insertEntry name h rest

/-- The names of entries ascend. -/
def Ascending (es : List (String × Handler)) : Prop :=
  es.Pairwise fun a b => a.1 < b.1

theorem mem_insertEntry {name : String} {h : Handler} {es : List (String × Handler)}
    {e : String × Handler} (he : e ∈ insertEntry name h es) : e = (name, h) ∨ e ∈ es := by
  induction es with
  | nil => simpa [insertEntry] using he
  | cons x rest ih =>
    obtain ⟨n, g⟩ := x
    unfold insertEntry at he
    split at he
    · simp only [List.mem_cons] at he ⊢
      exact he.imp_right .inr
    · split at he
      · simpa using he
      · simp only [List.mem_cons] at he ⊢
        rcases he with he | he
        · exact .inr (.inl he)
        · exact (ih he).imp_right .inr

theorem ascending_insertEntry (name : String) (h : Handler) {es : List (String × Handler)}
    (hs : Ascending es) : Ascending (insertEntry name h es) := by
  induction es with
  | nil => simp [insertEntry, Ascending]
  | cons x rest ih =>
    obtain ⟨n, g⟩ := x
    have hx := List.pairwise_cons.mp hs
    unfold insertEntry
    split
    · rename_i hn
      subst hn
      exact List.pairwise_cons.mpr ⟨hx.1, hx.2⟩
    · rename_i hn
      split
      · rename_i hlt
        refine List.pairwise_cons.mpr ⟨fun e he => ?_, hs⟩
        rcases List.mem_cons.mp he with rfl | he
        · exact hlt
        · exact String.lt_trans hlt (hx.1 e he)
      · rename_i hlt
        refine List.pairwise_cons.mpr ⟨fun e he => ?_, ih hx.2⟩
        rcases mem_insertEntry he with rfl | he
        · exact Std.lt_of_le_of_ne (Std.not_lt.mp hlt) hn
        · exact hx.1 e he

end Registry

/-- Operators by name. -/
structure Registry where
  entries : List (String × Handler)
  ascending : Registry.Ascending entries

namespace Registry

/-- A registry without operators. -/
def empty : Registry := ⟨[], .nil⟩

/-- The operator of a name. -/
def get? (r : Registry) (name : String) : Option Handler :=
  lookup name r.entries

/-- The registry with one more operator, which replaces one of the same name. -/
def insert (r : Registry) (name : String) (h : Handler) : Registry :=
  ⟨insertEntry name h r.entries, ascending_insertEntry name h r.ascending⟩

/-- The registry without the operator of a name. -/
def erase (r : Registry) (name : String) : Registry :=
  ⟨r.entries.filter fun e => e.1 != name, r.ascending.filter _⟩

/-- The registry has an operator of the name. -/
def contains (r : Registry) (name : String) : Bool :=
  (r.get? name).isSome

/-- The names, in their order. -/
def names (r : Registry) : List String :=
  r.entries.map Prod.fst

/-- The number of operators. -/
def size (r : Registry) : Nat :=
  r.entries.length

/-- The registry of a list of operators, later ones replacing earlier ones. -/
def ofList (entries : List (String × Handler)) : Registry :=
  entries.foldl (fun r e => r.insert e.1 e.2) empty

/-- The fourteen built-in operators. -/
def builtin : Registry :=
  ofList
    [("eq", .comparison .equality .eq),
     ("neq", .comparison .equality .ne),
     ("gt", .comparison .ordering .gt),
     ("gte", .comparison .ordering .gte),
     ("lt", .comparison .ordering .lt),
     ("lte", .comparison .ordering .lte),
     ("in", .membership false),
     ("notin", .membership true),
     ("contains", .textual .textContains .contains false),
     ("doesnotcontain", .textual .textContains .contains true),
     ("startswith", .textual .textStart .startsWith false),
     ("endswith", .textual .textEnd .endsWith false),
     ("isnull", .nullness true),
     ("isnotnull", .nullness false)]

/-- The names between brackets, quoted. -/
def inspectNames (r : Registry) : String :=
  "[" ++ ", ".intercalate (r.names.map Text.quote) ++ "]"

/-! ### Look-up -/

theorem lookup_insertEntry (name m : String) (h : Handler) (es : List (String × Handler)) :
    lookup m (insertEntry name h es) = if name = m then some h else lookup m es := by
  induction es with
  | nil => simp [insertEntry, lookup]
  | cons e rest ih =>
    obtain ⟨n, g⟩ := e
    by_cases hn : n = name
    · subst hn
      simp [insertEntry, lookup]
      split <;> rfl
    · by_cases hl : name < n
      · simp [insertEntry, lookup, hn, hl]
      · by_cases hm : n = m
        · subst hm
          simp [insertEntry, lookup, hn, hl, Ne.symm hn]
        · simp [insertEntry, lookup, hn, hl, hm, ih]

theorem get?_insert (r : Registry) (name m : String) (h : Handler) :
    (r.insert name h).get? m = if name = m then some h else r.get? m :=
  lookup_insertEntry name m h r.entries

theorem lookup_filter (name m : String) (es : List (String × Handler)) :
    lookup m (es.filter fun e => e.1 != name) = if name = m then none else lookup m es := by
  induction es with
  | nil => simp [lookup]
  | cons e rest ih =>
    obtain ⟨n, g⟩ := e
    by_cases hn : n = name
    · subst hn
      by_cases hm : n = m
      · subst hm
        simpa using ih
      · simpa [lookup, hm] using ih
    · by_cases hm : n = m
      · subst hm
        simp [lookup, hn, Ne.symm hn]
      · simpa [lookup, hn, hm] using ih

theorem get?_erase (r : Registry) (name m : String) :
    (r.erase name).get? m = if name = m then none else r.get? m :=
  lookup_filter name m r.entries

end Registry

end RowQuery
