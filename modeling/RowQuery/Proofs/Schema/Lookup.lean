import RowQuery.Schema

/-!
# Looking up a property

A look-up by name gives a place and a property, and the property stands at that place. This is
what ties the two halves of compilation together: a name is resolved once, and from then on a
condition reads by place.

## Main results

* `Schema.property?_of_find?`: what is found under a name stands at the place that was found.
* `Schema.read_of_find?`: reading by that place is reading that property.
* `Schema.find?_name`: a property is found again under the name that it was registered with.
* `Schema.map_snd_find?`: the property that is found is the first one of the name.
* `Schema.isSome_find?_iff`: there is one if some property has the name.
* `Schema.find?_congr`: a look-up does not see the case of the name.
-/

namespace RowQuery.Schema

variable {ρ : Type}

/-- The places are counted from `start`, so the property stands `start` places earlier in the
list. -/
theorem getElem?_of_findFrom {name : String} {ps : List (Property ρ)} {start i : Nat}
    {p : Property ρ} (h : findFrom name start ps = some (i, p)) :
    start ≤ i ∧ ps[i - start]? = some p := by
  induction ps generalizing start with
  | nil => simp [findFrom] at h
  | cons q rest ih =>
    rw [findFrom] at h
    split at h
    · cases h
      simp
    · obtain ⟨hle, hget⟩ := ih h
      refine ⟨by omega, ?_⟩
      rw [show i - start = (i - (start + 1)) + 1 by omega]
      simpa using hget

theorem property?_of_find? {s : Schema ρ} {name : String} {i : Nat} {p : Property ρ}
    (h : s.find? name = some (i, p)) : s.property? i = some p := by
  simpa [property?] using (getElem?_of_findFrom h).2

theorem mem_of_find? {s : Schema ρ} {name : String} {i : Nat} {p : Property ρ}
    (h : s.find? name = some (i, p)) : p ∈ s.properties :=
  List.mem_of_getElem? (property?_of_find? h)

theorem read_of_property? {s : Schema ρ} {i : Nat} {p : Property ρ}
    (h : s.property? i = some p) (row : ρ) : s.read i row = p.get row := by
  simp [read, h]

theorem read_of_find? {s : Schema ρ} {name : String} {i : Nat} {p : Property ρ}
    (h : s.find? name = some (i, p)) (row : ρ) : s.read i row = p.get row :=
  read_of_property? (property?_of_find? h) row

/-- What is found under a name has that name up to case, so nothing before it has its own name. -/
theorem findFrom_name {name : String} {ps : List (Property ρ)} {start i : Nat} {p : Property ρ}
    (h : findFrom name start ps = some (i, p)) : findFrom p.name start ps = some (i, p) ∧
      Text.sameName p.name name = true := by
  induction ps generalizing start with
  | nil => simp [findFrom] at h
  | cons q rest ih =>
    rw [findFrom] at h
    split at h
    · rename_i hq
      cases h
      exact ⟨by simp [findFrom], hq⟩
    · rename_i hq
      obtain ⟨hfind, hsame⟩ := ih h
      have hne : ¬ Text.sameName q.name p.name = true :=
        fun hqp => hq (Text.sameName_trans hqp hsame)
      exact ⟨by rw [findFrom, if_neg hne, hfind], hsame⟩

theorem find?_name {s : Schema ρ} {name : String} {i : Nat} {p : Property ρ}
    (h : s.find? name = some (i, p)) : s.find? p.name = some (i, p) :=
  (findFrom_name h).1

theorem map_snd_findFrom (name : String) (ps : List (Property ρ)) (start : Nat) :
    (findFrom name start ps).map Prod.snd = ps.find? fun p => Text.sameName p.name name := by
  induction ps generalizing start with
  | nil => rfl
  | cons q rest ih =>
    rw [findFrom, List.find?_cons]
    cases Text.sameName q.name name with
    | true => rfl
    | false => exact ih (start + 1)

/-- The property that is found is the first one that has the name up to case. -/
theorem map_snd_find? (s : Schema ρ) (name : String) :
    (s.find? name).map Prod.snd = s.properties.find? fun p => Text.sameName p.name name :=
  map_snd_findFrom name s.properties 0

/-- A look-up succeeds if some property has the name up to case. -/
theorem isSome_find?_iff {s : Schema ρ} {name : String} :
    (s.find? name).isSome = true ↔ ∃ p ∈ s.properties, Text.sameName p.name name = true := by
  rw [← Option.isSome_map (f := Prod.snd), map_snd_find?, List.find?_isSome]

theorem findFrom_congr {a b : String} (h : Text.sameName a b = true) (start : Nat)
    (ps : List (Property ρ)) : findFrom a start ps = findFrom b start ps := by
  induction ps generalizing start with
  | nil => rfl
  | cons p rest ih => rw [findFrom, findFrom, Text.sameName_congr_right h, ih]

/-- A look-up does not see the case of the name. -/
theorem find?_congr {a b : String} (h : Text.sameName a b = true) (s : Schema ρ) :
    s.find? a = s.find? b :=
  findFrom_congr h 0 s.properties

end RowQuery.Schema
