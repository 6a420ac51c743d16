import RowQuery.Registry

/-!
# Look-ups in a registry

Look-up takes the first entry of a name. The entries of a registry have distinct names, so a look-up
is membership, whatever the order of the entries.

## Laying one registry over another

`Registry.overlay` puts the entries of one registry into another, where they take the place of
entries of the same name. A look-up then asks the upper registry first and the lower one for the
names that the upper one lacks. The list of the built-in operators is laid over nothing in the same
way, so one lemma on folds serves both.

## Main definitions

* `Registry.overlay`: a registry with the entries of another laid over it.

## Main results

* `Registry.lookup_eq_some_iff`: among distinct names a look-up is membership.
* `Registry.get?_overlay`: the upper registry first, then the lower one.
* `Registry.get?_ofList_eq_some_iff`: look-up in the registry of a list of distinct names.
-/

namespace RowQuery.Registry

/-- The registry with the entries of another laid over it. -/
def overlay (lower upper : Registry) : Registry :=
  upper.entries.foldl (fun r e => r.insert e.1 e.2) lower

/-! ### Look-up as membership -/

theorem mem_of_lookup {name : String} {h : Handler} {es : List (String × Handler)}
    (hl : lookup name es = some h) : (name, h) ∈ es := by
  induction es with
  | nil => simp [lookup] at hl
  | cons e rest ih =>
    obtain ⟨n, g⟩ := e
    rw [lookup] at hl
    split at hl
    · rename_i hn
      cases hl
      simp [hn]
    · exact List.mem_cons_of_mem _ (ih hl)

theorem lookup_eq_some_iff {name : String} {h : Handler} {es : List (String × Handler)}
    (hd : (es.map Prod.fst).Nodup) : lookup name es = some h ↔ (name, h) ∈ es := by
  refine ⟨mem_of_lookup, fun hm => ?_⟩
  induction es with
  | nil => simp at hm
  | cons e rest ih =>
    obtain ⟨n, g⟩ := e
    rw [List.map_cons, List.nodup_cons] at hd
    rcases List.mem_cons.mp hm with heq | hm
    · cases heq
      simp [lookup]
    · have hn : n ≠ name := by
        rintro rfl
        exact hd.1 (List.mem_map.mpr ⟨(n, h), hm, rfl⟩)
      simpa [lookup, hn] using ih hd.2 hm

theorem lookup_append (name : String) (es fs : List (String × Handler)) :
    lookup name (es ++ fs) = (lookup name es).or (lookup name fs) := by
  induction es with
  | nil => simp [lookup]
  | cons e rest ih =>
    obtain ⟨n, g⟩ := e
    by_cases hn : n = name <;> simp [lookup, hn, ih]

theorem lookup_reverse {name : String} {es : List (String × Handler)}
    (hd : (es.map Prod.fst).Nodup) : lookup name es.reverse = lookup name es := by
  have hd' : (es.reverse.map Prod.fst).Nodup :=
    ((List.reverse_perm es).map Prod.fst).nodup_iff.mpr hd
  refine Option.ext fun h => ?_
  rw [lookup_eq_some_iff hd', lookup_eq_some_iff hd, List.mem_reverse]

theorem nodup_names (r : Registry) : (r.entries.map Prod.fst).Nodup := by
  refine List.pairwise_map.mpr (r.ascending.imp fun {a b} hlt heq => ?_)
  rw [heq] at hlt
  exact String.lt_irrefl _ hlt

/-! ### Folds of insertions -/

/-- Later entries take the place of earlier ones, so the list is searched from its end. -/
theorem get?_foldl_insert (es : List (String × Handler)) (r : Registry) (name : String) :
    (es.foldl (fun r e => r.insert e.1 e.2) r).get? name
      = (lookup name es.reverse).or (r.get? name) := by
  induction es generalizing r with
  | nil => simp [lookup]
  | cons e rest ih =>
    obtain ⟨n, g⟩ := e
    rw [List.foldl_cons, ih, get?_insert, List.reverse_cons, lookup_append, Option.or_assoc]
    by_cases hn : n = name <;> simp [lookup, hn]

theorem get?_overlay (lower upper : Registry) (name : String) :
    (lower.overlay upper).get? name = (upper.get? name).or (lower.get? name) := by
  rw [overlay, get?_foldl_insert, lookup_reverse upper.nodup_names]
  rfl

theorem get?_ofList_eq_some_iff {es : List (String × Handler)} (hd : (es.map Prod.fst).Nodup)
    {name : String} {h : Handler} : (ofList es).get? name = some h ↔ (name, h) ∈ es := by
  rw [ofList, get?_foldl_insert, lookup_reverse hd, show empty.get? name = none from rfl,
    Option.or_none, lookup_eq_some_iff hd]

end RowQuery.Registry
