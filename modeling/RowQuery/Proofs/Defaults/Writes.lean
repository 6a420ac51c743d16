import RowQuery.Defaults

/-!
# What writes to the defaults leave

The defaults have two fields. A write to one of them leaves the other as it stands at that moment, a
write to both leaves nothing of what was there, and a change of a copy may do either. So of a list
of writes only one counts for each field, the last one that writes it; which one that is can differ
from field to field.

A change is a function, and whether it writes a field is said by what it does: it leaves some
configuration with another value there. What it writes may depend on the configuration that it
finds, the other field included.

## Main definitions

* `Field`, `Field.of`: the two fields of a configuration.
* `Write.Writes`: a write leaves a value in a field; `Write.Spares`: it never does.
* `publishedBy`: the defaults after a list of writes.

## Main results

* `Write.Writes.of_apply`, `Write.Spares.of_apply`: what is in a field after a write.
* `of_publishedBy_append`: only the last write to a field counts.
-/

namespace RowQuery.Defaults

/-- A field of a configuration. -/
inductive Field where
  | deserializer
  | operators

namespace Field

/-- The values of a field. -/
def Value : Field → Type
  | deserializer => Option Deserializer
  | operators => Registry

/-- The value of the field in a configuration. -/
def of : (f : Field) → Config → f.Value
  | deserializer, config => config.deserializer
  | operators, config => config.operators

end Field

namespace Write

/-- The write leaves the value in the field, if it finds the configuration. -/
inductive Writes (current : Config) : Write → (f : Field) → f.Value → Prop where
  | set (config : Config) (f : Field) : Writes current (.set config) f (f.of config)
  | deserializer (d : Option Deserializer) : Writes current (.setDeserializer d) .deserializer d
  | operators (r : Registry) : Writes current (.setOperators r) .operators r
  | update (change : Config → Config) {f : Field} (h : ∃ c, f.of (change c) ≠ f.of c) :
    Writes current (.update change) f (f.of (change current))
  | reset (f : Field) : Writes current .reset f (f.of initial)

/-- The write leaves nothing in the field, whatever it finds. -/
def Spares (w : Write) (f : Field) : Prop :=
  ∀ current v, ¬ w.Writes current f v

variable {w : Write} {f : Field} {current : Config} {v : f.Value}

/-- What is written is there. -/
theorem Writes.of_apply (h : w.Writes current f v) : f.of (w.apply current) = v := by
  cases h <;> rfl

/-- A field that is not written is left as it stands. -/
theorem Spares.of_apply (h : w.Spares f) (current : Config) :
    f.of (w.apply current) = f.of current := by
  cases w with
  | set config => exact absurd (.set config f) (h current _)
  | setDeserializer d =>
    cases f with
    | deserializer => exact absurd (.deserializer d) (h current d)
    | operators => rfl
  | setOperators r =>
    cases f with
    | deserializer => rfl
    | operators => exact absurd (.operators r) (h current r)
  | update change =>
    refine Classical.byContradiction fun hne => ?_
    exact h current _ (.update change ⟨current, hne⟩)
  | reset => exact absurd (.reset f) (h current _)

end Write

/-! ### Lists of writes -/

/-- The defaults after some writes, the first one first. -/
def publishedBy (writes : List Write) : Config :=
  writes.foldl Write.apply initial

theorem publishedBy_append_singleton (writes : List Write) (w : Write) :
    publishedBy (writes ++ [w]) = w.apply (publishedBy writes) := by
  rw [publishedBy, List.foldl_append]
  rfl

variable {f : Field} {writes : List Write}

theorem of_foldl_apply_of_spares (h : ∀ w ∈ writes, w.Spares f) (current : Config) :
    f.of (writes.foldl Write.apply current) = f.of current := by
  induction writes generalizing current with
  | nil => rfl
  | cons w writes ih =>
    obtain ⟨hw, hwrites⟩ := List.forall_mem_cons.mp h
    rw [List.foldl_cons, ih hwrites, hw.of_apply]

/-- A field that nothing writes is as it was at the start. -/
theorem of_publishedBy_of_spares (h : ∀ w ∈ writes, w.Spares f) :
    f.of (publishedBy writes) = f.of initial :=
  of_foldl_apply_of_spares h initial

/-- **The last write to a field counts**, by what it finds. -/
theorem of_publishedBy_append {w : Write} {after : List Write} {v : f.Value}
    (hw : w.Writes (publishedBy writes) f v) (hafter : ∀ x ∈ after, x.Spares f) :
    f.of (publishedBy (writes ++ w :: after)) = v := by
  rw [publishedBy, List.foldl_append, List.foldl_cons, of_foldl_apply_of_spares hafter]
  exact hw.of_apply

end RowQuery.Defaults
