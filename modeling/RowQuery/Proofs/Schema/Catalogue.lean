import Mathlib.Data.List.Dedup
import Mathlib.Data.List.Induction
import Mathlib.Data.List.TakeWhile
import RowQuery.Proofs.Schema.Recasing

/-!
# What a schema catalogues

A schema is built from a list of registrations. It holds one property for each name without regard
to case, the one that was registered last, and the properties stand in the order in which their
names were registered first.

## First and last

A registration under a name that is taken puts the new property in the place of the old one. So the
place of a name is decided by the first registration of it, and the property by the last one, and
the two say nothing of each other. The place is given as a count: so many names were registered
before that one.

The lemmas are about one registration first, and about a list of them by induction from its end.
What a registration does to the names, `folds_put`, is what carries the count.

## Main definitions

* `Schema.folds`, `Schema.countNames`: the names of some properties without their case, and the
  number of different ones.
* `Schema.lastNamed?`, `Schema.place`: the last registration of a name, and the number of names
  registered before its first one.
* `Schema.Catalogues`: what holds of a schema that is built from a list of registrations.

## Main results

* `Schema.find?_register_of_ne`, `Schema.find?_register_of_same`: a registration and a look-up.
* `Schema.find?_build`: a look-up in a schema that is built.
* `Schema.find?_build_reregistered`: a name registered again changes no look-up of another one.
* `Schema.build_catalogues`: all that is promised of a schema, with what follows for filters and
  sort keys.
-/

namespace RowQuery.Schema

variable {ρ : Type}

/-! ### Names -/

/-- The names of the properties with their capitals lowered. -/
def folds (ps : List (Property ρ)) : List (List Char) :=
  ps.map fun p => Text.fold p.name

/-- The number of different names without regard to case. -/
def countNames (ps : List (Property ρ)) : Nat :=
  (folds ps).dedup.length

@[simp] theorem folds_cons (p : Property ρ) (ps : List (Property ρ)) :
    folds (p :: ps) = Text.fold p.name :: folds ps := rfl

theorem folds_append (ps qs : List (Property ρ)) : folds (ps ++ qs) = folds ps ++ folds qs :=
  List.map_append

theorem mem_folds_iff {ps : List (Property ρ)} {name : String} :
    Text.fold name ∈ folds ps ↔ ∃ p ∈ ps, Text.sameName p.name name = true := by
  simp [folds, Text.sameName_iff]

/-- A registration adds its name at the end, unless the name is taken. -/
theorem folds_put (p : Property ρ) (ps : List (Property ρ)) :
    folds (put p ps)
      = if Text.fold p.name ∈ folds ps then folds ps else folds ps ++ [Text.fold p.name] := by
  induction ps with
  | nil => rfl
  | cons q rest ih =>
    rw [put]
    cases hq : Text.sameName q.name p.name with
    | true => simp [Text.sameName_iff.mp hq]
    | false =>
      have hne : Text.fold p.name ≠ Text.fold q.name := (Text.sameName_eq_false_iff.mp hq).symm
      simp only [if_neg Bool.false_ne_true, folds_cons, ih, List.mem_cons, or_iff_right hne]
      split <;> rfl

theorem mem_folds_put {p : Property ρ} {ps : List (Property ρ)} {n : List Char} :
    n ∈ folds (put p ps) ↔ n ∈ folds ps ∨ n = Text.fold p.name := by
  rw [folds_put]
  split
  · rename_i hp
    refine ⟨.inl, fun h => h.elim id fun hn => ?_⟩
    rwa [hn]
  · rw [List.mem_append, List.mem_singleton]

theorem nodup_folds_put {ps : List (Property ρ)} (h : (folds ps).Nodup) (p : Property ρ) :
    (folds (put p ps)).Nodup := by
  rw [folds_put]
  split
  · exact h
  · rename_i hp
    exact h.append (List.nodup_singleton _) (by simpa using hp)

/-! ### One registration -/

/-- A registration is not seen under other names. -/
theorem findFrom_put_of_ne {p : Property ρ} {name : String}
    (h : Text.sameName p.name name = false) (start : Nat) (ps : List (Property ρ)) :
    findFrom name start (put p ps) = findFrom name start ps := by
  induction ps generalizing start with
  | nil => simp [put, findFrom, h]
  | cons q rest ih =>
    rw [put]
    cases hq : Text.sameName q.name p.name with
    | true =>
      have hqn : Text.sameName q.name name = false := by
        rw [Text.sameName_congr_left hq, h]
      simp [findFrom, h, hqn]
    | false => rw [if_neg Bool.false_ne_true, findFrom, findFrom, ih]

/-- Under its own name a registration is found in the place of what was found there, or at the end.
-/
theorem findFrom_put_of_same {p : Property ρ} {name : String}
    (h : Text.sameName p.name name = true) (start : Nat) (ps : List (Property ρ)) :
    findFrom name start (put p ps)
      = some (((findFrom name start ps).map Prod.fst).getD (start + ps.length), p) := by
  induction ps generalizing start with
  | nil => simp [put, findFrom, h]
  | cons q rest ih =>
    have hqn : Text.sameName q.name p.name = Text.sameName q.name name :=
      Text.sameName_congr_right h q.name
    rw [put, hqn]
    cases hq : Text.sameName q.name name with
    | true => simp [findFrom, h, hq]
    | false => simp [findFrom, hq, ih, Nat.add_assoc, Nat.add_comm 1]

theorem find?_register_of_ne {p : Property ρ} {name : String}
    (h : Text.sameName p.name name = false) (s : Schema ρ) :
    (s.register p).find? name = s.find? name :=
  findFrom_put_of_ne h 0 s.properties

theorem find?_register_of_same {p : Property ρ} {name : String}
    (h : Text.sameName p.name name = true) (s : Schema ρ) :
    (s.register p).find? name
      = some (((s.find? name).map Prod.fst).getD s.properties.length, p) := by
  rw [find?, register, findFrom_put_of_same h, Nat.zero_add]
  rfl

/-! ### A list of registrations -/

theorem build_append (name : String) (ps : List (Property ρ)) (p : Property ρ) :
    (build name (ps ++ [p])).1 = (build name ps).1.register p := by
  rw [build, List.foldl_append]
  rfl

/-- Just the registered names are listed. -/
theorem mem_folds_build {name : String} {ps : List (Property ρ)} {n : List Char} :
    n ∈ folds (build name ps).1.properties ↔ n ∈ folds ps := by
  induction ps using List.reverseRecOn with
  | nil => rfl
  | append_singleton ps p ih =>
    rw [build_append, register, mem_folds_put, ih, folds_append, List.mem_append]
    exact or_congr_right List.mem_singleton.symm

/-- No name is listed twice. -/
theorem nodup_folds_build (name : String) (ps : List (Property ρ)) :
    (folds (build name ps).1.properties).Nodup := by
  induction ps using List.reverseRecOn with
  | nil => exact List.nodup_nil
  | append_singleton ps p ih =>
    rw [build_append]
    exact nodup_folds_put ih p

theorem countNames_congr {ps qs : List (Property ρ)} (h : ∀ n, n ∈ folds ps ↔ n ∈ folds qs) :
    countNames ps = countNames qs :=
  ((List.perm_ext_iff_of_nodup (List.nodup_dedup _) (List.nodup_dedup _)).mpr fun n => by
    rw [List.mem_dedup, List.mem_dedup, h]).length_eq

/-- There are as many properties as different names. -/
theorem length_build (name : String) (ps : List (Property ρ)) :
    (build name ps).1.properties.length = countNames ps := by
  have hcount : countNames (build name ps).1.properties = countNames ps :=
    countNames_congr fun _ => mem_folds_build
  rw [← hcount, countNames, (nodup_folds_build name ps).dedup, folds, List.length_map]

/-! ### Looking up what was registered -/

/-- The last registration of a name. -/
def lastNamed? (name : String) (ps : List (Property ρ)) : Option (Property ρ) :=
  ps.reverse.find? fun p => Text.sameName p.name name

/-- The number of different names that are registered before the first registration of a name. -/
def place (name : String) (ps : List (Property ρ)) : Nat :=
  countNames (ps.takeWhile fun p => !Text.sameName p.name name)

theorem lastNamed?_append (name : String) (ps : List (Property ρ)) (p : Property ρ) :
    lastNamed? name (ps ++ [p])
      = if Text.sameName p.name name then some p else lastNamed? name ps := by
  rw [lastNamed?, List.reverse_append, List.reverse_singleton, List.singleton_append,
    List.find?_cons]
  cases Text.sameName p.name name <;> rfl

theorem isSome_lastNamed? {name : String} {ps : List (Property ρ)} :
    (lastNamed? name ps).isSome = true ↔ ∃ p ∈ ps, Text.sameName p.name name = true := by
  simp [lastNamed?]

/-- Later registrations do not move a name. -/
theorem place_append_of_some {name : String} {ps : List (Property ρ)} {q : Property ρ}
    (h : lastNamed? name ps = some q) (qs : List (Property ρ)) :
    place name (ps ++ qs) = place name ps := by
  obtain ⟨p, hp, hname⟩ := isSome_lastNamed?.mp (Option.isSome_of_eq_some h)
  have hne : ps.takeWhile (fun p => !Text.sameName p.name name) ≠ ps := by
    intro heq
    have := List.takeWhile_eq_self_iff.mp heq p hp
    simp [hname] at this
  rw [place, place, List.takeWhile_append, if_neg]
  exact fun hlen => hne ((List.takeWhile_prefix _).eq_of_length hlen)

/-- A name that is registered for the first time comes behind all others. -/
theorem place_append_of_none {name : String} {ps : List (Property ρ)}
    (h : lastNamed? name ps = none) {p : Property ρ} (hp : Text.sameName p.name name = true) :
    place name (ps ++ [p]) = countNames ps := by
  have hall : ∀ q ∈ ps, (!Text.sameName q.name name) = true := by
    simpa [lastNamed?] using h
  rw [place, List.takeWhile_append_of_pos hall, List.takeWhile_cons_of_neg (by simp [hp]),
    List.append_nil]

/-- **A look-up in a schema that is built** gives the last registration of the name, at the place of
the first one. -/
theorem find?_build (name : String) (ps : List (Property ρ)) (n : String) :
    (build name ps).1.find? n = (lastNamed? n ps).map fun p => (place n ps, p) := by
  induction ps using List.reverseRecOn with
  | nil => rfl
  | append_singleton ps p ih =>
    rw [build_append, lastNamed?_append]
    cases hp : Text.sameName p.name n with
    | false =>
      rw [find?_register_of_ne hp, ih, if_neg Bool.false_ne_true]
      cases hlast : lastNamed? n ps with
      | none => rfl
      | some q => rw [place_append_of_some hlast]
    | true =>
      rw [find?_register_of_same hp, ih, length_build, if_pos rfl]
      cases hlast : lastNamed? n ps with
      | none => rw [place_append_of_none hlast hp]; rfl
      | some q => rw [place_append_of_some hlast]; rfl

/-- A property that is listed is found under its name, at the place where it stands. -/
theorem find?_of_property?_build {name : String} {ps : List (Property ρ)} {i : Nat}
    {p : Property ρ} (h : (build name ps).1.property? i = some p) :
    (build name ps).1.find? p.name = some (i, p) := by
  have hfold : ∀ {j q}, (build name ps).1.property? j = some q →
      (folds (build name ps).1.properties)[j]? = some (Text.fold q.name) := by
    intro j q hq
    rw [folds, List.getElem?_map, show (build name ps).1.properties[j]? = some q from hq]
    rfl
  have hsome : ((build name ps).1.find? p.name).isSome = true :=
    isSome_find?_iff.mpr ⟨p, List.mem_of_getElem? h, Text.sameName_refl _⟩
  obtain ⟨⟨j, q⟩, hfind⟩ := Option.isSome_iff_exists.mp hsome
  have hq := property?_of_find? hfind
  have hname := Text.sameName_iff.mp (findFrom_name hfind).2
  -- The two places hold one name, and no name is listed twice.
  have hlt : i < (folds (build name ps).1.properties).length :=
    (List.getElem?_eq_some_iff.mp (hfold h)).1
  obtain rfl : i = j :=
    (List.getElem?_inj hlt (nodup_folds_build name ps)).mp (by rw [hfold h, hfold hq, hname])
  cases h.symm.trans hq
  exact hfind

/-! ### A name registered again -/

/-- A name registered again changes no look-up of another one, whatever is registered later. -/
theorem find?_build_reregistered (name : String) {before : List (Property ρ)} {p : Property ρ}
    (h : ∃ q ∈ before, Text.sameName q.name p.name = true) (after : List (Property ρ)) {n : String}
    (hn : Text.sameName p.name n = false) :
    (build name (before ++ p :: after)).1.find? n = (build name (before ++ after)).1.find? n := by
  have hfolds : ∀ after x, x ∈ folds (before ++ p :: after) ↔ x ∈ folds (before ++ after) := by
    intro after x
    have hp : Text.fold p.name ∈ folds before := mem_folds_iff.mpr h
    simp only [folds_append, folds_cons, List.mem_append, List.mem_cons]
    constructor
    · rintro (hx | rfl | hx)
      · exact .inl hx
      · exact .inl hp
      · exact .inr hx
    · exact fun hx => hx.imp id .inr
  induction after using List.reverseRecOn with
  | nil => rw [build_append, find?_register_of_ne hn, List.append_nil]
  | append_singleton after x ih =>
    rw [← List.cons_append, ← List.append_assoc, ← List.append_assoc, build_append, build_append]
    cases hx : Text.sameName x.name n with
    | false => rw [find?_register_of_ne hx, find?_register_of_ne hx, ih]
    | true =>
      rw [find?_register_of_same hx, find?_register_of_same hx, ih, length_build, length_build,
        countNames_congr (hfolds after)]

/-- The two schemas agree under every name but one, and in the properties of other names. -/
structure AgreeBesides (s s' : Schema ρ) (name : String) : Prop where
  find? : ∀ n, Text.sameName name n = false → s'.find? n = s.find? n
  property? : ∀ i p, s.property? i = some p → Text.sameName name p.name = false →
    s'.property? i = some p
  read : ∀ i p, s.property? i = some p → Text.sameName name p.name = false →
    ∀ row, s'.read i row = s.read i row

theorem agreeBesides_reregistered (name : String) {before : List (Property ρ)} {p : Property ρ}
    (h : ∃ q ∈ before, Text.sameName q.name p.name = true) (after : List (Property ρ)) :
    (build name (before ++ after)).1.AgreeBesides (build name (before ++ p :: after)).1 p.name := by
  have hfind := @find?_build_reregistered _ name before p h after
  have hplace : ∀ i q, (build name (before ++ after)).1.property? i = some q →
      Text.sameName p.name q.name = false →
        (build name (before ++ p :: after)).1.property? i = some q := by
    intro i q hq hne
    apply property?_of_find?
    rw [hfind hne, find?_of_property?_build hq]
  refine ⟨fun n hn => hfind hn, hplace, fun i q hq hne row => ?_⟩
  rw [read_of_property? hq, read_of_property? (hplace i q hq hne)]

/-! ### The catalogue -/

/-- What holds of a schema that is built from a list of registrations. -/
structure Catalogues (s : Schema ρ) (ps : List (Property ρ)) : Prop where
  /-- No two properties have one name. -/
  distinct : s.properties.Pairwise fun p q => Text.sameName p.name q.name = false
  /-- Just the registered names are found. -/
  found : ∀ n, (s.find? n).isSome = true ↔ ∃ p ∈ ps, Text.sameName p.name n = true
  /-- The last registration of a name is found, at the place of the first one. -/
  listed : ∀ n, s.find? n = (lastNamed? n ps).map fun p => (place n ps, p)
  /-- What is found is what stands at that place and what is read from there. -/
  placed : ∀ n i p, s.find? n = some (i, p) →
    s.property? i = some p ∧ ∀ row, s.read i row = p.get row

theorem catalogues_build (name : String) (ps : List (Property ρ)) :
    (build name ps).1.Catalogues ps where
  distinct := by
    have hnodup := List.pairwise_map.mp (nodup_folds_build name ps)
    exact hnodup.imp Text.sameName_eq_false_iff.mpr
  found n := by rw [find?_build, Option.isSome_map, isSome_lastNamed?]
  listed n := find?_build name ps n
  placed n i p h := ⟨property?_of_find? h, read_of_find? h⟩

/-- **What a schema promises.** It catalogues its registrations. So a filter or a list of sort keys
that compiles, compiles to the same with its properties in another case, and one more registration
of a name that is taken changes nothing of the other properties. -/
theorem build_catalogues (name : String) (ps : List (Property ρ)) :
    let s := (build name ps).1
    s.Catalogues ps ∧
      (∀ n m : FilterNode, n.Recased m → ∀ config,
        (∀ inherited e, (n.compileBelow s config inherited).outcome = .ok e →
          m.compileBelow s config inherited = n.compileBelow s config inherited) ∧
        ∀ p, (n.predicate s config).outcome = .ok p →
          m.predicate s config = n.predicate s config) ∧
      (∀ keys recased, List.Forall₂ SortKey.Recased keys recased → ∀ steps,
        (OrderStep.ofKeys keys s).outcome = .ok steps →
          OrderStep.ofKeys recased s = OrderStep.ofKeys keys s) ∧
      ∀ before after p, ps = before ++ after →
        (∃ q ∈ before, Text.sameName q.name p.name = true) →
          s.AgreeBesides (build name (before ++ p :: after)).1 p.name := by
  intro s
  refine ⟨catalogues_build name ps, ?_, ?_, ?_⟩
  · intro n m h config
    exact ⟨fun inherited e he => h.compileBelow_eq he, fun p hp => h.predicate_eq hp⟩
  · intro keys recased h steps hk
    exact OrderStep.ofKeys_of_recased h hk
  · rintro before after p rfl h
    exact agreeBesides_reregistered name h after

/-- The name of the first property is registered again, in capitals and with another type. It keeps
its place, and so does the property behind it. -/
theorem build_catalogues_reregistered :
    let taken : List (Property (Int64 × Bool)) :=
      [⟨"Id", ⟨.value, .int⟩, fun row => .int row.1⟩,
        ⟨"Flag", ⟨.value, .bool⟩, fun row => .bool row.2⟩]
    let s := (build "Item" (taken ++ [⟨"ID", ⟨.nullable, .int⟩, fun _ => .null⟩])).1
    let n : FilterNode := .leaf ⟨"id", "isnull", "0"⟩ .none
    let m : FilterNode := .leaf ⟨"iD", "isnull", "0"⟩ .none
    let keys : List SortKey := [⟨"flag", true, false⟩, ⟨"id", false, true⟩]
    let recased : List SortKey := [⟨"FLAG", true, false⟩, ⟨"Id", false, true⟩]
    s.find? "id" = some (0, ⟨"ID", ⟨.nullable, .int⟩, fun _ => .null⟩) ∧
      (∀ row, s.read 0 row = .null) ∧
      (∃ e, (n.compileBelow s .json .none).outcome = .ok e) ∧
      m.compileBelow s .json .none = n.compileBelow s .json .none ∧
      m.predicate s .json = n.predicate s .json ∧
      (∃ steps, (OrderStep.ofKeys keys s).outcome = .ok steps) ∧
      OrderStep.ofKeys recased s = OrderStep.ofKeys keys s ∧
      (build "Item" taken).1.AgreeBesides s "ID" ∧
      s.find? "FLAG" = (build "Item" taken).1.find? "FLAG" := by
  intro taken s n m keys recased
  obtain ⟨hcat, hfilter, hkeys, -⟩ :=
    build_catalogues "Item" (taken ++ [⟨"ID", ⟨.nullable, .int⟩, fun _ => .null⟩])
  obtain ⟨-, -, -, hagain⟩ := build_catalogues "Item" taken
  have hid : s.find? "id" = some (0, ⟨"ID", ⟨.nullable, .int⟩, fun _ => .null⟩) := by
    rw [hcat.listed]
    rfl
  have hleaf : Condition.Recased ⟨"id", "isnull", "0"⟩ ⟨"iD", "isnull", "0"⟩ := ⟨rfl, rfl, rfl⟩
  have hn : n.Recased m := .leaf hleaf .none
  have hrecased : List.Forall₂ SortKey.Recased keys recased :=
    .cons ⟨rfl, rfl, rfl⟩ (.cons ⟨rfl, rfl, rfl⟩ .nil)
  have hbesides : (build "Item" taken).1.AgreeBesides s "ID" :=
    hagain taken [] _ rfl ⟨_, List.mem_cons_self, rfl⟩
  obtain ⟨hbelow, hpredicate⟩ := hfilter n m hn .json
  exact ⟨hid, (hcat.placed _ _ _ hid).2, ⟨_, rfl⟩, hbelow _ _ rfl, hpredicate _ rfl, ⟨_, rfl⟩,
    hkeys keys recased hrecased _ rfl, hbesides, hbesides.find? "FLAG" rfl⟩

end RowQuery.Schema
