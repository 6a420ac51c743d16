import RowQuery.Proofs.Filter.Leaves
import RowQuery.Proofs.Filter.Meaning

/-!
# When a filter compiles

Under the built-in operators it can be said of a leaf, without compiling anything, whether it
compiles, and if not, with which error. There are six things that it has to meet. They come in an
order, and the first one that it does not meet decides the error.

## Why the order can be read off

Each thing is said of the leaf as it is written and does not rely on the others: where a property or
an operator is missing, what is asked of both is met because there is nothing to ask of. So a leaf
can fall short of several things at once, and which of them is reported is a fact about compiling.

## Errors that cannot arise

The operators that look for a value in a list refuse a constant that is no list, and those that ask
for absence refuse a property that has none. In a leaf they are never in the situation. The text is
read as a list exactly for the operators that need one, and a property without absence is turned
away before its operator is asked. All that an operator is left to refuse is a kind.

## Main definitions

* `Requirement`: what a leaf has to meet; `Requirement.earlier`: what comes before.
* `Condition.Meets`, `Condition.FirstUnmet`: a condition meets a requirement, or it is the first one
  that it does not meet.
* `Condition.Refusal`: the error for a requirement.
* `Leaf.Accepted`, `Leaf.Refused`: the same of a leaf in its tree.

## Main results

* `Condition.judged`: a leaf compiles if it meets everything, and otherwise fails as the first
  requirement says that it does not meet.
* `Condition.condition_ne_of_locate`: the two errors that cannot arise.
* `FilterNode.compileBelow_accepts_iff`: the same of a tree, by its leaves.
-/

namespace RowQuery

variable {ρ : Type}

/-! ### Requirements -/

/-- What a leaf has to meet. -/
inductive Requirement where
  /-- The property exists. -/
  | property
  /-- The operator exists. -/
  | operator
  /-- An operator that asks for absence is used where there is absence. -/
  | absence
  /-- There is a deserializer. -/
  | deserializer
  /-- The deserializer reads the text. -/
  | reading
  /-- The operator accepts the kind of the property. -/
  | kind
  deriving DecidableEq, Repr

namespace Requirement

/-- The requirements in their order. -/
@[simp] def all : List Requirement :=
  [property, operator, absence, deserializer, reading, kind]

/-- The requirements that come before one. -/
@[simp] def earlier (r : Requirement) : List Requirement :=
  all.takeWhile fun r' => r' != r

theorem eq_or_mem_earlier (a b : Requirement) : a = b ∨ a ∈ b.earlier ∨ b ∈ a.earlier := by
  cases a <;> cases b <;> decide

theorem mem_earlier_kind_iff (r : Requirement) :
    r ∈ kind.earlier ↔ r ∈ reading.earlier ∨ r = reading := by
  cases r <;> decide

theorem mem_earlier_kind_or (r : Requirement) : r ∈ kind.earlier ∨ r = kind := by
  cases r <;> decide

end Requirement

namespace Condition

/-- The condition names a property, the first one of the schema that has the name up to case, and
an operator. -/
structure Names (c : Condition) (s : Schema ρ) (p : Property ρ) (op : Operator) : Prop where
  property : s.properties.find? (fun p => Text.sameName p.name c.property) = some p
  operator : op.name = c.operator

/-- The condition meets a requirement, with a deserializer in effect. -/
def Meets (c : Condition) (s : Schema ρ) (d : Option Deserializer) : Requirement → Prop
  | .property => ∃ p ∈ s.properties, Text.sameName p.name c.property = true
  | .operator => ∃ op : Operator, op.name = c.operator
  | .absence => ∀ p op, c.Names s p op → op.asksAbsence = true → p.type.mayBeAbsent = true
  | .deserializer => d.isSome = true
  | .reading => ∀ p op r, c.Names s p op → d = some r →
      ∃ v, r.read c.value (op.constantType p.type) = .ok v
  | .kind => ∀ p op, c.Names s p op → op.acceptsKind p.type.kind = true

/-- The condition does not meet the requirement, and it meets those before it. -/
def FirstUnmet (c : Condition) (s : Schema ρ) (d : Option Deserializer) (r : Requirement) : Prop :=
  ¬ c.Meets s d r ∧ ∀ r' ∈ r.earlier, c.Meets s d r'

/-- The error of a condition that does not meet a requirement. -/
inductive Refusal (c : Condition) (s : Schema ρ) (d : Option Deserializer) (path : String) :
    Requirement → QueryError → Prop where
  | property : Refusal c s d path .property (.propertyNotFound c.property s.name)
  | operator : Refusal c s d path .operator (.unknownOperator c.operator path false)
  | absence {p : Property ρ} {op : Operator} (hn : c.Names s p op) :
    Refusal c s d path .absence (.notNullable p.name p.type.display (c.context path))
  | deserializer {p : Property ρ} {op : Operator} (hn : c.Names s p op) :
    Refusal c s d path .deserializer (.missingDeserializer p.name c.value path)
  | reading {p : Property ρ} {op : Operator} {r : Deserializer} {f : ReadFault}
      (hn : c.Names s p op) (hd : d = some r)
      (hr : r.read c.value (op.constantType p.type) = .error f) :
    Refusal c s d path .reading
      (.deserialize p.name c.value (op.constantType p.type).display path f)
  | kind {p : Property ρ} {op : Operator} (hn : c.Names s p op) :
    Refusal c s d path .kind
      (.unsupportedOperand c.operator p.name path (op.family.refusal p.type.present))

/-! ### Named properties and operators

Once a property and an operator are named, each later requirement is about these two. -/

section

variable {c : Condition} {s : Schema ρ} {d : Option Deserializer} {p p' : Property ρ}
  {op op' : Operator}

theorem names_iff :
    c.Names s p op ↔ (∃ i, s.find? c.property = some (i, p)) ∧ op.name = c.operator := by
  have hfound : (∃ i, s.find? c.property = some (i, p))
      ↔ s.properties.find? (fun p => Text.sameName p.name c.property) = some p := by
    rw [← Schema.map_snd_find?, Option.map_eq_some_iff, Prod.exists]
    simp
  rw [hfound]
  exact ⟨fun h => ⟨h.property, h.operator⟩, fun ⟨hp, hop⟩ => ⟨hp, hop⟩⟩

theorem Names.unique (h : c.Names s p op) (h' : c.Names s p' op') : p' = p ∧ op' = op :=
  ⟨Option.some.inj (h'.property.symm.trans h.property),
    Operator.name_injective (h'.operator.trans h.operator.symm)⟩

theorem meets_property_iff : c.Meets s d .property ↔ (s.find? c.property).isSome = true :=
  Schema.isSome_find?_iff.symm

theorem Names.meets_property (h : c.Names s p op) : c.Meets s d .property := by
  obtain ⟨i, hp⟩ := (names_iff.mp h).1
  exact meets_property_iff.mpr (by rw [hp]; rfl)

theorem Names.meets_operator (h : c.Names s p op) : c.Meets s d .operator :=
  ⟨op, h.operator⟩

theorem meets_deserializer_iff : c.Meets s d .deserializer ↔ d.isSome = true := Iff.rfl

theorem Names.meets_absence_iff (h : c.Names s p op) :
    c.Meets s d .absence ↔ op.handler.Accepts p.type := by
  rw [Handler.Accepts, Operator.needsAbsence_handler, ← DataType.mayBeAbsent_iff]
  constructor
  · intro hm
    exact hm p op h
  · intro ha p' op' h'
    obtain ⟨rfl, rfl⟩ := h.unique h'
    exact ha

theorem Names.meets_reading_iff (h : c.Names s p op) {r : Deserializer} :
    c.Meets s (some r) .reading ↔ ∃ v, r.read c.value (op.constantType p.type) = .ok v := by
  constructor
  · intro hm
    exact hm p op r h rfl
  · rintro hr p' op' r' h' ⟨⟩
    obtain ⟨rfl, rfl⟩ := h.unique h'
    exact hr

theorem Names.meets_kind_iff (h : c.Names s p op) :
    c.Meets s d .kind ↔ op.acceptsKind p.type.kind = true := by
  constructor
  · intro hm
    exact hm p op h
  · intro hk p' op' h'
    obtain ⟨rfl, rfl⟩ := h.unique h'
    exact hk

/-- Only one requirement is the first one that is not met. -/
theorem FirstUnmet.unique {r r' : Requirement} (h : c.FirstUnmet s d r)
    (h' : c.FirstUnmet s d r') : r' = r := by
  rcases Requirement.eq_or_mem_earlier r' r with heq | hr' | hr
  · exact heq
  · exact absurd (h.2 r' hr') h'.1
  · exact absurd (h'.2 r hr) h.1

theorem Refusal.unique {path : String} {r : Requirement} {e e' : QueryError}
    (h : c.Refusal s d path r e) (h' : c.Refusal s d path r e') : e' = e := by
  cases h with
  | property => cases h'; rfl
  | operator => cases h'; rfl
  | absence hn =>
    cases h' with
    | absence hn' =>
      obtain ⟨rfl, rfl⟩ := hn.unique hn'
      rfl
  | deserializer hn =>
    cases h' with
    | deserializer hn' =>
      obtain ⟨rfl, rfl⟩ := hn.unique hn'
      rfl
  | reading hn hd hr =>
    cases h' with
    | reading hn' hd' hr' =>
      obtain ⟨rfl, rfl⟩ := hn.unique hn'
      cases hd.symm.trans hd'
      cases hr.symm.trans hr'
      rfl
  | kind hn =>
    cases h' with
    | kind hn' =>
      obtain ⟨rfl, rfl⟩ := hn.unique hn'
      rfl

end

/-! ### One leaf -/

/-- How a condition with a deserializer in effect should end at a path: with some expression if it
meets every requirement, and otherwise with the error for the first one that it does not meet. -/
inductive Judged (c : Condition) (s : Schema ρ) (d : Option Deserializer) (path : String) :
    Except QueryError Expr → Prop where
  | accepted {e : Expr} (h : ∀ r, c.Meets s d r) : Judged c s d path (.ok e)
  | refused {r : Requirement} {e : QueryError} (hr : c.FirstUnmet s d r)
      (he : c.Refusal s d path r e) : Judged c s d path (.error e)

section

variable {c : Condition} {s : Schema ρ} {scope : Scope} {path : String}

theorem exists_names (hs : scope.Builtin) {i : Nat} {p : Property ρ} {h : Handler}
    (hp : s.find? c.property = some (i, p)) (hh : scope.handler? c.operator = some h) :
    ∃ op : Operator, c.Names s p op ∧ op.handler = h := by
  rw [Scope.handler?_builtin hs] at hh
  obtain ⟨op, hop, rfl⟩ := Option.map_eq_some_iff.mp hh
  exact ⟨op, names_iff.mpr ⟨⟨i, hp⟩, Operator.ofName?_eq_some_iff.mp hop⟩, rfl⟩

theorem not_meets_operator (hs : scope.Builtin) (hh : scope.handler? c.operator = none)
    (d : Option Deserializer) : ¬ c.Meets s d .operator := by
  rw [Scope.handler?_builtin hs, Option.map_eq_none_iff] at hh
  rintro ⟨op, hop⟩
  rw [Operator.ofName?_eq_some_iff.mpr hop] at hh
  cases hh

/-- Locating fails at one of the first four requirements. -/
theorem judged_of_locate_error (hs : scope.Builtin) {e : QueryError}
    (h : c.locate s scope path = .error e) : c.Judged s scope.deserializer? path (.error e) := by
  have hl := locating c s scope path
  rw [h] at hl
  cases hl with
  | noProperty hp =>
    refine .refused (r := .property) ⟨?_, ?_⟩ .property
    · simp [meets_property_iff, hp]
    · simp
  | noOperator hp hh =>
    rw [hs.overrides]
    refine .refused ⟨not_meets_operator hs hh _, ?_⟩ .operator
    simp [meets_property_iff, hp]
  | notAccepted hp hh ha =>
    obtain ⟨op, hn, rfl⟩ := exists_names hs hp hh
    refine .refused ⟨?_, ?_⟩ (.absence hn)
    · rwa [hn.meets_absence_iff]
    · simp [hn.meets_property, hn.meets_operator]
  | noDeserializer hp hh ha hd =>
    obtain ⟨op, hn, rfl⟩ := exists_names hs hp hh
    rw [hd]
    refine .refused ⟨?_, ?_⟩ (.deserializer hn)
    · simp [meets_deserializer_iff]
    · simp [hn.meets_property, hn.meets_operator, hn.meets_absence_iff, ha]

/-- What is known of a located leaf: it meets the first four requirements, and its text is to be
read as what its operator asks for. -/
theorem exists_names_of_locate (hs : scope.Builtin) {l : Located ρ}
    (h : c.locate s scope path = .ok l) :
    ∃ op : Operator, c.Names s l.property op ∧ op.handler = l.handler ∧
      l.target = op.constantType l.property.type ∧ scope.deserializer? = some l.deserializer ∧
      ∀ r ∈ Requirement.reading.earlier, c.Meets s (some l.deserializer) r := by
  obtain ⟨hp, hh, ha, hd⟩ := of_locate_eq_ok h
  obtain ⟨op, hn, hop⟩ := exists_names hs hp hh
  rw [← hop] at ha
  refine ⟨op, hn, hop, ?_, hd, ?_⟩
  · rw [Located.target, ← hop, Operator.constantType_handler]
  · simp [hn.meets_property, hn.meets_operator, hn.meets_absence_iff, ha, meets_deserializer_iff]

/-- A located leaf whose text is read meets all requirements but perhaps the last one. -/
theorem meets_of_read (hs : scope.Builtin) {l : Located ρ} {v : Value}
    (h : c.locate s scope path = .ok l) (hr : l.deserializer.read c.value l.target = .ok v) :
    ∀ r ∈ Requirement.kind.earlier, c.Meets s scope.deserializer? r := by
  obtain ⟨op, hn, -, htarget, hd, hmeets⟩ := exists_names_of_locate hs h
  rw [htarget] at hr
  rw [hd]
  intro r hearlier
  rcases r.mem_earlier_kind_iff.mp hearlier with hfirst | rfl
  · exact hmeets r hfirst
  · exact hn.meets_reading_iff.mpr ⟨v, hr⟩

/-- The operator of a located leaf builds a condition if it accepts the kind, and otherwise it
refuses the kind. -/
theorem condition_of_locate (hs : scope.Builtin) {l : Located ρ}
    (h : c.locate s scope path = .ok l) (d : Option Deserializer) (v : Value) :
    (c.Meets s d .kind ∧ ∃ b, l.condition v = .ok b) ∨
      (¬ c.Meets s d .kind ∧ ∃ op : Operator, c.Names s l.property op ∧
        l.condition v = .error (.unsupported (op.family.refusal l.property.type.present))) := by
  obtain ⟨op, hn, hop, htarget, -, hmeets⟩ := exists_names_of_locate hs h
  have ha := hn.meets_absence_iff.mp (hmeets .absence (by simp))
  rw [Handler.Accepts, Operator.needsAbsence_handler] at ha
  rw [hn.meets_kind_iff, Located.condition, ← hop, htarget]
  rcases Operator.build_handler ha (op.handler.operand l.property.type l.access) v with
    ⟨hk, hb⟩ | ⟨hk, hb⟩
  · exact .inl ⟨hk, hb⟩
  · exact .inr ⟨by simp [hk], op, hn, hb⟩

/-- **A leaf compiles if it meets every requirement**, and otherwise fails as the first one says
that it does not meet. -/
theorem judged (hs : scope.Builtin) (c : Condition) (s : Schema ρ) (path : String) :
    c.Judged s scope.deserializer? path (c.compile s scope path).outcome := by
  have hc := compiling c s scope path
  generalize c.compile s scope path = t at hc
  cases hc with
  | unlocated hl => exact judged_of_locate_error hs hl
  | unread hl hr =>
    obtain ⟨op, hn, -, htarget, hd, hmeets⟩ := exists_names_of_locate hs hl
    rw [htarget] at hr
    rw [hd, unreadable, htarget]
    refine .refused ⟨?_, hmeets⟩ (.reading hn rfl hr)
    simp [hn.meets_reading_iff, hr]
  | refused hl hr hb =>
    have hread := meets_of_read hs hl hr
    rcases condition_of_locate hs hl scope.deserializer? _ with ⟨-, b, hok⟩ | ⟨hk, op, hn, hno⟩
    · rw [hok] at hb
      cases hb
    · rw [hno] at hb
      cases hb
      exact .refused ⟨hk, hread⟩ (.kind hn)
  | built hl hr hb =>
    have hread := meets_of_read hs hl hr
    rcases condition_of_locate hs hl scope.deserializer? _ with ⟨hk, -⟩ | ⟨-, op, -, hno⟩
    · refine .accepted fun r => ?_
      rcases r.mem_earlier_kind_or with hr | rfl
      · exact hread r hr
      · exact hk
    · rw [hno] at hb
      cases hb

theorem exists_outcome_compile_iff (hs : scope.Builtin) :
    (∃ e, (c.compile s scope path).outcome = .ok e) ↔ ∀ r, c.Meets s scope.deserializer? r := by
  have h := judged hs c s path
  generalize (c.compile s scope path).outcome = result at h
  cases h with
  | accepted hall => exact ⟨fun _ => hall, fun _ => ⟨_, rfl⟩⟩
  | @refused r _ hr _ => exact ⟨nofun, fun hall => absurd (hall r) hr.1⟩

theorem outcome_compile_eq_error_iff (hs : scope.Builtin) {e : QueryError} :
    (c.compile s scope path).outcome = .error e ↔
      ∃ r, c.FirstUnmet s scope.deserializer? r ∧ c.Refusal s scope.deserializer? path r e := by
  have h := judged hs c s path
  generalize (c.compile s scope path).outcome = result at h
  cases h with
  | accepted hall =>
    refine ⟨nofun, ?_⟩
    rintro ⟨r, hr, -⟩
    exact absurd (hall r) hr.1
  | @refused r e' hr he =>
    constructor
    · rintro ⟨⟩
      exact ⟨r, hr, he⟩
    · rintro ⟨r', hr', he'⟩
      obtain rfl := hr.unique hr'
      rw [he.unique he']

/-- Two refusals never come up in a leaf: that a constant is no list, and that a property has no
absence. -/
theorem condition_ne_of_locate (hs : scope.Builtin) {l : Located ρ}
    (h : c.locate s scope path = .ok l) (v : Value) :
    (∀ type, l.condition v ≠ .error (.notNullable type)) ∧
      ∀ found, l.condition v
        ≠ .error (.unsupported ("membership needs a sequence operand, found " ++ found)) := by
  rcases condition_of_locate hs h none v with ⟨-, b, hb⟩ | ⟨-, op, -, hb⟩
  · rw [hb]
    exact ⟨nofun, nofun⟩
  · rw [hb]
    refine ⟨nofun, fun found heq => ?_⟩
    injection heq with heq
    injection heq with heq
    exact op.family.refusal_ne _ found heq

end

end Condition

/-! ### Trees -/

namespace Leaf

/-- The leaf meets every requirement, with the deserializer in effect there. -/
def Accepted (s : Schema ρ) (config : Config) (l : Leaf) : Prop :=
  ∀ r, l.condition.Meets s (l.scope config).deserializer? r

/-- The error is the one for the first requirement that the leaf does not meet. -/
def Refused (s : Schema ρ) (config : Config) (l : Leaf) (e : QueryError) : Prop :=
  ∃ r, l.condition.FirstUnmet s (l.scope config).deserializer? r ∧
    l.condition.Refusal s (l.scope config).deserializer? (FilterNode.pathText l.steps) r e

end Leaf

namespace FilterNode

variable {n : FilterNode} {s : Schema ρ} {config : Config} {inherited : Overrides}

/-- No leaf has operators of its own if nothing above it has. -/
theorem operators_of_mem_leavesBelow {above : List Overrides} {steps : List Side}
    (ha : ∀ o ∈ above, o.operators = none) (hn : n.KeepsOperators) {l : Leaf}
    (hl : l ∈ n.leavesBelow above steps) : l.overrides.operators = none := by
  induction n generalizing above steps with
  | leaf c o =>
    rw [leavesBelow, List.mem_singleton] at hl
    subst hl
    exact List.findSome?_eq_none_iff.mpr (List.forall_mem_cons.mpr ⟨hn, ha⟩)
  | branch left g right o ihl ihr =>
    obtain ⟨ho, hleft, hright⟩ := hn
    have habove : ∀ o' ∈ o :: above, o'.operators = none := List.forall_mem_cons.mpr ⟨ho, ha⟩
    rw [leavesBelow, List.mem_append] at hl
    rcases hl with hl | hl
    · exact ihl habove hleft hl
    · exact ihr habove hright hl

theorem builtin_of_mem_leaves (hc : config.operators = .builtin) (hi : inherited.operators = none)
    (hn : n.KeepsOperators) {l : Leaf} (hl : l ∈ n.leaves inherited) :
    (l.scope config).Builtin :=
  ⟨hc, operators_of_mem_leavesBelow (List.forall_mem_singleton.mpr hi) hn hl⟩

/-- A filter compiles if each of its leaves meets every requirement. -/
theorem exists_outcome_compileBelow_iff (hc : config.operators = .builtin)
    (hi : inherited.operators = none) (hn : n.KeepsOperators) :
    (∃ e, (n.compileBelow s config inherited).outcome = .ok e) ↔
      ∀ l ∈ n.leaves inherited, l.Accepted s config := by
  rw [(assembled_compileBelow s config n inherited).ok_iff,
    Traced.exists_outcome_mapM_eq_ok_iff]
  refine forall₂_congr fun l hl => ?_
  exact Condition.exists_outcome_compile_iff (builtin_of_mem_leaves hc hi hn hl)

/-- **When a filter compiles.** It compiles exactly when each leaf has a property, an operator, a
deserializer that reads its text, absence if the operator asks for it, and a kind that the operator
accepts. Otherwise the first leaf from the left that falls short decides the error, by the first
thing that it lacks. Two errors of operators never arise. -/
theorem compileBelow_accepts_iff (hc : config.operators = .builtin)
    (hi : inherited.operators = none) (hn : n.KeepsOperators) :
    let compiled := n.compileBelow s config inherited
    let leaves := n.leaves inherited
    ((∃ e, compiled.outcome = .ok e) ↔ ∀ l ∈ leaves, l.Accepted s config) ∧
      (∀ e, compiled.outcome = .error e ↔ ∃ before l after, leaves = before ++ l :: after ∧
        (∀ b ∈ before, b.Accepted s config) ∧ l.Refused s config e) ∧
      ∀ l ∈ leaves, (∀ e, (l.compile s config).outcome = .error e ↔ l.Refused s config e) ∧
        ∀ path found value, l.condition.locate s (l.scope config) path = .ok found →
          (∀ type, found.condition value ≠ .error (.notNullable type)) ∧
            ∀ type, found.condition value
              ≠ .error (.unsupported ("membership needs a sequence operand, found " ++ type)) := by
  intro compiled leaves
  have hbuiltin : ∀ l ∈ leaves, (l.scope config).Builtin :=
    fun l hl => builtin_of_mem_leaves hc hi hn hl
  have hrefused : ∀ l ∈ leaves, ∀ e,
      (l.compile s config).outcome = .error e ↔ l.Refused s config e :=
    fun l hl e => Condition.outcome_compile_eq_error_iff (hbuiltin l hl)
  refine ⟨exists_outcome_compileBelow_iff hc hi hn, ?_, ?_⟩
  · intro e
    rw [(assembled_compileBelow s config n inherited).outcome_eq_error_iff,
      Traced.outcome_mapM_eq_error_iff]
    refine exists_congr fun before => exists_congr fun l => exists_congr fun after =>
      and_congr_right fun hleaves => ?_
    have hmem : ∀ b ∈ before ++ l :: after, b ∈ leaves := by
      intro b hb
      rwa [← hleaves] at hb
    refine and_congr (forall₂_congr fun b hb => ?_) (hrefused l (hmem l (by simp)) e)
    exact Condition.exists_outcome_compile_iff (hbuiltin b (hmem b (List.mem_append_left _ hb)))
  · intro l hl
    refine ⟨hrefused l hl, fun path found value hfound => ?_⟩
    exact Condition.condition_ne_of_locate (hbuiltin l hl) hfound value

/-- A leaf whose text is no truth value and whose operator accepts none: the text is reported. -/
theorem compileBelow_accepts_iff_two_faults :
    let s : Schema (Option Int64 × Bool) :=
      ⟨"Item", [⟨"Rank", ⟨.nullable, .int⟩, fun row => row.1.elim .null .int⟩,
        ⟨"Flag", ⟨.value, .bool⟩, fun row => .bool row.2⟩]⟩
    let n : FilterNode :=
      .branch (.leaf ⟨"RANK", "in", "[7]"⟩ .none) .and (.leaf ⟨"flag", "gt", "7"⟩ .none) .none
    let e : QueryError :=
      .deserialize "Flag" "7" "bool" "$.right" (.mismatch "bool" "number")
    n.KeepsOperators ∧ (n.compileBelow s .json .none).outcome = .error e ∧
      (∃ before l after, n.leaves .none = before ++ l :: after ∧
        (∀ b ∈ before, b.Accepted s .json) ∧ l.Refused s .json e) ∧
      ∃ l ∈ n.leaves .none, l.condition = ⟨"flag", "gt", "7"⟩ ∧
        ¬ l.condition.Meets s (some .json) .kind ∧ l.Refused s .json e := by
  intro s n e
  have hn : n.KeepsOperators := ⟨rfl, rfl, rfl⟩
  have hfails : (n.compileBelow s .json .none).outcome = .error e := rfl
  obtain ⟨-, htree, hleaf⟩ := @compileBelow_accepts_iff _ n s .json .none rfl rfl hn
  have hmem : ⟨[.right], ⟨"flag", "gt", "7"⟩, .none⟩ ∈ n.leaves .none := by
    simp [n, leaves, leavesBelow, Overrides.nearest, Overrides.none]
  have hrefused := ((hleaf _ hmem).1 e).mp rfl
  refine ⟨hn, hfails, (htree e).mp hfails, _, hmem, rfl, ?_, hrefused⟩
  intro hkind
  exact absurd (hkind _ .gt ⟨rfl, rfl⟩) (by decide)

end FilterNode

end RowQuery
