import RowQuery.Proofs.Request.Parts

/-!
# When sort keys compile, and to what

Each sort key is judged by itself: its property has to exist, and it has to be one that may be
absent if absent values are to come lowest. The first key that falls short decides the error. In one
key the property comes first, since without it there is nothing to ask about absence.

## One chain

The steps of a key stand in a block, and the blocks stand in the order of the keys. Which step is
primary is no matter of a block: it is the first step of the whole list, whatever key it belongs to
and whether or not that key brings a step on presence. So a list of keys in two parts compiles to
the steps of the first part and, behind them, to those of the second part as steps that refine.

## Behind a query

A query may have steps that it is still to be sorted by. The steps of a list of keys do not join
them: the rows are sorted by what was pending, and the new chain is all that is pending then.

## Main definitions

* `SortKey.Sortable`, `SortKey.Refusal`: a key compiles; the error of one that does not.
* `SortKey.Emits`, `SortKey.IsBlock`: the expressions and the steps of a key.

## Main results

* `SortKey.exprs_eq_ok_iff`, `SortKey.exprs_eq_error_iff`: what becomes of one key.
* `OrderStep.exists_chain_iff`, `OrderStep.chain_eq_error_iff`, `OrderStep.blocks_of_chain`: the
  same of a list of keys.
* `Query.isStableSort_pushOrders`: the rows of a query once a chain stands behind it.
* `Query.addOrder_starts_one_chain`: a list of keys behind a query.
-/

namespace RowQuery

variable {ρ : Type} {s : Schema ρ}

/-! ### One key -/

theorem DataType.presence?_eq_none_iff {t : DataType} {access : Expr} :
    t.presence? access = none ↔ t.mayBeAbsent = false := by
  obtain ⟨discipline, kind⟩ := t
  cases discipline <;> simp [presence?, absence, mayBeAbsent]

namespace SortKey

/-- The property of the key exists, and it may be absent if absent values are to come lowest. -/
def Sortable (k : SortKey) (s : Schema ρ) : Prop :=
  ∃ i p, s.find? k.property = some (i, p) ∧ (k.absentLowest = true → p.type.mayBeAbsent = true)

/-- The error of a key that does not compile. -/
inductive Refusal (k : SortKey) (s : Schema ρ) : QueryError → Prop where
  | noProperty (hp : s.find? k.property = none) :
    Refusal k s (.propertyNotFound k.property s.name)
  | neverAbsent {i : Nat} {p : Property ρ} (hp : s.find? k.property = some (i, p))
      (hlow : k.absentLowest = true) (ht : p.type.mayBeAbsent = false) :
    Refusal k s (.notNullable p.name p.type.display ("treatNullLowest sort on " ++ s.name))

/-- The expressions that a key sorts by: its property, behind the test that it is present if absent
values are to come lowest. -/
inductive Emits (k : SortKey) (s : Schema ρ) : List Expr → Prop where
  | bare {i : Nat} {p : Property ρ} (hp : s.find? k.property = some (i, p))
      (hlow : k.absentLowest = false) : Emits k s [.property i p.name p.type]
  | flagged {i : Nat} {p : Property ρ} (hp : s.find? k.property = some (i, p))
      (hlow : k.absentLowest = true) (ht : p.type.absence = .flagged) :
    Emits k s [.isPresent (.property i p.name p.type), .property i p.name p.type]
  | reference {i : Nat} {p : Property ρ} (hp : s.find? k.property = some (i, p))
      (hlow : k.absentLowest = true) (ht : p.type.absence = .reference) :
    Emits k s
      [.compare .ne (.property i p.name p.type) (.null p.type), .property i p.name p.type]

variable {k : SortKey} {es : List Expr} {e : QueryError}

theorem Emits.exprs_eq (h : k.Emits s es) : k.exprs s = .ok es := by
  cases h with
  | bare hp hlow => simp [exprs, Schema.locate, hp, hlow, bind, Except.bind]
  | flagged hp hlow ht =>
    simp [exprs, Schema.locate, hp, hlow, DataType.presence?, ht, bind, Except.bind]
  | reference hp hlow ht =>
    simp [exprs, Schema.locate, hp, hlow, DataType.presence?, ht, bind, Except.bind]

theorem exprs_eq_ok_iff : k.exprs s = .ok es ↔ k.Emits s es := by
  refine ⟨fun h => ?_, Emits.exprs_eq⟩
  have hk := k.compiling s
  rw [h] at hk
  cases hk with
  | bare hp hlow => exact .bare hp hlow
  | @presence i p _ hp hlow hpresent =>
    rw [DataType.presence?] at hpresent
    cases ht : p.type.absence with
    | never =>
      rw [ht] at hpresent
      cases hpresent
    | flagged =>
      rw [ht] at hpresent
      cases hpresent
      exact .flagged hp hlow ht
    | reference =>
      rw [ht] at hpresent
      cases hpresent
      exact .reference hp hlow ht

theorem Refusal.exprs_eq (h : k.Refusal s e) : k.exprs s = .error e := by
  cases h with
  | noProperty hp => simp [exprs, Schema.locate, hp, bind, Except.bind]
  | neverAbsent hp hlow ht =>
    simp [exprs, Schema.locate, hp, hlow, DataType.presence?_eq_none_iff.mpr ht, bind, Except.bind]

theorem exprs_eq_error_iff : k.exprs s = .error e ↔ k.Refusal s e := by
  refine ⟨fun h => ?_, Refusal.exprs_eq⟩
  have hk := k.compiling s
  rw [h] at hk
  cases hk with
  | noProperty hp => exact .noProperty hp
  | neverAbsent hp hlow hpresent =>
    exact .neverAbsent hp hlow (DataType.presence?_eq_none_iff.mp hpresent)

theorem exists_exprs_iff : (∃ es, k.exprs s = .ok es) ↔ k.Sortable s := by
  constructor
  · rintro ⟨es, hes⟩
    cases exprs_eq_ok_iff.mp hes with
    | bare hp hlow => exact ⟨_, _, hp, by simp [hlow]⟩
    | flagged hp _ ht => exact ⟨_, _, hp, fun _ => DataType.mayBeAbsent_iff.mpr (by simp [ht])⟩
    | reference hp _ ht => exact ⟨_, _, hp, fun _ => DataType.mayBeAbsent_iff.mpr (by simp [ht])⟩
  · rintro ⟨i, p, hp, habsent⟩
    cases hexprs : k.exprs s with
    | ok es => exact ⟨es, rfl⟩
    | error e =>
      cases exprs_eq_error_iff.mp hexprs with
      | noProperty hp' => cases hp.symm.trans hp'
      | neverAbsent hp' hlow ht =>
        cases hp.symm.trans hp'
        cases (habsent hlow).symm.trans ht

/-- The steps of a key: they sort by its expressions, in its direction. -/
structure IsBlock (k : SortKey) (s : Schema ρ) (block : List OrderStep) : Prop where
  keys : k.Emits s (block.map OrderStep.key)
  direction : ∀ o ∈ block, o.descending = k.descending

end SortKey

/-! ### A list of keys -/

namespace OrderStep

theorem map_key_ofExprs (descending secondary : Bool) (es : List Expr) :
    (ofExprs descending secondary es).map key = es := by
  induction es generalizing secondary with
  | nil => rfl
  | cons e es ih => rw [ofExprs, List.map_cons, ih]

theorem descending_of_mem_ofExprs {descending secondary : Bool} {es : List Expr} {o : OrderStep}
    (h : o ∈ ofExprs descending secondary es) : o.descending = descending := by
  induction es generalizing secondary with
  | nil => cases h
  | cons e es ih =>
    rw [ofExprs] at h
    rcases List.mem_cons.mp h with rfl | h
    · rfl
    · exact ih h

variable {secondary : Bool} {keys : List SortKey} {steps : List OrderStep}

/-- **A list of keys compiles** if each of them does. -/
theorem exists_chain_iff :
    (∃ steps, chain s secondary keys = .ok steps) ↔ ∀ k ∈ keys, k.Sortable s := by
  induction keys generalizing secondary with
  | nil => simp [chain]
  | cons k keys ih =>
    rw [List.forall_mem_cons, ← SortKey.exists_exprs_iff, ← @ih true]
    constructor
    · rintro ⟨steps, h⟩
      obtain ⟨es, rest, hes, hrest, -⟩ := chain_cons_eq_ok_iff.mp h
      exact ⟨⟨es, hes⟩, rest, hrest⟩
    · rintro ⟨⟨es, hes⟩, rest, hrest⟩
      exact ⟨_, chain_cons_eq_ok_iff.mpr ⟨es, rest, hes, hrest, rfl⟩⟩

/-- **A list of keys fails** as its first key that does not compile. -/
theorem chain_eq_error_iff {e : QueryError} : chain s secondary keys = .error e ↔
    ∃ before k after, keys = before ++ k :: after ∧ (∀ b ∈ before, b.Sortable s) ∧
      k.Refusal s e := by
  have hfails : chain s secondary keys = .error e ↔ keys.mapM (·.exprs s) = .error e := by
    induction keys generalizing secondary with
    | nil => simp [chain, pure, Except.pure]
    | cons k keys ih =>
      simp only [chain, List.mapM_cons, bind_eq_error, ih, pure, Except.pure, reduceCtorEq,
        and_false, exists_false, or_false]
  simp only [hfails, mapM_eq_error_iff, SortKey.exists_exprs_iff, SortKey.exprs_eq_error_iff]

/-- A list of keys in two parts. Behind a first part that is not empty, no step of the second part
starts an ordering. -/
theorem chain_append_of_ne_nil {first : List SortKey} (hfirst : first ≠ [])
    (second : List SortKey) : chain s false (first ++ second) = (do
      let steps ← chain s false first
      let more ← chain s false second
      .ok (steps ++ more.map refining)) := by
  have hrefines : (false || !first.isEmpty) = true := by simpa using hfirst
  rw [chain_append, hrefines, chain_refining]
  refine congrArg (chain s false first >>= ·) (funext fun steps => ?_)
  cases chain s false second <;> rfl

/-- The steps of a list of keys are those of its keys, block by block. -/
theorem blocks_of_chain (h : chain s secondary keys = .ok steps) :
    ∃ blocks, List.Forall₂ (fun k block => k.IsBlock s block) keys blocks ∧
      steps = blocks.flatten := by
  induction keys generalizing secondary steps with
  | nil =>
    cases h
    exact ⟨[], .nil, rfl⟩
  | cons k keys ih =>
    obtain ⟨es, rest, hes, hrest, rfl⟩ := chain_cons_eq_ok_iff.mp h
    obtain ⟨blocks, hblocks, rfl⟩ := ih hrest
    have hblock : k.IsBlock s (ofExprs k.descending secondary es) := by
      refine ⟨?_, fun o => descending_of_mem_ofExprs⟩
      rw [map_key_ofExprs]
      exact SortKey.exprs_eq_ok_iff.mp hes
    exact ⟨_ :: blocks, .cons hblock hblocks, rfl⟩

/-- A list of keys makes one step at least, unless it is empty. -/
theorem exists_cons_of_chain (hkeys : keys ≠ []) (h : chain s secondary keys = .ok steps) :
    ∃ o rest, steps = o :: rest := by
  cases keys with
  | nil => exact absurd rfl hkeys
  | cons k keys =>
    obtain ⟨es, rest, hes, -, rfl⟩ := chain_cons_eq_ok_iff.mp h
    obtain ⟨e, es, rfl⟩ := SortKey.exists_cons_of_exprs hes
    exact ⟨_, _, rfl⟩

/-- In a chain the first step is primary, and no other. -/
theorem IsChain.secondary_eq_false_iff (h : IsChain steps) {i : Nat} {o : OrderStep}
    (ho : steps[i]? = some o) : o.secondary = false ↔ i = 0 := by
  cases steps with
  | nil => cases ho
  | cons first steps =>
    cases i with
    | zero =>
      cases ho
      simp [h.1]
    | succ i =>
      have hsecondary := h.2 o (List.mem_of_getElem? ho)
      simp [hsecondary]

end OrderStep

/-! ### Behind a query -/

namespace Query

/-- Sort keys behind a query of typed rows sort what the query has sorted. -/
theorem isStableSort_pushOrders (q : Query ρ) {keys : List SortKey} {steps : List OrderStep}
    (hsteps : OrderStep.chain q.schema false keys = .ok steps)
    (hrows : ∀ row ∈ q.source, q.schema.Typed row) :
    IsStableSort (lexicographic q.schema steps) q.toList (q.pushOrders steps).toList := by
  have hpre : Preorders q.schema.Typed (lexicographic q.schema steps) :=
    lexicographic_preorders (OrderStep.sortsBy_of_chain hsteps)
  rw [toList_pushOrders_eq_stableSort q (OrderStep.isChain_of_chain hsteps)]
  exact hpre.isStableSort_stableSort (typed_toList hrows)

/-- **A list of sort keys makes one chain, or none.** It compiles exactly if each key does, and
otherwise fails as the first key that does not. In two parts, of which the first one is not empty,
it makes the steps of the first part and behind them those of the second one, which only refine. If
it compiles, its steps are those of its keys, block by block, and the first one of them is primary
and no other. Behind a query they sort, stably, what the query has sorted, and nothing else is left
to sort by. -/
theorem addOrder_starts_one_chain (q : Query ρ) (keys : List SortKey) :
    let s := q.schema
    let compiled := fun keys => (OrderStep.ofKeys keys s).outcome
    ((∃ steps, compiled keys = .ok steps) ↔ ∀ k ∈ keys, k.Sortable s) ∧
      (∀ e, compiled keys = .error e ↔ ∃ before k after, keys = before ++ k :: after ∧
        (∀ b ∈ before, b.Sortable s) ∧ k.Refusal s e) ∧
      (∀ first second, keys = first ++ second → first ≠ [] →
        compiled keys = (do
          let steps ← compiled first
          let more ← compiled second
          .ok (steps ++ more.map OrderStep.refining))) ∧
      ∀ steps, compiled keys = .ok steps →
        (∃ blocks, List.Forall₂ (fun k block => k.IsBlock s block) keys blocks ∧
          steps = blocks.flatten) ∧
        (∀ i o, steps[i]? = some o → (o.secondary = false ↔ i = 0)) ∧
        (keys ≠ [] → ∃ sorted, (q.addOrder keys).outcome = .ok sorted ∧
          sorted.late = (q.toList, steps) ∧
          sorted.toList = stableSort (compareRows s steps) q.toList ∧
          ((∀ row ∈ q.source, s.Typed row) →
            IsStableSort (compareRows s steps) q.toList sorted.toList)) := by
  intro s compiled
  have hcompiled : ∀ keys, compiled keys = OrderStep.chain s false keys :=
    fun keys => OrderStep.outcome_ofKeys keys s
  simp only [hcompiled]
  refine ⟨OrderStep.exists_chain_iff, fun e => OrderStep.chain_eq_error_iff, ?_, ?_⟩
  · rintro first second rfl hfirst
    exact OrderStep.chain_append_of_ne_nil hfirst second
  · intro steps hsteps
    have hchain := OrderStep.isChain_of_chain hsteps
    have hcmp : compareRows s steps = lexicographic s steps := by
      funext a b
      exact compareRows_eq_lexicographic s steps a b
    refine ⟨OrderStep.blocks_of_chain hsteps, fun i o => hchain.secondary_eq_false_iff,
      fun hkeys => ⟨q.pushOrders steps, outcome_addOrder_eq_ok_iff.mpr ⟨steps, hsteps, rfl⟩, ?_⟩⟩
    rw [hcmp]
    refine ⟨?_, toList_pushOrders_eq_stableSort q hchain, isStableSort_pushOrders q hsteps⟩
    obtain ⟨o, rest, rfl⟩ := OrderStep.exists_cons_of_chain hkeys hsteps
    exact late_pushOrders_cons hchain

/-- Two keys behind a query that is still to be sorted. Rows that tie for the keys stand as they
stood in what is sorted by then. -/
theorem addOrder_starts_one_chain_pending :
    let s : Schema (Option Int64 × Int64) :=
      ⟨"Item", [⟨"Rank", ⟨.nullable, .int⟩, fun row => row.1.elim .null .int⟩,
        ⟨"Size", ⟨.value, .int⟩, fun row => .int row.2⟩]⟩
    let q : Query (Option Int64 × Int64) :=
      ⟨s, [(some 3, 1), (none, 2), (some 7, 1), (some 3, 2)],
        [.order ⟨.property 1 "Size" ⟨.value, .int⟩, true, false⟩]⟩
    let keys : List SortKey := [⟨"rank", true, true⟩, ⟨"RANK", false, false⟩]
    (∀ row ∈ q.source, s.Typed row) ∧ keys ≠ [] ∧ ∃ steps sorted,
      (OrderStep.ofKeys keys s).outcome = .ok steps ∧
      (∃ first second, (OrderStep.ofKeys [⟨"rank", true, true⟩] s).outcome = .ok first ∧
        (OrderStep.ofKeys [⟨"RANK", false, false⟩] s).outcome = .ok second ∧
        steps = first ++ second.map OrderStep.refining) ∧
      (q.addOrder keys).outcome = .ok sorted ∧ sorted.late = (q.toList, steps) ∧
      IsStableSort (compareRows s steps) q.toList sorted.toList ∧
      sorted.toList = [(some 7, 1), (some 3, 2), (some 3, 1), (none, 2)] := by
  intro s q keys
  have hrows : ∀ row ∈ q.source, s.Typed row := by
    have hrank : ∀ n, DataType.Holds ⟨.nullable, .int⟩ (.int n) := fun n => .scalar rfl (.int n)
    have hsize : ∀ n, DataType.Holds ⟨.value, .int⟩ (.int n) := fun n => .scalar rfl (.int n)
    simp [q, s, Schema.Typed, hrank, hsize, DataType.Holds.absent]
  obtain ⟨-, -, hsplit, hsorts⟩ := addOrder_starts_one_chain q keys
  obtain ⟨steps, hsteps⟩ : ∃ steps, (OrderStep.ofKeys keys s).outcome = .ok steps := ⟨_, rfl⟩
  have hparts := hsplit [⟨"rank", true, true⟩] [⟨"RANK", false, false⟩] rfl (by simp)
  obtain ⟨first, hfirst, hparts⟩ := bind_eq_ok.mp (hparts.symm.trans hsteps)
  obtain ⟨second, hsecond, hparts⟩ := bind_eq_ok.mp hparts
  obtain ⟨-, -, hsorted⟩ := hsorts steps hsteps
  obtain ⟨sorted, hadd, hlate, -, hstable⟩ := hsorted (by simp [keys])
  have hresult : sorted.toList = [(some 7, 1), (some 3, 2), (some 3, 1), (none, 2)] := by
    cases hadd
    decide +kernel
  cases hparts
  exact ⟨hrows, by simp [keys], _, sorted, hsteps, ⟨first, second, hfirst, hsecond, rfl⟩, hadd,
    hlate, hstable hrows, hresult⟩

end Query

end RowQuery
