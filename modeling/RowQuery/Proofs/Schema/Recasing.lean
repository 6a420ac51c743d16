import RowQuery.Proofs.Filter.Leaf
import RowQuery.Proofs.OrderStep

/-!
# Names in another case

Filters and sort keys name their properties without regard to case. A name is used for one look-up.
Behind it stand the place of the property and the name that it was registered with, in what is
compiled and in the log records alike.

## Where the case shows

The name as it is written is kept in one error, that there is no property of that name. So a filter
in another case fails with another text there, and the theorems here are about what compiles. They
are equations of traced computations: the questions to deserializers and the log records are the
same too.

## Main definitions

* `Condition.Recased`, `FilterNode.Recased`, `SortKey.Recased`: the same but for the case of the
  names of properties.

## Main results

* `FilterNode.Recased.compileBelow_eq`, `FilterNode.Recased.predicate_eq`: a filter that compiles,
  compiles to the same in another case.
* `OrderStep.ofKeys_of_recased`: so does a list of sort keys.
-/

namespace RowQuery

variable {ρ : Type} {s : Schema ρ}

/-- What is located under a name is located under the name in another case. -/
theorem Schema.locate_of_sameName {a b : String} (h : Text.sameName a b = true)
    {found : Nat × Property ρ} (ha : s.find? a = some found) : s.locate b = s.locate a := by
  have hb : s.find? b = some found := by rw [← find?_congr h s, ha]
  rw [locate, locate, ha, hb]

/-! ### Filters -/

/-- The two conditions differ at most in the case of the property's name. -/
structure Condition.Recased (c d : Condition) : Prop where
  property : Text.sameName c.property d.property = true
  operator : d.operator = c.operator
  value : d.value = c.value

/-- The two trees differ at most in the case of the properties' names. The names of operators keep
their case, and so do the overrides. -/
inductive FilterNode.Recased : FilterNode → FilterNode → Prop where
  | leaf {c d : Condition} (h : c.Recased d) (o : Overrides) : Recased (.leaf c o) (.leaf d o)
  | branch {l l' r r' : FilterNode} (hl : Recased l l') (g : Logic) (hr : Recased r r')
      (o : Overrides) : Recased (.branch l g r o) (.branch l' g r' o)

/-- Once the property is found, the name that it was found under plays no part, also if the leaf
fails. -/
theorem Condition.Recased.compile_eq {c d : Condition} (h : c.Recased d)
    {found : Nat × Property ρ} (hc : s.find? c.property = some found) (scope : Scope)
    (path : String) : d.compile s scope path = c.compile s scope path := by
  obtain ⟨property, operator, value⟩ := c
  obtain ⟨recased, _, _⟩ := d
  obtain ⟨hname, rfl, rfl⟩ := h
  have hlocate : s.locate recased = s.locate property := Schema.locate_of_sameName hname hc
  rw [compile, compile, locate, locate, hlocate]
  rfl

namespace FilterNode.Recased

variable {n m : FilterNode}

theorem compile_eq (h : n.Recased m) {scope : Scope} {path : String} {e : Expr}
    (he : (n.compile s scope path).outcome = .ok e) :
    m.compile s scope path = n.compile s scope path := by
  induction h generalizing scope path e with
  | leaf h o =>
    obtain ⟨l, v, b, hl, -⟩ := Condition.outcome_compile_eq_ok_iff.mp he
    exact h.compile_eq (Condition.of_locate_eq_ok hl).1 (scope.enter o) path
  | branch hl g hr o ihl ihr =>
    obtain ⟨left, hleft, he⟩ := Traced.outcome_bind_eq_ok.mp he
    obtain ⟨right, hright, -⟩ := Traced.outcome_bind_eq_ok.mp he
    rw [compile, compile, ihl hleft, ihr hright]

/-- **A filter in another case** compiles to the same condition, with the same events on the way. -/
theorem compileBelow_eq (h : n.Recased m) {config : Config} {inherited : Overrides} {e : Expr}
    (he : (n.compileBelow s config inherited).outcome = .ok e) :
    m.compileBelow s config inherited = n.compileBelow s config inherited :=
  h.compile_eq he

theorem predicate_eq (h : n.Recased m) {config : Config} {p : Predicate ρ}
    (hp : (n.predicate s config).outcome = .ok p) :
    m.predicate s config = n.predicate s config := by
  obtain ⟨e, he, -⟩ := Traced.outcome_bind_eq_ok.mp hp
  rw [predicate, predicate, h.compileBelow_eq he]

end FilterNode.Recased

/-! ### Sort keys -/

/-- The two sort keys differ at most in the case of the property's name. -/
structure SortKey.Recased (k l : SortKey) : Prop where
  property : Text.sameName k.property l.property = true
  descending : l.descending = k.descending
  absentLowest : l.absentLowest = k.absentLowest

theorem SortKey.Recased.exprs_eq {k l : SortKey} (h : k.Recased l) {es : List Expr}
    (he : k.exprs s = .ok es) : l.exprs s = .ok es := by
  obtain ⟨found, hfound⟩ : ∃ found, s.find? k.property = some found := by
    have hk := k.compiling s
    rw [he] at hk
    cases hk with
    | bare hp => exact ⟨_, hp⟩
    | presence hp => exact ⟨_, hp⟩
  rw [← he, exprs, exprs, Schema.locate_of_sameName h.property hfound, h.absentLowest]

namespace OrderStep

variable {keys recased : List SortKey}

theorem chain_of_recased (h : List.Forall₂ SortKey.Recased keys recased) {secondary : Bool}
    {steps : List OrderStep} (hc : chain s secondary keys = .ok steps) :
    chain s secondary recased = .ok steps := by
  induction h generalizing secondary steps with
  | nil => exact hc
  | cons hk h ih =>
    obtain ⟨es, rest, hes, hrest, rfl⟩ := chain_cons_eq_ok_iff.mp hc
    refine chain_cons_eq_ok_iff.mpr ⟨es, rest, hk.exprs_eq hes, ih hrest, ?_⟩
    rw [hk.descending]

/-- **Sort keys in another case** make the same steps, with the same record. -/
theorem ofKeys_of_recased (h : List.Forall₂ SortKey.Recased keys recased) {steps : List OrderStep}
    (hk : (ofKeys keys s).outcome = .ok steps) : ofKeys recased s = ofKeys keys s := by
  obtain ⟨steps', hchain, -⟩ := Traced.outcome_bind_eq_ok.mp hk
  rw [Traced.outcome_ofExcept] at hchain
  rw [ofKeys, ofKeys, hchain, chain_of_recased h hchain]

end OrderStep

end RowQuery
