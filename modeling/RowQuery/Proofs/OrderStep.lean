import RowQuery.OrderStep
import RowQuery.Proofs.Outcome
import RowQuery.Proofs.Schema.Lookup

/-!
# What sort keys compile to

A sort key compiles to its property, behind the presence of the property if absent values are to
come lowest. A list of keys compiles to a chain: the steps of its keys in a row, of which the very
first starts an ordering and the others refine it.

## Chains

A plan tells the two kinds of steps apart to know where an ordering starts. So a chain can be put
behind another one by turning its first step into one that refines, and that is what compiling the
two lists of keys as one list does.

## Main definitions

* `Schema.SortsBy`: the expressions that lists of sort keys compile to.
* `SortKey.Compiling`: the ways in which compiling a key ends.
* `OrderStep.IsChain`: the shape of what a list of keys compiles to.
* `OrderStep.refining`, `OrderStep.extend`: a step that refines; a chain with another one behind it.

## Main results

* `SortKey.compiling`, `OrderStep.chain_cons_eq_ok_iff`: what a key and a list of keys compile to.
* `OrderStep.sortsBy_of_chain`, `OrderStep.isChain_of_chain`: the keys and the shape of that.
* `OrderStep.chain_append`, `OrderStep.chain_append_eq_ok_iff`: two lists of keys as one list.
-/

namespace RowQuery

variable {ρ : Type} {s : Schema ρ}

/-! ### One key -/

/-- The expressions that lists of sort keys compile to: a property, or the test that it is
present. -/
inductive Schema.SortsBy (s : Schema ρ) : Expr → Prop where
  | property {i : Nat} {p : Property ρ} (h : s.property? i = some p) :
    SortsBy s (.property i p.name p.type)
  | presence {i : Nat} {p : Property ρ} {e : Expr} (h : s.property? i = some p)
      (he : p.type.presence? (.property i p.name p.type) = some e) : SortsBy s e

namespace SortKey

/-- The ways in which compiling a sort key ends, in the order in which they are tried. -/
inductive Compiling (k : SortKey) (s : Schema ρ) : Except QueryError (List Expr) → Prop where
  | noProperty (hp : s.find? k.property = none) :
    Compiling k s (.error (.propertyNotFound k.property s.name))
  | bare {i : Nat} {p : Property ρ} (hp : s.find? k.property = some (i, p))
      (hlow : k.absentLowest = false) : Compiling k s (.ok [.property i p.name p.type])
  | neverAbsent {i : Nat} {p : Property ρ} (hp : s.find? k.property = some (i, p))
      (hlow : k.absentLowest = true)
      (hpresent : p.type.presence? (.property i p.name p.type) = none) :
    Compiling k s
      (.error (.notNullable p.name p.type.display ("treatNullLowest sort on " ++ s.name)))
  | presence {i : Nat} {p : Property ρ} {present : Expr} (hp : s.find? k.property = some (i, p))
      (hlow : k.absentLowest = true)
      (hpresent : p.type.presence? (.property i p.name p.type) = some present) :
    Compiling k s (.ok [present, .property i p.name p.type])

theorem compiling (k : SortKey) (s : Schema ρ) : Compiling k s (k.exprs s) := by
  rw [exprs, Schema.locate]
  cases hp : s.find? k.property with
  | none => exact .noProperty hp
  | some found =>
    obtain ⟨i, p⟩ := found
    simp only [bind, Except.bind]
    cases hlow : k.absentLowest with
    | false => exact .bare hp hlow
    | true =>
      cases hpresent : p.type.presence? (.property i p.name p.type) with
      | none => exact .neverAbsent hp hlow hpresent
      | some present => exact .presence hp hlow hpresent

/-- What a sort key compiles to are keys in this sense. -/
theorem sortsBy_of_exprs {k : SortKey} {s : Schema ρ} {es : List Expr}
    (h : k.exprs s = .ok es) : ∀ e ∈ es, s.SortsBy e := by
  have hk := k.compiling s
  rw [h] at hk
  cases hk with
  | bare hp =>
    exact List.forall_mem_singleton.mpr (.property (Schema.property?_of_find? hp))
  | presence hp _ hpresent =>
    have hplace := Schema.property?_of_find? hp
    exact List.forall_mem_cons.mpr
      ⟨.presence hplace hpresent, List.forall_mem_singleton.mpr (.property hplace)⟩

/-- A key sorts by one expression at least. -/
theorem exists_cons_of_exprs {k : SortKey} {es : List Expr} (h : k.exprs s = .ok es) :
    ∃ e rest, es = e :: rest := by
  have hk := k.compiling s
  rw [h] at hk
  cases hk with
  | bare => exact ⟨_, _, rfl⟩
  | presence => exact ⟨_, _, rfl⟩

end SortKey

/-! ### A list of keys -/

namespace OrderStep

/-- A list of keys compiles if its first key and the others do. -/
theorem chain_cons_eq_ok_iff {s : Schema ρ} {secondary : Bool} {k : SortKey} {keys : List SortKey}
    {steps : List OrderStep} : chain s secondary (k :: keys) = .ok steps ↔
      ∃ es rest, k.exprs s = .ok es ∧ chain s true keys = .ok rest ∧
        steps = ofExprs k.descending secondary es ++ rest := by
  constructor
  · intro h
    obtain ⟨es, hes, h⟩ := bind_eq_ok.mp h
    obtain ⟨rest, hrest, h⟩ := bind_eq_ok.mp h
    cases h
    exact ⟨es, rest, hes, hrest, rfl⟩
  · rintro ⟨es, rest, hes, hrest, rfl⟩
    exact bind_eq_ok.mpr ⟨es, hes, bind_eq_ok.mpr ⟨rest, hrest, rfl⟩⟩

theorem key_mem_of_mem_ofExprs {descending secondary : Bool} {es : List Expr} {o : OrderStep}
    (h : o ∈ ofExprs descending secondary es) : o.key ∈ es := by
  induction es generalizing secondary with
  | nil => cases h
  | cons e es ih =>
    rw [ofExprs] at h
    rcases List.mem_cons.mp h with rfl | h
    · exact List.mem_cons_self
    · exact List.mem_cons_of_mem _ (ih h)

/-- All steps of a chain are by such keys. -/
theorem sortsBy_of_chain {s : Schema ρ} {secondary : Bool} {keys : List SortKey}
    {steps : List OrderStep} (h : chain s secondary keys = .ok steps) :
    ∀ o ∈ steps, s.SortsBy o.key := by
  induction keys generalizing secondary steps with
  | nil => cases h; simp
  | cons k keys ih =>
    obtain ⟨es, rest, hes, hrest, rfl⟩ := chain_cons_eq_ok_iff.mp h
    intro o ho
    rcases List.mem_append.mp ho with ho | ho
    · exact SortKey.sortsBy_of_exprs hes _ (key_mem_of_mem_ofExprs ho)
    · exact ih hrest o ho

theorem secondary_of_mem_ofExprs {descending : Bool} {es : List Expr} {o : OrderStep}
    (h : o ∈ ofExprs descending true es) : o.secondary = true := by
  induction es with
  | nil => cases h
  | cons e es ih =>
    rw [ofExprs] at h
    rcases List.mem_cons.mp h with rfl | h
    · rfl
    · exact ih h

theorem secondary_of_chain {keys : List SortKey} {steps : List OrderStep}
    (h : chain s true keys = .ok steps) : ∀ o ∈ steps, o.secondary = true := by
  induction keys generalizing steps with
  | nil => cases h; simp
  | cons k keys ih =>
    obtain ⟨es, rest, -, hrest, rfl⟩ := chain_cons_eq_ok_iff.mp h
    intro o ho
    rcases List.mem_append.mp ho with ho | ho
    · exact secondary_of_mem_ofExprs ho
    · exact ih hrest o ho

/-- The first step is primary and the others are not. -/
def IsChain : List OrderStep → Prop
  | [] => True
  | o :: steps => o.secondary = false ∧ ∀ k ∈ steps, k.secondary = true

/-- The steps of a list of keys are a chain. -/
theorem isChain_of_chain {keys : List SortKey} {steps : List OrderStep}
    (h : chain s false keys = .ok steps) : IsChain steps := by
  cases keys with
  | nil => cases h; trivial
  | cons k keys =>
    obtain ⟨es, rest, hes, hrest, rfl⟩ := chain_cons_eq_ok_iff.mp h
    obtain ⟨e, es, rfl⟩ := SortKey.exists_cons_of_exprs hes
    refine ⟨rfl, fun o ho => ?_⟩
    rcases List.mem_append.mp ho with ho | ho
    · exact secondary_of_mem_ofExprs ho
    · exact secondary_of_chain hrest o ho

/-! ### One chain behind another -/

/-- The step as one that refines the ordering before it. -/
def refining (o : OrderStep) : OrderStep := { o with secondary := true }

theorem map_refining_of_secondary {steps : List OrderStep} (h : ∀ o ∈ steps, o.secondary = true) :
    steps.map refining = steps := by
  refine (List.map_congr_left fun o ho => ?_).trans (List.map_id steps)
  rw [refining, ← h o ho]
  rfl

theorem map_refining_ofExprs (descending secondary : Bool) (es : List Expr) :
    (ofExprs descending secondary es).map refining = ofExprs descending true es := by
  induction es generalizing secondary with
  | nil => rfl
  | cons e es ih => rw [ofExprs, List.map_cons, ih]; rfl

/-- A list of keys whose first step is to refine compiles to the same steps, all of them refining.
-/
theorem chain_refining (s : Schema ρ) (keys : List SortKey) :
    chain s true keys = (chain s false keys).map (List.map refining) := by
  cases keys with
  | nil => rfl
  | cons k keys =>
    rw [chain, chain]
    cases k.exprs s with
    | error e => rfl
    | ok es =>
      cases hrest : chain s true keys with
      | error e => rfl
      | ok rest =>
        show Except.ok _ = Except.ok (List.map refining _)
        rw [List.map_append, map_refining_ofExprs,
          map_refining_of_secondary (secondary_of_chain hrest)]

/-- The steps of two lists of keys as one list. The second one starts an ordering only if nothing
stands before it. -/
theorem chain_append (s : Schema ρ) (secondary : Bool) (keys more : List SortKey) :
    chain s secondary (keys ++ more)
      = (chain s secondary keys >>= fun steps =>
          chain s (secondary || !keys.isEmpty) more >>= fun rest => .ok (steps ++ rest)) := by
  induction keys generalizing secondary with
  | nil =>
    rw [List.nil_append, List.isEmpty_nil, Bool.not_true, Bool.or_false]
    cases h : chain s secondary more <;> rfl
  | cons k keys ih =>
    rw [List.cons_append, chain, chain, ih true, List.isEmpty_cons, Bool.not_false, Bool.or_true,
      Bool.true_or]
    cases k.exprs s with
    | error e => rfl
    | ok es =>
      cases chain s true keys with
      | error e => rfl
      | ok steps =>
        cases chain s true more with
        | error e => rfl
        | ok rest => exact congrArg Except.ok (List.append_assoc _ _ _).symm

/-- A chain with another one behind it. What started an ordering refines one now, unless nothing
stands before it. -/
def extend : List OrderStep → List OrderStep → List OrderStep
  | [], more => more
  | o :: steps, more => o :: steps ++ more.map refining

/-- **Two lists of keys compile as one list if both of them compile.** -/
theorem chain_append_eq_ok_iff {keys more : List SortKey} {steps : List OrderStep} :
    chain s false (keys ++ more) = .ok steps ↔
      ∃ a b, chain s false keys = .ok a ∧ chain s false more = .ok b ∧ steps = extend a b := by
  cases keys with
  | nil => simp [chain, extend, eq_comm]
  | cons k keys =>
    have hextend : ∀ {a}, chain s false (k :: keys) = .ok a →
        ∀ b, extend a b = a ++ b.map refining := by
      intro a ha b
      obtain ⟨es, rest, hes, -, rfl⟩ := chain_cons_eq_ok_iff.mp ha
      obtain ⟨e, es, rfl⟩ := SortKey.exists_cons_of_exprs hes
      rfl
    rw [chain_append, List.isEmpty_cons, Bool.not_false, Bool.or_true, chain_refining, bind_eq_ok]
    constructor
    · rintro ⟨a, ha, h⟩
      obtain ⟨rest, hrest, h⟩ := bind_eq_ok.mp h
      obtain ⟨b, hb, rfl⟩ := map_eq_ok.mp hrest
      cases h
      exact ⟨a, b, ha, hb, (hextend ha b).symm⟩
    · rintro ⟨a, b, ha, hb, rfl⟩
      refine ⟨a, ha, bind_eq_ok.mpr ⟨b.map refining, map_eq_ok.mpr ⟨b, hb, rfl⟩, ?_⟩⟩
      rw [hextend ha]

end OrderStep

end RowQuery
