import Mathlib.Data.List.Infix
import Mathlib.Data.List.Nodup
import RowQuery.Proofs.Expr.Truth
import RowQuery.Proofs.Outcome
import RowQuery.Proofs.Registry.Lookup

/-!
# The built-in operators and what they mean

The registry of the built-in operators is a table of handlers, and a handler is a function that
builds conditions. Here the operators are a type of their own, and each has a meaning that does not
go through any condition: a relation between the cell of a row and the constant.

## Absence

`Operator.holds` is the relation as such. `Operator.meaning` adds the rule on absence, which is one
for all operators: where the declared type admits absence, an absent cell meets none of them but the
two that ask for it.

## Main definitions

* `Operator`: the fourteen operators; `Operator.name`, `Operator.handler`.
* `Operator.ofName?`: the operator of a name.
* `Operator.constantType`: the type of the constant for a property of a type.
* `Operator.holds`, `Operator.meaning`: the relation, and the relation with the rule on absence.
* `Operator.acceptsKind`, `Operator.family`: the kinds that an operator accepts, and its family.

## Main results

* `Operator.get?_builtin`: the built-in registry finds exactly the handlers of the operators.
* `Operator.test_of_build`: what a handler builds is true exactly where the operator holds.
* `Operator.build_handler`: a handler refuses nothing but kinds.
-/

namespace RowQuery

/-! ### The operators -/

/-- The built-in operators. -/
inductive Operator where
  | eq
  | neq
  | gt
  | gte
  | lt
  | lte
  | isIn
  | notIn
  | contains
  | doesNotContain
  | startsWith
  | endsWith
  | isNull
  | isNotNull
  deriving DecidableEq, Repr

namespace Operator

/-- The operators in their order. -/
def all : List Operator :=
  [eq, neq, gt, gte, lt, lte, isIn, notIn, contains, doesNotContain, startsWith, endsWith, isNull,
    isNotNull]

/-- The name of an operator in conditions. -/
def name : Operator → String
  | eq => "eq"
  | neq => "neq"
  | gt => "gt"
  | gte => "gte"
  | lt => "lt"
  | lte => "lte"
  | isIn => "in"
  | notIn => "notin"
  | contains => "contains"
  | doesNotContain => "doesnotcontain"
  | startsWith => "startswith"
  | endsWith => "endswith"
  | isNull => "isnull"
  | isNotNull => "isnotnull"

/-- The handler of an operator. -/
def handler : Operator → Handler
  | eq => .comparison .equality .eq
  | neq => .comparison .equality .ne
  | gt => .comparison .ordering .gt
  | gte => .comparison .ordering .gte
  | lt => .comparison .ordering .lt
  | lte => .comparison .ordering .lte
  | isIn => .membership false
  | notIn => .membership true
  | contains => .textual .textContains .contains false
  | doesNotContain => .textual .textContains .contains true
  | startsWith => .textual .textStart .startsWith false
  | endsWith => .textual .textEnd .endsWith false
  | isNull => .nullness true
  | isNotNull => .nullness false

/-- The operator of a name. -/
def ofName? (name : String) : Option Operator :=
  all.find? fun op => op.name == name

theorem mem_all (op : Operator) : op ∈ all := by
  cases op <;> decide

theorem nodup_names : (all.map name).Nodup := by
  decide

theorem name_injective {a b : Operator} (h : a.name = b.name) : a = b :=
  List.inj_on_of_nodup_map nodup_names (mem_all a) (mem_all b) h

theorem ofName?_eq_some_iff {n : String} {op : Operator} : ofName? n = some op ↔ op.name = n := by
  constructor
  · intro h
    simpa using List.find?_some h
  · rintro rfl
    obtain ⟨found, hfound⟩ : ∃ found, ofName? op.name = some found :=
      Option.isSome_iff_exists.mp (List.find?_isSome.mpr ⟨op, mem_all op, by simp⟩)
    have hname : found.name = op.name := by simpa using List.find?_some hfound
    rw [hfound, name_injective hname]

/-- The built-in registry is the table of the operators. -/
theorem get?_builtin (n : String) : Registry.builtin.get? n = (ofName? n).map handler := by
  have hd : ((all.map fun op => (op.name, op.handler)).map Prod.fst).Nodup := by
    simpa [Function.comp_def] using nodup_names
  refine Option.ext fun h => ?_
  rw [show Registry.builtin = .ofList (all.map fun op => (op.name, op.handler)) from rfl,
    Registry.get?_ofList_eq_some_iff hd, Option.map_eq_some_iff]
  simp only [List.mem_map, Prod.mk.injEq, ofName?_eq_some_iff]
  exact ⟨fun ⟨op, _, hn, hh⟩ => ⟨op, hn, hh⟩, fun ⟨op, hn, hh⟩ => ⟨op, mem_all op, hn, hh⟩⟩

end Operator

/-! ### What they mean -/

namespace Operator

/-- The operator asks whether the property is absent. -/
def asksAbsence : Operator → Bool
  | isNull | isNotNull => true
  | _ => false

/-- The type of the constant, for a property of a type. -/
def constantType (op : Operator) (t : DataType) : DataType :=
  match op with
  | isIn | notIn => t.sequence
  | _ => t

/-- The operator holds between a cell and a constant. -/
def holds (op : Operator) (cell constant : Value) : Bool :=
  match op with
  | eq => cell.equals constant
  | neq => !cell.equals constant
  | gt => cell.compare? constant = some .gt
  | gte => cell.compare? constant = some .gt ∨ cell.compare? constant = some .eq
  | lt => cell.compare? constant = some .lt
  | lte => cell.compare? constant = some .lt ∨ cell.compare? constant = some .eq
  | isIn => constant.hasItem cell
  | notIn => !constant.hasItem cell
  | contains => cell.bothTexts (fun text needle => needle.toList <:+: text.toList) constant
  | doesNotContain => !cell.bothTexts (fun text needle => needle.toList <:+: text.toList) constant
  | startsWith => cell.bothTexts (fun text needle => needle.toList <+: text.toList) constant
  | endsWith => cell.bothTexts (fun text needle => needle.toList <:+ text.toList) constant
  | isNull => cell.isNull
  | isNotNull => !cell.isNull

/-- What the operator says of a property of a type: an absent cell meets only the operators that ask
for absence. -/
def meaning (op : Operator) (t : DataType) (cell constant : Value) : Bool :=
  (op.asksAbsence || !(t.mayBeAbsent && cell.isNull)) && op.holds cell constant

/-! ### What their handlers build -/

theorem constantType_handler (op : Operator) (t : DataType) :
    op.handler.constantType t.present t = op.constantType t := by
  have hseq : t.present.sequence = t.sequence := by
    rw [DataType.sequence, DataType.present_kind]
    rfl
  cases op <;> first | rfl | exact hseq

theorem unguarded_handler (op : Operator) : op.handler.unguarded = op.asksAbsence := by
  cases op <;> rfl

end Operator

namespace TextOp

theorem test_contains :
    contains.test = fun text needle => decide (needle.toList <:+: text.toList) := by
  funext text needle
  rw [Bool.eq_iff_iff, decide_eq_true_iff]
  exact Text.contains_iff

theorem test_startsWith :
    startsWith.test = fun text needle => decide (needle.toList <+: text.toList) := by
  funext text needle
  rw [Bool.eq_iff_iff, decide_eq_true_iff]
  exact Text.startsWith_iff

theorem test_endsWith :
    endsWith.test = fun text needle => decide (needle.toList <:+ text.toList) := by
  funext text needle
  rw [Bool.eq_iff_iff, decide_eq_true_iff]
  exact Text.endsWith_iff

end TextOp

section Build

variable {ρ : Type} {s : Schema ρ} {row : ρ} {present declared : DataType} {left right b : Expr}

theorem Handler.eq_of_build_comparison {f : Family} {op : CompareOp}
    (h : (Handler.comparison f op).build present declared left right = .ok b) :
    b = .compare op left right := by
  obtain ⟨_, _, h⟩ := bind_eq_ok.mp h
  cases h
  rfl

theorem Handler.eq_of_build_textual {f : Family} {op : TextOp} {negated : Bool}
    (h : (Handler.textual f op negated).build present declared left right = .ok b) :
    b = negateIf negated (.text op left right) := by
  obtain ⟨_, _, h⟩ := bind_eq_ok.mp h
  cases h
  rfl

theorem Handler.eq_of_build_membership {negated : Bool}
    (h : (Handler.membership negated).build present declared left right = .ok b) :
    b = negateIf negated (.member right left) := by
  obtain ⟨_, _, h⟩ := bind_eq_ok.mp h
  split at h
  · cases h
    rfl
  · cases h

/-- The two ways in which absence shows give two conditions, and both test for absence. -/
theorem Handler.test_of_build_nullness {isNull : Bool}
    (h : (Handler.nullness isNull).build present declared left right = .ok b) :
    b.test s row = ((left.eval s row).isNull == isNull) := by
  obtain ⟨_, _, h⟩ := bind_eq_ok.mp h
  split at h
  · cases h
    cases isNull <;> simp [negateIf]
  · cases h
    cases isNull <;> simp [Expr.null, Expr.eval, CompareOp.test]
  · cases h

end Build

namespace Operator

variable {ρ : Type} {s : Schema ρ} {row : ρ} {present declared : DataType} {left right b : Expr}

/-- **What a handler builds is true exactly where its operator holds**, whatever the operands
are. -/
theorem test_of_build {op : Operator} (h : op.handler.build present declared left right = .ok b) :
    b.test s row = op.holds (left.eval s row) (right.eval s row) := by
  cases op with
  | eq | neq | gt | gte | lt | lte =>
    rw [Handler.eq_of_build_comparison h, Expr.test_compare]
    simp [CompareOp.test, holds, beq_eq_decide]
  | isIn | notIn =>
    rw [Handler.eq_of_build_membership h]
    simp [Handler.negateIf, holds]
  | contains | doesNotContain | startsWith | endsWith =>
    rw [Handler.eq_of_build_textual h]
    simp [Handler.negateIf, holds, TextOp.test_contains, TextOp.test_startsWith,
      TextOp.test_endsWith]
  | isNull | isNotNull =>
    rw [Handler.test_of_build_nullness h]
    simp [holds]

end Operator

/-! ### What they accept

Once an operator that asks for absence has a property with absence, the kind of the cells is the
only thing that it can refuse. -/

/-- What operators of a family say of operands of a type that they do not accept. -/
def Family.refusal (f : Family) (present : DataType) : String :=
  f.display ++ " operators do not accept " ++ present.display ++ " operands"

theorem Family.refusal_ne (f : Family) (present : DataType) (found : String) :
    f.refusal present ≠ "membership needs a sequence operand, found " ++ found := by
  intro h
  have hfirst := congrArg (fun text => text.toList.head?) h
  cases f <;> simp [refusal, display] at hfirst

theorem Handler.exists_build_nullness {present declared : DataType} {left right : Expr}
    (ha : declared.absence ≠ .never) (isNull : Bool) :
    ∃ b, (Handler.nullness isNull).build present declared left right = .ok b := by
  have hcheck : Family.nullness.check present = .ok () := rfl
  simp only [nullness, hcheck, bind, Except.bind]
  cases h : declared.absence with
  | never => exact absurd h ha
  | flagged => exact ⟨_, rfl⟩
  | reference => exact ⟨_, rfl⟩

namespace Operator

/-- The operator can be used with cells of a kind: truth values have no order, and only texts are
looked into. -/
def acceptsKind (op : Operator) (k : Kind) : Bool :=
  match op with
  | gt | gte | lt | lte => k != .bool
  | contains | doesNotContain | startsWith | endsWith => k == .text
  | eq | neq | isIn | notIn | isNull | isNotNull => true

/-- The family of an operator. -/
def family : Operator → Family
  | eq | neq => .equality
  | gt | gte | lt | lte => .ordering
  | isIn | notIn => .membership
  | contains | doesNotContain => .textContains
  | startsWith => .textStart
  | endsWith => .textEnd
  | isNull | isNotNull => .nullness

theorem needsAbsence_handler (op : Operator) : op.handler.needsAbsence = op.asksAbsence := by
  cases op <;> rfl

theorem check_family (op : Operator) (t : DataType) :
    op.family.check t.present
      = if op.acceptsKind t.kind then .ok ()
        else .error (.unsupported (op.family.refusal t.present)) := by
  rw [Family.check, DataType.present_kind]
  cases op <;> rfl

/-- **What a handler does with a property that it may be used with.** It builds a condition if the
kind is accepted, and otherwise refuses the kind. It never meets a constant that is not of the type
that it asks for, nor a property without absence if it asks for absence. -/
theorem build_handler {op : Operator} {t : DataType}
    (ha : op.asksAbsence = true → t.absence ≠ .never) (left : Expr) (v : Value) :
    (op.acceptsKind t.kind = true ∧
        ∃ b, op.handler.build t.present t left (.constant v (op.constantType t)) = .ok b) ∨
      (op.acceptsKind t.kind = false ∧
        op.handler.build t.present t left (.constant v (op.constantType t))
          = .error (.unsupported (op.family.refusal t.present))) := by
  have hcheck := check_family op t
  cases hk : op.acceptsKind t.kind with
  | false =>
    rw [hk] at hcheck
    refine .inr ⟨rfl, ?_⟩
    cases op with
    | eq | neq | isIn | notIn | isNull | isNotNull => cases hk
    | gt | gte | lt | lte => exact congrArg (· >>= _) hcheck
    | contains | doesNotContain | startsWith | endsWith => exact congrArg (· >>= _) hcheck
  | true =>
    rw [hk] at hcheck
    refine .inl ⟨rfl, ?_⟩
    cases op with
    | eq | neq | isIn | notIn => exact ⟨_, rfl⟩
    | gt | gte | lt | lte => exact ⟨_, congrArg (· >>= _) hcheck⟩
    | contains | doesNotContain | startsWith | endsWith => exact ⟨_, congrArg (· >>= _) hcheck⟩
    | isNull | isNotNull => exact Handler.exists_build_nullness (ha rfl) _

end Operator

end RowQuery
