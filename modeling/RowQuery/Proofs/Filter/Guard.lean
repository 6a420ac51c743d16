import RowQuery.Proofs.Filter.Leaves
import RowQuery.Proofs.Filter.Meaning

/-!
# The guard on absent cells

Where an operator does not ask to be left alone, its condition stands behind a guard, and a row
whose cell is absent does not meet the guarded condition. Nothing is assumed of the operator: what
it builds may be a negation, a disjunction, or the truth value `true`, and it may refuse some
operands and accept others. The guard works because it is put around whatever was built.

## Scope

Nor is anything said here of what an operator means. The condition that it built is compared with
the condition that the leaf compiles to, row by row, and the read that it was given is named: the
value behind the flag where absence shows by a flag, and otherwise the cell. Where no guard is
called for, the two conditions are one.

In a tree the leaves answer for themselves, and the tree combines their answers. So a leaf that a
row misses answers `false` there, whatever the rest of the tree says.

## Main definitions

* `Property.Guards`: one condition is another one behind a guard on a property.
* `Located.Shielded`: how a leaf's condition comes from the one that its operator built.
* `FilterNode.answer`: the answer of a tree from the answers of its leaves.
* `Leaf.Misses`: the row has no cell for a leaf whose operator stands behind a guard.

## Main results

* `Condition.shielded_of_compile`: each leaf that compiles is shielded.
* `FilterNode.answer_of_compile`: a tree that compiles answers as its leaves do.
* `FilterNode.compile_guards_absence`: both, with what they say of absent cells.
-/

namespace RowQuery

variable {ρ : Type}

/-! ### One leaf -/

/-- The condition `e` is the condition `b` behind a guard on the property. -/
structure Property.Guards (p : Property ρ) (s : Schema ρ) (b e : Expr) : Prop where
  absent : ∀ row, (p.get row).isNull = true → e.test s row = false
  present : ∀ row, (p.get row).isNull = false → e.test s row = b.test s row

namespace Located

/-- The operator of a leaf builds a condition from a read of the property and the constant of a
value. -/
def Builds (l : Located ρ) (read : Expr) (value : Value) (b : Expr) : Prop :=
  l.handler.build l.property.type.present l.property.type read (.constant value l.target) = .ok b

/-- How the condition of a leaf comes from the one that its operator built: behind a guard, from the
value behind the flag or from the cell, or as it was built. -/
structure Shielded (l : Located ρ) (s : Schema ρ) (value : Value) (e : Expr) : Prop where
  flagged : l.handler.unguarded = false → l.property.type.absence = .flagged →
    ∃ b, l.Builds (.valueOf l.access) value b ∧ l.property.Guards s b e
  reference : l.handler.unguarded = false → l.property.type.absence = .reference →
    ∃ b, l.Builds l.access value b ∧ l.property.Guards s b e
  bare : l.handler.unguarded = true ∨ l.property.type.absence = .never → l.Builds l.access value e

variable {l : Located ρ} {s : Schema ρ} {name : String}

theorem guards_guarded (hp : s.find? name = some (l.id, l.property))
    (hg : l.handler.unguarded = false) (ha : l.property.type.absence ≠ .never) (b : Expr) :
    l.property.Guards s b (l.guarded b) := by
  have htest : ∀ row, (l.guarded b).test s row
      = (!(l.property.get row).isNull && b.test s row) := by
    intro row
    rw [guarded, Handler.test_guarded, eval_access hp, hg, DataType.mayBeAbsent_iff.mpr ha]
    rfl
  constructor
  · intro row hrow
    rw [htest, hrow]
    rfl
  · intro row hrow
    rw [htest, hrow]
    rfl

/-- Which read the operator is given and whether its condition is guarded are decided by the same
two facts, so they never disagree. -/
theorem shielded_guarded (hp : s.find? name = some (l.id, l.property)) {value : Value} {b : Expr}
    (hb : l.condition value = .ok b) : l.Shielded s value (l.guarded b) := by
  rw [condition] at hb
  constructor
  · intro hg ha
    rw [Handler.operand_of_flagged hg ha] at hb
    exact ⟨b, hb, guards_guarded hp hg (by simp [ha]) b⟩
  · intro hg ha
    rw [Handler.operand_of_not_flagged (by simp [ha])] at hb
    exact ⟨b, hb, guards_guarded hp hg (by simp [ha]) b⟩
  · intro hbare
    rw [guarded, Handler.guarded_of_bare hbare]
    rcases hbare with hg | ha
    · rwa [Handler.operand_of_unguarded hg] at hb
    · rwa [Handler.operand_of_not_flagged (by simp [ha])] at hb

end Located

theorem Condition.shielded_of_compile {c : Condition} {s : Schema ρ} {scope : Scope}
    {path : String} {e : Expr} (he : (c.compile s scope path).outcome = .ok e) :
    ∃ (l : Located ρ) (v : Value), s.find? c.property = some (l.id, l.property) ∧
      scope.handler? c.operator = some l.handler ∧ scope.deserializer? = some l.deserializer ∧
      l.deserializer.read c.value l.target = .ok v ∧ l.Shielded s v e := by
  obtain ⟨l, v, b, hl, hr, hb, rfl⟩ := Condition.outcome_compile_eq_ok_iff.mp he
  obtain ⟨hp, hh, -, hd⟩ := Condition.of_locate_eq_ok hl
  exact ⟨l, v, hp, hh, hd, hr, Located.shielded_guarded hp hb⟩

/-! ### Trees -/

/-- The row has no cell for the leaf, and the leaf's operator stands behind a guard. -/
def Leaf.Misses (s : Schema ρ) (config : Config) (row : ρ) (l : Leaf) : Prop :=
  ∃ i p h, s.find? l.condition.property = some (i, p) ∧
    (l.scope config).handler? l.condition.operator = some h ∧ h.unguarded = false ∧
    p.type.absence ≠ .never ∧ (p.get row).isNull = true

theorem Leaf.test_of_misses {s : Schema ρ} {config : Config} {row : ρ} {l : Leaf} {e : Expr}
    (he : (l.compile s config).outcome = .ok e) (hm : l.Misses s config row) :
    e.test s row = false := by
  obtain ⟨i, p, h, hp, hh, hg, ha, hnull⟩ := hm
  obtain ⟨found, v, hp', hh', -, -, hshield⟩ := Condition.shielded_of_compile he
  cases hp.symm.trans hp'
  cases hh.symm.trans hh'
  cases habsence : found.property.type.absence with
  | never => exact absurd habsence ha
  | flagged =>
    obtain ⟨b, -, hguards⟩ := hshield.flagged hg habsence
    exact hguards.absent row hnull
  | reference =>
    obtain ⟨b, -, hguards⟩ := hshield.reference hg habsence
    exact hguards.absent row hnull

theorem Logic.test_join (g : Logic) (a b : Expr) (s : Schema ρ) (row : ρ) :
    (g.join a b).test s row = g.apply (a.test s row) (b.test s row) := by
  cases g with
  | and => exact Expr.test_and s row a b
  | or => exact Expr.test_or s row a b

namespace FilterNode

/-- The answer of a tree from the answers of its leaves, which are told apart by the steps that lead
to them. -/
def answer : FilterNode → (List Side → Bool) → Bool
  | leaf _ _, ofLeaf => ofLeaf []
  | branch l g r _, ofLeaf =>
    g.apply (l.answer fun steps => ofLeaf (.left :: steps))
      (r.answer fun steps => ofLeaf (.right :: steps))

/-- The answers of the leaves of a branch, from those of its two trees. No leaf is where the branch
is. -/
def branchAnswers (ofLeft ofRight : List Side → Bool) : List Side → Bool
  | [] => false
  | .left :: steps => ofLeft steps
  | .right :: steps => ofRight steps

/-- The induction is on the tree, below a chain of nodes and some steps down. -/
theorem answer_of_compile {s : Schema ρ} {config : Config} {n : FilterNode}
    {above : List Overrides} {steps : List Side} {e : Expr}
    (he : (n.compile s ⟨config, .nearest above⟩ (pathText steps)).outcome = .ok e) (row : ρ) :
    ∃ ofLeaf : List Side → Bool, e.test s row = n.answer ofLeaf ∧
      ∀ l ∈ n.leavesBelow above steps, ∃ rest x, l.steps = steps ++ rest ∧
        (l.compile s config).outcome = .ok x ∧ ofLeaf rest = x.test s row := by
  induction n generalizing above steps e with
  | leaf c o =>
    refine ⟨fun _ => e.test s row, rfl, ?_⟩
    intro l hl
    rw [leavesBelow, List.mem_singleton] at hl
    subst hl
    rw [compile, Scope.enter_nearest] at he
    exact ⟨[], e, (List.append_nil steps).symm, he, rfl⟩
  | branch l g r o ihl ihr =>
    rw [compile, Scope.enter_nearest, ← pathText_left, ← pathText_right] at he
    obtain ⟨a, ha, he⟩ := Traced.outcome_bind_eq_ok.mp he
    obtain ⟨b, hb, he⟩ := Traced.outcome_bind_eq_ok.mp he
    cases he
    obtain ⟨ofLeft, htestLeft, hleft⟩ := ihl ha
    obtain ⟨ofRight, htestRight, hright⟩ := ihr hb
    refine ⟨branchAnswers ofLeft ofRight, ?_, ?_⟩
    · rw [Logic.test_join, htestLeft, htestRight]
      rfl
    · intro leaf hleaf
      rw [leavesBelow, List.mem_append] at hleaf
      rcases hleaf with hleaf | hleaf
      · obtain ⟨rest, x, hsteps, hx, hanswer⟩ := hleft leaf hleaf
        refine ⟨.left :: rest, x, ?_, hx, hanswer⟩
        rw [hsteps, List.append_assoc, List.singleton_append]
      · obtain ⟨rest, x, hsteps, hx, hanswer⟩ := hright leaf hleaf
        refine ⟨.right :: rest, x, ?_, hx, hanswer⟩
        rw [hsteps, List.append_assoc, List.singleton_append]

/-- **No row without the cell meets a guarded leaf.** A leaf that compiles is the condition that its
operator built, whatever operator that is: behind a guard that is false on absent cells, or as it
was built where the operator asks for that or the property is always there. A tree that compiles
answers from the answers of its leaves, and a leaf that the row misses answers `false`. -/
theorem compile_guards_absence (s : Schema ρ) (config : Config) :
    (∀ (c : Condition) (o : Overrides) (path : String) (e : Expr),
      (c.compile s ⟨config, o⟩ path).outcome = .ok e →
        ∃ (l : Located ρ) (v : Value), s.find? c.property = some (l.id, l.property) ∧
          (Scope.mk config o).handler? c.operator = some l.handler ∧
          (Scope.mk config o).deserializer? = some l.deserializer ∧
          l.deserializer.read c.value l.target = .ok v ∧ l.Shielded s v e) ∧
      ∀ (n : FilterNode) (inherited : Overrides) (e : Expr),
        (n.compileBelow s config inherited).outcome = .ok e → ∀ row,
          ∃ ofLeaf : List Side → Bool, e.test s row = n.answer ofLeaf ∧
            ∀ l ∈ n.leaves inherited, ∃ x, (l.compile s config).outcome = .ok x ∧
              ofLeaf l.steps = x.test s row ∧ (l.Misses s config row → ofLeaf l.steps = false) := by
  refine ⟨fun c o path e he => Condition.shielded_of_compile he, ?_⟩
  intro n inherited e he row
  have hroot : (n.compile s ⟨config, .nearest [inherited]⟩ (pathText [])).outcome = .ok e := by
    rw [Overrides.nearest_singleton]
    exact he
  obtain ⟨ofLeaf, htest, hleaves⟩ := answer_of_compile hroot row
  refine ⟨ofLeaf, htest, fun l hl => ?_⟩
  obtain ⟨rest, x, hsteps, hx, hanswer⟩ := hleaves l hl
  rw [List.nil_append] at hsteps
  subst hsteps
  refine ⟨x, hx, hanswer, fun hm => ?_⟩
  rw [hanswer]
  exact Leaf.test_of_misses hx hm

/-- An operator of one's own that holds of everything, on a row whose cell is absent. -/
theorem compile_guards_absence_always :
    let always : Handler := { build := fun _ _ _ _ => .ok (.bool true) }
    let s : Schema Value := ⟨"Item", [⟨"Rank", ⟨.nullable, .int⟩, id⟩]⟩
    let config : Config := ⟨some .json, Registry.builtin.insert "always" always⟩
    let n : FilterNode :=
      .branch (.leaf ⟨"rank", "always", "1"⟩ .none) .and (.leaf ⟨"rank", "isnull", "1"⟩ .none) .none
    ∃ e, (n.compileBelow s config .none).outcome = .ok e ∧
      ∃ ofLeaf, e.test s .null = n.answer ofLeaf ∧ ofLeaf [.left] = false := by
  intro always s config n
  obtain ⟨e, he⟩ : ∃ e, (n.compileBelow s config .none).outcome = .ok e := ⟨_, rfl⟩
  obtain ⟨ofLeaf, htest, hleaves⟩ := (compile_guards_absence s config).2 n .none e he .null
  have hmem : (⟨[.left], ⟨"rank", "always", "1"⟩, .none⟩ : Leaf) ∈ n.leaves .none := by
    simp [n, leaves, leavesBelow, Overrides.nearest, Overrides.none]
  obtain ⟨x, -, -, hmiss⟩ := hleaves _ hmem
  exact ⟨e, he, ofLeaf, htest, hmiss ⟨0, _, always, rfl, rfl, rfl, by decide, rfl⟩⟩

end FilterNode

end RowQuery
