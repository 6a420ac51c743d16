import RowQuery.Proofs.Filter.Inheritance
import RowQuery.Proofs.Filter.Leaf

/-!
# A filter by its leaves

A tree is compiled leaf by leaf. Its leaves stand in a row, each with the steps that lead to it from
the root and with the overrides in effect there, and compiling the tree is compiling that row from
left to right: all of it, or as far as the first leaf that fails. So everything that can be seen of
a compilation is said by its leaves, one by one.

## What is asked

A leaf asks its deserializer once, after its property, its operator and a deserializer are found and
the operator can be used with the property. What it asks, and whether it comes to that, is therefore
settled before any answer and does not depend on it (`Leaf.question?`).

## Main definitions

* `Side`, `FilterNode.pathText`, `FilterNode.descend`: steps down a tree.
* `FilterNode.leaves`: the leaves from left to right, each with its steps and overrides.
* `FilterNode.Joined`: an expression of the shape of a tree, over expressions for its leaves.
* `Leaf.question?`, `Leaf.StopsUnasked`: what a leaf asks, and when it stops before that.

## Main results

* `FilterNode.assembled_compile`: compiling a tree is compiling its leaves from left to right.
* `FilterNode.compileBelow_by_leaves`: the outcome, the path of the error and the questions of a
  compilation, told by the leaves.
-/

namespace RowQuery

variable {ρ : Type}

/-! ### Steps down a tree -/

/-- A side of a branch. -/
inductive Side where
  | left
  | right
  deriving DecidableEq, Repr

/-- The word for a step down to a side. -/
def Side.word : Side → String
  | left => ".left"
  | right => ".right"

namespace FilterNode

/-- The path of the node that some steps lead to: that of the root, and behind it a word for each
step. -/
def pathText (steps : List Side) : String :=
  steps.foldl (fun path side => path ++ side.word) rootPath

theorem pathText_left (steps : List Side) :
    pathText (steps ++ [.left]) = leftOf (pathText steps) := by
  rw [pathText, List.foldl_append]
  rfl

theorem pathText_right (steps : List Side) :
    pathText (steps ++ [.right]) = rightOf (pathText steps) := by
  rw [pathText, List.foldl_append]
  rfl

/-- The tree that some steps lead to. -/
def descend : FilterNode → List Side → Option FilterNode
  | n, [] => some n
  | branch l _ _ _, .left :: steps => l.descend steps
  | branch _ _ r _, .right :: steps => r.descend steps
  | leaf _ _, _ :: _ => none

end FilterNode

/-! ### Leaves -/

/-- A leaf of a tree: the steps that lead to it, its condition, and the overrides in effect. -/
structure Leaf where
  steps : List Side
  condition : Condition
  overrides : Overrides

namespace Leaf

/-- The scope of a leaf under a configuration. -/
def scope (l : Leaf) (config : Config) : Scope := ⟨config, l.overrides⟩

/-- The leaf compiled alone, in its scope and at its path. -/
def compile (s : Schema ρ) (config : Config) (l : Leaf) : Traced Expr :=
  l.condition.compile s (l.scope config) (FilterNode.pathText l.steps)

/-- What the leaf asks of its deserializer, if it has all that it needs for that. -/
def question? (s : Schema ρ) (config : Config) (l : Leaf) : Option Question :=
  match s.find? l.condition.property, (l.scope config).handler? l.condition.operator,
    (l.scope config).deserializer? with
  | some (_, p), some h, some d =>
    if h.needsAbsence ∧ p.type.absence = .never then none
    else some ⟨d.label, l.condition.value, h.constantType p.type.present p.type⟩
  | _, _, _ => none

/-- The leaf fails before it has asked anything: its property, its operator or a deserializer is not
there, or the operator is only for properties with absence and this one has none. -/
inductive StopsUnasked (s : Schema ρ) (config : Config) (l : Leaf) : QueryError → Prop where
  | noProperty {property schema : String} :
    StopsUnasked s config l (.propertyNotFound property schema)
  | noOperator {operator path : String} {overridden : Bool} :
    StopsUnasked s config l (.unknownOperator operator path overridden)
  | noDeserializer {property raw path : String} :
    StopsUnasked s config l (.missingDeserializer property raw path)
  | notAccepted {i : Nat} {p : Property ρ} {h : Handler} {e : QueryError}
      (hp : s.find? l.condition.property = some (i, p))
      (hh : (l.scope config).handler? l.condition.operator = some h)
      (ha : h.needsAbsence = true ∧ p.type.absence = .never) : StopsUnasked s config l e

/-! What a leaf asks is settled once it is located, before any answer. -/

theorem compiling (s : Schema ρ) (config : Config) (l : Leaf) :
    l.condition.Compiling s (l.scope config) (FilterNode.pathText l.steps) (l.compile s config) :=
  l.condition.compiling s (l.scope config) (FilterNode.pathText l.steps)

section

variable {s : Schema ρ} {config : Config} {l : Leaf}

theorem question?_of_locate_ok {path : String} {found : Located ρ}
    (h : l.condition.locate s (l.scope config) path = .ok found) :
    l.question? s config = some (found.question l.condition) := by
  obtain ⟨hp, hh, ha, hd⟩ := Condition.of_locate_eq_ok h
  have hif : ¬ (found.handler.needsAbsence = true ∧ found.property.type.absence = .never) :=
    fun ⟨hn, hnever⟩ => ha hn hnever
  simp only [question?, hp, hh, hd, if_neg hif]
  rfl

theorem question?_of_locate_error {path : String} {e : QueryError}
    (h : l.condition.locate s (l.scope config) path = .error e) :
    l.question? s config = none ∧ l.StopsUnasked s config e := by
  have hl := Condition.locating l.condition s (l.scope config) path
  rw [h] at hl
  cases hl with
  | noProperty hp => exact ⟨by simp [question?, hp], .noProperty⟩
  | noOperator hp hh => exact ⟨by simp [question?, hp, hh], .noOperator⟩
  | noDeserializer hp hh ha hd => exact ⟨by simp [question?, hp, hh, hd], .noDeserializer⟩
  | notAccepted hp hh ha =>
    have hboth := Handler.not_accepts_iff.mp ha
    rw [Bool.and_eq_true, beq_iff_eq] at hboth
    refine ⟨?_, .notAccepted hp hh hboth⟩
    cases hd : (l.scope config).deserializer? <;> simp [question?, hp, hh, hd, hboth]

/-- A located leaf is one whose operator can be used with its property. -/
theorem accepted_of_locate_ok {path : String} {found : Located ρ}
    (h : l.condition.locate s (l.scope config) path = .ok found) {i : Nat} {p : Property ρ}
    {op : Handler} (hp : s.find? l.condition.property = some (i, p))
    (hh : (l.scope config).handler? l.condition.operator = some op) :
    ¬ (op.needsAbsence = true ∧ p.type.absence = .never) := by
  obtain ⟨hp', hh', ha, -⟩ := Condition.of_locate_eq_ok h
  cases hp.symm.trans hp'
  cases hh.symm.trans hh'
  exact fun ⟨hn, hnever⟩ => ha hn hnever

theorem questions_compile : (l.compile s config).questions = (l.question? s config).toList := by
  rw [compile, Condition.questions_compile]
  cases h : l.condition.locate s (l.scope config) (FilterNode.pathText l.steps) with
  | ok found => rw [question?_of_locate_ok h]; rfl
  | error e => rw [(question?_of_locate_error h).1]; rfl

theorem question?_of_compile_ok {e : Expr} (h : (l.compile s config).outcome = .ok e) :
    ∃ q, l.question? s config = some q := by
  obtain ⟨found, _, _, hl, _⟩ := Condition.outcome_compile_eq_ok_iff.mp h
  exact ⟨_, question?_of_locate_ok hl⟩

/-- **A failing leaf has asked unless it stopped before that.** A refusal by an operator can look
like the refusal of its handler, but it comes behind the question. -/
theorem question?_eq_none_iff {e : QueryError} (h : (l.compile s config).outcome = .error e) :
    l.question? s config = none ↔ l.StopsUnasked s config e := by
  have hc := compiling s config l
  generalize l.compile s config = t at hc h
  cases hc with
  | built => cases h
  | unlocated hl =>
    cases h
    obtain ⟨hnone, hstops⟩ := question?_of_locate_error hl
    exact ⟨fun _ => hstops, fun _ => hnone⟩
  | unread hl hr =>
    cases h
    rw [question?_of_locate_ok hl]
    constructor
    · rintro ⟨⟩
    · intro hs
      cases hs with
      | notAccepted hp hh ha => exact absurd ha (accepted_of_locate_ok hl hp hh)
  | @refused found v r hl hr hb =>
    cases h
    rw [question?_of_locate_ok hl]
    constructor
    · rintro ⟨⟩
    · intro hs
      cases r with
      | notNullable type =>
        cases hs with
        | notAccepted hp hh ha => exact absurd ha (accepted_of_locate_ok hl hp hh)
      | unsupported reason =>
        cases hs with
        | notAccepted hp hh ha => exact absurd ha (accepted_of_locate_ok hl hp hh)

/-- Whatever an error says of a place says that it is the place of the leaf. -/
structure Blamed (l : Leaf) (e : QueryError) : Prop where
  path : ∀ path, e.path? = some path → path = FilterNode.pathText l.steps
  context : ∀ property type context, e = .notNullable property type context →
    context = l.condition.context (FilterNode.pathText l.steps)

theorem blamed_of_compile_error {e : QueryError} (h : (l.compile s config).outcome = .error e) :
    l.Blamed e := by
  have hc := compiling s config l
  generalize l.compile s config = t at hc h
  cases hc with
  | built => cases h
  | unlocated hl =>
    cases h
    have hlocating := Condition.locating l.condition s (l.scope config)
      (FilterNode.pathText l.steps)
    rw [hl] at hlocating
    cases hlocating <;> constructor <;> simp +contextual [QueryError.path?, eq_comm]
  | unread hl hr =>
    cases h
    constructor <;> simp +contextual [Condition.unreadable, QueryError.path?, eq_comm]
  | @refused found v r hl hr hb =>
    cases h
    cases r <;> constructor <;> simp +contextual [Condition.refused, QueryError.path?, eq_comm]

/-- Leaves that compile have each asked one question. -/
theorem forall₂_questions {leaves : List Leaf}
    (h : ∀ l ∈ leaves, ∃ e, (l.compile s config).outcome = .ok e) :
    List.Forall₂ (fun l q => l.question? s config = some q) leaves
      (leaves.flatMap fun l => (l.compile s config).questions) := by
  induction leaves with
  | nil => exact .nil
  | cons l leaves ih =>
    obtain ⟨e, he⟩ := h l (by simp)
    obtain ⟨q, hq⟩ := question?_of_compile_ok he
    rw [List.flatMap_cons, questions_compile, hq]
    exact .cons hq (ih fun b hb => h b (List.mem_cons_of_mem _ hb))

end

end Leaf

namespace FilterNode

/-- The leaves of a tree from left to right, below a chain of nodes and some steps down. -/
def leavesBelow : List Overrides → List Side → FilterNode → List Leaf
  | above, steps, leaf c o => [⟨steps, c, .nearest (o :: above)⟩]
  | above, steps, branch l _ r o =>
    l.leavesBelow (o :: above) (steps ++ [.left]) ++ r.leavesBelow (o :: above) (steps ++ [.right])

/-- The leaves of a tree from left to right, below given overrides. -/
def leaves (n : FilterNode) (inherited : Overrides) : List Leaf :=
  n.leavesBelow [inherited] []

/-- An expression is a tree of conjunctions and disjunctions of the shape of a filter, over the
expressions of a list in the places of the leaves. -/
inductive Joined : FilterNode → List Expr → Expr → Prop where
  | leaf {c : Condition} {o : Overrides} {e : Expr} : Joined (leaf c o) [e] e
  | and {l r : FilterNode} {o : Overrides} {es fs : List Expr} {a b : Expr} (hl : Joined l es a)
      (hr : Joined r fs b) : Joined (branch l .and r o) (es ++ fs) (.and a b)
  | or {l r : FilterNode} {o : Overrides} {es fs : List Expr} {a b : Expr} (hl : Joined l es a)
      (hr : Joined r fs b) : Joined (branch l .or r o) (es ++ fs) (.or a b)

/-! ### A tree is compiled by its leaves -/

/-- A compilation of a tree comes from a compilation of its leaves: the same happens on the way, the
same error ends it, or the expressions are joined. -/
inductive Assembled (n : FilterNode) : Traced (List Expr) → Traced Expr → Prop where
  | ok {events : List Event} {es : List Expr} {e : Expr} (h : n.Joined es e) :
    Assembled n ⟨events, .ok es⟩ ⟨events, .ok e⟩
  | error {events : List Event} {e : QueryError} :
    Assembled n ⟨events, .error e⟩ ⟨events, .error e⟩

theorem Joined.join {l r : FilterNode} {o : Overrides} {es fs : List Expr} {a b : Expr}
    (hl : Joined l es a) (hr : Joined r fs b) (g : Logic) :
    Joined (branch l g r o) (es ++ fs) (g.join a b) := by
  cases g with
  | and => exact .and hl hr
  | or => exact .or hl hr

theorem Assembled.leaf {c : Condition} {o : Overrides} (x : Traced Expr) :
    (FilterNode.leaf c o).Assembled (do let e ← x; pure [e]) x := by
  obtain ⟨events, outcome⟩ := x
  cases outcome with
  | error e => exact .error
  | ok e =>
    rw [Traced.bind_ok rfl]
    show (FilterNode.leaf c o).Assembled ⟨events ++ [], .ok [e]⟩ _
    rw [List.append_nil]
    exact .ok .leaf

/-- A branch is assembled from its trees. A failure on the left leaves the right tree out on both
sides. -/
theorem Assembled.branch {l r : FilterNode} {x y : Traced (List Expr)} {a b : Traced Expr}
    (hl : l.Assembled x a) (hr : r.Assembled y b) (g : Logic) (o : Overrides) :
    (FilterNode.branch l g r o).Assembled (do let es ← x; let fs ← y; pure (es ++ fs))
      (do let left ← a; let right ← b; pure (g.join left right)) := by
  cases hl with
  | error => exact .error
  | ok hl =>
    cases hr with
    | error => exact .error
    | ok hr => exact .ok (hl.join hr g)

section

variable {n : FilterNode} {x : Traced (List Expr)} {t : Traced Expr}

theorem Assembled.questions_eq (h : n.Assembled x t) : t.questions = x.questions := by
  cases h <;> rfl

theorem Assembled.joined (h : n.Assembled x t) {e : Expr} (ht : t.outcome = .ok e) :
    ∃ es, x.outcome = .ok es ∧ n.Joined es e := by
  cases h with
  | ok h =>
    cases ht
    exact ⟨_, rfl, h⟩
  | error => cases ht

theorem Assembled.outcome_eq_error_iff (h : n.Assembled x t) {e : QueryError} :
    t.outcome = .error e ↔ x.outcome = .error e := by
  cases h with
  | ok => exact ⟨nofun, nofun⟩
  | error =>
    constructor
    · rintro ⟨⟩
      rfl
    · rintro ⟨⟩
      rfl

theorem Assembled.outcome_error (h : n.Assembled x t) {e : QueryError}
    (ht : t.outcome = .error e) : x.outcome = .error e :=
  h.outcome_eq_error_iff.mp ht

theorem Assembled.ok_iff (h : n.Assembled x t) :
    (∃ e, t.outcome = .ok e) ↔ ∃ es, x.outcome = .ok es := by
  cases h with
  | ok => exact ⟨fun _ => ⟨_, rfl⟩, fun _ => ⟨_, rfl⟩⟩
  | error =>
    constructor
    · rintro ⟨_, ⟨⟩⟩
    · rintro ⟨_, ⟨⟩⟩

end

/-- The induction is on the tree. What is handed down in compiling is the nearest word of the chain
of nodes above, and the path is that of the steps. -/
theorem assembled_compile (s : Schema ρ) (config : Config) (n : FilterNode)
    (above : List Overrides) (steps : List Side) :
    n.Assembled ((n.leavesBelow above steps).mapM (Leaf.compile s config))
      (n.compile s ⟨config, .nearest above⟩ (pathText steps)) := by
  induction n generalizing above steps with
  | leaf c o =>
    rw [leavesBelow, compile, Scope.enter_nearest, List.mapM_cons]
    exact .leaf _
  | branch l g r o ihl ihr =>
    have hl := ihl (o :: above) (steps ++ [.left])
    have hr := ihr (o :: above) (steps ++ [.right])
    rw [pathText_left] at hl
    rw [pathText_right] at hr
    rw [leavesBelow, List.mapM_append, compile, Scope.enter_nearest]
    exact hl.branch hr g o

theorem assembled_compileBelow (s : Schema ρ) (config : Config) (n : FilterNode)
    (inherited : Overrides) :
    n.Assembled ((n.leaves inherited).mapM (Leaf.compile s config))
      (n.compileBelow s config inherited) := by
  have h := assembled_compile s config n [inherited] []
  rwa [Overrides.nearest_singleton] at h

/-- The steps of a leaf lead to it. -/
theorem descend_of_mem_leavesBelow {n : FilterNode} {above : List Overrides} {steps : List Side}
    {l : Leaf} (h : l ∈ n.leavesBelow above steps) :
    ∃ rest o, l.steps = steps ++ rest ∧ n.descend rest = some (leaf l.condition o) := by
  induction n generalizing above steps with
  | leaf c o =>
    rw [leavesBelow, List.mem_singleton] at h
    subst h
    exact ⟨[], o, (List.append_nil steps).symm, rfl⟩
  | branch l' g r o ihl ihr =>
    rw [leavesBelow, List.mem_append] at h
    rcases h with h | h
    · obtain ⟨rest, o', hsteps, hrest⟩ := ihl h
      refine ⟨.left :: rest, o', ?_, hrest⟩
      rw [hsteps, List.append_assoc, List.singleton_append]
    · obtain ⟨rest, o', hsteps, hrest⟩ := ihr h
      refine ⟨.right :: rest, o', ?_, hrest⟩
      rw [hsteps, List.append_assoc, List.singleton_append]

theorem descend_of_mem_leaves {n : FilterNode} {inherited : Overrides} {l : Leaf}
    (h : l ∈ n.leaves inherited) : ∃ o, n.descend l.steps = some (leaf l.condition o) := by
  obtain ⟨rest, o, hsteps, hrest⟩ := descend_of_mem_leavesBelow h
  rw [List.nil_append] at hsteps
  exact ⟨o, hsteps ▸ hrest⟩

/-! ### What can be seen of a compilation -/

/-- What is seen where all leaves compile: their expressions joined in the shape of the tree, and
one question from each. -/
structure BuiltFrom (s : Schema ρ) (config : Config) (n : FilterNode) (leaves : List Leaf)
    (asked : List Question) (e : Expr) : Prop where
  joined : ∃ es, List.Forall₂ (fun l e => (l.compile s config).outcome = .ok e) leaves es ∧
    n.Joined es e
  asked : List.Forall₂ (fun l q => l.question? s config = some q) leaves asked

/-- What is seen where a leaf fails and those before it compile: the error of that leaf, one
question from each leaf before it, and its own question if it came so far. -/
structure StoppedAt (s : Schema ρ) (config : Config) (n : FilterNode) (before : List Leaf)
    (l : Leaf) (asked : List Question) (e : QueryError) : Prop where
  compiled : ∀ b ∈ before, ∃ e, (b.compile s config).outcome = .ok e
  fails : (l.compile s config).outcome = .error e
  descend : ∃ o, n.descend l.steps = some (leaf l.condition o)
  blamed : l.Blamed e
  asked : ∃ qs, List.Forall₂ (fun b q => b.question? s config = some q) before qs ∧
    asked = qs ++ (l.question? s config).toList
  unasked : l.question? s config = none ↔ l.StopsUnasked s config e

section

variable {s : Schema ρ} {config : Config} {n : FilterNode} {leaves : List Leaf}

theorem builtFrom_of_mapM {es : List Expr} {e : Expr}
    (h : (leaves.mapM (Leaf.compile s config)).outcome = .ok es) (hn : n.Joined es e) :
    BuiltFrom s config n leaves (leaves.mapM (Leaf.compile s config)).questions e := by
  refine ⟨⟨es, Traced.outcome_mapM_eq_ok_iff.mp h, hn⟩, ?_⟩
  rw [Traced.questions_mapM_of_ok h]
  exact Leaf.forall₂_questions (Traced.exists_outcome_mapM_eq_ok_iff.mp ⟨es, h⟩)

theorem stoppedAt_of_mapM {inherited : Overrides} {e : QueryError}
    (h : ((n.leaves inherited).mapM (Leaf.compile s config)).outcome = .error e) :
    ∃ before l after, n.leaves inherited = before ++ l :: after ∧ StoppedAt s config n before l
      ((n.leaves inherited).mapM (Leaf.compile s config)).questions e := by
  obtain ⟨before, l, after, hleaves, hbefore, hl⟩ := Traced.outcome_mapM_eq_error_iff.mp h
  have hmem : l ∈ n.leaves inherited := by simp [hleaves]
  refine ⟨before, l, after, hleaves, hbefore, hl, descend_of_mem_leaves hmem,
    Leaf.blamed_of_compile_error hl, ⟨_, Leaf.forall₂_questions hbefore, ?_⟩,
    Leaf.question?_eq_none_iff hl⟩
  rw [hleaves, Traced.questions_mapM_append hbefore, Traced.questions_mapM_of_error hl,
    Leaf.questions_compile]

end

/-- **A compilation is told by its leaves.** It succeeds exactly when each leaf compiles alone.
Otherwise it fails as the first leaf from the left that does not compile, whose place the error
names, and nothing behind that leaf is asked. Handlers and deserializers may be any. -/
theorem compileBelow_by_leaves (n : FilterNode) (s : Schema ρ) (config : Config)
    (inherited : Overrides) :
    let compiled := n.compileBelow s config inherited
    let leaves := n.leaves inherited
    ((∃ e, compiled.outcome = .ok e) ↔ ∀ l ∈ leaves, ∃ e, (l.compile s config).outcome = .ok e) ∧
      match compiled.outcome with
      | .ok e => BuiltFrom s config n leaves compiled.questions e
      | .error e => ∃ before l after, leaves = before ++ l :: after ∧
          StoppedAt s config n before l compiled.questions e := by
  intro compiled leaves
  have h : n.Assembled (leaves.mapM (Leaf.compile s config)) compiled :=
    assembled_compileBelow s config n inherited
  refine ⟨h.ok_iff.trans Traced.exists_outcome_mapM_eq_ok_iff, ?_⟩
  rw [h.questions_eq]
  cases hc : compiled.outcome with
  | ok e =>
    obtain ⟨es, hes, hn⟩ := h.joined hc
    exact builtFrom_of_mapM hes hn
  | error e => exact stoppedAt_of_mapM (h.outcome_error hc)

end FilterNode

end RowQuery
