import RowQuery.Filter.Compile
import RowQuery.Proofs.Registry.Lookup

/-!
# What is in effect at a leaf

Overrides are handed down a tree: each node puts its own words before those from above. What a leaf
is compiled under can also be said without any handing down. Of the nodes from the leaf up to the
root, and of what is given above the root, the nearest one with a word on the deserializer decides
the deserializer, and the nearest one with a word on the operators decides the operators. The two
are settled apart, and a word is taken whole.

So a tree with overrides anywhere is as good as the tree that has them on its leaves only, each leaf
with all that is in effect there.

## One registry at a leaf

A leaf has at most one overriding registry, and behind it stands the configuration. Laying that
registry over the one of the configuration therefore changes nothing, not even the errors. A
registry further out plays no part: if it did, a name that the nearest registry lacks could be found
there, and the overlaid tree would compile differently.

## Main definitions

* `Overrides.nearest`: the nearest word on each override.
* `FilterNode.flatten`: the tree with its overrides on the leaves only.
* `FilterNode.overlaid`: the tree with its registries laid over another.
* `Scope.Agrees`: two scopes in which conditions find the same.

## Main results

* `FilterNode.compile_flattenBelow`: flattening keeps a compilation, with all that happens in it.
* `FilterNode.compile_overlaid`: so does laying each registry over that of the configuration.
* `FilterNode.compileBelow_flatten`: both, from the root.
-/

namespace RowQuery

variable {ρ : Type}

/-! ### The nearest word -/

namespace Overrides

/-- The nearest word on each override in a chain of nodes, the nearest node first. -/
def nearest (chain : List Overrides) : Overrides where
  deserializer := chain.findSome? deserializer
  operators := chain.findSome? operators

theorem nearest_cons (own : Overrides) (above : List Overrides) :
    nearest (own :: above) = own.under (nearest above) := by
  obtain ⟨d, r⟩ := own
  cases d <;> cases r <;> rfl

theorem nearest_singleton (o : Overrides) : nearest [o] = o := by
  rw [nearest_cons]
  exact under_none o

end Overrides

@[simp] theorem Scope.config_enter (scope : Scope) (own : Overrides) :
    (scope.enter own).config = scope.config := rfl

/-- Entering a node puts it before the nodes above it. -/
theorem Scope.enter_nearest (config : Config) (own : Overrides) (above : List Overrides) :
    (Scope.mk config (.nearest above)).enter own = ⟨config, .nearest (own :: above)⟩ := by
  rw [enter, Overrides.nearest_cons]

/-! ### Flat trees -/

namespace FilterNode

/-- The tree with its overrides on the leaves only, below a chain of nodes. -/
def flattenBelow : List Overrides → FilterNode → FilterNode
  | above, leaf c o => leaf c (.nearest (o :: above))
  | above, branch l g r o =>
    branch (flattenBelow (o :: above) l) g (flattenBelow (o :: above) r) .none

/-- The tree with its overrides on the leaves only, below given overrides. -/
def flatten (n : FilterNode) (inherited : Overrides) : FilterNode :=
  n.flattenBelow [inherited]

/-- Nothing is handed down in the flat tree, and each leaf finds there what was handed down to
it. -/
theorem compile_flattenBelow (s : Schema ρ) (config : Config) (n : FilterNode)
    (above : List Overrides) (path : String) :
    (n.flattenBelow above).compile s ⟨config, .none⟩ path
      = n.compile s ⟨config, .nearest above⟩ path := by
  induction n generalizing above path with
  | leaf c o =>
    have hflat : (Scope.mk config .none).enter (.nearest (o :: above))
        = ⟨config, .nearest (o :: above)⟩ := by
      rw [Scope.enter, Overrides.under_none]
    rw [flattenBelow, compile, compile, hflat, Scope.enter_nearest]
  | branch l g r o ihl ihr =>
    rw [flattenBelow, compile, compile, Scope.enter_none, Scope.enter_nearest]
    rw [ihl, ihr]

end FilterNode

/-! ### Laying registries over another -/

namespace Overrides

/-- The registry, if there is one, laid over another. -/
def overlaid (lower : Registry) (o : Overrides) : Overrides :=
  { o with operators := o.operators.map lower.overlay }

end Overrides

namespace Scope

/-- Conditions find the same in both scopes, and an error says the same of them. -/
structure Agrees (a b : Scope) : Prop where
  config : a.config = b.config
  deserializer : a.deserializer? = b.deserializer?
  handler : ∀ name, a.handler? name = b.handler? name
  overridden : a.overrides.operators.isSome = b.overrides.operators.isSome

theorem Agrees.refl (a : Scope) : a.Agrees a :=
  ⟨rfl, rfl, fun _ => rfl, rfl⟩

/-- The registry of a leaf comes first and the configuration second, whether they are two
registries or one laid over the other. -/
theorem handler?_overlay (config : Config) (d : Option Deserializer) (r : Registry)
    (name : String) :
    (Scope.mk config ⟨d, some (config.operators.overlay r)⟩).handler? name
      = (Scope.mk config ⟨d, some r⟩).handler? name := by
  simp [handler?, Registry.get?_overlay, Option.or_assoc]

/-- Agreement is kept on the way down. Where a node has a registry, it hides whatever the two scopes
had before. -/
theorem Agrees.enter {a b : Scope} (h : a.Agrees b) (own : Overrides) :
    (a.enter (own.overlaid b.config.operators)).Agrees (b.enter own) := by
  obtain ⟨d, r⟩ := own
  have hd : ((a.enter (Overrides.overlaid b.config.operators ⟨d, r⟩)).deserializer?)
      = (b.enter ⟨d, r⟩).deserializer? := by
    have := h.deserializer
    cases d with
    | none => exact this
    | some d => rfl
  cases r with
  | none => exact ⟨h.config, hd, h.handler, h.overridden⟩
  | some r =>
    refine ⟨h.config, hd, fun name => ?_, rfl⟩
    obtain ⟨config, o⟩ := a
    cases h.config
    exact handler?_overlay b.config _ r name

end Scope

namespace Condition

theorem locate_congr {c : Condition} {s : Schema ρ} {a b : Scope} (h : a.Agrees b)
    (path : String) : c.locate s a path = c.locate s b path := by
  have hhandler : ∀ p : Property ρ, c.handler p a path = c.handler p b path := by
    intro p
    rw [handler, handler, h.handler, h.overridden]
  have hdeserializer : ∀ p : Property ρ, c.deserializer p a path = c.deserializer p b path := by
    intro p
    rw [deserializer, deserializer, h.deserializer]
  simp only [locate, hhandler, hdeserializer]

theorem compile_congr {c : Condition} {s : Schema ρ} {a b : Scope} (h : a.Agrees b)
    (path : String) : c.compile s a path = c.compile s b path := by
  rw [compile, compile, locate_congr h]

end Condition

namespace FilterNode

/-- The tree with its registries laid over another. -/
def overlaid (lower : Registry) : FilterNode → FilterNode
  | leaf c o => leaf c (o.overlaid lower)
  | branch l g r o => branch (l.overlaid lower) g (r.overlaid lower) (o.overlaid lower)

theorem compile_overlaid (s : Schema ρ) (n : FilterNode) {a b : Scope} (h : a.Agrees b)
    (path : String) : (n.overlaid b.config.operators).compile s a path = n.compile s b path := by
  induction n generalizing a b path with
  | leaf c o => exact Condition.compile_congr (h.enter o) path
  | branch l g r o ihl ihr =>
    have hl := ihl (h.enter o) (leftOf path)
    have hr := ihr (h.enter o) (rightOf path)
    rw [Scope.config_enter] at hl hr
    rw [overlaid, compile, compile, hl, hr]

/-- **The nearest word decides, and it decides alone.** Any tree compiles as its flat tree does with
nothing above it: the outcome and the events are the same. In the flat tree each registry may be
laid over that of the configuration, for a name that it lacks is looked up there and nowhere
else. -/
theorem compileBelow_flatten (n : FilterNode) (s : Schema ρ) (config : Config)
    (inherited : Overrides) :
    n.compileBelow s config inherited = (n.flatten inherited).compileBelow s config .none ∧
      ((n.flatten inherited).overlaid config.operators).compileBelow s config .none
        = (n.flatten inherited).compileBelow s config .none ∧
      ∀ (d : Option Deserializer) (r : Registry) (name : String),
        (Scope.mk config ⟨d, some (config.operators.overlay r)⟩).handler? name
            = (Scope.mk config ⟨d, some r⟩).handler? name ∧
          (Scope.mk config ⟨d, some r⟩).handler? name
            = (r.get? name).or (config.operators.get? name) := by
  have hflat := compile_flattenBelow s config n [inherited] rootPath
  rw [Overrides.nearest_singleton] at hflat
  refine ⟨hflat.symm, ?_, fun d r name => ⟨Scope.handler?_overlay config d r name, rfl⟩⟩
  exact compile_overlaid s _ (Scope.Agrees.refl ⟨config, .none⟩) rootPath

end FilterNode

end RowQuery
