import Mathlib.Logic.Function.Basic
import RowQuery.Proofs.Defaults.Writes
import RowQuery.Proofs.Filter.Stepwise

/-!
# Threads over the defaults

Any number of threads call what reads and writes the defaults, and their steps alternate in any way.
A lock is held for one section at a time, so a section is one step: a write reads what is published
and replaces it, a snapshot takes the handle of what is published. Between its sections a thread
looks behind handles that it has, one look at a time, and whatever the others do in the meantime
they do.

## What stands behind a handle

A configuration that is published is put in a cell of its own, and no cell is written twice. Here
cells are never given up either. A process gives one up when no handle of it is left, and then
nobody can tell the difference.

## What a call is made of

A call is a piece of code, and code may take as many sections as it likes, in any order with its
looks. That the calls at hand have one section each, and look only behind the handle that they take
in it, is a matter of how they are written (`Call.code`), not of the machine that runs them.

## Main definitions

* `Memory`: all that was ever published.
* `Code`: sections and looks, and a result.
* `Task`, `Call`: what compiles under the defaults; all that can be called.
* `Process`, `Action`, `Step`, `Run`: threads at their calls, and what they do.

## Main results

* `Memory.read?_write`: a write leaves what stands behind a handle.
* `Task.under_stepwise`: the tasks are what they should be, under one configuration.
-/

namespace RowQuery.Defaults

/-! ### Memory -/

/-- Where a configuration stands. -/
abbrev Handle := Nat

/-- The configurations that were published, and the one that is. -/
structure Memory where
  past : List Config
  published : Config

namespace Memory

/-- The memory before any write. -/
def initial : Memory := ⟨[], Defaults.initial⟩

/-- The handle of what is published. -/
def handle (m : Memory) : Handle := m.past.length

/-- What stands behind a handle. -/
def read? (m : Memory) (h : Handle) : Option Config := (m.past ++ [m.published])[h]?

/-- The memory after a write, which publishes what it makes of what was published. -/
def write (m : Memory) (w : Write) : Memory := ⟨m.past ++ [m.published], w.apply m.published⟩

theorem read?_handle (m : Memory) : m.read? m.handle = some m.published := by
  simp [read?, handle]

/-- A write leaves what stands behind a handle. -/
theorem read?_write {m : Memory} {h : Handle} {config : Config} (hread : m.read? h = some config)
    (w : Write) : (m.write w).read? h = some config := by
  have hlt : h < (m.past ++ [m.published]).length := (List.getElem?_eq_some_iff.mp hread).1
  rw [read?, write, List.getElem?_append_left hlt]
  exact hread

end Memory

/-! ### Code -/

/-- What a thread does: one section under the lock or one look at a time, and then a result. -/
inductive Code (α : Type) where
  | done (a : α)
  /-- What is published is read and replaced. -/
  | write (w : Write) (next : Code α)
  /-- The handle of what is published is taken. -/
  | snapshot (next : Handle → Code α)
  | look (h : Handle) (next : Config → Code α)

/-- A computation all whose looks are behind one handle. -/
def Code.through {α : Type} (h : Handle) : Stepwise α → Code (Traced α)
  | .done x => .done x
  | .look next => .look h fun config => through h (next config)

/-! ### Calls -/

/-- What compiles under the defaults. Each task has rows of its own type. -/
inductive Task : Type 1 where
  | compile {ρ : Type} (n : FilterNode) (s : Schema ρ)
  | apply {ρ : Type} (r : QueryRequest) (q : Query ρ)
  | applyCounted {ρ : Type} (r : QueryRequest) (q : Query ρ)

namespace Task

/-- What the task makes. -/
def Result : Task → Type
  | @compile ρ _ _ => Predicate ρ
  | @apply ρ _ _ => Query ρ
  | @applyCounted ρ _ _ => Query ρ × Nat

/-- The task under a configuration that is given. -/
def under (config : Config) : (t : Task) → Traced t.Result
  | compile n s => n.predicate s config
  | apply r q => r.plan q config
  | applyCounted r q => r.planCounted q config

/-- The task look by look. -/
def stepwise : (t : Task) → Stepwise t.Result
  | compile n s => n.predicateStepwise s
  | apply r q => r.planStepwise q
  | applyCounted r q => r.planCountedStepwise q

theorem under_stepwise (config : Config) (t : Task) :
    t.stepwise.under config = t.under config := by
  cases t with
  | compile n s => exact n.under_predicateStepwise config s
  | apply r q => exact r.under_planStepwise config q
  | applyCounted r q => exact r.under_planCountedStepwise config q

end Task

/-- All that can be called. -/
inductive Call : Type 1 where
  | write (w : Write)
  /-- What is published is asked for. -/
  | defaults
  | task (t : Task)

namespace Call

/-- What the call returns: the record that a write leaves, the handle of what is published, or what
the task makes. -/
def Result : Call → Type
  | write _ => Option Log.Record
  | defaults => Handle
  | task t => Traced t.Result

/-- The code of the call. A task takes one snapshot and looks behind no other handle. -/
def code : (c : Call) → Code c.Result
  | write w => .write w (.done w.record?)
  | defaults => .snapshot fun h => .done h
  | task t => .snapshot fun h => .through h t.stepwise

end Call

/-! ### Processes -/

/-- A thread does nothing, or has something left to do of a call. -/
inductive Thread : Type 1 where
  | idle
  | running (c : Call) (rest : Code c.Result)

/-- A memory and the threads over it. -/
structure Process (θ : Type) : Type 1 where
  memory : Memory
  threads : θ → Thread

/-- What a thread does at a step. -/
inductive Action (θ : Type) : Type 1 where
  | start (i : θ) (c : Call)
  | write (i : θ) (w : Write)
  | snapshot (i : θ) (h : Handle)
  | look (i : θ) (h : Handle)
  | finish (i : θ) (c : Call) (a : c.Result)

namespace Action

variable {θ : Type}

/-- The thread that does it. -/
def thread : Action θ → θ
  | start i _ | write i _ | snapshot i _ | look i _ | finish i _ _ => i

/-- The write that it is, if it is one. -/
def write? : Action θ → Option Write
  | write _ w => some w
  | _ => none

end Action

namespace Process

variable {θ : Type}

/-- All threads are idle, and nothing was written. -/
def initial : Process θ := ⟨.initial, fun _ => .idle⟩

variable [DecidableEq θ]

/-- The process with one thread elsewhere. -/
def set (p : Process θ) (i : θ) (t : Thread) : Process θ :=
  { p with threads := Function.update p.threads i t }

@[simp] theorem threads_set_self (p : Process θ) (i : θ) (t : Thread) :
    (p.set i t).threads i = t :=
  Function.update_self ..

theorem threads_set_of_ne (p : Process θ) {i j : θ} (h : j ≠ i) (t : Thread) :
    (p.set i t).threads j = p.threads j :=
  Function.update_of_ne h ..

end Process

variable {θ : Type} [DecidableEq θ]

/-- One step of one thread. -/
inductive Step : Process θ → Action θ → Process θ → Prop where
  | start {p : Process θ} {i : θ} (c : Call) (hidle : p.threads i = .idle) :
    Step p (.start i c) (p.set i (.running c c.code))
  | write {p : Process θ} {i : θ} {c : Call} {w : Write} {next : Code c.Result}
      (hrun : p.threads i = .running c (.write w next)) :
    Step p (.write i w) { p.set i (.running c next) with memory := p.memory.write w }
  | snapshot {p : Process θ} {i : θ} {c : Call} {next : Handle → Code c.Result}
      (hrun : p.threads i = .running c (.snapshot next)) :
    Step p (.snapshot i p.memory.handle) (p.set i (.running c (next p.memory.handle)))
  | look {p : Process θ} {i : θ} {c : Call} {h : Handle} {next : Config → Code c.Result}
      {config : Config} (hrun : p.threads i = .running c (.look h next))
      (hread : p.memory.read? h = some config) :
    Step p (.look i h) (p.set i (.running c (next config)))
  | finish {p : Process θ} {i : θ} {c : Call} {a : c.Result}
      (hrun : p.threads i = .running c (.done a)) :
    Step p (.finish i c a) (p.set i .idle)

/-- Some steps, one after the other. -/
inductive Run : Process θ → List (Action θ) → Process θ → Prop where
  | nil {p : Process θ} : Run p [] p
  | cons {p q r : Process θ} {a : Action θ} {actions : List (Action θ)} (hstep : Step p a q)
      (h : Run q actions r) : Run p (a :: actions) r

namespace Step

variable {p q : Process θ} {a : Action θ}

/-- The other threads are left alone. -/
theorem threads_of_ne (h : Step p a q) {j : θ} (hj : j ≠ a.thread) :
    q.threads j = p.threads j := by
  cases h <;> exact Process.threads_set_of_ne p hj _

/-- What stands behind a handle is left alone. -/
theorem read?_eq_some (h : Step p a q) {hd : Handle} {config : Config}
    (hread : p.memory.read? hd = some config) : q.memory.read? hd = some config := by
  cases h with
  | write hrun => exact Memory.read?_write hread _
  | _ => exact hread

end Step

namespace Run

variable {p q r : Process θ} {actions more : List (Action θ)}

theorem exists_of_append (h : Run p (actions ++ more) r) :
    ∃ q, Run p actions q ∧ Run q more r := by
  induction actions generalizing p with
  | nil => exact ⟨p, .nil, h⟩
  | cons a actions ih =>
    cases h with
    | cons hstep h =>
      obtain ⟨q, hfirst, hrest⟩ := ih h
      exact ⟨q, .cons hstep hfirst, hrest⟩

theorem read?_eq_some (h : Run p actions q) {hd : Handle} {config : Config}
    (hread : p.memory.read? hd = some config) : q.memory.read? hd = some config := by
  induction h with
  | nil => exact hread
  | cons hstep _ ih => exact ih (hstep.read?_eq_some hread)

/-- What every step keeps, knowing what was done before, a run keeps. -/
theorem keeps {I : List (Action θ) → Process θ → Prop}
    (hstep : ∀ {history p a q}, I history p → Step p a q → I (history ++ [a]) q)
    {history : List (Action θ)} (hp : I history p) (h : Run p actions q) :
    I (history ++ actions) q := by
  induction h generalizing history with
  | nil => rwa [List.append_nil]
  | cons hfirst _ ih =>
    rw [List.append_cons]
    exact ih (hstep hp hfirst)

end Run

end RowQuery.Defaults
