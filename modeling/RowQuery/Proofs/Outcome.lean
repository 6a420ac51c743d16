import Mathlib.Data.List.Forall2
import RowQuery.Trace

/-!
# Outcomes, plain and traced

A sequence of steps that can fail succeeds when every step does, and otherwise fails as the first
failing step does. A traced computation has an outcome beside a list of events. Both parts of a
sequence are determined by the parts of its steps: the outcome as for plain steps, the events by
appending, and nothing behind a failure happens.

## The questions

Of the events only the questions to deserializers can be seen from outside; log records are kept
apart. `Traced.questions` is that part, and it obeys the same laws as the events.

## Main definitions

* `Question`: a question to a deserializer.
* `Traced.questions`: the questions on the way, in order.

## Main results

* `bind_eq_ok`, `mapM_eq_ok_iff`: when a sequence and a list of plain steps succeed.
* `Traced.outcome_bind`, `Traced.outcome_bind_eq_ok`: the same for traced steps.
* `Traced.questions_bind_ok`, `Traced.questions_bind_error`: what a step adds to the questions.
* `Traced.outcome_mapM_eq_ok_iff`, `Traced.outcome_mapM_eq_error_iff`: a list of steps succeeds when
  all of them do, and fails as the first one that does not.
-/

namespace RowQuery

/-! ### Plain outcomes -/

theorem bind_eq_ok {ε α β : Type} {x : Except ε α} {f : α → Except ε β} {b : β} :
    (x >>= f) = .ok b ↔ ∃ a, x = .ok a ∧ f a = .ok b := by
  cases x <;> simp [bind, Except.bind]

theorem bind_eq_error {ε α β : Type} {x : Except ε α} {f : α → Except ε β} {e : ε} :
    (x >>= f) = .error e ↔ x = .error e ∨ ∃ a, x = .ok a ∧ f a = .error e := by
  cases x <;> simp [bind, Except.bind]

theorem map_eq_ok {ε α β : Type} {x : Except ε α} {f : α → β} {b : β} :
    x.map f = .ok b ↔ ∃ a, x = .ok a ∧ f a = b := by
  cases x <;> simp [Except.map]

theorem mapError_eq_ok {ε ε' α : Type} {x : Except ε α} {f : ε → ε'} {a : α} :
    x.mapError f = .ok a ↔ x = .ok a := by
  cases x <;> simp [Except.mapError]

theorem exists_forall₂_iff {α β : Type} {r : α → β → Prop} {xs : List α} :
    (∃ ys, List.Forall₂ r xs ys) ↔ ∀ x ∈ xs, ∃ y, r x y := by
  induction xs with
  | nil => simp
  | cons x xs ih =>
    rw [List.forall_mem_cons, ← ih]
    constructor
    · rintro ⟨_, h⟩
      obtain ⟨y, ys, hy, hys, rfl⟩ := List.forall₂_cons_left_iff.mp h
      exact ⟨⟨y, hy⟩, ys, hys⟩
    · rintro ⟨⟨y, hy⟩, ys, hys⟩
      exact ⟨y :: ys, .cons hy hys⟩

theorem mapM_eq_ok_iff {ε α β : Type} {f : α → Except ε β} {xs : List α} {ys : List β} :
    xs.mapM f = .ok ys ↔ List.Forall₂ (fun x y => f x = .ok y) xs ys := by
  induction xs generalizing ys with
  | nil => cases ys <;> simp [pure, Except.pure]
  | cons x xs ih =>
    simp only [List.mapM_cons, bind_eq_ok, ih, pure, Except.pure, Except.ok.injEq,
      List.forall₂_cons_left_iff]
    constructor
    · rintro ⟨y, hy, ys, hys, rfl⟩
      exact ⟨y, ys, hy, hys, rfl⟩
    · rintro ⟨y, ys, hy, hys, rfl⟩
      exact ⟨y, hy, ys, hys, rfl⟩

/-- A list of steps fails at the first step that fails. -/
theorem mapM_eq_error_iff {ε α β : Type} {f : α → Except ε β} {xs : List α} {e : ε} :
    xs.mapM f = .error e ↔ ∃ before x after, xs = before ++ x :: after ∧
      (∀ b ∈ before, ∃ y, f b = .ok y) ∧ f x = .error e := by
  induction xs with
  | nil => simp [pure, Except.pure]
  | cons x xs ih =>
    simp only [List.mapM_cons, bind_eq_error, ih]
    constructor
    · rintro (hx | ⟨y, hy, ⟨before, z, after, rfl, hb, hz⟩ | ⟨ys, hys, hpure⟩⟩)
      · exact ⟨[], x, xs, rfl, by simp, hx⟩
      · refine ⟨x :: before, z, after, rfl, fun b hm => ?_, hz⟩
        rcases List.mem_cons.mp hm with rfl | hm
        · exact ⟨y, hy⟩
        · exact hb b hm
      · cases hpure
    · rintro ⟨before, z, after, heq, hb, hz⟩
      cases before with
      | nil =>
        cases heq
        exact .inl hz
      | cons b before =>
        cases heq
        obtain ⟨y, hy⟩ := hb x (by simp)
        exact .inr ⟨y, hy, .inl
          ⟨before, z, after, rfl, fun b hm => hb b (List.mem_cons_of_mem _ hm), hz⟩⟩

/-- A result of a list of steps is the result of one of them. -/
theorem exists_mem_of_mapM_eq_ok {ε α β : Type} {f : α → Except ε β} {xs : List α} {ys : List β}
    (h : xs.mapM f = .ok ys) {y : β} (hy : y ∈ ys) : ∃ x ∈ xs, f x = .ok y := by
  have hall := mapM_eq_ok_iff.mp h
  induction hall with
  | nil => cases hy
  | cons hx hall ih =>
    rcases List.mem_cons.mp hy with rfl | hy
    · exact ⟨_, List.mem_cons_self, hx⟩
    · obtain ⟨x, hmem, hx⟩ := ih (mapM_eq_ok_iff.mpr hall) hy
      exact ⟨x, List.mem_cons_of_mem _ hmem, hx⟩

/-! ### Questions -/

/-- A question to a deserializer: its label, the raw text, and the wanted type. -/
structure Question where
  label : Option String
  raw : String
  target : DataType
  deriving DecidableEq, Repr

/-- The question that an event is, if it is one. -/
def Event.question? : Event → Option Question
  | call label raw target => some ⟨label, raw, target⟩
  | log _ => none

namespace Traced

variable {α β : Type}

/-- The questions on the way, in order. -/
def questions (x : Traced α) : List Question :=
  x.events.filterMap Event.question?

/-! ### Traced outcomes -/

@[simp] theorem outcome_pure (a : α) : (pure a : Traced α).outcome = .ok a := rfl

@[simp] theorem outcome_ofExcept (x : Except QueryError α) : (ofExcept x).outcome = x := rfl

@[simp] theorem outcome_ask (d : Deserializer) (raw : String) (t : DataType)
    (onFault : ReadFault → QueryError) :
    (ask d raw t onFault).outcome = (d.read raw t).mapError onFault := rfl

theorem outcome_bind (x : Traced α) (f : α → Traced β) :
    (x >>= f).outcome = x.outcome >>= fun a => (f a).outcome := by
  cases h : x.outcome with
  | ok a => rw [bind_ok h]; rfl
  | error e => rw [bind_error h]; rfl

theorem outcome_bind_eq_ok {x : Traced α} {f : α → Traced β} {b : β} :
    (x >>= f).outcome = .ok b ↔ ∃ a, x.outcome = .ok a ∧ (f a).outcome = .ok b := by
  rw [outcome_bind, bind_eq_ok]

@[simp] theorem questions_pure (a : α) : (pure a : Traced α).questions = [] := rfl

theorem questions_bind_ok {x : Traced α} {f : α → Traced β} {a : α} (h : x.outcome = .ok a) :
    (x >>= f).questions = x.questions ++ (f a).questions := by
  simp [questions, bind_ok h]

theorem questions_bind_error {x : Traced α} {f : α → Traced β} {e : QueryError}
    (h : x.outcome = .error e) : (x >>= f).questions = x.questions := by
  simp [questions, bind_error h]

/-! ### Traversals

A list of steps is one sequence, so it succeeds when every step does, and the first failing step
ends it. -/

theorem bind_bind {γ : Type} (x : Traced α) (f : α → Traced β) (g : β → Traced γ) :
    x >>= f >>= g = x >>= fun a => f a >>= g := by
  cases hx : x.outcome with
  | error e =>
    have hxf : (x >>= f).outcome = .error e := by rw [bind_error hx]
    rw [bind_error hxf, bind_error hx, bind_error hx]
  | ok a =>
    rw [bind_ok hx, bind_ok hx]
    cases hf : (f a).outcome with
    | error e => rw [bind_error rfl, bind_error hf]
    | ok b => rw [bind_ok rfl, bind_ok hf, List.append_assoc]

instance : LawfulMonad Traced :=
  .mk' Traced
    (fun x => by obtain ⟨events, _ | _⟩ := x <;> simp [Functor.map, bind, ok])
    (fun _ _ => rfl) bind_bind

/-- The outcome of a list of steps is that of their outcomes. -/
theorem outcome_mapM (f : α → Traced β) (xs : List α) :
    (xs.mapM f).outcome = xs.mapM fun x => (f x).outcome := by
  induction xs with
  | nil => rfl
  | cons x xs ih => simp only [List.mapM_cons, outcome_bind, ih]; rfl

theorem outcome_mapM_eq_ok_iff {f : α → Traced β} {xs : List α} {ys : List β} :
    (xs.mapM f).outcome = .ok ys ↔ List.Forall₂ (fun x y => (f x).outcome = .ok y) xs ys := by
  rw [outcome_mapM, mapM_eq_ok_iff]

/-- A traversal fails at the first step that fails. -/
theorem outcome_mapM_eq_error_iff {f : α → Traced β} {xs : List α} {e : QueryError} :
    (xs.mapM f).outcome = .error e ↔ ∃ before x after, xs = before ++ x :: after ∧
      (∀ b ∈ before, ∃ y, (f b).outcome = .ok y) ∧ (f x).outcome = .error e := by
  rw [outcome_mapM, mapM_eq_error_iff]

theorem exists_outcome_mapM_eq_ok_iff {f : α → Traced β} {xs : List α} :
    (∃ ys, (xs.mapM f).outcome = .ok ys) ↔ ∀ x ∈ xs, ∃ y, (f x).outcome = .ok y := by
  simp only [outcome_mapM_eq_ok_iff]
  exact exists_forall₂_iff

theorem questions_bind_pure (x : Traced α) (g : α → β) :
    (x >>= fun a => pure (g a)).questions = x.questions := by
  cases hx : x.outcome with
  | error e => rw [questions_bind_error hx]
  | ok a => rw [questions_bind_ok hx, questions_pure, List.append_nil]

/-- Steps that succeed ask their questions and hand over to the steps behind them. -/
theorem questions_mapM_append {f : α → Traced β} {xs ys : List α}
    (h : ∀ x ∈ xs, ∃ y, (f x).outcome = .ok y) :
    ((xs ++ ys).mapM f).questions
      = (xs.flatMap fun x => (f x).questions) ++ (ys.mapM f).questions := by
  induction xs with
  | nil => rfl
  | cons x xs ih =>
    obtain ⟨y, hy⟩ := h x (by simp)
    rw [List.cons_append, List.mapM_cons, questions_bind_ok hy, questions_bind_pure,
      ih fun z hz => h z (List.mem_cons_of_mem _ hz), List.flatMap_cons, List.append_assoc]

theorem questions_mapM_of_ok {f : α → Traced β} {xs : List α} {ys : List β}
    (h : (xs.mapM f).outcome = .ok ys) :
    (xs.mapM f).questions = xs.flatMap fun x => (f x).questions := by
  have hall := exists_outcome_mapM_eq_ok_iff.mp ⟨ys, h⟩
  have hq : ((xs ++ []).mapM f).questions = _ := questions_mapM_append hall
  rw [List.append_nil] at hq
  rw [hq, List.mapM_nil, questions_pure, List.append_nil]

theorem questions_mapM_of_error {f : α → Traced β} {x : α} {xs : List α} {e : QueryError}
    (h : (f x).outcome = .error e) : ((x :: xs).mapM f).questions = (f x).questions := by
  rw [List.mapM_cons, questions_bind_error h]

end Traced

end RowQuery
