import RowQuery.Proofs.Defaults.Process

/-!
# Whatever the schedule

Steps of many threads alternate in any way. What is published depends on the writes alone, in the
order of their sections. A call depends on one moment alone, that of its one section. So a run is
as good as one in which the calls are made one after the other, each at its moment.

## What is known of a call that is under way

A call whose section is still to come has all of its code before it. A call whose section is past
has only looks before it, all behind the handle that it took. What these will show is settled
already, since no cell is written twice, and so the result of the call is settled: it is the one for
what was published at its section. The steps of other threads add cells and take none away, so they
leave both as they are.

A call never waits for another one, except for a lock that is held for one step. Its thread can
always bring it to an end, with the result that is settled.

## Main definitions

* `publishedAfter`: what the writes among some actions publish.
* `Answered`: the section of a call, and the result that it settles.
* `Underway`, `Consistent`: what is known of a call and of a process in the course of a run.

## Main results

* `Consistent.step`, `Run.consistent`: a step and a run keep what is known.
* `Consistent.answered_of_finish`, `Consistent.exists_run`: how a call ends, and that it can.
* `Run.linearizes`: any run of any number of threads.
-/

namespace RowQuery.Defaults

variable {θ : Type}

/-! ### Histories -/

/-- The writes among some actions. -/
def writes (actions : List (Action θ)) : List Write :=
  actions.filterMap Action.write?

/-- What is published after some actions of a process that starts anew. -/
def publishedAfter (actions : List (Action θ)) : Config :=
  publishedBy (writes actions)

/-- The thread has started a call and has done nothing since. -/
def Begun (history : List (Action θ)) (i : θ) (c : Call) : Prop :=
  ∃ earlier later, history = earlier ++ .start i c :: later ∧ ∀ x ∈ later, x.thread ≠ i

/-- The action is the section of a call that returns the result, if the configuration is published
at that moment. -/
inductive Action.Answers (config : Config) (i : θ) : Action θ → (c : Call) → c.Result → Prop where
  | write (w : Write) : Answers config i (.write i w) (.write w) w.record?
  | defaults (h : Handle) : Answers config i (.snapshot i h) .defaults h
  | task (h : Handle) (t : Task) : Answers config i (.snapshot i h) (.task t) (t.under config)

/-- The thread has started a call and has been through its one section. The result is settled by
what was published at that moment. -/
def Answered (history : List (Action θ)) (i : θ) (c : Call) (a : c.Result) : Prop :=
  ∃ earlier action later, history = earlier ++ action :: later ∧ Begun earlier i c ∧
    action.Answers (publishedAfter earlier) i c a ∧
    ∀ x ∈ later, x.thread = i → ∃ h, x = .look i h

variable {history : List (Action θ)} {i : θ} {c : Call} {x : Action θ}

theorem writes_append_write (before : List (Action θ)) (i : θ) (w : Write)
    (after : List (Action θ)) :
    writes (before ++ .write i w :: after) = writes before ++ w :: writes after := by
  rw [writes, List.filterMap_append,
    List.filterMap_cons_some (show (Action.write i w).write? = some w from rfl)]
  rfl

theorem publishedAfter_append_singleton :
    publishedAfter (history ++ [x])
      = match x.write? with
        | some w => w.apply (publishedAfter history)
        | none => publishedAfter history := by
  rw [publishedAfter, writes, List.filterMap_append]
  cases hx : x.write? with
  | none =>
    rw [List.filterMap_cons_none hx, List.filterMap_nil, List.append_nil]
    rfl
  | some w =>
    rw [List.filterMap_cons_some hx, List.filterMap_nil, publishedBy_append_singleton]
    rfl

theorem begun_start (history : List (Action θ)) (i : θ) (c : Call) :
    Begun (history ++ [.start i c]) i c :=
  ⟨history, [], rfl, by simp⟩

theorem Begun.append (h : Begun history i c) (hx : x.thread ≠ i) : Begun (history ++ [x]) i c := by
  obtain ⟨earlier, later, rfl, hlater⟩ := h
  refine ⟨earlier, later ++ [x], by simp, fun y hy => ?_⟩
  rcases List.mem_append.mp hy with hy | hy
  · exact hlater y hy
  · obtain rfl := List.mem_singleton.mp hy
    exact hx

theorem Begun.answered {a : c.Result} (h : Begun history i c)
    (hx : x.Answers (publishedAfter history) i c a) : Answered (history ++ [x]) i c a :=
  ⟨history, x, [], rfl, h, hx, by simp⟩

theorem Answered.append {a : c.Result} (h : Answered history i c a)
    (hx : x.thread = i → ∃ hd, x = .look i hd) : Answered (history ++ [x]) i c a := by
  obtain ⟨earlier, action, later, rfl, hbegun, hanswers, hlater⟩ := h
  refine ⟨earlier, action, later ++ [x], by simp, hbegun, hanswers, fun y hy => ?_⟩
  rcases List.mem_append.mp hy with hy | hy
  · exact hlater y hy
  · obtain rfl := List.mem_singleton.mp hy
    exact hx

/-! ### Settled results -/

/-- The code only looks, and with what it finds in the memory it comes to the result. -/
inductive Code.Yields (m : Memory) {α : Type} : Code α → α → Prop where
  | done (a : α) : Yields m (.done a) a
  | look {h : Handle} {next : Config → Code α} {config : Config} {a : α}
      (hread : m.read? h = some config) (hnext : (next config).Yields m a) :
    Yields m (.look h next) a

namespace Code

variable {α : Type} {m m' : Memory}

/-- A result that is settled stays so if no cell is lost. -/
theorem Yields.mono {code : Code α} {a : α} (h : code.Yields m a)
    (hkeeps : ∀ hd config, m.read? hd = some config → m'.read? hd = some config) :
    code.Yields m' a := by
  induction h with
  | done a => exact .done a
  | look hread _ ih => exact .look (hkeeps _ _ hread) ih

/-- **Looks behind one handle** all show one configuration. -/
theorem yields_through {h : Handle} {config : Config} (hread : m.read? h = some config)
    (x : Stepwise α) : (through h x).Yields m (x.under config) := by
  induction x with
  | done x => exact .done x
  | look next ih => exact .look hread (ih config)

end Code

/-- What is known of a call that is under way: its section is to come, or its result is settled. -/
inductive Underway (history : List (Action θ)) (m : Memory) (i : θ) (c : Call)
    (rest : Code c.Result) : Prop where
  | begun (hrest : rest = c.code) (h : Begun history i c)
  | answered {a : c.Result} (h : Answered history i c a) (hrest : rest.Yields m a)

/-- The steps of other threads change nothing about a call. -/
theorem Underway.append {m m' : Memory} {rest : Code c.Result} (h : Underway history m i c rest)
    (hx : x.thread ≠ i)
    (hkeeps : ∀ hd config, m.read? hd = some config → m'.read? hd = some config) :
    Underway (history ++ [x]) m' i c rest := by
  cases h with
  | begun hrest h => exact .begun hrest (h.append hx)
  | answered h hrest => exact .answered (h.append fun heq => absurd heq hx) (hrest.mono hkeeps)

/-! ### Steps -/

/-- What is known of a process, from what was done. -/
structure Consistent (history : List (Action θ)) (p : Process θ) : Prop where
  published : p.memory.published = publishedAfter history
  threads : ∀ i c rest, p.threads i = .running c rest → Underway history p.memory i c rest

theorem consistent_initial : Consistent [] (.initial : Process θ) :=
  ⟨rfl, fun _ _ _ hrun => by cases hrun⟩

variable [DecidableEq θ] {p q : Process θ}

/-- Writes publish what they make of what was published, and other actions publish nothing. -/
theorem Consistent.published_of_step (h : Consistent history p) (hstep : Step p x q) :
    q.memory.published = publishedAfter (history ++ [x]) := by
  rw [publishedAfter_append_singleton, ← h.published]
  cases hstep <;> rfl

/-- The thread that takes a step has gone on with its call. -/
theorem Consistent.underway_of_step (h : Consistent history p) (hstep : Step p x q) {c : Call}
    {rest : Code c.Result} (hrun : q.threads x.thread = .running c rest) :
    Underway (history ++ [x]) q.memory x.thread c rest := by
  cases hstep with
  | @start i c' hidle =>
    rw [Action.thread, Process.threads_set_self] at hrun
    cases hrun
    exact .begun rfl (begun_start history i c)
  | @write i c' w next hrun' =>
    have hunderway := h.threads i c' _ hrun'
    have hthread : (p.set i (.running c' next)).threads i = .running c rest := hrun
    rw [Process.threads_set_self] at hthread
    cases hthread
    cases hunderway with
    | begun hcode hbegun =>
      cases c with
      | write w' =>
        cases hcode
        exact .answered (hbegun.answered (.write w)) (.done _)
      | defaults => cases hcode
      | task t => cases hcode
    | answered _ hyields => cases hyields
  | @snapshot i c' next hrun' =>
    have hunderway := h.threads i c' _ hrun'
    rw [Action.thread, Process.threads_set_self] at hrun
    cases hrun
    cases hunderway with
    | begun hcode hbegun =>
      cases c with
      | write w => cases hcode
      | defaults =>
        cases hcode
        exact .answered (hbegun.answered (.defaults _)) (.done _)
      | task t =>
        cases hcode
        have hyields := Code.yields_through p.memory.read?_handle t.stepwise
        rw [t.under_stepwise, h.published] at hyields
        exact .answered (hbegun.answered (.task _ t)) hyields
    | answered _ hyields => cases hyields
  | @look i c' hd next config hrun' hread =>
    have hunderway := h.threads i c' _ hrun'
    rw [Action.thread, Process.threads_set_self] at hrun
    cases hrun
    cases hunderway with
    | begun hcode _ => cases c <;> cases hcode
    | answered hanswered hyields =>
      cases hyields with
      | look hread' hnext =>
        cases hread.symm.trans hread'
        exact .answered (hanswered.append fun _ => ⟨hd, rfl⟩) hnext
  | @finish i c' a hrun' =>
    rw [Action.thread, Process.threads_set_self] at hrun
    cases hrun

/-- **A step keeps what is known**, of the thread that takes it and of all others. -/
theorem Consistent.step (h : Consistent history p) (hstep : Step p x q) :
    Consistent (history ++ [x]) q := by
  refine ⟨h.published_of_step hstep, fun j c rest hrun => ?_⟩
  by_cases hj : j = x.thread
  · subst hj
    exact h.underway_of_step hstep hrun
  · rw [hstep.threads_of_ne hj] at hrun
    exact (h.threads j c rest hrun).append (Ne.symm hj) fun _ _ => hstep.read?_eq_some

/-- **A run keeps what is known.** -/
theorem Run.consistent {actions : List (Action θ)} (h : Run .initial actions p) :
    Consistent actions p :=
  h.keeps (I := Consistent) Consistent.step consistent_initial

/-! ### The end of a call -/

/-- A call that ends has been answered. -/
theorem Consistent.answered_of_finish {a : c.Result} (h : Consistent history p)
    (hstep : Step p (.finish i c a) q) : Answered history i c a := by
  cases hstep with
  | finish hrun =>
    cases h.threads i c _ hrun with
    | begun hcode _ => cases c <;> cases hcode
    | answered hanswered hyields =>
      cases hyields
      exact hanswered

/-- A thread with nothing but looks before it can come to the end. -/
theorem Code.Yields.exists_run {rest : Code c.Result} {a : c.Result}
    (h : rest.Yields p.memory a) (hrun : p.threads i = .running c rest) :
    ∃ more q, (∀ x ∈ more, x.thread = i) ∧ Run p (more ++ [.finish i c a]) q := by
  generalize hm : p.memory = m at h
  induction h generalizing p with
  | done a => exact ⟨[], _, by simp, .cons (.finish hrun) .nil⟩
  | @look hd next config a hread _ ih =>
    have hstep : Step p (.look i hd) (p.set i (.running c (next config))) :=
      .look hrun (by rw [hm, hread])
    obtain ⟨more, q, hmore, h⟩ := ih (Process.threads_set_self ..) hm
    exact ⟨.look i hd :: more, q, List.forall_mem_cons.mpr ⟨rfl, hmore⟩, .cons hstep h⟩

/-- **A thread can always bring its call to an end**, whatever the others do. -/
theorem Consistent.exists_run (h : Consistent history p) {rest : Code c.Result}
    (hrun : p.threads i = .running c rest) :
    ∃ more a q, (∀ x ∈ more, x.thread = i) ∧ Run p (more ++ [.finish i c a]) q := by
  have settled : ∀ {x r rest a}, Step p x r → x.thread = i → r.threads i = .running c rest →
      rest.Yields r.memory a →
      ∃ more a q, (∀ x ∈ more, x.thread = i) ∧ Run p (more ++ [.finish i c a]) q := by
    intro x r rest a hstep hx hrun hyields
    obtain ⟨more, q, hmore, h⟩ := hyields.exists_run hrun
    exact ⟨x :: more, a, q, List.forall_mem_cons.mpr ⟨hx, hmore⟩, .cons hstep h⟩
  cases h.threads i c rest hrun with
  | answered _ hyields =>
    obtain ⟨more, q, hmore, h⟩ := hyields.exists_run hrun
    exact ⟨more, _, q, hmore, h⟩
  | begun hcode _ =>
    subst hcode
    cases c with
    | write w => exact settled (.write hrun) rfl (Process.threads_set_self ..) (.done _)
    | defaults => exact settled (.snapshot hrun) rfl (Process.threads_set_self ..) (.done _)
    | task t =>
      exact settled (.snapshot hrun) rfl (Process.threads_set_self ..)
        (Code.yields_through p.memory.read?_handle t.stepwise)

/-! ### Runs -/

/-- **No write is lost and no compilation is torn.** Take any run of any number of threads.

* At any moment what is published is what the writes have made, in the order of their sections. For
  each field that is what the last write to it left there, from what it found, or what was there at
  the start.
* What was taken as a snapshot reads as it did when it was taken.
* A call that ends has been through one section since it was started. What it returns is settled
  there, and what compiles returns what it does under the one configuration published then.
* A call that is under way can be brought to an end by its own thread. -/
theorem Run.linearizes {actions : List (Action θ)} (h : Run .initial actions p) :
    (∀ before after, actions = before ++ after →
        ∃ q, Run .initial before q ∧ Run q after p ∧
          q.memory.published = publishedAfter before) ∧
      (∀ f : Field,
        (∀ before i w after v, actions = before ++ .write i w :: after →
          w.Writes (publishedAfter before) f v → (∀ w' ∈ writes after, w'.Spares f) →
          f.of p.memory.published = v) ∧
        ((∀ w ∈ writes actions, w.Spares f) → f.of p.memory.published = f.of initial)) ∧
      (∀ before i hd after, actions = before ++ .snapshot i hd :: after →
        p.memory.read? hd = some (publishedAfter before)) ∧
      (∀ before i c a after, actions = before ++ .finish i c a :: after → Answered before i c a) ∧
      ∀ i c rest, p.threads i = .running c rest →
        ∃ more a q, (∀ x ∈ more, x.thread = i) ∧ Run p (more ++ [.finish i c a]) q := by
  have hconsistent := h.consistent
  refine ⟨?_, fun f => ⟨?_, ?_⟩, ?_, ?_, fun i c rest hrun => hconsistent.exists_run hrun⟩
  · rintro before after rfl
    obtain ⟨q, hbefore, hafter⟩ := h.exists_of_append
    exact ⟨q, hbefore, hafter, hbefore.consistent.published⟩
  · rintro before i w after v rfl hw hafter
    rw [hconsistent.published, publishedAfter, writes_append_write]
    exact of_publishedBy_append hw hafter
  · intro hspares
    rw [hconsistent.published]
    exact of_publishedBy_of_spares hspares
  · rintro before i hd after rfl
    obtain ⟨q, hbefore, hafter⟩ := h.exists_of_append
    cases hafter with
    | cons hstep hrest =>
      cases hstep with
      | snapshot hrun =>
        rw [← hbefore.consistent.published]
        exact hrest.read?_eq_some q.memory.read?_handle
  · rintro before i c a after rfl
    obtain ⟨q, hbefore, hafter⟩ := h.exists_of_append
    cases hafter with
    | cons hstep hrest => exact hbefore.consistent.answered_of_finish hstep

/-- One thread compiles a filter while another one replaces the defaults and then the operators in
them. The filter is still compiled under the defaults of the start, and fails for want of a
deserializer. -/
theorem Run.linearizes_two_threads :
    let s : Schema Int64 := ⟨"Item", [⟨"Age", ⟨.value, .int⟩, .int⟩]⟩
    let t : Task := .compile (.leaf ⟨"age", "gt", "3"⟩ .none) s
    let json : Write := .set .json
    let clear : Write := .setOperators .empty
    let actions : List (Action Bool) := [.start true (.task t), .snapshot true 0,
      .start false (.write json), .write false json, .look true 0,
      .finish false (.write json) json.record?, .start false (.write clear), .write false clear,
      .look true 0, .finish true (.task t) (t.under initial)]
    (t.under initial).outcome = .error (.missingDeserializer "Age" "3" "$") ∧
      ∃ p, Run .initial actions p ∧ p.memory.published = ⟨some .json, .empty⟩ ∧
        p.memory.read? 0 = some initial ∧
        ∃ more a q, (∀ x ∈ more, x.thread = false) ∧
          Run p (more ++ [.finish false (.write clear) a]) q := by
  intro s t json clear actions
  obtain ⟨p, hrun, hp⟩ : ∃ p, Run .initial actions p ∧
      p.threads false = .running (.write clear) (.done clear.record?) := by
    refine ⟨_, .cons (.start _ rfl) (.cons (.snapshot rfl) (.cons (.start _ rfl)
      (.cons (.write rfl) (.cons (.look rfl rfl) (.cons (.finish rfl) (.cons (.start _ rfl)
      (.cons (.write rfl) (.cons (.look rfl rfl) (.cons (.finish rfl) .nil))))))))), rfl⟩
  obtain ⟨hmoments, -, hsnapshots, -, hends⟩ := hrun.linearizes
  obtain ⟨_, -, hrest, hpublished⟩ := hmoments actions [] (List.append_nil _).symm
  cases hrest
  exact ⟨by rfl, p, hrun, hpublished, hsnapshots [.start true (.task t)] true 0 _ rfl,
    hends false _ _ hp⟩

end RowQuery.Defaults
