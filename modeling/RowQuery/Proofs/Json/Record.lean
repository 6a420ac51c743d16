import RowQuery.Json.Reader
import RowQuery.Proofs.Outcome

/-!
# Records read field by field

What a reader of records does with a member, before it looks at the value, is settled by the name
and by the fields that are read already (`Doc.turn`). Its steps only decide what becomes of the
values. Three things follow, each by induction on the members, and on the items where a record is
an array.

The members of a written record are put in one after the other. What every step keeps is kept by
the whole reader; since no field is read twice, it is enough to ask this of the fields that are not
read yet. And two readers of one record that differ in their steps alone can be compared step by
step.

## Two readers of one record

Of two readers, one may refuse a value where the other one keeps it and goes on. The first one stops
there, so nothing can be said of what it would have made of the rest. `Follows R S x y` says that
`y` has read something that corresponds to what `x` has read (`R`), or has refused something that is
still there in what `x` has read, if `x` comes to an end at all (`S`).

## Main definitions

* `Doc.Turn`, `Doc.turn`: what is done with a member.
* `Follows`: one reader keeps step with another one, or stops before it for a reason.

## Main results

* `Doc.readRecord_named`: a written record.
* `Doc.readRecord_append_unknown`: the same in an object with another member.
* `Doc.readRecord_keeps`: what the steps keep.
* `Doc.readRecord_follows`: readers whose steps follow each other.
-/

namespace RowQuery.Json

/-! ### Keeping step -/

/-- The second reader has read something that corresponds to what the first one has read, or else
has refused something that is there in whatever the first one has read. -/
inductive Follows {α β : Type} (R : α → β → Prop) (S : Fault → α → Prop) :
    Except Fault α → Except Fault β → Prop where
  | ok {a : α} {b : β} (h : R a b) : Follows R S (.ok a) (.ok b)
  | error {x : Except Fault α} {f : Fault} (h : ∀ a, x = .ok a → S f a) : Follows R S x (.error f)

namespace Follows

variable {α β γ δ : Type} {R : α → β → Prop} {S : Fault → α → Prop} {R' : γ → δ → Prop}
  {S' : Fault → γ → Prop}

/-- A common fault. -/
theorem fault (f : Fault) : Follows R S (.error f) (.error f) :=
  .error fun _ h => nomatch h

theorem of_ok {a : α} {y : Except Fault β} (h : Follows R S (.ok a) y) :
    (∃ b, y = .ok b ∧ R a b) ∨ ∃ f, y = .error f ∧ S f a := by
  cases h with
  | ok h => exact .inl ⟨_, rfl, h⟩
  | error h => exact .inr ⟨_, rfl, h a rfl⟩

theorem of_ok_right {x : Except Fault α} {b : β} (h : Follows R S x (.ok b)) :
    ∃ a, x = .ok a ∧ R a b := by
  cases h with
  | ok h => exact ⟨_, rfl, h⟩

theorem imp {T : Fault → α → Prop} {x : Except Fault α} {y : Except Fault β}
    (h : Follows R S x y) (hST : ∀ f a, S f a → T f a) : Follows R T x y := by
  cases h with
  | ok h => exact .ok h
  | error h => exact .error fun a ha => hST _ a (h a ha)

theorem bind {x : Except Fault α} {y : Except Fault β} {f : α → Except Fault γ}
    {g : β → Except Fault δ} (h : Follows R S x y)
    (hok : ∀ a b, R a b → Follows R' S' (f a) (g b))
    (hkeep : ∀ e a c, S e a → f a = .ok c → S' e c) : Follows R' S' (x >>= f) (y >>= g) := by
  cases h with
  | ok h => exact hok _ _ h
  | error h =>
    refine .error fun c hc => ?_
    obtain ⟨a, ha, hf⟩ := bind_eq_ok.mp hc
    exact hkeep _ a c (h a ha) hf

/-- Both go on from one value. -/
theorem bind_same {x : Except Fault α} {f : α → Except Fault γ} {g : α → Except Fault δ}
    (h : ∀ a, Follows R' S' (f a) (g a)) : Follows R' S' (x >>= f) (x >>= g) := by
  cases x with
  | ok a => exact h a
  | error e => exact fault e

theorem map_some {x : Except Fault α} {y : Except Fault β} (h : Follows R S x y) :
    Follows (Option.Rel R) (fun f o => ∃ a ∈ o, S f a) (x.map some) (y.map some) := by
  cases h with
  | ok h => exact .ok (.some h)
  | error h =>
    refine .error fun o ho => ?_
    cases x with
    | ok a =>
      cases ho
      exact ⟨a, rfl, h a rfl⟩
    | error e => cases ho

end Follows

namespace Doc

variable {ι σ τ : Type} [DecidableEq ι] {field? : String → Option ι}

/-! ### One member -/

/-- What is done with a member of a record. -/
inductive Turn (ι : Type) where
  /-- The record cannot be read on. -/
  | refuse (f : Fault)
  /-- The member is for no field. -/
  | pass
  /-- The member's value is put in for a field. -/
  | put (i : ι)

/-- What is done with a member, by its name and by the fields that are read already. -/
def turn (field? : String → Option ι) (seen : List ι) (m : Except Fault String × Doc) : Turn ι :=
  match m.1 with
  | .error f => .refuse f
  | .ok name =>
    match field? name with
    | none =>
      match m.2.passOver? with
      | some f => .refuse f
      | none => .pass
    | some i => if i ∈ seen then .refuse (.misfit none) else .put i

/-- No field is read twice. -/
theorem not_mem_of_turn {seen : List ι} {m : Except Fault String × Doc} {i : ι}
    (h : turn field? seen m = .put i) : i ∉ seen := by
  unfold turn at h
  split at h
  · cases h
  · split at h
    · split at h <;> cases h
    · split at h
      · cases h
      · cases h
        assumption

/-- The reader takes its turn and goes on. -/
theorem readMembers_cons (step : ι → Doc → σ → Except Fault σ) (seen : List ι)
    (m : Except Fault String × Doc) (members : List (Except Fault String × Doc)) (acc : σ) :
    readMembers field? step seen (m :: members) acc =
      match turn field? seen m with
      | .refuse f => .error f
      | .pass => readMembers field? step seen members acc
      | .put i => step i m.2 acc >>= readMembers field? step (i :: seen) members := by
  obtain ⟨_ | name, d⟩ := m
  · rfl
  · simp only [readMembers, turn, bind, Except.bind]
    cases field? name with
    | none => cases d.passOver? <;> rfl
    | some i => by_cases hi : i ∈ seen <;> simp [hi]

/-! ### Values that may be null -/

theorem of_optional_eq_ok {α : Type} {read : Doc → Except Fault α} {d : Doc} {a : α}
    (h : optional read d = .ok (some a)) : read d = .ok a := by
  unfold optional at h
  split at h
  · cases h
  · cases hread : read d with
    | ok b =>
      rw [hread] at h
      cases h
      rfl
    | error f =>
      rw [hread] at h
      cases h

/-! ### Values that nobody wants -/

mutual

/-- Nothing is wrong with the tree of a value, for a reader that passes over it. -/
theorem passOver?_ofValue (j : Json) : passOver? (ofValue j) = none := by
  match j with
  | .null => rfl
  | .bool b => rfl
  | .number n => rfl
  | .text s => rfl
  | .array items => rw [ofValue, passOver?, passOverItems?_ofItems]; rfl
  | .object members => rw [ofValue, passOver?, passOverMembers?_ofMembers]; rfl

theorem passOverItems?_ofItems (items : List Json) :
    passOverItems? (ofValue.ofItems items) = none := by
  match items with
  | [] => rfl
  | item :: items =>
    rw [ofValue.ofItems, passOverItems?, passOver?_ofValue, passOverItems?_ofItems]
    rfl

theorem passOverMembers?_ofMembers (members : List (String × Json)) :
    passOverMembers? (ofValue.ofMembers members) = none := by
  match members with
  | [] => rfl
  | (name, member) :: members =>
    rw [ofValue.ofMembers, passOverMembers?, passOver?_ofValue, passOverMembers?_ofMembers]
    rfl

end

/-! ### Written records -/

/-- Members named after fields are put in one after the other. -/
theorem readMembers_named {name : ι → String} (hname : ∀ i, field? (name i) = some i)
    (step : ι → Doc → σ → Except Fault σ) (fields : List (ι × Json)) (seen : List ι)
    (hseen : (fields.map Prod.fst).Nodup) (hnew : ∀ f ∈ fields, f.1 ∉ seen) (acc : σ) :
    readMembers field? step seen (ofValue.ofMembers (fields.map fun f => (name f.1, f.2))) acc
      = fields.foldlM (fun acc f => step f.1 (ofValue f.2) acc) acc := by
  induction fields generalizing seen acc with
  | nil => rfl
  | cons f fields ih =>
    have hturn : turn field? seen (.ok (name f.1), ofValue f.2) = .put f.1 := by
      simp [turn, hname, hnew f List.mem_cons_self]
    rw [List.map_cons, ofValue.ofMembers, readMembers_cons, hturn, List.foldlM_cons]
    rw [List.map_cons, List.nodup_cons] at hseen
    refine congrArg (step f.1 (ofValue f.2) acc >>= ·) (funext fun acc => ?_)
    refine ih (f.1 :: seen) hseen.2 (fun g hg => ?_) acc
    rw [List.mem_cons, not_or]
    refine ⟨fun heq => hseen.1 ?_, hnew g (List.mem_cons_of_mem f hg)⟩
    exact heq ▸ List.mem_map_of_mem hg

/-- **A written record** is read by its steps, in the order in which the fields were written. -/
theorem readRecord_named {name : ι → String} (hname : ∀ i, field? (name i) = some i)
    {all : List ι} {step : ι → Doc → σ → Except Fault σ} {default : σ}
    (fields : List (ι × Json)) (hfields : (fields.map Prod.fst).Nodup) :
    readRecord all field? step default
        (ofValue (.object (fields.map fun f => (name f.1, f.2))))
      = fields.foldlM (fun acc f => step f.1 (ofValue f.2) acc) default := by
  rw [ofValue, readRecord, readMembers_named hname step fields [] hfields (by simp)]
  exact bind_pure _

/-- Members that are passed over change nothing. -/
theorem readMembers_of_pass {step : ι → Doc → σ → Except Fault σ}
    {more : List (Except Fault String × Doc)} {seen : List ι}
    (hmore : ∀ m ∈ more, turn field? seen m = .pass) (acc : σ) :
    readMembers field? step seen more acc = .ok acc := by
  induction more with
  | nil => rfl
  | cons m more ih =>
    obtain ⟨hm, hmore⟩ := List.forall_mem_cons.mp hmore
    rw [readMembers_cons, hm]
    exact ih hmore

theorem readMembers_append_of_pass {step : ι → Doc → σ → Except Fault σ}
    {more : List (Except Fault String × Doc)}
    (hmore : ∀ seen, ∀ m ∈ more, turn field? seen m = .pass)
    (members : List (Except Fault String × Doc)) (seen : List ι) (acc : σ) :
    readMembers field? step seen (members ++ more) acc
      = readMembers field? step seen members acc := by
  induction members generalizing seen acc with
  | nil => exact readMembers_of_pass (hmore seen) acc
  | cons m members ih =>
    rw [List.cons_append, readMembers_cons, readMembers_cons]
    cases turn field? seen m with
    | refuse f => rfl
    | pass => exact ih seen acc
    | put i => exact congrArg (step i m.2 acc >>= ·) (funext (ih (i :: seen)))

theorem ofMembers_append (members more : List (String × Json)) :
    ofValue.ofMembers (members ++ more) = ofValue.ofMembers members ++ ofValue.ofMembers more := by
  induction members with
  | nil => rfl
  | cons m members ih =>
    rw [List.cons_append, ofValue.ofMembers, ofValue.ofMembers, ih, List.cons_append]

/-- **A record in an object with another member**: what else stands in the object is nothing to the
record, whatever value it has. -/
theorem readRecord_append_unknown {all : List ι} {step : ι → Doc → σ → Except Fault σ} {default : σ}
    {name : String} (hname : field? name = none) (members : List (String × Json)) (j : Json) :
    readRecord all field? step default (ofValue (.object (members ++ [(name, j)])))
      = readRecord all field? step default (ofValue (.object members)) := by
  have hpass : ∀ seen : List ι, ∀ m ∈ ofValue.ofMembers [(name, j)],
      turn field? seen m = .pass := by
    refine fun seen => List.forall_mem_singleton.mpr ?_
    simp only [turn, hname, passOver?_ofValue]
  rw [ofValue, ofValue, readRecord, readRecord, ofMembers_append, readMembers_append_of_pass hpass]

/-- A written list is read back if its items are. -/
theorem readList_written {α : Type} {read : Nat → Doc → Except Fault α} {write : α → Json}
    {depth : Nat} (h : ∀ a, read depth (ofValue (write a)) = .ok a) (as : List α) :
    readList read (depth + 1) (ofValue (.array (as.map write))) = .ok as := by
  have hitems : (ofValue.ofItems (as.map write)).mapM (read depth) = .ok as := by
    induction as with
    | nil => rfl
    | cons a as ih =>
      rw [List.map_cons, ofValue.ofItems, List.mapM_cons, h, ih]
      rfl
  rw [ofValue, readList, hitems]
  rfl

/-! ### What the steps keep -/

theorem readMembers_keeps {P : σ → Prop} {step : ι → Doc → σ → Except Fault σ} {seen : List ι}
    (hstep : ∀ i ∉ seen, ∀ d a b, P a → step i d a = .ok b → P b)
    {members : List (Except Fault String × Doc)} {acc acc' : σ} (hacc : P acc)
    (h : readMembers field? step seen members acc = .ok acc') : P acc' := by
  induction members generalizing seen acc with
  | nil =>
    cases h
    exact hacc
  | cons m members ih =>
    rw [readMembers_cons] at h
    cases hturn : turn field? seen m with
    | refuse f => simp [hturn] at h
    | pass =>
      simp only [hturn] at h
      exact ih hstep hacc h
    | put i =>
      simp only [hturn] at h
      obtain ⟨a, ha, h⟩ := bind_eq_ok.mp h
      have hi := not_mem_of_turn hturn
      exact ih (fun j hj => hstep j fun hmem => hj (List.mem_cons_of_mem i hmem))
        (hstep i hi m.2 acc a hacc ha) h

omit [DecidableEq ι] in
theorem readItems_keeps {P : σ → Prop} {step : ι → Doc → σ → Except Fault σ} {ending : Ending}
    {fields : List ι} (hstep : ∀ i ∈ fields, ∀ d a b, P a → step i d a = .ok b → P b)
    {items : List Doc} {acc acc' : σ} (hacc : P acc)
    (h : readItems step ending fields items acc = .ok acc') : P acc' := by
  induction fields generalizing items acc with
  | nil =>
    cases items with
    | nil =>
      cases ending <;> cases h
      exact hacc
    | cons item items => cases h
  | cons i fields ih =>
    cases items with
    | nil =>
      obtain ⟨-, -, h⟩ := bind_eq_ok.mp h
      cases h
      exact hacc
    | cons item items =>
      obtain ⟨a, ha, h⟩ := bind_eq_ok.mp h
      exact ih (fun j hj => hstep j (List.mem_cons_of_mem i hj))
        (hstep i List.mem_cons_self item acc a hacc ha) h

/-- **What all steps keep**, a record that is read has, if the defaults have it. -/
theorem readRecord_keeps {P : σ → Prop} {all : List ι} {step : ι → Doc → σ → Except Fault σ}
    (hstep : ∀ i d a b, P a → step i d a = .ok b → P b) {default acc : σ} (hdefault : P default)
    {d : Doc} (h : readRecord all field? step default d = .ok acc) : P acc := by
  cases d with
  | object members ending =>
    obtain ⟨a, ha, h⟩ := bind_eq_ok.mp h
    obtain ⟨-, -, h⟩ := bind_eq_ok.mp h
    cases h
    exact readMembers_keeps (fun i _ => hstep i) hdefault ha
  | array items ending => exact readItems_keeps (fun i _ => hstep i) hdefault h
  | _ => cases h

/-! ### Two readers of one record -/

section Follows

variable {R : σ → τ → Prop} {S : ι → Fault → σ → Prop} {step : ι → Doc → σ → Except Fault σ}
  {step' : ι → Doc → τ → Except Fault τ}

theorem readMembers_follows
    (hstep : ∀ i d a b, R a b → Follows R (S i) (step i d a) (step' i d b))
    (hkeep : ∀ i j f d a b, j ≠ i → S i f a → step j d a = .ok b → S i f b)
    (members : List (Except Fault String × Doc)) (seen : List ι) {a : σ} {b : τ} (hR : R a b) :
    Follows R (fun f a => ∃ i, S i f a) (readMembers field? step seen members a)
      (readMembers field? step' seen members b) := by
  induction members generalizing seen a b with
  | nil => exact .ok hR
  | cons m members ih =>
    rw [readMembers_cons, readMembers_cons]
    cases turn field? seen m with
    | refuse f => exact .fault f
    | pass => exact ih seen hR
    | put i =>
      refine (hstep i m.2 a b hR).bind (fun a b => ih (i :: seen)) fun f a c hS hread => ⟨i, ?_⟩
      -- The field is read, so it is not read again.
      have hother : ∀ j ∉ i :: seen, j ≠ i := fun j hj h => hj (h ▸ List.mem_cons_self)
      exact readMembers_keeps (fun j hj d a b => hkeep i j f d a b (hother j hj)) hS hread

omit [DecidableEq ι] in
theorem readItems_follows
    (hstep : ∀ i d a b, R a b → Follows R (S i) (step i d a) (step' i d b))
    (hkeep : ∀ i j f d a b, j ≠ i → S i f a → step j d a = .ok b → S i f b)
    (ending : Ending) (items : List Doc) {fields : List ι} (hfields : fields.Nodup) {a : σ} {b : τ}
    (hR : R a b) :
    Follows R (fun f a => ∃ i, S i f a) (readItems step ending fields items a)
      (readItems step' ending fields items b) := by
  induction fields generalizing items a b with
  | nil =>
    cases items with
    | nil =>
      cases ending with
      | closed => exact .ok hR
      | broken => exact .fault _
      | dangling => exact .fault _
    | cons => exact .fault _
  | cons i fields ih =>
    obtain ⟨hi, hfields⟩ := List.nodup_cons.mp hfields
    cases items with
    | nil => exact Follows.bind_same fun _ => .ok hR
    | cons item items =>
      refine (hstep i item a b hR).bind (fun a b => ih items hfields) fun f a c hS hread => ⟨i, ?_⟩
      have hother : ∀ j ∈ fields, j ≠ i := fun j hj h => hi (h ▸ hj)
      exact readItems_keeps (fun j hj d a b => hkeep i j f d a b (hother j hj)) hS hread

omit [DecidableEq ι] in
theorem optional_follows {α β : Type} {R : α → β → Prop} {S : Fault → α → Prop}
    {read : Doc → Except Fault α} {read' : Doc → Except Fault β}
    (h : ∀ d, Follows R S (read d) (read' d)) (d : Doc) :
    Follows (Option.Rel R) (fun f o => ∃ a ∈ o, S f a) (optional read d) (optional read' d) := by
  cases d with
  | null => exact .ok .none
  | _ => exact (h _).map_some

/-- **Two readers of one record keep step** as their steps do. What the second one refuses in a
field is still there at the end of the first one, if no step for another field removes it. -/
theorem readRecord_follows
    (hstep : ∀ i d a b, R a b → Follows R (S i) (step i d a) (step' i d b))
    (hkeep : ∀ i j f d a b, j ≠ i → S i f a → step j d a = .ok b → S i f b)
    {all : List ι} (hall : all.Nodup) {a : σ} {b : τ} (hR : R a b) (d : Doc) :
    Follows R (fun f a => ∃ i, S i f a) (readRecord all field? step a d)
      (readRecord all field? step' b d) := by
  cases d with
  | object members ending =>
    refine (readMembers_follows hstep hkeep members [] hR).bind (fun a b hR => ?_) ?_
    · exact Follows.bind_same fun _ => .ok hR
    · rintro f a c ⟨i, hS⟩ hread
      obtain ⟨-, -, h⟩ := bind_eq_ok.mp hread
      cases h
      exact ⟨i, hS⟩
  | array items ending => exact readItems_follows hstep hkeep ending items hall hR
  | _ => exact .fault _

end Follows

end Doc

/-! ### Whole texts -/

theorem read_eq_ok {α : Type} {reader : Doc → Except Fault α} {s : String} {a : α} :
    read reader s = .ok a ↔ reader (Doc.ofText s).1 = .ok a ∧ (Doc.ofText s).2 = false := by
  rw [read, bind_eq_ok]
  cases (Doc.ofText s).2 <;> simp

/-- Readers of whole texts keep step as readers of their trees do. -/
theorem Follows.ofText {α β : Type} {R : α → β → Prop} {S : Fault → α → Prop}
    {reader : Doc → Except Fault α} {reader' : Doc → Except Fault β}
    (h : ∀ d, Follows R S (reader d) (reader' d)) (s : String) :
    Follows R S (Json.read reader s) (Json.read reader' s) := by
  unfold Json.read
  obtain ⟨doc, more⟩ := Doc.ofText s
  cases more with
  | true => exact (h doc).bind (fun _ _ _ => .fault _) fun _ _ _ _ h => nomatch h
  | false =>
    refine (h doc).bind (fun _ _ hR => .ok hR) ?_
    rintro f a c hS ⟨⟩
    exact hS

end RowQuery.Json
