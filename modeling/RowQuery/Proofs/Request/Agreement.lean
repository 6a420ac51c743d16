import RowQuery.Proofs.Json.Record
import RowQuery.Request.Text

/-!
# Two ways of reading a request agree

A request is read from a text in two ways. One reads the whole text first and then makes the tree of
the filter; the other makes the tree where the filter ends, and a malformed node is a misfit of the
text there. The second way may stop in the middle of a text that is faulty further on, so the two do
not always report the same. But they accept the same texts, with the same requests, and what the
first way reports of a filter node the second one reports as well.

## Main definitions

* `Request.Finished`: a request and the same request with the tree of its filter.

## Main results

* `Request.read_follows`: the two ways keep step, whatever is made of the filter.
* `Request.parse_agrees_decode`: they agree on whole texts.
-/

namespace RowQuery

open Json (Fault Doc Follows)

theorem RequestField.nodup_all : RequestField.all.Nodup := by
  decide

namespace Request

variable {φ : Type} {finish : WireNode → Except Fault φ}

/-- The same request, with what is made of its filter. -/
structure Finished (finish : WireNode → Except Fault φ) (a : Request WireNode) (b : Request φ) :
    Prop where
  filter : Option.Rel (fun w f => finish w = .ok f) a.filter b.filter
  sort : a.sort = b.sort
  skip : a.skip = b.skip
  take : a.take = b.take

/-- The filter is there, and nothing can be made of it. -/
def Refused (finish : WireNode → Except Fault φ) (i : RequestField) (f : Fault)
    (a : Request WireNode) : Prop :=
  i = .filter ∧ ∃ w ∈ a.filter, finish w = .error f

theorem put_follows (l : Leniency) (depth : Nat) (i : RequestField) (d : Doc)
    (a : Request WireNode) (b : Request φ) (hR : Finished finish a b) :
    Follows (Finished finish) (Refused finish i) (put l .ok depth i d a)
      (put l finish depth i d b) := by
  cases i with
  | filter =>
    have hnode : ∀ d, Follows (fun w f => finish w = .ok f) (fun f w => finish w = .error f)
        (WireNode.read l depth d >>= .ok) (WireNode.read l depth d >>= finish) := by
      refine fun d => .bind_same fun w => ?_
      cases hw : finish w with
      | ok f => exact .ok hw
      | error e =>
        refine .error ?_
        rintro w ⟨⟩
        exact hw
    refine (Doc.optional_follows hnode d).bind (fun w f hw => .ok { hR with filter := hw }) ?_
    rintro e o a' hS ⟨⟩
    exact ⟨rfl, hS⟩
  | sort => exact .bind_same fun keys => .ok { hR with sort := rfl }
  | skip => exact .bind_same fun n => .ok { hR with skip := rfl }
  | take => exact .bind_same fun n => .ok { hR with take := rfl }

/-- The other fields leave the filter as it is. -/
theorem put_keeps_refused (l : Leniency) (depth : Nat) (i j : RequestField) (f : Fault) (d : Doc)
    (a b : Request WireNode) (hij : j ≠ i) (hS : Refused finish i f a)
    (h : put l .ok depth j d a = .ok b) : Refused finish i f b := by
  obtain ⟨rfl, hS⟩ := hS
  cases j with
  | filter => exact absurd rfl hij
  | _ =>
    obtain ⟨_, -, h⟩ := bind_eq_ok.mp h
    cases h
    exact ⟨rfl, hS⟩

/-- **Reading a request and making its filter at once** keeps step with reading it first. -/
theorem read_follows (l : Leniency) (depth : Nat) (d : Doc) :
    Follows (Finished finish) (fun f a => ∃ w ∈ a.filter, finish w = .error f)
      (Request.read l .ok depth d) (Request.read l finish depth d) := by
  cases depth with
  | zero => exact .fault _
  | succ depth =>
    have hall : Finished finish all all := ⟨.none, rfl, rfl, rfl⟩
    refine (Doc.readRecord_follows (put_follows l depth) ?_ RequestField.nodup_all hall d).imp ?_
    · exact fun i j f d a b => put_keeps_refused l depth i j f d a b
    · rintro f a ⟨-, -, hS⟩
      exact hS

/-! ### Whole texts -/

theorem Finished.unique {a : Request WireNode} {b c : Request φ} (hb : Finished finish a b)
    (hc : Finished finish a c) : b = c := by
  obtain ⟨wire, sort, skip, take⟩ := a
  obtain ⟨f, _, _, _⟩ := b
  obtain ⟨g, _, _, _⟩ := c
  obtain ⟨hf, rfl, rfl, rfl⟩ := hb
  obtain ⟨hg, rfl, rfl, rfl⟩ := hc
  cases hf with
  | none =>
    cases hg
    rfl
  | some hf =>
    cases hg with
    | some hg =>
      cases hf.symm.trans hg
      rfl

theorem Finished.ne_error {a : Request WireNode} {b : Request φ} (h : Finished finish a b)
    {w : WireNode} (hw : w ∈ a.filter) (f : Fault) : finish w ≠ .error f := by
  obtain ⟨wire, _, _, _⟩ := a
  obtain ⟨g, _, _, _⟩ := b
  obtain ⟨hf, -, -, -⟩ := h
  cases hw
  cases hf with
  | some hf =>
    rw [hf]
    nofun

/-- A text is accepted if it can be read and a tree can be made of its filter. -/
theorem parse_eq_ok {s : String} {r : QueryRequest} :
    parse s = .ok r ↔ ∃ a, Json.read (Request.read .strict .ok Json.maxDepth) s = .ok a ∧
      Finished WireNode.toNodeOrMisfit a r := by
  rw [parse, bind_eq_ok]
  refine exists_congr fun a => and_congr mapError_eq_ok ?_
  obtain ⟨_ | w, sort, skip, take⟩ := a
  · constructor
    · rintro ⟨⟩
      exact ⟨.none, rfl, rfl, rfl⟩
    · exact fun h => congrArg Except.ok (Finished.unique ⟨.none, rfl, rfl, rfl⟩ h)
  · refine bind_eq_ok.trans ⟨?_, fun h => ?_⟩
    · rintro ⟨n, hn, ⟨⟩⟩
      exact ⟨.some (mapError_eq_ok.mpr hn), rfl, rfl, rfl⟩
    · obtain ⟨f, _, _, _⟩ := r
      obtain ⟨hf, rfl, rfl, rfl⟩ := h
      cases hf with
      | some hn => exact ⟨_, mapError_eq_ok.mp hn, rfl⟩

theorem of_parse_eq_invalidNode {s path reason : String}
    (h : parse s = .error (.invalidNode path reason)) :
    ∃ a, Json.read (Request.read .strict .ok Json.maxDepth) s = .ok a ∧
      ∃ w ∈ a.filter, w.toNode FilterNode.rootPath = .error (.invalidNode path reason) := by
  obtain h | ⟨a, ha, h⟩ := bind_eq_error.mp h
  · cases hread : Json.read (Request.read .strict .ok Json.maxDepth) s <;> rw [hread] at h <;>
      cases h
  · refine ⟨a, mapError_eq_ok.mp ha, ?_⟩
    obtain ⟨_ | w, sort, skip, take⟩ := a
    · cases h
    · obtain h | ⟨n, -, h⟩ := bind_eq_error.mp h
      · exact ⟨w, rfl, h⟩
      · cases h

/-- **The two ways of reading a request agree** on every text: on whether it is a request, on which
one, and on what is wrong with a filter node if that is all that is wrong. -/
theorem parse_agrees_decode (s : String) :
    (∀ r, parse s = .ok r ↔ decode s = .ok r) ∧
    ∀ path reason, parse s = .error (.invalidNode path reason) →
      decode s = .error (.misfit (some (QueryError.invalidNode path reason).message)) := by
  have hfollows : Follows (Finished WireNode.toNodeOrMisfit)
      (fun f a => ∃ w ∈ a.filter, w.toNodeOrMisfit = .error f)
      (Json.read (Request.read .strict .ok Json.maxDepth) s) (decode s) :=
    Follows.ofText (read_follows .strict Json.maxDepth) s
  refine ⟨fun r => ⟨fun h => ?_, fun h => ?_⟩, fun path reason h => ?_⟩
  · obtain ⟨a, hread, hr⟩ := parse_eq_ok.mp h
    rw [hread] at hfollows
    obtain ⟨b, hb, hR⟩ | ⟨f, -, w, hw, hf⟩ := hfollows.of_ok
    · rw [hb, hR.unique hr]
    · exact absurd hf (hr.ne_error hw f)
  · rw [h] at hfollows
    exact parse_eq_ok.mpr hfollows.of_ok_right
  · obtain ⟨a, hread, w, hw, hn⟩ := of_parse_eq_invalidNode h
    rw [hread] at hfollows
    have hmisfit : w.toNodeOrMisfit
        = .error (.misfit (some (QueryError.invalidNode path reason).message)) := by
      rw [WireNode.toNodeOrMisfit, hn]
      rfl
    obtain ⟨b, -, hR⟩ | ⟨f, hf, w', hw', hmisfit'⟩ := hfollows.of_ok
    · exact absurd hmisfit (hR.ne_error hw _)
    · cases Option.mem_unique hw hw'
      cases hmisfit.symm.trans hmisfit'
      exact hf

/-- A branch without its right child is found by both ways, in a request given by its fields in
order. -/
theorem parse_agrees_decode_of_branch :
    parse "[\x7b\"left\": [[\"age\", \"gt\", \"3\"]]\x7d]"
        = .error (.invalidNode "$" WireNode.noRightReason) ∧
      decode "[\x7b\"left\": [[\"age\", \"gt\", \"3\"]]\x7d]"
        = .error (.misfit (some (QueryError.invalidNode "$" WireNode.noRightReason).message)) := by
  have h : parse "[\x7b\"left\": [[\"age\", \"gt\", \"3\"]]\x7d]"
      = .error (.invalidNode "$" WireNode.noRightReason) := by cbv
  exact ⟨h, (parse_agrees_decode _).2 _ _ h⟩

end Request

end RowQuery
