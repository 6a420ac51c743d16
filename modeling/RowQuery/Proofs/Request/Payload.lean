import RowQuery.Proofs.Json.Values
import RowQuery.Proofs.Request.RoundTrip

/-!
# A payload beside a request

A request that is written with a payload is an object of the fields of the request and one member
more. Three readers meet such an object.

* The reader of the payload takes the member of its name and leaves the rest as values. It goes into
  each of them, so the limit of 127 nested objects and arrays holds for the payload as it does for
  the filter.
* The request is read from these values, as from a text of its own. There is no field that the
  payload could be taken for.
* A reader of requests passes over the payload, however far it is nested.

What the payload holds is nothing to any of the three. It may have members named like fields of a
request, or like itself: a name counts only in the outermost object.

## Main results

* `Request.parse_render_payloaded`: a reader of requests does not see the payload.
* `Payloaded.read_toJson`: which requests with a payload are read back.
* `Payloaded.parse_render_payload`: the text of a request with a payload, read in both ways.
-/

namespace RowQuery

open Json (Fault Doc)

/-! ### Nesting -/

theorem FilterNode.depth_toJson (n : FilterNode) : n.toJson.depth = n.depth + 1 := by
  induction n with
  | leaf c o => rfl
  | branch l g r o ihl ihr =>
    simp [toJson, Json.depth, Json.membersDepth, ihl, ihr, FilterNode.depth]

theorem SortKey.itemsDepth_toJson (keys : List SortKey) :
    Json.itemsDepth (keys.map SortKey.toJson) ≤ 1 := by
  induction keys with
  | nil => exact Nat.zero_le 1
  | cons k keys ih =>
    rw [List.map_cons, Json.itemsDepth]
    exact Nat.max_le.mpr ⟨Nat.le_refl 1, ih⟩

/-- The filter decides how far the values of a request are nested. -/
theorem Request.membersDepth_members (r : QueryRequest) {n : Nat} (hn : 2 ≤ n) :
    Json.membersDepth r.members ≤ n + 1 ↔ r.filterDepth ≤ n := by
  obtain ⟨filter, sort, skip, take⟩ := r
  have hsort := SortKey.itemsDepth_toJson sort
  cases filter <;> cases skip <;> cases take <;>
    simp [members, Json.membersDepth, Json.depth, FilterNode.depth_toJson, filterDepth] <;> omega

/-! ### The request without the payload -/

namespace Payloaded

theorem readsBack_toJson {p : Payloaded} (h : p.payload.ReadsBack) : p.toJson.ReadsBack := by
  intro n hn
  obtain ⟨m, hm, hn⟩ := Json.mem_memberNumbers.mp hn
  rcases List.mem_append.mp hm with hm | hm
  · exact p.request.readsBack_toJson n (Json.mem_memberNumbers.mpr ⟨m, hm, hn⟩)
  · obtain rfl := List.mem_singleton.mp hm
    exact h n hn

end Payloaded

/-- **A reader of requests does not see the payload.** -/
theorem Request.parse_render_payloaded {p : Payloaded} (h : p.payload.ReadsBack) :
    parse p.render = parse p.request.render := by
  have hread : read .strict Except.ok Json.maxDepth (Doc.ofValue p.toJson)
      = read .strict Except.ok Json.maxDepth (Doc.ofValue p.request.toJson) := by
    rw [show Json.maxDepth = 126 + 1 from rfl, read, read, Payloaded.toJson,
      Doc.readRecord_append_unknown (by rfl), toJson]
  rw [parse, parse, Payloaded.render, render, Json.read_render (Payloaded.readsBack_toJson h),
    Json.read_render p.request.readsBack_toJson, hread]

/-! ### The payload and the request -/

namespace Payloaded

theorem payloadName_ne_name (f : RequestField) : f.name ≠ payloadName := by
  cases f <;> decide

/-- Members of other names are read as values. -/
theorem readMembers_others (depth : Nat) {others : List (String × Json)}
    (hnames : ∀ m ∈ others, m.1 ≠ payloadName) (more : List (Except Fault String × Doc))
    (payload : Option Json) (done : List (String × Json)) :
    readMembers depth (Doc.ofValue.ofMembers others ++ more) payload done =
      if Json.membersDepth others ≤ depth then
        readMembers depth more payload (others.reverse ++ done)
      else .error .malformed := by
  induction others generalizing done with
  | nil => rfl
  | cons m others ih =>
    obtain ⟨name, value⟩ := m
    obtain ⟨hname, hnames⟩ := List.forall_mem_cons.mp hnames
    rw [Doc.ofValue.ofMembers, List.cons_append, readMembers]
    simp only [bind, Except.bind, if_neg hname, Doc.value_ofValue, Json.membersDepth, Nat.max_le]
    by_cases hvalue : value.depth ≤ depth
    · simp only [hvalue, if_true, ih hnames, true_and, List.reverse_cons, List.append_assoc,
        List.singleton_append]
    · simp only [hvalue, if_false, false_and]

/-- The payload is told apart from the other members. -/
theorem readMembers_written (depth : Nat) {others : List (String × Json)}
    (hnames : ∀ m ∈ others, m.1 ≠ payloadName) (j : Json) :
    readMembers depth (Doc.ofValue.ofMembers (others ++ [(payloadName, j)])) none [] =
      if Json.membersDepth others ≤ depth ∧ j.depth ≤ depth then .ok (some j, others)
      else .error .malformed := by
  rw [Doc.ofMembers_append, readMembers_others depth hnames]
  by_cases hothers : Json.membersDepth others ≤ depth
  · simp only [hothers, if_true, true_and, Doc.ofValue.ofMembers, readMembers, bind, Except.bind,
      Option.isSome_none, Bool.false_eq_true, if_false, Doc.value_ofValue]
    by_cases hj : j.depth ≤ depth <;> simp [hj]
  · simp only [hothers, if_false, false_and]

/-- The request is made from its values, of which each has the name of a field. -/
theorem requestOf_members {r : QueryRequest} (h : r.filterDepth ≤ 125) :
    requestOf r.members = .ok (r.mapFilter FilterNode.cleared) := by
  have hknown : r.members.filter (fun m => (RequestField.ofName? m.1).isSome) = r.members := by
    refine List.filter_eq_self.mpr fun m hm => ?_
    rw [Request.members_eq_written] at hm
    obtain ⟨f, -, rfl⟩ := List.mem_map.mp hm
    simp only [RequestField.ofName?_name, Option.isSome_some]
  have hread : Request.read .buffered WireNode.toNodeOrMisfit (124 + 3) (Doc.ofValue r.toJson)
      = .ok (r.mapFilter FilterNode.cleared) := by
    rw [Request.read_toJson]
    obtain ⟨_ | n, sort, skip, take⟩ := r
    · rfl
    · have hn : n.depth < 124 + 2 := Nat.lt_succ_of_le h
      simp only [Request.finishWritten, WireNode.read_toJson, if_pos hn, bind, Except.bind,
        WireNode.toNodeOrMisfit, WireNode.toNode_ofNode]
      rfl
  simp only [requestOf, hknown]
  exact mapError_eq_ok.mpr hread

/-- **Which requests with a payload are read back.** The payload is kept by its names. -/
theorem read_toJson (p : Payloaded) :
    Payloaded.read Json.maxDepth (Doc.ofValue p.toJson) =
      if p.request.filterDepth ≤ 125 ∧ p.payload.depth ≤ 126 then
        .ok ⟨p.request.mapFilter FilterNode.cleared, p.payload.canonical⟩
      else .error .malformed := by
  have hnames : ∀ m ∈ p.request.members, m.1 ≠ payloadName := by
    intro m hm
    rw [Request.members_eq_written] at hm
    obtain ⟨f, -, rfl⟩ := List.mem_map.mp hm
    exact payloadName_ne_name f.1
  have hmembers := readMembers_written 126 hnames p.payload
  simp only [Request.membersDepth_members p.request (show 2 ≤ 125 by decide)] at hmembers
  rw [toJson, Doc.ofValue, show Json.maxDepth = 126 + 1 from rfl, read, hmembers]
  split
  · rename_i hwithin
    simp only [bind, Except.bind, Json.Ending.check, Json.Ending.fault?, Doc.required,
      requestOf_members hwithin.1]
  · rfl

/-- **A payload travels beside a request.** The text of both is read back as both exactly if filter
and payload are within their limits: the request without overrides, and the payload by its names,
which is the payload as it was if its members stood by name. Read as a request alone, the text gives
that request too, and the payload has no part in whether it does. -/
theorem parse_render_payload {p : Payloaded} (h : p.payload.Whole) :
    (parse p.render =
      if p.request.filterDepth ≤ 125 ∧ p.payload.depth ≤ 126 then
        .ok ⟨p.request.mapFilter FilterNode.cleared, p.payload.canonical⟩
      else .error .malformed) ∧
    (p.payload.Ordered → p.payload.canonical = p.payload) ∧
    Request.parse p.render =
      if p.request.filterDepth ≤ 125 then .ok (p.request.mapFilter FilterNode.cleared)
      else .error (.json .malformed) := by
  have hback := readsBack_toJson h.readsBack
  refine ⟨?_, Json.Ordered.canonical_eq, ?_⟩
  · rw [parse, render, Json.read_render hback, read_toJson]
  · rw [Request.parse_render_payloaded h.readsBack, Request.parse_render_eq]

/-- A payload of members that are named like the fields beside it, and of the extreme whole
numbers. -/
theorem parse_render_payload_alike :
    let r : QueryRequest := ⟨some (.leaf ⟨"age", "gt", "3"⟩ .none), [⟨"name", true, false⟩],
      none, some 2⟩
    let payload : Json := .object [("filter", .object [("condition", .null)]),
      ("payload", .array [.number (.int (-9223372036854775808)), .object []]),
      ("take", .number (.int 18446744073709551615))]
    payload.Whole ∧ payload.Ordered ∧
      parse (render ⟨r, payload⟩) = .ok ⟨r, payload⟩ ∧
      Request.parse (render ⟨r, payload⟩) = .ok r := by
  intro r payload
  have hwhole : payload.Whole := by
    simp [payload, Json.Whole, Json.InRange, Json.numbers, Json.itemNumbers, Json.memberNumbers,
      Json.Number.InRange]
  have hordered : payload.Ordered := by
    refine .object (by decide) ?_
    simp only [List.forall_mem_cons, List.not_mem_nil, false_implies, implies_true, and_true]
    refine ⟨.object (by decide) ?_, .array ?_, .scalar rfl⟩
    · exact List.forall_mem_singleton.mpr (.scalar rfl)
    · have hempty : (Json.object []).Ordered := .object .nil (by simp)
      exact List.forall_mem_cons.mpr ⟨.scalar rfl, List.forall_mem_singleton.mpr hempty⟩
  obtain ⟨hboth, hkept, halone⟩ := parse_render_payload (p := ⟨r, payload⟩) hwhole
  rw [if_pos (by decide), hkept hordered] at hboth
  rw [if_pos (by decide)] at halone
  exact ⟨hwhole, hordered, hboth, halone⟩

end Payloaded

end RowQuery
