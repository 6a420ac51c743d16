import RowQuery.Proofs.Request.WireNode

/-!
# Requests, written and read back

The text of a request reads back as the request, without the overrides of its filter, which are not
sent. There is one limit: a reader goes into at most 127 nested objects and arrays, of which one is
the request itself and one the condition of a leaf. So a filter with more than 125 nodes on a path
is written, and is malformed when it is read.

A request that has been read from some text has no overrides and is within the limit. So reading and
writing settle after one turn: what is read of its text is the request itself.

## Main definitions

* `Request.filterDepth`: the number of nodes on the longest path of the filter.
* `Request.written`: the fields that are sent.

## Main results

* `Request.read_toJson`: a written request, by any reader of requests.
* `Request.parse_render`: the two directions.
-/

namespace RowQuery

open Json (Fault Doc)

/-! ### Sort keys -/

theorem SortField.ofName?_name (f : SortField) : ofName? f.name = some f := by
  cases f <;> rfl

theorem SortKey.read_toJson (depth : Nat) (k : SortKey) :
    SortKey.read (depth + 1) (Doc.ofValue k.toJson) = .ok k := by
  have hdraft : (Doc.ofValue k.toJson).readRecord SortField.all SortField.ofName? Draft.put {}
      = .ok ⟨some k.property, k.descending, k.absentLowest⟩ :=
    Doc.readRecord_named SortField.ofName?_name
      [(.property, .text k.property), (.descending, .bool k.descending),
        (.absentLowest, .bool k.absentLowest)]
      (show [SortField.property, .descending, .absentLowest].Nodup by decide)
  rw [SortKey.read, hdraft]
  rfl

theorem SortKey.readsBack_toJson (k : SortKey) : k.toJson.ReadsBack := by
  rintro n ⟨⟩

/-! ### Numbers of rows -/

/-- A number of rows is read back. -/
theorem optional_readWord_int (n : UInt64) :
    Doc.optional Doc.readWord (Doc.ofValue (.number (.int n.toNat))) = .ok (some n) := by
  show (if (0 : Int) ≤ n.toNat then Except.ok (UInt64.ofNat (n.toNat : Int).toNat)
    else .error (Fault.misfit none)).map some = _
  rw [if_pos (Int.natCast_nonneg _), Int.toNat_natCast, UInt64.ofNat_toNat]
  rfl

theorem readsBack_int (n : UInt64) : (Json.number (.int n.toNat)).ReadsBack := by
  intro m hm
  obtain rfl := List.mem_singleton.mp hm
  exact Json.Number.readsBack_int (Nat.le_pred_of_lt n.toNat_lt)

/-! ### Requests -/

theorem RequestField.ofName?_name (f : RequestField) : ofName? f.name = some f := by
  cases f <;> rfl

namespace Request

variable {φ : Type}

/-- The number of nodes on the longest path of the filter; without a filter, none. -/
def filterDepth (r : QueryRequest) : Nat :=
  match r.filter with
  | none => 0
  | some n => n.depth

/-- The fields of a request that are sent. -/
def written (r : QueryRequest) : List (RequestField × Json) :=
  (r.filter.map fun n => (.filter, n.toJson)).toList
    ++ (.sort, .array (r.sort.map SortKey.toJson))
    :: ((r.skip.map fun n => (.skip, .number (.int n.toNat))).toList
    ++ (r.take.map fun n => (.take, .number (.int n.toNat))).toList)

theorem members_eq_written (r : QueryRequest) :
    r.members = r.written.map fun f => (f.1.name, f.2) := by
  obtain ⟨_ | _, _, _ | _, _ | _⟩ := r <;> rfl

theorem nodup_written (r : QueryRequest) : (r.written.map Prod.fst).Nodup := by
  obtain ⟨_ | _, _, _ | _, _ | _⟩ := r <;> simp [written]

theorem readsBack_toJson (r : QueryRequest) : r.toJson.ReadsBack := by
  refine .object fun m hm => ?_
  simp only [members, List.mem_append, List.mem_cons, Option.mem_toList, Option.map_eq_some_iff]
    at hm
  obtain ⟨n, -, rfl⟩ | rfl | ⟨n, -, rfl⟩ | ⟨n, -, rfl⟩ := hm
  · exact n.readsBack_toJson
  · refine .array fun item hitem => ?_
    obtain ⟨k, -, rfl⟩ := List.mem_map.mp hitem
    exact k.readsBack_toJson
  · exact readsBack_int n
  · exact readsBack_int n

section Read

variable (l : Leniency) (finish : WireNode → Except Fault φ) (depth : Nat)

theorem put_sort (keys : List SortKey) (acc : Request φ) :
    put l finish (depth + 2) .sort (Doc.ofValue (.array (keys.map SortKey.toJson))) acc
      = .ok { acc with sort := keys } := by
  rw [put, Doc.readList_written (SortKey.read_toJson depth)]
  rfl

theorem put_skip (n : UInt64) (acc : Request φ) :
    put l finish depth .skip (Doc.ofValue (.number (.int n.toNat))) acc
      = .ok { acc with skip := some n } := by
  rw [put, optional_readWord_int]
  rfl

theorem put_take (n : UInt64) (acc : Request φ) :
    put l finish depth .take (Doc.ofValue (.number (.int n.toNat))) acc
      = .ok { acc with take := some n } := by
  rw [put, optional_readWord_int]
  rfl

/-- The fields behind the filter. -/
theorem foldlM_put_unfiltered (sort : List SortKey) (skip take : Option UInt64) (f : Option φ) :
    (written ⟨none, sort, skip, take⟩).foldlM
        (fun acc g => put l finish (depth + 2) g.1 (Doc.ofValue g.2) acc) ⟨f, [], none, none⟩
      = .ok ⟨f, sort, skip, take⟩ := by
  cases skip <;> cases take <;>
    simp only [written, Option.map_none, Option.map_some, Option.toList_none, Option.toList_some,
      List.nil_append, List.cons_append, List.foldlM_cons, List.foldlM_nil, put_sort, put_skip,
      put_take] <;> rfl

/-- What a reader makes of the filter of a written request. -/
def finishWritten : Option FilterNode → Except Fault (Option φ)
  | none => .ok none
  | some n => do
    let w ← WireNode.read l depth (Doc.ofValue n.toJson)
    let f ← finish w
    .ok (some f)

theorem put_filter (n : FilterNode) (acc : Request φ) :
    put l finish depth .filter (Doc.ofValue n.toJson) acc =
      (finishWritten l finish depth (some n)).map fun f => { acc with filter := f } := by
  rw [put, FilterNode.optional_toJson, finishWritten]
  cases WireNode.read l depth (Doc.ofValue n.toJson) with
  | error f => rfl
  | ok w => cases hf : finish w <;> simp only [bind, Except.bind, Except.map, hf]

/-- **A written request** is read back, but for what the reader makes of its filter. -/
theorem read_toJson (r : QueryRequest) :
    Request.read l finish (depth + 3) (Doc.ofValue r.toJson) = (do
      let f ← finishWritten l finish (depth + 2) r.filter
      .ok ⟨f, r.sort, r.skip, r.take⟩) := by
  rw [Request.read, toJson, members_eq_written,
    Doc.readRecord_named RequestField.ofName?_name _ r.nodup_written]
  obtain ⟨_ | n, sort, skip, take⟩ := r
  · exact foldlM_put_unfiltered l finish depth sort skip take none
  · show put l finish (depth + 2) .filter (Doc.ofValue n.toJson) all >>= (fun acc =>
      (written ⟨none, sort, skip, take⟩).foldlM
        (fun acc g => put l finish (depth + 2) g.1 (Doc.ofValue g.2) acc) acc) = _
    rw [put_filter]
    cases finishWritten l finish (depth + 2) (some n) with
    | error f => rfl
    | ok f => exact foldlM_put_unfiltered l finish depth sort skip take f

end Read

/-! ### Requests that were read -/

/-- Whatever is read of the filter makes no tree that is too deep. -/
theorem within_of_put {l : Leniency} {depth : Nat} (f : RequestField) (d : Doc)
    (a b : Request WireNode) (ha : ∀ w ∈ a.filter, w.Within depth)
    (h : put l .ok depth f d a = .ok b) : ∀ w ∈ b.filter, w.Within depth := by
  cases f with
  | filter =>
    obtain ⟨w, hw, h⟩ := bind_eq_ok.mp h
    cases h
    rintro w rfl
    obtain ⟨w, hread, hw⟩ := bind_eq_ok.mp (Doc.of_optional_eq_ok hw)
    cases hw
    exact WireNode.within_of_read hread
  | _ =>
    obtain ⟨_, -, h⟩ := bind_eq_ok.mp h
    cases h
    exact ha

theorem within_of_read {l : Leniency} {depth : Nat} {d : Doc} {r : Request WireNode}
    (h : Request.read l .ok (depth + 1) d = .ok r) : ∀ w ∈ r.filter, w.Within depth := by
  have hall : ∀ w ∈ (all : Request WireNode).filter, w.Within depth := nofun
  exact Doc.readRecord_keeps within_of_put hall h

/-- **A request that was read** from some text has no overrides and is within the limit. -/
theorem of_parse_eq_ok {s : String} {r : QueryRequest} (h : parse s = .ok r) :
    r.filterDepth ≤ 125 ∧ r.mapFilter FilterNode.cleared = r := by
  obtain ⟨wire, hwire, h⟩ := bind_eq_ok.mp h
  have hwithin : ∀ w ∈ wire.filter, w.Within 126 :=
    within_of_read (Json.read_eq_ok.mp (mapError_eq_ok.mp hwire)).1
  split at h
  · cases h
    exact ⟨Nat.zero_le _, rfl⟩
  · rename_i w hw
    obtain ⟨n, hn, h⟩ := bind_eq_ok.mp h
    cases h
    refine ⟨Nat.le_of_lt_succ (hwithin w hw _ n hn), ?_⟩
    rw [mapFilter, Option.map_some, WireNode.cleared_of_toNode hn]

/-- A written request is read back if its filter is within the limit, and is malformed if not. -/
theorem parse_render_eq (r : QueryRequest) : parse r.render =
    if r.filterDepth ≤ 125 then .ok (r.mapFilter FilterNode.cleared)
    else .error (.json .malformed) := by
  rw [parse, render, Json.read_render r.readsBack_toJson, show Json.maxDepth = 124 + 3 from rfl,
    read_toJson]
  obtain ⟨_ | n, sort, skip, take⟩ := r
  · rfl
  · rw [finishWritten, WireNode.read_toJson]
    by_cases hn : n.depth ≤ 125
    · rw [if_pos (Nat.lt_succ_of_le hn), if_pos (show filterDepth ⟨some n, _, _, _⟩ ≤ 125 from hn)]
      show ((WireNode.ofNode n).toNode FilterNode.rootPath >>= fun n =>
        (.ok ⟨some n, sort, skip, take⟩ : Except QueryError QueryRequest)) = _
      rw [WireNode.toNode_ofNode]
      rfl
    · rw [if_neg fun h => hn (Nat.le_of_lt_succ h),
        if_neg (show ¬ filterDepth ⟨some n, _, _, _⟩ ≤ 125 from hn)]
      rfl

/-- **Requests and their texts.** A request is read back from its text, without overrides, exactly
if its filter is within the limit. So a request that was read from any text is read back as it is,
and is written in the same way again. -/
theorem parse_render :
    (∀ r : QueryRequest, parse r.render =
      if r.filterDepth ≤ 125 then .ok (r.mapFilter FilterNode.cleared)
      else .error (.json .malformed)) ∧
    ∀ (s : String) (r : QueryRequest), parse s = .ok r →
      parse r.render = .ok r ∧ ∀ r', parse r.render = .ok r' → r'.render = r.render := by
  refine ⟨parse_render_eq, fun s r h => ?_⟩
  obtain ⟨hdepth, hcleared⟩ := of_parse_eq_ok h
  have hread : parse r.render = .ok r := by rw [parse_render_eq, if_pos hdepth, hcleared]
  refine ⟨hread, fun r' h' => ?_⟩
  rw [hread] at h'
  cases h'
  rfl

/-- A text that leaves fields out, and gives the others by their order, settles after one turn. -/
theorem parse_render_of_array :
    ∃ r : QueryRequest, r.filterDepth = 1 ∧
      parse "[\x7b\"condition\": [\"age\", \"gt\", \"3\"]\x7d]" = .ok r ∧
      parse r.render = .ok r ∧ ∀ r', parse r.render = .ok r' → r'.render = r.render := by
  have h : parse "[\x7b\"condition\": [\"age\", \"gt\", \"3\"]\x7d]"
      = .ok ⟨some (.leaf ⟨"age", "gt", "3"⟩ .none), [], none, none⟩ := by cbv
  exact ⟨_, rfl, h, parse_render.2 _ _ h⟩

end Request

end RowQuery
