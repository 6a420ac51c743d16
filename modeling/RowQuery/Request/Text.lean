import RowQuery.Json.Reader
import RowQuery.Request
import RowQuery.Request.WireNode

/-!
# Requests as JSON texts

A request is an object with the fields `filter`, `sort`, `skip` and `take`, all of which may be
missing; an array of their values in this order stands for the same. The filter is a node with the
fields `condition`, `left`, `logic` and `right`. Unknown fields are passed over, a field that stands
twice is a misfit.

A reader may check the filter's form after the whole text is read, or as soon as the filter is
read. In the second case a malformed node is a misfit of the text.

A payload may stand beside the fields of a request. Then all other values of the object are read
first and the request is made from them, so that whatever is wrong with it is a misfit.

## One reader for three ways in

The fields are read by one function, `Request.read`, which is told two things: what to make of a
filter node (keep it, or make the tree at once), and what to let pass (`Leniency`). The three ways
of reading a text differ in nothing else but in what stands before and after this step.

## Main definitions

* `QueryRequest.parse`, `QueryRequest.decode`: the two ways of reading a text.
* `QueryRequest.toJson`, `QueryRequest.render`: the text of a request.
* `FilterNode.parse`, `FilterNode.toJson`: the same for a filter.
* `Payloaded`: a request with a payload.
-/

namespace RowQuery

open Json (Fault Doc Ending)

/-! ### Fields -/

/-- The fields of a condition. -/
inductive ConditionField where
  | property
  | operator
  | value
  deriving DecidableEq

/-- The fields of a filter node. -/
inductive NodeField where
  | condition
  | left
  | logic
  | right
  deriving DecidableEq

/-- The fields of a sort key. -/
inductive SortField where
  | property
  | descending
  | absentLowest
  deriving DecidableEq

/-- The fields of a request. -/
inductive RequestField where
  | filter
  | sort
  | skip
  | take
  deriving DecidableEq

namespace ConditionField

/-- The fields in their order. -/
def all : List ConditionField := [property, operator, value]

/-- The name of a field. -/
def name : ConditionField → String
  | property => "property"
  | operator => "operator"
  | value => "value"

/-- The field of a name. -/
def ofName? (s : String) : Option ConditionField := all.find? fun f => f.name == s

end ConditionField

namespace NodeField

/-- The fields in their order. -/
def all : List NodeField := [condition, left, logic, right]

/-- The name of a field. -/
def name : NodeField → String
  | condition => "condition"
  | left => "left"
  | logic => "logic"
  | right => "right"

/-- The field of a name. -/
def ofName? (s : String) : Option NodeField := all.find? fun f => f.name == s

end NodeField

namespace SortField

/-- The fields in their order. -/
def all : List SortField := [property, descending, absentLowest]

/-- The name of a field. -/
def name : SortField → String
  | property => "property"
  | descending => "descending"
  | absentLowest => "treatNullLowest"

/-- The field of a name. -/
def ofName? (s : String) : Option SortField := all.find? fun f => f.name == s

end SortField

namespace RequestField

/-- The fields in their order. -/
def all : List RequestField := [filter, sort, skip, take]

/-- The name of a field. -/
def name : RequestField → String
  | filter => "filter"
  | sort => "sort"
  | skip => "skip"
  | take => "take"

/-- The field of a name. -/
def ofName? (s : String) : Option RequestField := all.find? fun f => f.name == s

end RequestField

/-! ### Reading the parts of a request -/

/-- What a reader of requests lets pass. -/
structure Leniency where
  /-- An empty object may stand for the null behind a tag. -/
  emptyIsNull : Bool

namespace Leniency

/-- A text is read as it stands. -/
def strict : Leniency := ⟨false⟩

/-- Values are read before their shape is looked at. -/
def buffered : Leniency := ⟨true⟩

end Leniency

namespace Condition

/-- The fields of a condition, as far as they are read. -/
structure Draft where
  property : Option String := none
  operator : Option String := none
  value : Option String := none

/-- One more field. -/
def Draft.put (f : ConditionField) (d : Doc) (acc : Draft) : Except Fault Draft := do
  let s ← d.readText
  match f with
  | .property => .ok { acc with property := some s }
  | .operator => .ok { acc with operator := some s }
  | .value => .ok { acc with value := some s }

/-- A condition, of which no field may be missing. -/
def read (depth : Nat) (d : Doc) : Except Fault Condition :=
  match depth with
  | 0 => .error d.tooDeep
  | _ + 1 => do
    let draft ← d.readRecord ConditionField.all ConditionField.ofName? Draft.put {}
    let property ← Doc.required draft.property
    let operator ← Doc.required draft.operator
    let value ← Doc.required draft.value
    .ok ⟨property, operator, value⟩

/-- The object of a condition. -/
def toJson (c : Condition) : Json :=
  .object [("property", .text c.property), ("operator", .text c.operator),
    ("value", .text c.value)]

end Condition

namespace Logic

/-- The text of a word between two children. -/
def display : Logic → String
  | and => "and"
  | or => "or"

/-- The word of a text, in small or in capital letters. -/
def ofName? (s : String) : Option Logic :=
  if s = "and" ∨ s = "AND" then some .and
  else if s = "or" ∨ s = "OR" then some .or
  else none

/-- The word of a name; any other name is a misfit. -/
def ofName (s : String) : Except Fault Logic :=
  Doc.required (ofName? s)

/-- The null behind a tag. -/
def readUnit (l : Leniency) : Doc → Except Fault Unit
  | .null => .ok ()
  | .object [] .closed => if l.emptyIsNull then .ok () else .error (.misfit none)
  | d => .error d.refusal

/-- How an object ends that has one member and may have no more. -/
def readEnd : List (Except Fault String × Doc) → Ending → Except Fault Unit
  | [], .closed => .ok ()
  | [], .broken b => .error b.read
  | _, _ => .error .malformed

/-- The word between two children: its name, or an object that has the name as its only member,
with null behind it. -/
def read (l : Leniency) (depth : Nat) : Doc → Except Fault Logic
  | .text s => do
    let s ← s
    ofName s
  | .object members ending =>
    match depth, members with
    | 0, _ => .error .malformed
    | _ + 1, (name, value) :: more => do
      let name ← name
      let word ← ofName name
      readUnit l value
      readEnd more ending
      .ok word
    | _ + 1, [] =>
      match ending with
      | .broken b => .error b.read
      | _ => .error .malformed
  | .broken b => .error b.tag
  | _ => .error .malformed

end Logic

namespace WireNode

/-- The fields of a node, as far as they are read. -/
structure Draft where
  condition : Option Condition := none
  left : Option WireNode := none
  logic : Option Logic := none
  right : Option WireNode := none

/-- One more field, by a reader of children. -/
def Draft.put (l : Leniency) (depth : Nat) (child : Doc → Except Fault WireNode) (f : NodeField)
    (d : Doc) (acc : Draft) : Except Fault Draft :=
  match f with
  | .condition => do
    let c ← d.optional (Condition.read depth)
    .ok { acc with condition := c }
  | .left => do
    let n ← d.optional child
    .ok { acc with left := n }
  | .logic => do
    let g ← d.optional (Logic.read l depth)
    .ok { acc with logic := g }
  | .right => do
    let n ← d.optional child
    .ok { acc with right := n }

/-- A node, at most `depth` arrays and objects deep. -/
def read (l : Leniency) : Nat → Doc → Except Fault WireNode
  | 0, d => .error d.tooDeep
  | depth + 1, d => do
    let draft ← d.readRecord NodeField.all NodeField.ofName?
      (Draft.put l depth (read l depth)) {}
    .ok (.node draft.condition draft.left draft.logic draft.right)

/-- The filter tree of a node, a malformed node being a misfit of the text. -/
def toNodeOrMisfit (w : WireNode) : Except Fault FilterNode :=
  (w.toNode FilterNode.rootPath).mapError fun e => .misfit (some e.message)

end WireNode

namespace SortKey

/-- The fields of a sort key, as far as they are read. -/
structure Draft where
  property : Option String := none
  descending : Bool := false
  absentLowest : Bool := false

/-- One more field. -/
def Draft.put (f : SortField) (d : Doc) (acc : Draft) : Except Fault Draft :=
  match f with
  | .property => do
    let s ← d.readText
    .ok { acc with property := some s }
  | .descending => do
    let b ← d.readBool
    .ok { acc with descending := b }
  | .absentLowest => do
    let b ← d.readBool
    .ok { acc with absentLowest := b }

/-- A sort key, of which only the property may not be missing. -/
def read (depth : Nat) (d : Doc) : Except Fault SortKey :=
  match depth with
  | 0 => .error d.tooDeep
  | _ + 1 => do
    let draft ← d.readRecord SortField.all SortField.ofName? Draft.put {}
    let property ← Doc.required draft.property
    .ok ⟨property, draft.descending, draft.absentLowest⟩

/-- The object of a sort key. -/
def toJson (k : SortKey) : Json :=
  .object [("property", .text k.property), ("descending", .bool k.descending),
    ("treatNullLowest", .bool k.absentLowest)]

end SortKey

namespace FilterNode

/-- The object of a filter; overrides are not sent. -/
def toJson : FilterNode → Json
  | leaf c _ => .object [("condition", c.toJson)]
  | branch l g r _ =>
    .object [("left", l.toJson), ("logic", .text g.display), ("right", r.toJson)]

/-- A whole text as a filter. -/
def parse (s : String) : Except Fault FilterNode :=
  Json.read (fun d => do
    let w ← WireNode.read .strict Json.maxDepth d
    w.toNodeOrMisfit) s

end FilterNode

/-! ### Requests -/

namespace Request

variable {φ : Type}

/-- A request that asks for everything. -/
def all : Request φ := ⟨none, [], none, none⟩

/-- One more field; `finish` makes the filter of a node. -/
def put (l : Leniency) (finish : WireNode → Except Fault φ) (depth : Nat) (f : RequestField)
    (d : Doc) (acc : Request φ) : Except Fault (Request φ) :=
  match f with
  | .filter => do
    let n ← d.optional fun d => do
      let w ← WireNode.read l depth d
      finish w
    .ok { acc with filter := n }
  | .sort => do
    let keys ← d.readList SortKey.read depth
    .ok { acc with sort := keys }
  | .skip => do
    let n ← d.optional Doc.readWord
    .ok { acc with skip := n }
  | .take => do
    let n ← d.optional Doc.readWord
    .ok { acc with take := n }

/-- A request, at most `depth` arrays and objects deep. -/
def read (l : Leniency) (finish : WireNode → Except Fault φ) (depth : Nat) (d : Doc) :
    Except Fault (Request φ) :=
  match depth with
  | 0 => .error d.tooDeep
  | depth + 1 => d.readRecord RequestField.all RequestField.ofName? (put l finish depth) all

/-- A whole text as a request; a malformed filter node is found last and has an error of its
own. -/
def parse (s : String) : Except QueryError QueryRequest := do
  let wire ← (Json.read (read .strict .ok Json.maxDepth) s).mapError QueryError.json
  match wire.filter with
  | none => .ok ⟨none, wire.sort, wire.skip, wire.take⟩
  | some w => do
    let n ← w.toNode FilterNode.rootPath
    .ok ⟨some n, wire.sort, wire.skip, wire.take⟩

/-- A whole text as a request; a malformed filter node is a misfit of the text, found where the
filter ends. -/
def decode (s : String) : Except Fault QueryRequest :=
  Json.read (read .strict WireNode.toNodeOrMisfit Json.maxDepth) s

/-- The fields of a request that are sent: sort keys always, the others if they are there. -/
def members (r : QueryRequest) : List (String × Json) :=
  (r.filter.map fun n => ("filter", n.toJson)).toList
    ++ ("sort", .array (r.sort.map SortKey.toJson))
    :: ((r.skip.map fun n => ("skip", .number (.int n.toNat))).toList
    ++ (r.take.map fun n => ("take", .number (.int n.toNat))).toList)

/-- The object of a request. -/
def toJson (r : QueryRequest) : Json :=
  .object r.members

/-- The text of a request. -/
def render (r : QueryRequest) : String :=
  r.toJson.render

end Request

/-! ### Payloads -/

/-- A request with a payload beside it. -/
structure Payloaded where
  request : QueryRequest
  payload : Json

namespace Payloaded

/-- The name of the payload. -/
def payloadName : String := "payload"

/-- The members of the object are read one after the other, the payload apart from the rest. -/
def readMembers (depth : Nat) :
    List (Except Fault String × Doc) → Option Json → List (String × Json) →
    Except Fault (Option Json × List (String × Json))
  | [], payload, others => .ok (payload, others.reverse)
  | (name, member) :: members, payload, others => do
    let name ← name
    if name = payloadName then
      if payload.isSome then .error (.misfit none)
      else do
        let j ← member.value depth
        readMembers depth members (some j) others
    else do
      let j ← member.value depth
      readMembers depth members payload ((name, j) :: others)

/-- The request that is made from values that are read already. Of its faults only their notes are
left. -/
def requestOf (others : List (String × Json)) : Except Fault QueryRequest :=
  let known := others.filter fun m => (RequestField.ofName? m.1).isSome
  (Request.read .buffered WireNode.toNodeOrMisfit Json.maxDepth
    (.object (Doc.ofValue.ofMembers known) .closed)).mapError fun
    | .misfit note => .misfit note
    | _ => .misfit none

/-- A request with a payload, at most `depth` arrays and objects deep. -/
def read (depth : Nat) : Doc → Except Fault Payloaded
  | .object members ending =>
    match depth with
    | 0 => .error .malformed
    | depth + 1 => do
      let (payload, others) ← readMembers depth members none []
      ending.check
      let payload ← Doc.required payload
      let request ← requestOf others
      .ok ⟨request, payload.canonical⟩
  | d => .error d.refusal

/-- A whole text as a request with a payload. -/
def parse (s : String) : Except Fault Payloaded :=
  Json.read (read Json.maxDepth) s

/-- The object of the request with the payload as its last member. -/
def toJson (p : Payloaded) : Json :=
  .object (p.request.members ++ [(payloadName, p.payload)])

/-- The text of a request with a payload. -/
def render (p : Payloaded) : String :=
  p.toJson.render

end Payloaded

end RowQuery
