import RowQuery.Json.Doc

/-!
# Readers of JSON texts

A reader walks the tree of a text in the order of the text and reports the first thing that is
wrong for it. Readers of values and records go into at most `maxDepth` nested arrays and objects;
a reader that passes over a value goes into any number.

## Main definitions

* `Json.Doc.passOver?`: what is wrong with a value that nobody wants.
* `Json.Doc.value`: any value.
* `Json.Doc.readText`, `readBool`, `readWord`, `optional`, `readList`, `readRecord`: values of a
  wanted shape.
* `Json.read`: a whole text, by a reader of its value.
-/

namespace RowQuery.Json

/-- The number of nested arrays and objects that a reader goes into. -/
def maxDepth : Nat := 127

/-- What a reader of all items or members reports at the end. -/
def Ending.fault? : Ending → Option Fault
  | .closed => none
  | .broken b | .dangling b => some b.read

/-- What a reader that passes over all items or members reports at the end. -/
def Ending.skipFault? : Ending → Option Fault
  | .closed => none
  | .broken b | .dangling b => some b.skip

/-- An array or object is read to its end. -/
def Ending.check (e : Ending) : Except Fault Unit :=
  match e.fault? with
  | none => .ok ()
  | some f => .error f

namespace Doc

mutual

/-- What is wrong with a value that nobody wants: only that it cannot be read on. -/
def passOver? : Doc → Option Fault
  | broken b => some b.skip
  | array items ending => (passOverItems? items).or ending.skipFault?
  | object members ending => (passOverMembers? members).or ending.skipFault?
  | _ => none

/-- What is wrong with the first faulty item. -/
def passOverItems? : List Doc → Option Fault
  | [] => none
  | item :: items => (passOver? item).or (passOverItems? items)

/-- What is wrong with the first faulty member. -/
def passOverMembers? : List (Except Fault String × Doc) → Option Fault
  | [] => none
  | (_, value) :: members => (passOver? value).or (passOverMembers? members)

end

/-! ### Any value -/

/-- The value of a tree, at most `depth` arrays and objects deep. -/
def value : Nat → Doc → Except Fault Json
  | _, null => .ok .null
  | _, bool b => .ok (.bool b)
  | _, number n => n.map .number
  | _, text s => s.map .text
  | _, broken b => .error b.read
  | 0, array _ _ | 0, object _ _ => .error .malformed
  | depth + 1, array items ending => do
    let items ← items.mapM (value depth)
    ending.check
    .ok (.array items)
  | depth + 1, object members ending => do
    let members ← members.mapM fun (name, member) => do
      let name ← name
      let member ← value depth member
      .ok (name, member)
    ending.check
    .ok (.object members)

/-- The tree of a value's text. -/
def ofValue : Json → Doc
  | .null => null
  | .bool b => bool b
  | .number n => number (.ok n)
  | .text s => text (.ok s)
  | .array items => array (ofItems items) .closed
  | .object members => object (ofMembers members) .closed
where
  /-- The trees of items. -/
  ofItems : List Json → List Doc
    | [] => []
    | item :: items => ofValue item :: ofItems items
  /-- The trees of members. -/
  ofMembers : List (String × Json) → List (Except Fault String × Doc)
    | [] => []
    | (name, member) :: members => (.ok name, ofValue member) :: ofMembers members

/-! ### Values of a wanted shape -/

/-- A string. -/
def readText : Doc → Except Fault String
  | text s => s
  | d => .error d.refusal

/-- A truth value. -/
def readBool : Doc → Except Fault Bool
  | bool b => .ok b
  | d => .error d.refusal

/-- A whole number of 64 bits without a sign. -/
def readWord : Doc → Except Fault UInt64
  | number (.ok (.int n)) =>
    if 0 ≤ n then .ok (UInt64.ofNat n.toNat) else .error (.misfit none)
  | d => .error d.refusal

/-- A value that may be `null`. -/
def optional {α : Type} (read : Doc → Except Fault α) : Doc → Except Fault (Option α)
  | null => .ok none
  | d => (read d).map some

/-- The fault of a reader of arrays or objects that may go into no more of them. -/
def tooDeep : Doc → Fault
  | array _ _ | object _ _ => .malformed
  | d => d.refusal

/-- An array, at most `depth` arrays and objects deep. -/
def readList {α : Type} (read : Nat → Doc → Except Fault α) : Nat → Doc → Except Fault (List α)
  | depth + 1, array items ending => do
    let items ← items.mapM (read depth)
    ending.check
    .ok items
  | 0, array _ _ => .error .malformed
  | _, d => .error d.refusal

/-! ### Records

A record is an object with members of given names, in any order and among others, or an array of
their values in a fixed order. Reading starts from a record of defaults; `step` puts one value in.
-/

section Record

variable {ι σ : Type} [DecidableEq ι]

/-- The members of an object are put in one after the other. A second member for one field is a
misfit; members for no field are passed over. -/
def readMembers (field? : String → Option ι) (step : ι → Doc → σ → Except Fault σ) :
    List ι → List (Except Fault String × Doc) → σ → Except Fault σ
  | _, [], acc => .ok acc
  | seen, (name, member) :: members, acc => do
    let name ← name
    match field? name with
    | none =>
      match member.passOver? with
      | some f => .error f
      | none => readMembers field? step seen members acc
    | some i =>
      if i ∈ seen then .error (.misfit none)
      else do
        let acc ← step i member acc
        readMembers field? step (i :: seen) members acc

/-- The items of an array are put in for the fields in their order. Fields without an item keep
their default; items without a field are no part of the text. -/
def readItems (step : ι → Doc → σ → Except Fault σ) (ending : Ending) :
    List ι → List Doc → σ → Except Fault σ
  | [], [], acc =>
    match ending with
    | .closed => .ok acc
    | .broken b => .error b.read
    | .dangling _ => .error .malformed
  | [], _ :: _, _ => .error .malformed
  | _ :: _, [], acc => do
    ending.check
    .ok acc
  | i :: fields, item :: items, acc => do
    let acc ← step i item acc
    readItems step ending fields items acc

/-- A record, from a record of defaults. -/
def readRecord (fields : List ι) (field? : String → Option ι)
    (step : ι → Doc → σ → Except Fault σ) (default : σ) : Doc → Except Fault σ
  | object members ending => do
    let acc ← readMembers field? step [] members default
    ending.check
    .ok acc
  | array items ending => readItems step ending fields items default
  | d => .error d.refusal

end Record

/-- A field without a default is there. -/
def required {α : Type} : Option α → Except Fault α
  | some a => .ok a
  | none => .error (.misfit none)

end Doc

/-- A whole text, by a reader of its tree: behind the value only a gap may follow. -/
def read {α : Type} (reader : Doc → Except Fault α) (s : String) : Except Fault α := do
  let (doc, more) := Doc.ofText s
  let a ← reader doc
  if more then .error .malformed else .ok a

/-- The value of a whole text. -/
def parse (s : String) : Except Fault Json :=
  read (Doc.value maxDepth) s

end RowQuery.Json
