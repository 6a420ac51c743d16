import RowQuery.Binary64.Layout

/-!
# JSON values

The values of JSON. Members of an object are kept in the order in which they stand, repeated names
included; `Json.canonical` orders them.

## Main definitions

* `Json.Number`: a number, whole or of floating point.
* `Json`: the values.
* `Json.write`: the compact text of a value.
* `Json.canonical`: members by name, the last of several with one name.
-/

namespace RowQuery

/-- A number: a whole one of 64 bits, signed or not, or one of floating point. -/
inductive Json.Number where
  | int (n : Int)
  | float (x : Binary64)
  deriving DecidableEq, Repr

/-- A JSON value. -/
inductive Json where
  | null
  | bool (b : Bool)
  | number (n : Json.Number)
  | text (s : String)
  | array (items : List Json)
  | object (members : List (String × Json))
  deriving Repr

namespace Json

/-! ### Text -/

/-- Numbers in JSON texts are positional from a hundred-thousandth up to ten to the sixteenth; of
two equally near digit strings the even one is written, and a positive power of ten has a plus
sign. -/
def numberLayout : Layout := ⟨-5, 16, .even, true⟩

/-- The text of a number. -/
def Number.write : Number → List Char
  | int n => Text.intDigits n
  | float x => if x.isFinite then numberLayout.write x else ['n', 'u', 'l', 'l']

/-- The digit of a number below sixteen. -/
def hexDigit (n : Nat) : Char :=
  Nat.digitChar n

/-- What stands for a character inside a string: the quote, the backslash and the controls are
escaped, all else stands for itself. -/
def escape (c : Char) : List Char :=
  if c = '"' then ['\\', '"']
  else if c = '\\' then ['\\', '\\']
  else if c = '\x08' then ['\\', 'b']
  else if c = '\x0c' then ['\\', 'f']
  else if c = '\n' then ['\\', 'n']
  else if c = '\r' then ['\\', 'r']
  else if c = '\t' then ['\\', 't']
  else if c.toNat < 0x20 then
    ['\\', 'u', '0', '0', hexDigit (c.toNat / 16), hexDigit (c.toNat % 16)]
  else [c]

/-- The text of a string. -/
def writeText (s : String) : List Char :=
  '"' :: (s.toList.flatMap escape ++ ['"'])

mutual

/-- The compact text of a value. -/
def write : Json → List Char
  | null => ['n', 'u', 'l', 'l']
  | bool true => ['t', 'r', 'u', 'e']
  | bool false => ['f', 'a', 'l', 's', 'e']
  | number n => n.write
  | text s => writeText s
  | array [] => ['[', ']']
  | array (item :: items) => '[' :: (write item ++ writeItems items)
  | object [] => ['\x7b', '\x7d']
  | object ((name, value) :: members) =>
    '\x7b' :: (writeText name ++ ':' :: (write value ++ writeMembers members))

/-- The items after the first one, and the closing bracket. -/
def writeItems : List Json → List Char
  | [] => [']']
  | item :: items => ',' :: (write item ++ writeItems items)

/-- The members after the first one, and the closing brace. -/
def writeMembers : List (String × Json) → List Char
  | [] => ['\x7d']
  | (name, value) :: members =>
    ',' :: (writeText name ++ ':' :: (write value ++ writeMembers members))

end

/-- The compact text of a value. -/
def render (j : Json) : String :=
  String.ofList j.write

/-! ### Members by name -/

/-- The members with one more, kept in the order of names; a member of the same name gives way. -/
def insertMember (name : String) (value : Json) : List (String × Json) → List (String × Json)
  | [] => [(name, value)]
  | (n, v) :: rest =>
    if name < n then (name, value) :: (n, v) :: rest
    else if name = n then (name, value) :: rest
    else (n, v) :: insertMember name value rest

mutual

/-- The value with the members of every object ordered by name, the last of several with one name
standing for them all. -/
def canonical : Json → Json
  | array items => array (canonicalItems items)
  | object members => object (canonicalMembers [] members)
  | j => j

/-- The items, each with ordered members. -/
def canonicalItems : List Json → List Json
  | [] => []
  | item :: items => canonical item :: canonicalItems items

/-- The ordered members `done` and those that follow. -/
def canonicalMembers (done : List (String × Json)) :
    List (String × Json) → List (String × Json)
  | [] => done
  | (name, value) :: members => canonicalMembers (insertMember name (canonical value) done) members

end

end Json

end RowQuery
