import RowQuery.Json.Fault

/-!
# Strings in JSON texts

The characters between two quotes, controls excluded, with escapes for some. An escape by code unit
may give half of a character beyond the first 65536; a reader of the string wants the other half
behind it, a reader that passes over it does not.

## Main definitions

* `Json.TextUnit`: a character, or a code unit given by an escape.
* `Json.scanUnits`: the units up to the closing quote.
* `Json.joinUnits`: the characters that the units stand for.
-/

namespace RowQuery.Json

/-- A character of a string, or a code unit given by an escape. -/
inductive TextUnit where
  | char (c : Char)
  | code (n : Nat)
  deriving DecidableEq, Repr

/-- The character of a one-letter escape. -/
def escaped? : Char → Option Char
  | '"' => some '"'
  | '\\' => some '\\'
  | '/' => some '/'
  | 'b' => some '\x08'
  | 'f' => some '\x0c'
  | 'n' => some '\n'
  | 'r' => some '\r'
  | 't' => some '\t'
  | _ => none

/-- The value of a hexadecimal digit. -/
def hexValue? (c : Char) : Option Nat :=
  if c.isDigit then some (c.toNat - '0'.toNat)
  else if 'a' ≤ c ∧ c ≤ 'f' then some (c.toNat - 'a'.toNat + 10)
  else if 'A' ≤ c ∧ c ≤ 'F' then some (c.toNat - 'A'.toNat + 10)
  else none

/-- The code unit of four hexadecimal digits. -/
def codeUnit? (a b c d : Char) : Option Nat := do
  let a ← hexValue? a
  let b ← hexValue? b
  let c ← hexValue? c
  let d ← hexValue? d
  some (((a * 16 + b) * 16 + c) * 16 + d)

/-- The fault where four digits are wanted and fewer characters are left: the text ends there
unless four bytes are left of it. -/
def missingCode (cs : List Char) : Fault :=
  if 4 ≤ (String.ofList cs).utf8ByteSize then .malformed else .ended

/-- The units of a string up to its closing quote, and what follows the quote, or else what is
wrong behind the units. -/
def scanUnits : List Char → List TextUnit × Except Fault (List Char)
  | [] => ([], .error .ended)
  | '"' :: rest => ([], .ok rest)
  | '\\' :: [] => ([], .error .ended)
  | '\\' :: 'u' :: a :: b :: c :: d :: rest =>
    match codeUnit? a b c d with
    | some n =>
      let (units, r) := scanUnits rest
      (.code n :: units, r)
    | none => ([], .error .malformed)
  | '\\' :: 'u' :: rest => ([], .error (missingCode rest))
  | '\\' :: e :: rest =>
    match escaped? e with
    | some c =>
      let (units, r) := scanUnits rest
      (.char c :: units, r)
    | none => ([], .error .malformed)
  | c :: rest =>
    if c.toNat < 0x20 then ([], .error .malformed)
    else
      let (units, r) := scanUnits rest
      (.char c :: units, r)

/-- The first half of a character beyond the first 65536. -/
def isLeading (n : Nat) : Bool := 0xD800 ≤ n && n ≤ 0xDBFF

/-- The second half of a character beyond the first 65536. -/
def isTrailing (n : Nat) : Bool := 0xDC00 ≤ n && n ≤ 0xDFFF

/-- The character of two halves. -/
def joinHalves (leading trailing : Nat) : Char :=
  Char.ofNat (0x10000 + (leading - 0xD800) * 0x400 + (trailing - 0xDC00))

/-- The characters that units stand for. A half without the other one is a fault; `atEnd` is the
fault if the units end before it. -/
def joinUnits (atEnd : Fault) : List TextUnit → Except Fault (List Char)
  | [] => .ok []
  | .char c :: units => do
    let cs ← joinUnits atEnd units
    .ok (c :: cs)
  | [.code n] =>
    if isTrailing n then .error .malformed
    else if isLeading n then .error atEnd
    else .ok [Char.ofNat n]
  | .code n :: .code m :: units =>
    if isTrailing n then .error .malformed
    else if isLeading n then
      if isTrailing m then do
        let cs ← joinUnits atEnd units
        .ok (joinHalves n m :: cs)
      else .error .malformed
    else do
      let cs ← joinUnits atEnd (.code m :: units)
      .ok (Char.ofNat n :: cs)
  | .code n :: .char c :: units =>
    if isTrailing n || isLeading n then .error .malformed
    else do
      let cs ← joinUnits atEnd (.char c :: units)
      .ok (Char.ofNat n :: cs)

/-- The string behind an opening quote, as a reader of it gets it, and what follows the closing
quote. A half at the end of a closed string is malformed. -/
def scanText (cs : List Char) : Except Break (Except Fault String × List Char) :=
  match scanUnits cs with
  | (units, .ok rest) => .ok ((joinUnits .malformed units).map String.ofList, rest)
  | (units, .error f) =>
    match joinUnits f units with
    | .ok _ => .error (.all f)
    | .error g => .error ⟨g, f, g⟩

end RowQuery.Json
