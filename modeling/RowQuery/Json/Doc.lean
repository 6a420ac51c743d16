import RowQuery.Json.Numeral
import RowQuery.Json.Text

/-!
# JSON texts as far as they can be read

A text is first laid out as a tree, whatever is wrong with it: a leaf marks a place where it cannot
be read on, and an array or object says how it ends. The readers of particular shapes then walk the
tree in the order of the text and report the first thing that is wrong for them.

## Why scanning never fails

Two readers of one text need not agree on what is wrong with it. A reader that passes over a part
of the text is laxer there than one that wants its value: it does not mind half of a character in a
string, nor a numeral beyond the range of numbers, nor any depth of nesting. And a reader that
meets a misfit stops there, whatever is wrong further on. A scanner that failed would have to know
its reader; this one only records what each of them would report (`Break`), and every reader is a
recursion on the tree.

The scanner is given a bound on its steps, which `Doc.ofText` chooses large enough for the text.

## Main definitions

* `Json.Doc`, `Json.Ending`: the trees.
* `Json.Doc.scan`: the tree at the start of a text.
* `Json.Doc.ofText`: the tree of a whole text, and whether more than blanks follows it.
-/

namespace RowQuery.Json

/-- How an array or an object ends. -/
inductive Ending where
  /-- With its bracket. -/
  | closed
  /-- The text cannot be read on where a comma or the bracket is wanted, or the first name. -/
  | broken (b : Break)
  /-- The text cannot be read on behind a comma. -/
  | dangling (b : Break)
  deriving DecidableEq, Repr

/-- A JSON text as far as it can be read. -/
inductive Doc where
  | null
  | bool (b : Bool)
  /-- A numeral, which may be too large for a number. -/
  | number (n : Except Fault Number)
  /-- A string, which may hold half of a character. -/
  | text (s : Except Fault String)
  | array (items : List Doc) (ending : Ending)
  | object (members : List (Except Fault String × Doc)) (ending : Ending)
  /-- The text cannot be read on. -/
  | broken (b : Break)

/-- A character between the parts of a text. -/
def isGap (c : Char) : Bool :=
  c = ' ' || c = '\n' || c = '\t' || c = '\r'

/-- The text without the gap at its start. -/
def dropGap (cs : List Char) : List Char :=
  cs.dropWhile isGap

/-- What follows the rest of a word. -/
def scanWord : List Char → List Char → Except Fault (List Char)
  | [], cs => .ok cs
  | _ :: _, [] => .error .ended
  | w :: ws, c :: cs => if w = c then scanWord ws cs else .error .malformed

/-- The leaf of a word whose first letter is read; a reader that wants one of a few tags reads on
only if the word may be `null`. -/
def wordLeaf (leaf : Doc) (word : List Char) (tag : Fault → Fault) (cs : List Char) :
    Doc × List Char :=
  match scanWord word cs with
  | .ok rest => (leaf, rest)
  | .error f => (.broken ⟨f, f, tag f⟩, [])

/-- The leaf of a string whose opening quote is read. -/
def textLeaf (cs : List Char) : Doc × List Char :=
  match scanText cs with
  | .ok (s, rest) => (.text s, rest)
  | .error b => (.broken b, [])

/-- The leaf of a numeral. -/
def numberLeaf (cs : List Char) : Doc × List Char :=
  match Numeral.scan cs with
  | .ok (n, rest) => (.number n.value, rest)
  | .error b => (.broken b, [])

/-- The leaf at the start of a text, where no array and no object begins. -/
def scanLeaf : List Char → Doc × List Char
  | [] => (.broken .ended, [])
  | 'n' :: cs => wordLeaf .null ['u', 'l', 'l'] id cs
  | 't' :: cs => wordLeaf (.bool true) ['r', 'u', 'e'] (fun _ => .malformed) cs
  | 'f' :: cs => wordLeaf (.bool false) ['a', 'l', 's', 'e'] (fun _ => .malformed) cs
  | '"' :: cs => textLeaf cs
  | c :: cs =>
    if c = '-' || c.isDigit then numberLeaf (c :: cs) else (.broken .malformed, [])

namespace Doc

/-- The fault of a reader that has no use for the value: it reads a scalar to its end, and does not
look into an array or object. -/
def refusal : Doc → Fault
  | number (.error f) | text (.error f) => f
  | broken b => b.read
  | _ => .misfit none

mutual

/-- The tree at the start of a text behind a gap, and what follows it. The first argument bounds
the number of steps. -/
def scan : Nat → List Char → Doc × List Char
  | 0, _ => (.broken .ended, [])
  | fuel + 1, cs =>
    match dropGap cs with
    | '[' :: cs =>
      let (items, ending, rest) := scanFirstItem fuel cs
      (.array items ending, rest)
    | '\x7b' :: cs =>
      let (members, ending, rest) := scanFirstMember fuel cs
      (.object members ending, rest)
    | cs => scanLeaf cs

/-- The items of an array behind its bracket. -/
def scanFirstItem : Nat → List Char → List Doc × Ending × List Char
  | 0, _ => ([], .broken .ended, [])
  | fuel + 1, cs =>
    match dropGap cs with
    | [] => ([], .broken .ended, [])
    | ']' :: rest => ([], .closed, rest)
    | cs => scanItem fuel cs

/-- An item of an array and those behind it. -/
def scanItem : Nat → List Char → List Doc × Ending × List Char
  | 0, _ => ([], .broken .ended, [])
  | fuel + 1, cs =>
    let (item, rest) := scan fuel cs
    let (items, ending, rest) := scanNextItem fuel rest
    (item :: items, ending, rest)

/-- The items of an array behind one of them. -/
def scanNextItem : Nat → List Char → List Doc × Ending × List Char
  | 0, _ => ([], .broken .ended, [])
  | fuel + 1, cs =>
    match dropGap cs with
    | [] => ([], .broken .ended, [])
    | ']' :: rest => ([], .closed, rest)
    | ',' :: rest =>
      match dropGap rest with
      | [] => ([], .dangling .ended, [])
      | ']' :: _ => ([], .dangling .malformed, [])
      | rest => scanItem fuel rest
    | _ => ([], .broken .malformed, [])

/-- The members of an object behind its brace. -/
def scanFirstMember : Nat → List Char → List (Except Fault String × Doc) × Ending × List Char
  | 0, _ => ([], .broken .ended, [])
  | fuel + 1, cs =>
    match dropGap cs with
    | [] => ([], .broken .ended, [])
    | '\x7d' :: rest => ([], .closed, rest)
    | '"' :: rest => scanMember fuel .broken rest
    | _ => ([], .broken .malformed, [])

/-- A member of an object behind the opening quote of its name, and those behind it. A name that
does not end is the end of the object. -/
def scanMember : Nat → (Break → Ending) → List Char →
    List (Except Fault String × Doc) × Ending × List Char
  | 0, _, _ => ([], .broken .ended, [])
  | fuel + 1, ending, cs =>
    match scanText cs with
    | .error b => ([], ending b, [])
    | .ok (name, rest) =>
      match dropGap rest with
      | [] => ([(name, .broken .ended)], .broken .ended, [])
      | ':' :: rest =>
        let (value, rest) := scan fuel rest
        let (members, ending, rest) := scanNextMember fuel rest
        ((name, value) :: members, ending, rest)
      | _ => ([(name, .broken .malformed)], .broken .malformed, [])

/-- The members of an object behind one of them. -/
def scanNextMember : Nat → List Char → List (Except Fault String × Doc) × Ending × List Char
  | 0, _ => ([], .broken .ended, [])
  | fuel + 1, cs =>
    match dropGap cs with
    | [] => ([], .broken .ended, [])
    | '\x7d' :: rest => ([], .closed, rest)
    | ',' :: rest =>
      match dropGap rest with
      | [] => ([], .dangling .ended, [])
      | '"' :: rest => scanMember fuel .dangling rest
      | _ => ([], .dangling .malformed, [])
    | _ => ([], .broken .malformed, [])

end

/-- The tree of a text, and whether more than a gap follows it. Every step but one in three reads
a character, so three times the length is enough of them. -/
def ofText (s : String) : Doc × Bool :=
  let (doc, rest) := scan (3 * s.length + 3) s.toList
  (doc, !(dropGap rest).isEmpty)

end Doc

end RowQuery.Json
