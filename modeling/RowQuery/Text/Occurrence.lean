/-!
# One text inside another

A text occurs at the start, at the end, or anywhere in another one as a contiguous run of
characters. The empty text occurs everywhere.

## Main definitions

* `startsWith`, `endsWith`, `contains`: the three tests.

## Main results

* `startsWith_iff`, `endsWith_iff`, `contains_iff`: each test in terms of a split of the text.
-/

namespace RowQuery.Text

/-- The characters `needle` stand in a row somewhere in the list. -/
def occursIn (needle : List Char) : List Char → Bool
  | [] => needle.isEmpty
  | c :: rest => needle.isPrefixOf (c :: rest) || occursIn needle rest

/-- The text begins with `needle`. -/
def startsWith (text needle : String) : Bool :=
  needle.toList.isPrefixOf text.toList

/-- The text ends with `needle`. -/
def endsWith (text needle : String) : Bool :=
  needle.toList.isSuffixOf text.toList

/-- The text holds `needle` as a contiguous run. -/
def contains (text needle : String) : Bool :=
  occursIn needle.toList text.toList

theorem occursIn_iff {needle cs : List Char} :
    occursIn needle cs = true ↔ needle <:+: cs := by
  induction cs with
  | nil => simp [occursIn]
  | cons c rest ih => simp [occursIn, ih, List.infix_cons_iff]

theorem contains_iff {text needle : String} :
    contains text needle = true ↔ needle.toList <:+: text.toList :=
  occursIn_iff

theorem startsWith_iff {text needle : String} :
    startsWith text needle = true ↔ needle.toList <+: text.toList := by
  simp [startsWith]

theorem endsWith_iff {text needle : String} :
    endsWith text needle = true ↔ needle.toList <:+ text.toList := by
  simp [endsWith]

end RowQuery.Text
