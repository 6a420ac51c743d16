/-!
# White space

The 25 code points with the property White_Space, and the text without them at its two ends.

## Main definitions

* `isBlank`: the class.
* `trim`: a text without the blanks at its ends.
-/

namespace RowQuery.Text

/-- The code points of white space, as ascending ranges. -/
def blanks : List (Nat × Nat) :=
  [(0x9, 0xD), (0x20, 0x20), (0x85, 0x85), (0xA0, 0xA0), (0x1680, 0x1680), (0x2000, 0x200A),
   (0x2028, 0x2029), (0x202F, 0x202F), (0x205F, 0x205F), (0x3000, 0x3000)]

/-- The character is white space. -/
def isBlank (c : Char) : Bool :=
  blanks.any fun (lo, hi) => lo ≤ c.toNat && c.toNat ≤ hi

/-- The text without the white space at either end. -/
def trim (cs : List Char) : List Char :=
  ((cs.dropWhile isBlank).reverse.dropWhile isBlank).reverse

end RowQuery.Text
