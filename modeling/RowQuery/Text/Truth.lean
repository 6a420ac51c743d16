/-!
# Truth values as text

Truth values appear in expressions, in names of options and in reports, always under the same two
words.

## Main definitions

* `showBool`: the word.
-/

namespace RowQuery.Text

/-- The word for a truth value. -/
def showBool : Bool → String
  | true => "true"
  | false => "false"

end RowQuery.Text
