/-
Values as labelled text: a name with its fields.

* `labelled`: a name with named fields in braces;
* `applied`: a name with one value in parentheses.
-/

namespace Bytecode.Text

/-- A field with its name. -/
def fieldText : String × String → String
  | (name, value) => name ++ ": " ++ value

/-- A name with named fields in braces. -/
def labelled (name : String) (fields : List (String × String)) : String :=
  name ++ " \x7b " ++ String.intercalate ", " (fields.map fieldText) ++ " \x7d"

/-- A name with one value in parentheses. -/
def applied (name value : String) : String :=
  name ++ "(" ++ value ++ ")"

end Bytecode.Text
