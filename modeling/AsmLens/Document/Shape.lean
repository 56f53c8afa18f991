/-!
# Shapes of values

The shapes a value can have. Messages name a shape when a value of another one was
needed. The last five are those of values that settings files have and documents do not.
-/

namespace AsmLens

/-- The shape of a value. -/
inductive Shape
  | null | bool | int | float | text | list | object | date | moment | bytes | tuple | set
deriving DecidableEq, Repr, Inhabited

/-- The name of a shape in messages. -/
def Shape.name : Shape → String
  | .null => "NoneType"
  | .bool => "bool"
  | .int => "int"
  | .float => "float"
  | .text => "str"
  | .list => "list"
  | .object => "dict"
  | .date => "datetime.date"
  | .moment => "datetime.datetime"
  | .bytes => "bytes"
  | .tuple => "tuple"
  | .set => "set"

end AsmLens
