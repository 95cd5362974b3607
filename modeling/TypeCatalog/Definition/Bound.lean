import TypeCatalog.Data.Basic
import TypeCatalog.Number.Decimal

/-! Bounds of sizes and value ranges. The words `MIN` and `MAX` are the two infinities. -/

namespace TypeCatalog

/-- A bound is an integer or a floating point number. -/
inductive Bound where
  | int (value : Int)
  | real (value : Double)
  deriving DecidableEq, Repr, Inhabited

namespace Bound

/-- Below every number, written `MIN`. -/
def lowest : Bound := .real (.infinite true)

/-- Above every number, written `MAX`. -/
def highest : Bound := .real (.infinite false)

def data : Bound → Data
  | .int value => .int value
  | .real value => .real value

/-- The exact order of bounds, integers and floating point numbers among each other. -/
def lt (low high : Bound) : Bool := low.data.isLess high.data

/-- How a bound is written in messages. -/
def text : Bound → String
  | .int value => String.ofList (intDigits value)
  | .real (.infinite true) => "MIN"
  | .real (.infinite false) => "MAX"
  | .real value => value.text

end Bound

/-- A closed range of numbers. -/
structure Range where
  min : Bound
  max : Bound
  deriving DecidableEq, Repr, Inhabited

namespace Data

/-- A bound as documents spell it: the infinities are words. -/
def ofBound : Data → Data
  | .real (.infinite true) => .text "MIN"
  | .real (.infinite false) => .text "MAX"
  | value => value

/-- The bound that a document spells. -/
def toBound : Data → Data
  | .text "MIN" => .real (.infinite true)
  | .text "MAX" => .real (.infinite false)
  | value => value

end Data

end TypeCatalog
