import OpCalculus.Text.Listing
import OpCalculus.Ty.Basic

/-!
# The text of a type

One canonical text per type. Only a function that is the input of a function stands in parentheses.
-/

namespace OpCalculus

/-- The name of a scalar kind. -/
def ScalarKind.text : ScalarKind → String
  | bool => "Bool"
  | int => "Int"
  | number => "Number"
  | string => "String"

instance : ToString ScalarKind := ⟨ScalarKind.text⟩

/-- The text of a tensor's dimensions. -/
def shapeText (shape : List Nat) : String := Text.listing (shape.map toString)

namespace Ty

/-- The canonical text of a type. -/
def text : Ty → String
  | scalar kind => kind.text
  | vector len element => "Vector<" ++ toString len ++ ", " ++ element.text ++ ">"
  | matrix rows cols element =>
      "Matrix<" ++ toString rows ++ ", " ++ toString cols ++ ", " ++ element.text ++ ">"
  | tensor shape element => "Tensor<" ++ shapeText shape ++ ", " ++ element.text ++ ">"
  | function (function input output) result =>
      "(" ++ (function input output).text ++ ") -> " ++ result.text
  | function input output => input.text ++ " -> " ++ output.text
  | var v => v.text
  | sequence element => "Sequence<" ++ element.text ++ ">"
  | strategy state action => "Strategy<" ++ state.text ++ ", " ++ action.text ++ ">"

instance : ToString Ty := ⟨text⟩

end Ty

end OpCalculus
