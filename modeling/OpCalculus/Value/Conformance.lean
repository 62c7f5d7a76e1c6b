import OpCalculus.Ty.Flow
import OpCalculus.Value.Basic

/-!
# Values of a type

`t.accepts v` says that the value `v` may be used at type `t`: variables accept everything, scalars
widen, and vectors and matrices also belong to the tensor and sequence types that they flow into.
No value belongs to a function type.
-/

namespace OpCalculus

/-- Sizes of data are counted in words below this bound. -/
def wordLimit : Nat := 0x10000000000000000

/-- Multiplies dimensions from left to right as long as the product stays a word. -/
def elementCount (shape : List Nat) : Option Nat :=
  shape.foldlM (fun count dim => if count * dim < wordLimit then some (count * dim) else none) 1

namespace Ty

/-- Whether a value may be used at a type. -/
def accepts : Ty → Value → Bool
  | var _, _ => true
  | scalar kind, value =>
      match value.scalarKind? with
      | some found => found.widensTo kind
      | none => false
  | vector len element, .vector items => items.length = len && items.all element.accepts
  | matrix m n element, .matrix rows =>
      rows.length = m && rows.all fun row => row.length = n && row.all element.accepts
  | tensor shape element, .vector items => shape = [items.length] && items.all element.accepts
  | tensor shape element, .matrix rows =>
      let columns := (rows.head?.map List.length).getD 0
      shape = [rows.length, columns] &&
        rows.all fun row => row.length = columns && row.all element.accepts
  | tensor shape element, .tensor found data =>
      found = shape && elementCount found = some data.length && data.all element.accepts
  | sequence element, .vector items => items.all element.accepts
  | sequence element, .sequence items => items.all element.accepts
  | strategy state action, .strategy s a => state.accepts s && action.accepts a
  | _, _ => false

end Ty

end OpCalculus
