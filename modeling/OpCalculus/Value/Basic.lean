import OpCalculus.Expr

/-!
# Values

The data that operations run on.
-/

namespace OpCalculus

inductive Value where
  | bool (b : Bool)
  | int (n : Int64)
  | number (x : Float)
  | string (s : String)
  | vector (items : List Value)
  /-- A matrix by its rows. -/
  | matrix (rows : List (List Value))
  /-- A tensor by its dimensions and its elements, the last index running fastest. -/
  | tensor (shape : List Nat) (data : List Value)
  | sequence (items : List Value)
  | strategy (state action : Value)

namespace Value

instance : Inhabited Value := ⟨bool false⟩

def numbers (items : List Float) : Value := vector (items.map number)

def numberRows (rows : List (List Float)) : Value := matrix (rows.map (List.map number))

/-! ## Views -/

/-- A scalar read as a number. -/
def asNumber? : Value → Option Float
  | number x => some x
  | int n => some n.toFloat
  | bool b => some (if b then 1 else 0)
  | _ => none

/-- A boolean or integer read as an integer. -/
def asInt? : Value → Option Int64
  | int n => some n
  | bool b => some (if b then 1 else 0)
  | _ => none

def asText? : Value → Option String
  | string s => some s
  | _ => none

/-- The elements of a vector or sequence. -/
def asItems? : Value → Option (List Value)
  | vector items => some items
  | sequence items => some items
  | _ => none

def scalarKind? : Value → Option ScalarKind
  | bool _ => some .bool
  | int _ => some .int
  | number _ => some .number
  | string _ => some .string
  | _ => none

/-! ## Text -/

mutual

def text : Value → String
  | bool b => boolText b
  | int n => toString n.toInt
  | number x => Decimal.numberText x
  | string s => Text.quoted s
  | vector items => Text.listing (texts items)
  | matrix rows => Text.listing (rowTexts rows)
  | tensor shape data => "tensor" ++ shapeText shape ++ Text.listing (texts data)
  | sequence items => "seq" ++ Text.listing (texts items)
  | strategy state action => "strategy(" ++ state.text ++ ", " ++ action.text ++ ")"

def texts : List Value → List String
  | [] => []
  | v :: rest => v.text :: texts rest

def rowTexts : List (List Value) → List String
  | [] => []
  | row :: rest => Text.listing (texts row) :: rowTexts rest

end

instance : ToString Value := ⟨text⟩

/-! ## Comparison -/

mutual

/-- Equality of values, where numbers compare as numbers: the two zeros are equal and an undefined
number equals nothing. -/
def equals : Value → Value → Bool
  | bool a, bool b => a = b
  | int a, int b => a = b
  | number a, number b => a == b
  | string a, string b => a = b
  | vector a, vector b => allEqual a b
  | matrix a, matrix b => rowsEqual a b
  | tensor s a, tensor t b => s = t && allEqual a b
  | sequence a, sequence b => allEqual a b
  | strategy a b, strategy c d => a.equals c && b.equals d
  | _, _ => false

def allEqual : List Value → List Value → Bool
  | [], [] => true
  | a :: l, b :: m => a.equals b && allEqual l m
  | _, _ => false

def rowsEqual : List (List Value) → List (List Value) → Bool
  | [], [] => true
  | a :: l, b :: m => allEqual a b && rowsEqual l m
  | _, _ => false

end

end Value

end OpCalculus
