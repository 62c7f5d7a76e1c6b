import OpCalculus.Executable

/-!
# Common behaviours

Building blocks for operations: arithmetic, texts, lists, constants and failures.
-/

namespace OpCalculus

namespace Behaviour

def identity : Behaviour := .ok

/-- What an input has to have, or a failure. -/
def required {α : Type} (missing : String) : Option α → Except ExecError α
  | some a => .ok a
  | none => .error (.failed missing)

/-- Scales a number, then shifts it. -/
def affine (scale shift : Float) : Behaviour := fun v => do
  let x ← required "expected a number" v.asNumber?
  return .number (x * scale + shift)

/-- Adds to an integer modulo `2 ^ 64`. -/
def addInt (n : Int64) : Behaviour := fun v => do
  let m ← required "expected an int" v.asInt?
  return .int (m + n)

/-- The text of the input. -/
def render : Behaviour := fun v => .ok (.string v.text)

/-- The number of bytes of a text. -/
def length : Behaviour := fun v => do
  let s ← required "expected text" v.asText?
  return .int (Int64.ofNat s.utf8ByteSize)

/-- The sum of those items that are numbers, from left to right. -/
def sum : Behaviour := fun v => do
  let items ← required "expected items" v.asItems?
  return .number ((items.filterMap Value.asNumber?).foldl (· + ·) 0)

/-- A vector of copies of the input. -/
def replicate (n : Nat) : Behaviour := fun v => .ok (.vector (List.replicate n v))

def const (result : Value) : Behaviour := fun _ => .ok result

def fail (e : ExecError) : Behaviour := fun _ => .error e

/-- Rejects every input as not of a given type. -/
def reject (expected : Ty) : Behaviour := fun v => .error (.rejected expected v)

end Behaviour

end OpCalculus
