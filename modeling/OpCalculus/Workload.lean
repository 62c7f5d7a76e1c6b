import OpCalculus.Behaviour
import OpCalculus.Operation.Pipeline

/-!
# Workloads

Families of tables, types and expressions of growing size.
-/

namespace OpCalculus.Workload

/-- The name of a symbol of a layered table. -/
def symbolName (level index : Nat) : String := "l" ++ toString level ++ "_" ++ toString index

/-- A symbol of a layered table, which depends on all symbols of the level below. -/
def layeredSymbol (width level index : Nat) : SymbolDefinition where
  name := symbolName level index
  level := level
  scheme := .closed (.function .number .number)
  executable := ⟨level * width + index, .identity⟩
  dependencies := if level = 0 then [] else (List.range width).map (symbolName (level - 1))

/-- All symbols of a layered table, level by level. -/
def layeredSymbols (width : Nat) : List SymbolDefinition :=
  (List.range (maxLevel + 1)).flatMap fun level =>
    (List.range width).map (layeredSymbol width level)

/-- A table with the given number of symbols on each level. -/
def layeredTable (width : Nat) : Except RegistrationError Unit × SymbolTable :=
  SymbolTable.empty.registerAll (layeredSymbols width)

/-- A function applied to one, the given number of times. -/
def nestedApplication (function : String) (depth : Nat) : Expr :=
  depth.repeat (.app (.var function)) (.lit (.number 1))

/-- A function composed with itself the given number of times, nested to the left. -/
def compositionChain (function : String) (depth : Nat) : Expr :=
  depth.repeat (fun e => .compose e (.var function)) (.var function)

/-- A vector of vectors of numbers, nested to the given depth. -/
def nestedVector (len depth : Nat) : Ty := depth.repeat (.vector len) .number

end OpCalculus.Workload
