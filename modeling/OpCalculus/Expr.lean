import OpCalculus.Decimal.Number
import OpCalculus.Text.Quoted
import OpCalculus.Ty.Text

/-!
# Expressions

A small functional language of literals, names, application, abstraction, `let`, composition and
type ascription.
-/

namespace OpCalculus

inductive Literal where
  | bool (b : Bool)
  | int (n : Int64)
  | number (x : Float)
  | string (s : String)
  | vector (items : List Float)
  | matrix (rows : List (List Float))

inductive Expr where
  | lit (literal : Literal)
  | var (name : String)
  | app (callee arg : Expr)
  | lambda (param : String) (body : Expr)
  | letIn (name : String) (value body : Expr)
  /-- First one function, then another. -/
  | compose (first second : Expr)
  | ascribe (expr : Expr) (ty : Ty)

def boolText (b : Bool) : String := if b then "true" else "false"

def numbersText (items : List Float) : String := Text.listing (items.map Decimal.numberText)

def Literal.text : Literal → String
  | bool b => boolText b
  | int n => toString n.toInt
  | number x => Decimal.numberText x
  | string s => Text.quoted s
  | vector items => numbersText items
  | matrix rows => Text.listing (rows.map numbersText)

def Expr.text : Expr → String
  | lit literal => literal.text
  | var name => name
  | app callee arg => callee.text ++ "(" ++ arg.text ++ ")"
  | lambda param body => "(\\" ++ param ++ " -> " ++ body.text ++ ")"
  | letIn name value body => "let " ++ name ++ " = " ++ value.text ++ " in " ++ body.text
  | compose first second => "(" ++ first.text ++ " >> " ++ second.text ++ ")"
  | ascribe expr ty => "(" ++ expr.text ++ " : " ++ ty.text ++ ")"

instance : ToString Expr := ⟨Expr.text⟩

end OpCalculus
