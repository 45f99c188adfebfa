import ScriptShell.Location
import ScriptShell.Number.Text
import ScriptShell.Text.Quoted

namespace ScriptShell

inductive DeclKind where
  | var | let_ | const
  deriving DecidableEq, Repr

inductive BinaryOp where
  | add | sub | mul | div | mod
  | eq | ne | strictEq | strictNe
  | lt | le | gt | ge
  | bitAnd | bitOr | bitXor | shiftLeft | shiftRight | shiftRightZero
  deriving DecidableEq, Repr

inductive LogicalOp where
  | and | or
  deriving DecidableEq, Repr

inductive UnaryOp where
  | neg | plus | not | bitNot | typeof | void
  deriving DecidableEq, Repr

inductive UpdateOp where
  | increment | decrement
  deriving DecidableEq, Repr

mutual

inductive Expr where
  | number (value : Float) (place : Location)
  | text (value : String) (place : Location)
  | bool (value : Bool) (place : Location)
  | null (place : Location)
  | name (name : String) (place : Location)
  | array (elements : List Expr) (place : Location)
  | object (entries : List (String × Expr)) (place : Location)
  | function (def_ : FunctionDef) (place : Location)
  | unary (op : UnaryOp) (operand : Expr) (place : Location)
  /-- `before` tells whether the operator stands in front of its target. -/
  | update (op : UpdateOp) (before : Bool) (target : Expr) (place : Location)
  | binary (op : BinaryOp) (left right : Expr) (place : Location)
  | logical (op : LogicalOp) (left right : Expr) (place : Location)
  /-- A plain assignment has no operator. -/
  | assign (op : Option BinaryOp) (target value : Expr) (place : Location)
  | conditional (condition yes no : Expr) (place : Location)
  | member (object : Expr) (property : String) (place : Location)
  | index (object index : Expr) (place : Location)
  | call (callee : Expr) (args : List Expr) (place : Location)
  | sequence (items : List Expr) (place : Location)

inductive Stmt where
  | declare (kind : DeclKind) (declarators : List Declarator) (place : Location)
  | function (def_ : FunctionDef) (place : Location)
  | expr (value : Expr) (place : Location)
  | if_ (condition : Expr) (yes : Stmt) (no : Option Stmt) (place : Location)
  | while (condition : Expr) (body : Stmt) (place : Location)
  | doWhile (body : Stmt) (condition : Expr) (place : Location)
  | for_ (init : Option Stmt) (condition update : Option Expr) (body : Stmt) (place : Location)
  | block (body : List Stmt) (place : Location)
  | return_ (value : Option Expr) (place : Location)
  | break_ (place : Location)
  | continue_ (place : Location)
  | throw (value : Expr) (place : Location)
  | try_ (body : List Stmt) (handler : Option CatchClause) (finalizer : Option (List Stmt))
      (place : Location)
  | empty (place : Location)

/-- One name of a declaration with the value it starts from. -/
inductive Declarator where
  | mk (name : String) (init : Option Expr) (place : Location)

inductive CatchClause where
  | mk (param : String) (body : List Stmt)

/-- A function literal or declaration. The `var` names are those its body declares outside
of nested functions, each once and in order. -/
inductive FunctionDef where
  | mk (name : Option String) (params : List String) (body : List Stmt)
      (varNames : List String) (place : Location)

end

namespace FunctionDef

def name : FunctionDef → Option String
  | mk name _ _ _ _ => name

def params : FunctionDef → List String
  | mk _ params _ _ _ => params

def body : FunctionDef → List Stmt
  | mk _ _ body _ _ => body

def varNames : FunctionDef → List String
  | mk _ _ _ varNames _ => varNames

def place : FunctionDef → Location
  | mk _ _ _ _ place => place

end FunctionDef

/-- A compiled unit and the `var` names of its top-level code. -/
structure Program where
  body : List Stmt
  varNames : List String

def Expr.place : Expr → Location
  | .number _ l | .text _ l | .bool _ l | .null l | .name _ l | .array _ l | .object _ l
  | .function _ l | .unary _ _ l | .update _ _ _ l | .binary _ _ _ l | .logical _ _ _ l
  | .assign _ _ _ l | .conditional _ _ _ l | .member _ _ l | .index _ _ l | .call _ _ l
  | .sequence _ l => l

def Stmt.place : Stmt → Location
  | .declare _ _ l | .function _ l | .expr _ l | .if_ _ _ _ l | .while _ _ l | .doWhile _ _ l
  | .for_ _ _ _ _ l | .block _ l | .return_ _ l | .break_ l | .continue_ l | .throw _ l
  | .try_ _ _ _ l | .empty l => l

def Expr.isTarget : Expr → Bool
  | .name .. | .member .. | .index .. => true
  | _ => false

/-- How messages refer to an expression. -/
def Expr.describe : Expr → String
  | .name x _ => x
  | .member base key _ => base.describe ++ "." ++ key
  | .index base key _ => base.describe ++ "[" ++ key.describe ++ "]"
  | .call callee _ _ => callee.describe ++ "(...)"
  | .number x _ => Number.plainText x
  | .text s _ => Text.quoted s
  | .bool b _ => if b then "true" else "false"
  | .null _ => "null"
  | _ => "expression"

end ScriptShell
