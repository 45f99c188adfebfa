import Mathlib.Logic.Relation
import ScriptShell.Program

namespace ScriptShell

def any {α : Type} (_ : α) : Prop :=
  True

/-- A part of a program. Targets of assignments are told from expressions that are evaluated. -/
inductive Part where
  | expr (e : Expr)
  | target (e : Expr)
  | stmt (s : Stmt)
  | function (f : FunctionDef)
  | program (p : Program)

/-- The statements that a statement runs by themselves, not as part of a body: the branches of an
`if` and what a loop repeats. -/
def Stmt.branches : Stmt → List Stmt
  | .if_ _ yes no _ => yes :: no.toList
  | .while _ body _ | .doWhile body _ _ | .for_ _ _ _ body _ => [body]
  | _ => []

def Stmt.initial : Stmt → Option Stmt
  | .for_ init _ _ _ _ => init
  | _ => none

def Declarator.name : Declarator → String
  | .mk name _ _ => name

def CatchClause.param : CatchClause → String
  | .mk param _ => param

/-- The names that a statement binds where it is run, and the one that its handler has for the
exception. What `var` declares is bound by the call or the unit. -/
def Stmt.declaredNames : Stmt → List String
  | .declare .var _ _ => []
  | .declare _ ds _ => ds.map (·.name)
  | .function f _ => f.name.toList
  | .try_ _ handler _ _ => handler.toList.map (·.param)
  | _ => []

namespace Part

def ofBody (body : List Stmt) : List Part :=
  body.map .stmt

def ofDeclarator : Declarator → List Part
  | .mk _ init _ => init.toList.map .expr

def ofHandler : CatchClause → List Part
  | .mk _ body => ofBody body

def ofExpr : Expr → List Part
  | .array es _ | .sequence es _ => es.map .expr
  | .object es _ => es.map fun entry => .expr entry.2
  | .function f _ => [.function f]
  | .unary _ e _ | .member e _ _ => [.expr e]
  | .update _ _ e _ => [.target e]
  | .binary _ a b _ | .logical _ a b _ | .index a b _ => [.expr a, .expr b]
  | .assign _ e value _ => [.target e, .expr value]
  | .conditional c a b _ => [.expr c, .expr a, .expr b]
  | .call f args _ => .expr f :: args.map .expr
  | _ => []

def ofTarget : Expr → List Part
  | .member e _ _ => [.expr e]
  | .index e i _ => [.expr e, .expr i]
  | _ => []

def ofStmt : Stmt → List Part
  | .declare _ ds _ => ds.flatMap ofDeclarator
  | .function f _ => [.function f]
  | .expr e _ | .throw e _ => [.expr e]
  | .if_ c yes no _ => .expr c :: .stmt yes :: no.toList.map .stmt
  | .while c body _ | .doWhile body c _ => [.expr c, .stmt body]
  | .for_ init c step body _ =>
    .stmt body :: (init.toList.map .stmt ++ (c.toList ++ step.toList).map .expr)
  | .block body _ => ofBody body
  | .return_ e _ => e.toList.map .expr
  | .try_ body handler finalizer _ =>
    ofBody body ++ handler.toList.flatMap ofHandler ++ finalizer.toList.flatMap ofBody
  | _ => []

/-- The parts directly below a part. -/
def parts : Part → List Part
  | .expr e => ofExpr e
  | .target e => ofTarget e
  | .stmt s => ofStmt s
  | .function f => ofBody f.body
  | .program p => ofBody p.body

def ownParts : Part → List Part
  | .function _ => []
  | p => p.parts

theorem mem_parts_of_ownParts {p q : Part} (hq : q ∈ p.ownParts) : q ∈ p.parts := by
  cases p with
  | function => cases hq
  | expr | target | stmt | program => exact hq

/-- Whether a part is somewhere in another, at whatever depth. -/
def Contains : Part → Part → Prop :=
  Relation.ReflTransGen fun p q => q ∈ p.parts

theorem forall_contains {F : Part → Prop} {p : Part} (hp : F p)
    (h : ∀ q ∈ p.parts, ∀ r, q.Contains r → F r) : ∀ r, p.Contains r → F r := by
  intro r hr
  rcases hr.cases_head with rfl | ⟨q, hq, hqr⟩
  · exact hp
  · exact h q hq r hqr

end Part

def Hereditary (T : Part → Prop) : Prop :=
  ∀ p q, q ∈ p.parts → T p → T q

def OwnHereditary (T : Part → Prop) : Prop :=
  ∀ p q, q ∈ p.ownParts → T p → T q

theorem Hereditary.own {T : Part → Prop} (h : Hereditary T) : OwnHereditary T :=
  fun _ _ hq hp => h _ _ (Part.mem_parts_of_ownParts hq) hp

def anyPart (_ : Part) : Prop :=
  True

theorem hereditary_anyPart : Hereditary anyPart :=
  fun _ _ _ _ => trivial

end ScriptShell
