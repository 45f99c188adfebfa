import Mathlib.Data.Multiset.Filter
import ScriptShell.Program.Parser
import ScriptShell.Proofs.Program.Place
import ScriptShell.Proofs.Program.Size

namespace ScriptShell

def CatchClause.body : CatchClause → List Stmt
  | .mk _ body => body

abbrev VarName := String × Location

def Declarator.varName (d : Declarator) : VarName :=
  (d.name, d.place)

def DeclKind.vars : DeclKind → List Declarator → List VarName
  | .var, ds => ds.map (·.varName)
  | _, _ => []

mutual

/-- The declarators of `var` in a statement, in order, outside of the functions in it. -/
def Stmt.vars : Stmt → List VarName
  | .declare kind ds _ => kind.vars ds
  | .if_ _ yes no _ => yes.vars ++ varsOption no
  | .while _ body _ | .doWhile body _ _ => body.vars
  | .for_ init _ _ body _ => varsOption init ++ body.vars
  | .block body _ => varsBody body
  | .try_ body handler finalizer _ =>
    varsBody body ++ (varsHandler handler ++ varsFinal finalizer)
  | _ => []

def varsBody : List Stmt → List VarName
  | [] => []
  | s :: rest => s.vars ++ varsBody rest

def varsOption : Option Stmt → List VarName
  | none => []
  | some s => s.vars

def varsHandler : Option CatchClause → List VarName
  | none => []
  | some (.mk _ body) => varsBody body

def varsFinal : Option (List Stmt) → List VarName
  | none => []
  | some body => varsBody body

end

/-- The names that a body declares by `var`, each once, in the order of their first declarators. -/
def hoistedNames (body : List Stmt) : List String :=
  ((varsBody body).map Prod.fst).eraseDups

section Unreachable

def Stmt.returns : Stmt → Bool
  | .return_ .. => true
  | _ => false

def Stmt.isIdle : Stmt → Bool
  | .function .. | .empty .. => true
  | _ => false

def behindReturn (body : List Stmt) : List Stmt :=
  (body.dropWhile fun s => !s.returns).tail

def unreachableIn (body : List Stmt) : List ParseWarning :=
  ((behindReturn body).find? fun s => !s.isIdle).toList.map fun s => ⟨.unreachable, s.place⟩

end Unreachable

def redeclarations (earlier : List String) : List VarName → List ParseWarning
  | [] => []
  | (name, place) :: later =>
    (if name ∈ earlier then [⟨.redeclared name, place⟩] else []) ++
      redeclarations (name :: earlier) later

def mistypedIn : Expr → List ParseWarning
  | .assign none _ _ place => [⟨.assignmentAsCondition, place⟩]
  | _ => []

namespace Part

/-- The remarks on a part itself. -/
def remarks : Part → List ParseWarning
  | .stmt (.if_ c _ _ _) | .stmt (.while c _ _) | .stmt (.doWhile _ c _) => mistypedIn c
  | .stmt (.block body _) => unreachableIn body
  | .stmt (.try_ body handler finalizer _) =>
    unreachableIn body ++ (handler.toList.flatMap (unreachableIn ·.body) ++
      finalizer.toList.flatMap unreachableIn)
  | .function f => unreachableIn f.body ++ redeclarations [] (varsBody f.body)
  | .program p => redeclarations [] (varsBody p.body)
  | _ => []

/-- A part and all parts in it, each as often as it occurs. -/
def all (p : Part) : List Part :=
  p :: p.parts.attach.flatMap fun q => q.1.all
termination_by p.size
decreasing_by exact size_lt_of_mem q.2

theorem all_eq (p : Part) : p.all = p :: p.parts.flatMap all := by
  rw [all, List.flatMap_subtype (g := all) (fun _ _ => rfl), List.unattach_attach]

/-- The remarks on everything in a part. -/
def allRemarks (p : Part) : List ParseWarning :=
  p.all.flatMap remarks

theorem allRemarks_eq (p : Part) :
    p.allRemarks = p.remarks ++ p.parts.flatMap allRemarks := by
  rw [allRemarks, all_eq, List.flatMap_cons, List.flatMap_assoc]
  rfl

def NamesVars : Part → Prop
  | .function f => f.varNames = hoistedNames f.body
  | _ => True

def Hoisted (p : Part) : Prop :=
  ∀ q, p.Contains q → q.NamesVars

end Part

section Unreachable

theorem unreachable?_true (body : List Stmt) :
    Parser.unreachable? true body = (body.find? fun s => !s.isIdle).map (·.place) := by
  induction body with
  | nil => rfl
  | cons s rest ih =>
    cases s with
    | function | empty => exact ih
    | _ => rfl

theorem unreachable?_false (body : List Stmt) :
    Parser.unreachable? false body =
      ((behindReturn body).find? fun s => !s.isIdle).map (·.place) := by
  induction body with
  | nil => rfl
  | cons s rest ih =>
    cases s with
    | return_ => exact unreachable?_true rest
    | _ => exact ih

end Unreachable

section Vars

def declareAll (names : List String) (vars : List VarName) : List String :=
  vars.foldl (fun names v => if names.contains v.1 then names else v.1 :: names) names

theorem mem_declareAll_cons (names : List String) (name x : String) :
    x ∈ (if names.contains name then names else name :: names) ↔ x ∈ name :: names := by
  split
  next h =>
    have hname : name ∈ names := List.contains_iff_mem.mp h
    simp only [List.mem_cons]
    exact ⟨.inr, fun hx => hx.elim (fun heq => heq ▸ hname) id⟩
  next => rfl

theorem hoistedNames_eq (body : List Stmt) :
    hoistedNames body = (declareAll [] (varsBody body)).reverse := by
  have hloop (vars : List VarName) (names : List String) :
      List.eraseDupsBy.loop (· == ·) (vars.map Prod.fst) names =
        (declareAll names vars).reverse := by
    induction vars generalizing names with
    | nil => rfl
    | cons v vars ih =>
      rw [List.map_cons, List.eraseDupsBy.loop, declareAll, List.foldl_cons,
        List.contains_eq_any_beq]
      cases names.any (v.1 == ·) with
      | true => exact ih names
      | false => exact ih (v.1 :: names)
  exact hloop (varsBody body) []

theorem redeclarations_congr {names names' : List String} (h : ∀ x, x ∈ names ↔ x ∈ names')
    (vars : List VarName) : redeclarations names vars = redeclarations names' vars := by
  induction vars generalizing names names' with
  | nil => rfl
  | cons v vars ih =>
    have hlater : ∀ x, x ∈ v.1 :: names ↔ x ∈ v.1 :: names' := by simp [h]
    simp only [redeclarations, h, ih hlater]

theorem redeclarations_append (names : List String) (vars vars' : List VarName) :
    redeclarations names (vars ++ vars') =
      redeclarations names vars ++ redeclarations (declareAll names vars) vars' := by
  induction vars generalizing names with
  | nil => rfl
  | cons v vars ih =>
    have hlater := redeclarations_congr (mem_declareAll_cons names v.1)
    simp only [List.cons_append, redeclarations, List.append_assoc, declareAll, List.foldl_cons]
    rw [← hlater, ih, ← hlater]
    rfl

end Vars

end ScriptShell
