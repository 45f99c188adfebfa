import ScriptShell.Proofs.Program.Part

namespace ScriptShell

def Declarator.place : Declarator → Location
  | .mk _ _ place => place

def Stmt.declared : Stmt → List Location
  | .declare _ ds _ => ds.map (·.place)
  | _ => []

namespace Part

def places : Part → List Location
  | .expr e | .target e => [e.place]
  | .stmt s => s.place :: s.declared
  | .function f => [f.place]
  | .program _ => []

def sites : Part → List Location
  | .stmt s => s.place :: s.declared
  | .expr (.call _ _ place) => [place]
  | _ => []

theorem places_of_sites {p : Part} {place : Location} (h : place ∈ p.sites) : place ∈ p.places := by
  cases p with
  | stmt s => exact h
  | expr e =>
    cases e with
    | call f args => exact h
    | _ => cases h
  | target | function | program => cases h

def Sited (ok : Location → Prop) (p : Part) : Prop :=
  ∀ q, p.Contains q → ∀ l ∈ q.places, ok l

variable {ok : Location → Prop}

theorem hereditary_sited : Hereditary (Sited ok) :=
  fun _ _ hq hp _ hr => hp _ (hr.head hq)

namespace Sited

theorem of_parts {p : Part} (hp : ∀ l ∈ p.places, ok l) (h : ∀ q ∈ p.parts, q.Sited ok) :
    p.Sited ok :=
  forall_contains hp h

section Expressions

variable {e : Expr} {es : List Expr}

theorem place (h : (Part.expr e).Sited ok) : ok e.place :=
  h _ .refl _ List.mem_cons_self

theorem expr (hplace : ok e.place) (h : ∀ q ∈ ofExpr e, q.Sited ok) : (Part.expr e).Sited ok :=
  of_parts (List.forall_mem_singleton.mpr hplace) h

theorem exprs (h : ∀ e ∈ es, (Part.expr e).Sited ok) : ∀ q ∈ es.map Part.expr, q.Sited ok :=
  List.forall_mem_map.mpr h

theorem target (h : (Part.expr e).Sited ok) : (Part.target e).Sited ok := by
  refine of_parts (List.forall_mem_singleton.mpr h.place) fun q hq => ?_
  have below : q ∈ ofExpr e := by
    cases e with
    | member | index => exact hq
    | _ => cases hq
  exact hereditary_sited (.expr e) q below h

end Expressions

section Statements

variable {s : Stmt} {ss : List Stmt}

theorem stmt_place (h : (Part.stmt s).Sited ok) : ok s.place :=
  h _ .refl _ List.mem_cons_self

theorem stmt (hplace : ok s.place) (hdeclared : ∀ l ∈ s.declared, ok l)
    (h : ∀ q ∈ ofStmt s, q.Sited ok) : (Part.stmt s).Sited ok :=
  of_parts (List.forall_mem_cons.mpr ⟨hplace, hdeclared⟩) h

theorem body (h : ∀ s ∈ ss, (Part.stmt s).Sited ok) : ∀ q ∈ ofBody ss, q.Sited ok :=
  List.forall_mem_map.mpr h

end Statements

end Sited

end Part

end ScriptShell
