import ScriptShell.Proofs.Program.Part

namespace ScriptShell.Part

noncomputable def size : Part → Nat
  | .expr e | .target e => sizeOf e
  | .stmt s => sizeOf s
  | .function f => sizeOf f
  | .program p => sizeOf p

theorem size_lt_of_mem_ofBody {q : Part} {body : List Stmt} (h : q ∈ ofBody body) :
    q.size < sizeOf body := by
  obtain ⟨s, hs, rfl⟩ := List.mem_map.mp h
  exact List.sizeOf_lt_of_mem hs

theorem size_lt_of_mem_exprs {q : Part} {es : List Expr} (h : q ∈ es.map .expr) :
    q.size < sizeOf es := by
  obtain ⟨e, he, rfl⟩ := List.mem_map.mp h
  exact List.sizeOf_lt_of_mem he

theorem size_lt_of_mem_ofDeclarators {q : Part} {ds : List Declarator}
    (h : q ∈ ds.flatMap ofDeclarator) : q.size < sizeOf ds := by
  obtain ⟨⟨name, init, place⟩, hd, hq⟩ := List.mem_flatMap.mp h
  have hlt := List.sizeOf_lt_of_mem hd
  cases init with
  | none => cases hq
  | some e =>
    rw [List.mem_singleton.mp hq]
    simp only [size, Declarator.mk.sizeOf_spec, Option.some.sizeOf_spec] at hlt ⊢
    omega

theorem size_lt_of_mem_ofExpr {q : Part} {e : Expr} (h : q ∈ ofExpr e) : q.size < sizeOf e := by
  cases e with
  | array es place | sequence es place =>
    have hlt := size_lt_of_mem_exprs h
    simp only [Expr.array.sizeOf_spec, Expr.sequence.sizeOf_spec]
    omega
  | object es place =>
    obtain ⟨⟨key, e⟩, he, rfl⟩ := List.mem_map.mp h
    have hlt := List.sizeOf_lt_of_mem he
    simp only [size, Prod.mk.sizeOf_spec, Expr.object.sizeOf_spec] at hlt ⊢
    omega
  | call f args place =>
    simp only [Expr.call.sizeOf_spec]
    rcases List.mem_cons.mp h with rfl | hargs
    · simp only [size]
      omega
    · have hlt := size_lt_of_mem_exprs hargs
      omega
  | number | text | bool | null | name => cases h
  | _ =>
    simp only [ofExpr, List.mem_cons, List.not_mem_nil, or_false] at h
    rcases h with rfl | rfl | rfl <;> simp [size] <;> omega

theorem size_lt_of_mem_ofStmt {q : Part} {s : Stmt} (h : q ∈ ofStmt s) : q.size < sizeOf s := by
  cases s with
  | declare kind ds place =>
    have hlt := size_lt_of_mem_ofDeclarators h
    simp only [Stmt.declare.sizeOf_spec]
    omega
  | block body place =>
    have hlt := size_lt_of_mem_ofBody h
    simp only [Stmt.block.sizeOf_spec]
    omega
  | try_ body handler finalizer place =>
    simp only [ofStmt, List.mem_append] at h
    simp only [Stmt.try_.sizeOf_spec]
    rcases h with (hbody | hhandler) | hfinalizer
    · have hlt := size_lt_of_mem_ofBody hbody
      omega
    · match handler, hhandler with
      | some (.mk param caught), hhandler =>
        have hlt := size_lt_of_mem_ofBody (by simpa [ofHandler] using hhandler)
        simp only [Option.some.sizeOf_spec, CatchClause.mk.sizeOf_spec]
        omega
    · match finalizer, hfinalizer with
      | some last, hfinalizer =>
        have hlt := size_lt_of_mem_ofBody (by simpa using hfinalizer)
        simp only [Option.some.sizeOf_spec]
        omega
  | for_ init c step body place =>
    simp only [Stmt.for_.sizeOf_spec]
    rcases List.mem_cons.mp h with rfl | h
    · simp only [size]
      omega
    · rcases List.mem_append.mp h with hinit | hexprs
      · match init, hinit with
        | some s, hinit =>
          simp only [List.mem_singleton.mp hinit, size, Option.some.sizeOf_spec]
          omega
      · obtain ⟨e, he, rfl⟩ := List.mem_map.mp hexprs
        rcases List.mem_append.mp he with he | he
        · cases Option.mem_toList.mp he
          simp only [size, Option.some.sizeOf_spec]
          omega
        · cases Option.mem_toList.mp he
          simp only [size, Option.some.sizeOf_spec]
          omega
  | if_ c yes no place =>
    simp only [Stmt.if_.sizeOf_spec]
    simp only [ofStmt, List.mem_cons] at h
    rcases h with rfl | rfl | hno
    · simp only [size]
      omega
    · simp only [size]
      omega
    · match no, hno with
      | some no, hno =>
        simp only [List.mem_singleton.mp hno, size, Option.some.sizeOf_spec]
        omega
  | return_ e place =>
    match e, h with
    | some e, h =>
      simp only [List.mem_singleton.mp h, size, Stmt.return_.sizeOf_spec, Option.some.sizeOf_spec]
      omega
  | break_ | continue_ | empty => cases h
  | _ =>
    simp only [ofStmt, List.mem_cons, List.not_mem_nil, or_false] at h
    rcases h with rfl | rfl <;> simp [size] <;> omega

theorem size_lt_of_mem {p q : Part} (h : q ∈ p.parts) : q.size < p.size := by
  cases p with
  | expr e => exact size_lt_of_mem_ofExpr h
  | target e =>
    cases e with
    | member e key place =>
      rw [List.mem_singleton.mp h]
      simp only [size, Expr.member.sizeOf_spec]
      omega
    | index e i place =>
      simp only [parts, ofTarget, List.mem_cons, List.not_mem_nil, or_false] at h
      rcases h with rfl | rfl <;> simp [size] <;> omega
    | _ => cases h
  | stmt s => exact size_lt_of_mem_ofStmt h
  | function f =>
    obtain ⟨name, params, body, varNames, place⟩ := f
    have hlt : q.size < sizeOf body := size_lt_of_mem_ofBody h
    change q.size < sizeOf (FunctionDef.mk name params body varNames place)
    simp only [FunctionDef.mk.sizeOf_spec]
    omega
  | program p =>
    obtain ⟨body, varNames⟩ := p
    have hlt : q.size < sizeOf body := size_lt_of_mem_ofBody h
    change q.size < sizeOf (Program.mk body varNames)
    simp only [Program.mk.sizeOf_spec]
    omega

end ScriptShell.Part

namespace ScriptShell

def Part.Within (bound : Nat) (p : Part) : Prop :=
  p.size ≤ bound

theorem hereditary_within (bound : Nat) : Hereditary (Part.Within bound) :=
  fun _ _ hq hp => Nat.le_trans (Nat.le_of_lt (Part.size_lt_of_mem hq)) hp

end ScriptShell
