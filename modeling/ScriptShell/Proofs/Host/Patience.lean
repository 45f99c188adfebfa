import ScriptShell.Host.Recording

namespace ScriptShell

/-- What can be asked of a host. -/
inductive Request where
  | report (r : Report)
  | branch (filename : Option String) (line : Nat)
  | write (text : String)
  | quit (code : Option Int32)
  | observe (m : Moment) (runtime : Runtime) (frame : Frame)

namespace Host

variable {σ : Type}

/-- The state of a host after a request. -/
def serve (host : Host σ) : Request → σ → σ
  | .report r, state => host.report r state
  | .branch filename line, state => (host.onBranch filename line state).2
  | .write text, state => host.write text state
  | .quit code, state => host.requestQuit code state
  | .observe m runtime frame, state => host.observe m runtime frame state

/-- The answers of a host to the news about loops among some requests. -/
def answers (host : Host σ) (state : σ) : List Request → List BranchAction
  | [] => []
  | .branch filename line :: rest =>
    (host.onBranch filename line state).1 ::
      answers host (host.serve (.branch filename line) state) rest
  | request :: rest => answers host (host.serve request state) rest

/-- Whatever is asked of the host, so many pieces of news about loops are one too many: by then
it has answered that the run is to stop. -/
def AbortsBy (host : Host σ) (limit : Nat) (state : σ) : Prop :=
  ∀ requests, limit ≤ (host.answers state requests).length →
    .abort ∈ (host.answers state requests).take limit

variable {host : Host σ} {limit : Nat} {state : σ}

theorem AbortsBy.mono {limit' : Nat} (h : host.AbortsBy limit state) (hle : limit ≤ limit') :
    host.AbortsBy limit' state :=
  fun requests hlength => List.take_subset_take_left _ hle (h requests (Nat.le_trans hle hlength))

theorem not_abortsBy_zero : ¬ host.AbortsBy 0 state :=
  fun h => nomatch h [] (Nat.zero_le _)

theorem AbortsBy.serve (h : host.AbortsBy limit state) (request : Request)
    (hrequest : ∀ filename line, request ≠ .branch filename line) :
    host.AbortsBy limit (host.serve request state) := by
  intro requests hlength
  have hanswers : host.answers state (request :: requests) =
      host.answers (host.serve request state) requests := by
    cases request with
    | branch filename line => exact (hrequest filename line rfl).elim
    | _ => rfl
  rw [← hanswers] at hlength ⊢
  exact h _ hlength

theorem AbortsBy.onBranch (h : host.AbortsBy limit state) {filename : Option String} {line : Nat}
    (ha : (host.onBranch filename line state).1 ≠ .abort) :
    ∃ limit', limit = limit' + 1 ∧
      host.AbortsBy limit' (host.onBranch filename line state).2 := by
  cases limit with
  | zero => exact (not_abortsBy_zero h).elim
  | succ limit' =>
    refine ⟨limit', rfl, fun requests hlength => ?_⟩
    have hmem := h (.branch filename line :: requests) (Nat.succ_le_succ hlength)
    rcases List.mem_cons.mp hmem with hfirst | hrest
    · exact (ha hfirst.symm).elim
    · exact hrest

end Host

theorem Recording.BranchPolicy.answer_abort {policy : BranchPolicy} {most count : Nat}
    (hlimit : policy.limit = some most) (h : most ≤ count) :
    BranchPolicy.answer policy count = .abort := by
  unfold BranchPolicy.answer
  rw [hlimit]
  simp [h]

theorem Recording.host_abortsBy {file : String → FileState} {r : Recording} {most limit : Nat}
    (hlimit : r.policy.limit = some most) (hpos : limit ≠ 0) (h : most ≤ r.branches + limit) :
    (Recording.host file).AbortsBy limit r := by
  intro requests hlength
  induction requests generalizing r limit with
  | nil => exact (hpos (Nat.le_zero.mp hlength)).elim
  | cons request requests ih =>
    cases request with
    | branch filename line =>
      obtain ⟨fewer, rfl⟩ := Nat.exists_eq_succ_of_ne_zero hpos
      by_cases hlast : fewer = 0
      · have enough : most ≤ r.branches + 1 := by omega
        refine List.mem_cons.mpr (.inl ?_)
        exact (BranchPolicy.answer_abort hlimit enough).symm
      · have hcount : most ≤ r.branches + 1 + fewer := by omega
        exact List.mem_cons_of_mem _ (ih hlimit hlast hcount (Nat.le_of_succ_le_succ hlength))
    | _ => exact ih hlimit hpos h hlength

end ScriptShell
