import ScriptShell.Evaluation

namespace ScriptShell.Evaluation

variable {σ α β : Type}

namespace State

def initial (host : σ) : State σ :=
  ⟨.initial .bare, ⟨none, none, 0, .undefined⟩, host⟩

def tell (f : σ → σ) (s : State σ) : State σ :=
  { s with host := f s.host }

def observed (host : Host σ) (m : Moment) (s : State σ) : State σ :=
  { s with host := host.observe m s.runtime s.frame s.host }

def inFrame (f : Frame) (s : State σ) : State σ :=
  { s with frame := f }

def inScope (scope : Option ScopeId) (s : State σ) : State σ :=
  s.inFrame { s.frame with scope }

def atDepth (depth : Nat) (s : State σ) : State σ :=
  { s with runtime := { s.runtime with callDepth := depth } }

def entered (host : Host σ) (s : State σ) : State σ :=
  (s.atDepth (s.runtime.callDepth + 1)).observed host .callBegins

def left (host : Host σ) (s : State σ) : State σ :=
  (s.atDepth (s.runtime.callDepth - 1)).observed host .callEnds

def answer (host : Host σ) (line : Nat) (s : State σ) : BranchAction :=
  (host.onBranch s.frame.filename line (s.observed host .notifies).host).1

def notified (host : Host σ) (line : Nat) (s : State σ) : State σ :=
  (s.observed host .notifies).tell fun state => (host.onBranch s.frame.filename line state).2

def quitted (host : Host σ) (code : Option Int32) (s : State σ) : State σ :=
  (s.observed host .quits).tell (host.requestQuit code)

def collected (s : State σ) : State σ :=
  { s with runtime := { s.runtime with heap := s.runtime.heap.maybeCollect.2 } }

def isTooDeep (s : State σ) : Bool :=
  (s.runtime.stackLimit.map fun limit =>
    decide (s.runtime.machine.stackAddress s.runtime.callDepth < limit)).getD false ||
      maxCallDepth ≤ s.runtime.callDepth

end State

def inState (f : State σ → State σ) :
    EStateM.Result Stop (State σ) α → EStateM.Result Stop (State σ) α
  | .ok a t => .ok a (f t)
  | .error e t => .error e (f t)

theorem inState_inState (f g : State σ → State σ) (r : EStateM.Result Stop (State σ) α) :
    inState g (inState f r) = inState (fun s => g (f s)) r := by
  cases r <;> rfl

theorem bind_apply (x : Eval σ α) (f : α → Eval σ β) (s : State σ) :
    (x >>= f) s = match x s with
      | .ok a t => f a t
      | .error e t => .error e t := by
  change EStateM.bind x f s = _
  unfold EStateM.bind
  cases x s <;> rfl

theorem bind_of_ok {x : Eval σ α} {a : α} {s t : State σ} (hx : x s = .ok a t)
    (f : α → Eval σ β) : (x >>= f) s = f a t := by
  rw [bind_apply, hx]

theorem ask_of_ok {f : Heap → Except Fault α} {a : α} {s : State σ}
    (h : f s.runtime.heap = .ok a) : ask f s = .ok a s := by
  change liftFault (f s.runtime.heap) s = _
  rw [h]
  rfl

theorem modify_after (x : Eval σ α) (f : State σ → State σ) (s : State σ) :
    (do let r ← attempt x; modify f; conclude r) s = inState f (x s) := by
  rw [bind_apply]
  unfold attempt
  cases x s <;> rfl

theorem inScope_apply (id : ScopeId) (x : Eval σ α) (s : State σ) :
    inScope id x s = inState (·.inScope s.frame.scope) (x (s.inScope (some id))) :=
  modify_after x (·.inScope s.frame.scope) (s.inScope (some id))

theorem inFrame_apply (f : Frame) (x : Eval σ α) (s : State σ) :
    inFrame f x s = inState (·.inFrame s.frame) (x (s.inFrame f)) :=
  modify_after x (·.inFrame s.frame) (s.inFrame f)

theorem oneDeeper_apply (host : Host σ) (x : Eval σ α) (s : State σ) :
    oneDeeper host x s = inState (·.left host) (x (s.entered host)) :=
  modify_after x (·.left host) (s.entered host)

def answered (s : State σ) : BranchAction → EStateM.Result Stop (State σ) Unit
  | .continue_ => .ok () s
  | .collect => .ok () s.collected
  | .abort => .error .aborted s

theorem branch_apply (host : Host σ) (line : Nat) (s : State σ)
    (ht : s.runtime.tellsBranches = true) :
    branch host line s = answered (s.notified host line) (s.answer host line) := by
  unfold branch
  rw [bind_apply]
  change (if s.runtime.tellsBranches = true then _ else _ : Eval σ Unit) s = _
  rw [if_pos ht]
  have htold : observe host .notifies s = .ok () (s.observed host .notifies) := rfl
  have hframe : s.frame = (s.observed host .notifies).frame := rfl
  rw [bind_of_ok htold, State.notified, State.answer, State.tell, hframe]
  generalize s.observed host .notifies = t
  have hget : (get : Eval σ (State σ)) t = .ok t t := rfl
  rw [bind_of_ok hget]
  cases host.onBranch t.frame.filename line t.host with
  | mk action state => cases action <;> rfl

theorem branch_silent (host : Host σ) (line : Nat) (s : State σ)
    (ht : s.runtime.tellsBranches = false) : branch host line s = .ok () s := by
  unfold branch
  rw [bind_apply]
  change (if s.runtime.tellsBranches = true then _ else _ : Eval σ Unit) s = _
  rw [ht]
  rfl

theorem throwAt_apply (host : Host σ) (v : Value) (file : Option String) (line : Nat)
    (s : State σ) :
    (throwAt host v file line : Eval σ α) s =
      .error (.thrown v file line) (s.observed host (.raised v file line)) :=
  rfl

theorem located_apply (host : Host σ) (x : Eval σ α) (s : State σ) :
    located host x s = match x s with
      | .error (.thrown v none 0) t => throwAt host v t.frame.filename t.frame.line t
      | r => r := by
  unfold located
  rw [bind_apply]
  unfold attempt
  cases x s with
  | ok a t => rfl
  | error e t =>
    dsimp only
    split
    · simp_all
      rfl
    · simp_all
      rfl

def handled (host : Host σ) (handler : Option (Value → Eval σ Completion))
    (r : EStateM.Result Stop (State σ) Completion) : EStateM.Result Stop (State σ) Completion :=
  match handler, r with
  | some handle, .error (.thrown v _ _) t => handle v (t.observed host .handlerBegins)
  | _, r => r

def overridden (before : State σ → EStateM.Result Stop (State σ) Completion) :
    EStateM.Result Stop (State σ) Completion → EStateM.Result Stop (State σ) Completion
  | .ok .normal t => before t
  | r => r

/-- What is left of an end behind the final part. -/
def finished (host : Host σ) (finalizer : Option (Eval σ Completion))
    (r : EStateM.Result Stop (State σ) Completion) : EStateM.Result Stop (State σ) Completion :=
  match finalizer, r with
  | some last, .ok c t => overridden (.ok c) (last (t.observed host .finalizerBegins))
  | some last, .error (.thrown v file line) t =>
    overridden (.error (.thrown v file line)) (last (t.observed host .finalizerBegins))
  | _, r => r

theorem attempt_apply (x : Eval σ α) (s : State σ) :
    ∃ r t, attempt x s = .ok r t ∧ conclude r t = x s := by
  unfold attempt
  cases x s with
  | ok a t => exact ⟨.ok a, t, rfl, rfl⟩
  | error e t => exact ⟨.error e, t, rfl, rfl⟩

theorem handledBy_apply (host : Host σ) (handler : Option (Value → Eval σ Completion))
    (r : Except Stop Completion) (t : State σ) :
    ∃ r' t', handledBy host handler r t = .ok r' t' ∧
      conclude r' t' = handled host handler (conclude r t) := by
  cases handler with
  | none =>
    refine ⟨r, t, rfl, ?_⟩
    cases r with
    | ok c => rfl
    | error e => cases e <;> rfl
  | some handle =>
    cases r with
    | ok c => exact ⟨_, t, rfl, rfl⟩
    | error e =>
      cases e with
      | thrown v file line => exact attempt_apply (handle v) (t.observed host .handlerBegins)
      | aborted | fault | wanting | outOfFuel => exact ⟨_, t, rfl, rfl⟩

theorem overriddenBy_apply (last : Eval σ Completion) (r : Except Stop Completion) (t : State σ) :
    (last >>= overriddenBy r) t = overridden (conclude r) (last t) := by
  rw [bind_apply]
  cases last t with
  | error e u => rfl
  | ok c u => cases c <;> rfl

theorem finishedBy_apply (host : Host σ) (finalizer : Option (Eval σ Completion))
    (r : Except Stop Completion) (t : State σ) :
    finishedBy host finalizer r t = finished host finalizer (conclude r t) := by
  cases finalizer with
  | none => rfl
  | some last =>
    have run := overriddenBy_apply last r (t.observed host .finalizerBegins)
    cases r with
    | ok c => exact run
    | error e =>
      cases e with
      | thrown v file line => exact run
      | aborted | fault | wanting | outOfFuel => rfl

theorem guarded_apply (host : Host σ) (body : Eval σ Completion)
    (handler : Option (Value → Eval σ Completion)) (finalizer : Option (Eval σ Completion))
    (s : State σ) :
    guarded host body handler finalizer s =
      finished host finalizer (handled host handler (body s)) := by
  obtain ⟨r, t, hrun, hend⟩ := attempt_apply body s
  obtain ⟨r', t', hrun', hend'⟩ := handledBy_apply host handler r t
  unfold guarded
  rw [bind_apply, hrun]
  dsimp only
  rw [bind_apply, hrun']
  dsimp only
  rw [finishedBy_apply, hend', hend]

end ScriptShell.Evaluation
