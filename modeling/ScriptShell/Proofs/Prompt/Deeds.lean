import ScriptShell.Proofs.Evaluation.Failure
import ScriptShell.Proofs.Prompt.Units

namespace ScriptShell

namespace Shell

def prints (text : String) (s : Shell) : Shell :=
  { s with session := { s.session with out := s.session.out ++ text } }

def limited (s : Shell) : Runtime :=
  { s.runtime with stackLimit := s.session.guard.stackLimit }

end Shell

namespace Session

variable {file : String → FileState}

theorem out_report (r : Report) (s : Session) : (s.report r).out = s.out := by
  unfold report
  split
  · split <;> rfl
  · rfl

/-- What was written stays in front of what a session writes. -/
theorem preserves_out (file : String → FileState) (out : String) :
    (Session.host file).Preserves fun s => ∃ written, s.out = out ++ written where
  warning r s _ h := by
    change ∃ written, (s.report r).out = out ++ written
    rwa [out_report]
  onBranch filename line s h := by
    change ∃ written, (s.onBranch filename line).2.out = out ++ written
    unfold onBranch
    dsimp only
    split
    · exact h
    · exact h
    · rwa [out_report]
  write text s h := by
    obtain ⟨written, hout⟩ := h
    exact ⟨written ++ text, (congrArg (· ++ text) hout).trans (String.append_assoc ..)⟩
  requestQuit _ _ h := h
  observe _ _ _ _ h := h

theorem exists_out_execute (file : String → FileState) (r : Runtime) (fuel : Nat)
    (filename : Option String) (p : Program) (s : Session) : ∃ written,
      (r.execute (Session.host file) fuel filename p s).2.2.out = s.out ++ written := by
  have hreport (r : Report) {s' : Session} (h : ∃ written, s'.out = s.out ++ written) :
      ∃ written, (s'.report r).out = s.out ++ written := by
    rwa [out_report]
  obtain ⟨outcome, t, hrun, met⟩ := (Evaluation.Contract.hosted_keeps
    (preserves_out file s.out)).execute (fun r hs => ⟨hreport r hs, trivial⟩) r fuel filename p s
      trivial ⟨"", (String.append_empty).symm⟩
  rw [hrun]
  cases outcome with
  | value v => exact met.2.1
  | stopped e => exact met.1

theorem out_compile (file : String → FileState) (r : Runtime) (filename : Option String)
    (startLine : Nat) (source : String) (s : Session) :
    (r.compile (Session.host file) filename startLine source s).2.out = s.out :=
  Runtime.compile_preserves (Session.host file) (Q := fun t => t.out = s.out)
    (fun r t ht => (out_report r t).trans ht) r filename startLine source s rfl

end Session

/-- What the prompt does. -/
inductive Deed where
  /-- Writes a prompt. -/
  | asks (prompt : String)
  /-- Reads a piece of standard input, nothing at its end. -/
  | reads (line : Option (List UInt8))
  | compiles (d : Draft)
  /-- Runs what was compiled, which writes a text. -/
  | executes (written : String)
  /-- Writes the text of the value of a unit. -/
  | shows (text : String)
  | leaves
  deriving DecidableEq, Repr

namespace Deed

def unit? : Deed → Option Draft
  | .compiles d => some d
  | _ => none

/-- The units that are compiled, in their order. -/
def units (deeds : List Deed) : List Draft :=
  deeds.filterMap unit?

/-- The bytes of the units that are compiled, one behind the other. -/
def unitBytes (deeds : List Deed) : List UInt8 :=
  (units deeds).flatMap Draft.bytes

def written : Deed → String
  | .asks prompt => prompt
  | .executes written => written
  | .shows text => text ++ "\n"
  | .leaves => "\n"
  | .reads _ | .compiles _ => ""

/-- All that is written, in its order. -/
def writtenBy (deeds : List Deed) : String :=
  deeds.foldr (fun deed text => deed.written ++ text) ""

theorem units_append (deeds deeds' : List Deed) :
    units (deeds ++ deeds') = units deeds ++ units deeds' :=
  List.filterMap_append

theorem unitBytes_append (deeds deeds' : List Deed) :
    unitBytes (deeds ++ deeds') = unitBytes deeds ++ unitBytes deeds' := by
  rw [unitBytes, units_append, List.flatMap_append, unitBytes, unitBytes]

end Deed

namespace Prompt

/-- What the prompt does next. -/
inductive Stage where
  | asking
  | reading
  /-- Compiles the draft; standard input may have come to its end. -/
  | compiling (ended : Bool)
  | executing (ended : Bool) (p : Program)
  | showing (ended : Bool) (text : String)
  | leaving
  | left
  | interrupted (why : Interruption)

namespace Stage

def behind (ended : Bool) (s : Session) : Stage :=
  if ended || s.quitting then .leaving else .asking

/-- The stage behind the run of a unit: values other than undefined are shown. -/
def afterRun (ended : Bool) (r : Runtime) (s : Session) : Outcome → Stage
  | .value .undefined | .stopped (.thrown _ _ _) | .stopped .aborted => behind ended s
  | .value v =>
    match r.heap.text v with
    | .ok text => .showing ended text
    | .error f => .interrupted (.fault f)
  | .stopped (.fault f) => .interrupted (.fault f)
  | .stopped (.wanting name) => .interrupted (.wanting name)
  | .stopped .outOfFuel => .interrupted .outOfFuel

theorem behind_cases (ended : Bool) (s : Session) :
    behind ended s = .leaving ∨ behind ended s = .asking := by
  unfold behind
  split
  · exact .inl rfl
  · exact .inr rfl

theorem afterRun_cases (ended : Bool) (r : Runtime) (s : Session) (outcome : Outcome) :
    afterRun ended r s outcome = behind ended s ∨
      (∃ text, afterRun ended r s outcome = .showing ended text) ∨
      ∃ why, afterRun ended r s outcome = .interrupted why := by
  unfold afterRun
  split
  case h_4 =>
    split
    · exact .inr (.inl ⟨_, rfl⟩)
    · exact .inr (.inr ⟨_, rfl⟩)
  all_goals first | exact .inl rfl | exact .inr (.inr ⟨_, rfl⟩)

end Stage

/-- A prompt between two deeds. -/
structure Spot where
  stage : Stage
  shell : Shell
  draft : Draft

namespace Spot

def start (s : Shell) : Spot :=
  ⟨.asking, s, .blank 0⟩

/-- How the prompt ended. -/
def outcome? (p : Spot) : Option (Except Interruption Shell) :=
  match p.stage with
  | .left => some (.ok p.shell)
  | .interrupted why => some (.error why)
  | _ => none

theorem left_of_outcome {p : Spot} {s : Shell} (h : p.outcome? = some (.ok s)) :
    p.stage = .left ∧ s = p.shell := by
  unfold outcome? at h
  split at h
  · next hstage => exact ⟨hstage, (Except.ok.inj (Option.some.inj h)).symm⟩
  all_goals cases h

def bytes (p : Spot) : List UInt8 :=
  p.draft.bytes ++ p.shell.input.bytes

end Spot

/-- Whether bytes pass for a unit: they do not end inside a character, and the source that they
spell is complete. -/
def Passes (r : Runtime) (bytes : List UInt8) : Bool :=
  !Text.endsInsideChar 0 bytes && r.isCompilable (Text.readUtf8 bytes)

/-- One deed of the prompt. -/
inductive Act (file : String → FileState) (size : Nat) : Spot → Deed → Spot → Prop where
  | asks (s : Shell) (d : Draft) {prompt : String}
      (hprompt : prompt = if d.bytes = [] then "js> " else "") :
      Act file size ⟨.asking, s, d⟩ (.asks prompt) ⟨.reading, s.prints prompt, d⟩
  | reads {s : Shell} {line : List UInt8} {input : Input} (d : Draft)
      (h : s.input.readLine size = (.ok (some line), input)) :
      Act file size ⟨.reading, s, d⟩ (.reads (some line))
        ⟨if Passes s.runtime (d.add line).bytes then .compiling false else .asking,
          { s with input }, d.add line⟩
  | ends {s : Shell} {input : Input} (d : Draft)
      (h : s.input.readLine size = (.ok none, input)) :
      Act file size ⟨.reading, s, d⟩ (.reads none) ⟨.compiling true, { s with input }, d⟩
  | accepts {s : Shell} {d : Draft} {p : Program} {session : Session} (ended : Bool)
      (h : s.limited.compile (Session.host file) (some "typein") (d.linesBefore + 1)
        (Text.readUtf8 d.bytes) s.session = (.ok p, session)) :
      Act file size ⟨.compiling ended, s, d⟩ (.compiles d)
        ⟨.executing ended p, { s with runtime := s.limited, session }, d.after⟩
  | rejects {s : Shell} {d : Draft} {e : ParseError} {session : Session} (ended : Bool)
      (h : s.limited.compile (Session.host file) (some "typein") (d.linesBefore + 1)
        (Text.readUtf8 d.bytes) s.session = (.error e, session)) :
      Act file size ⟨.compiling ended, s, d⟩ (.compiles d)
        ⟨.behind ended session, { s with runtime := s.limited, session }, d.after⟩
  | executes {s : Shell} {p : Program} {outcome : Outcome} {runtime : Runtime}
      {session : Session} {written : String} (ended : Bool) (d : Draft)
      (h : s.runtime.execute (Session.host file) Evaluation.plenty (some "typein") p s.session =
        (outcome, runtime, session)) (hout : session.out = s.session.out ++ written) :
      Act file size ⟨.executing ended p, s, d⟩ (.executes written)
        ⟨.afterRun ended runtime session outcome, { s with runtime, session }, d⟩
  | shows (ended : Bool) (text : String) (s : Shell) (d : Draft) :
      Act file size ⟨.showing ended text, s, d⟩ (.shows text)
        ⟨.behind ended s.session, s.prints (text ++ "\n"), d⟩
  | leaves (s : Shell) (d : Draft) :
      Act file size ⟨.leaving, s, d⟩ .leaves ⟨.left, s.prints "\n", d⟩

/-- Deeds of the prompt, one after the other. -/
inductive Acts (file : String → FileState) (size : Nat) : Spot → List Deed → Spot → Prop where
  | nil (p : Spot) : Acts file size p [] p
  | cons {p q r : Spot} {deed : Deed} {deeds : List Deed}
      (first : Act file size p deed q) (rest : Acts file size q deeds r) :
      Acts file size p (deed :: deeds) r

variable {file : String → FileState} {size : Nat}

/-- What is known about the shell and the draft at a stage. -/
def Stage.Sound (s : Shell) (d : Draft) : Stage → Prop
  | .compiling false => Passes s.runtime d.bytes = true
  | .compiling true => s.input.bytes = []
  | .executing ended _ | .showing ended _ => d.bytes = [] ∧ (ended = true → s.input.bytes = [])
  | .leaving | .left => d.bytes = [] ∧ (s.session.quitting = false → s.input.bytes = [])
  | .asking | .reading | .interrupted _ => True

def Spot.Sound (p : Spot) : Prop :=
  p.stage.Sound p.shell p.draft

namespace Stage

variable {s : Shell} {d : Draft} {ended : Bool}

theorem sound_behind (hd : d.bytes = []) (hended : ended = true → s.input.bytes = []) :
    (behind ended s.session).Sound s d := by
  unfold behind
  cases hquit : s.session.quitting with
  | true =>
    rw [Bool.or_true, if_pos rfl]
    exact ⟨hd, fun h => absurd (hquit.symm.trans h) nofun⟩
  | false =>
    cases ended with
    | true => exact ⟨hd, fun _ => hended rfl⟩
    | false => trivial

theorem sound_afterRun {outcome : Outcome} (hd : d.bytes = [])
    (hended : ended = true → s.input.bytes = []) :
    (afterRun ended s.runtime s.session outcome).Sound s d := by
  rcases afterRun_cases ended s.runtime s.session outcome with h | ⟨text, h⟩ | ⟨why, h⟩ <;> rw [h]
  · exact sound_behind hd hended
  · exact ⟨hd, hended⟩
  · trivial

end Stage

theorem Act.sound {p q : Spot} {deed : Deed} (h : Act file size p deed q) (hp : p.Sound) :
    q.Sound := by
  cases h with
  | asks s d hprompt => trivial
  | @reads s line input d h =>
    cases hpasses : Passes s.runtime (d.add line).bytes with
    | false => trivial
    | true => exact hpasses
  | ends d h => exact (Input.bytes_of_readLine_none h).2
  | @accepts s d p session ended h =>
    cases ended with
    | true => exact ⟨rfl, fun _ => hp⟩
    | false => exact ⟨rfl, nofun⟩
  | @rejects s d e session ended h =>
    have hended : ended = true → s.input.bytes = [] := by
      rintro rfl
      exact hp
    exact Stage.sound_behind (s := { s with runtime := s.limited, session }) rfl hended
  | @executes s p outcome runtime session written ended d h hout =>
    exact Stage.sound_afterRun (s := { s with runtime, session }) hp.1 hp.2
  | shows ended text s d => exact Stage.sound_behind (s := s.prints (text ++ "\n")) hp.1 hp.2
  | leaves s d => exact hp

theorem Act.bytes {p q : Spot} {deed : Deed} (h : Act file size p deed q) :
    p.bytes = Deed.unitBytes [deed] ++ q.bytes := by
  cases h with
  | reads d h =>
    rw [Spot.bytes, Spot.bytes, ← (Input.bytes_of_readLine_some h).1]
    simp [Deed.unitBytes, Deed.units, Deed.unit?, Draft.add]
  | ends d h =>
    obtain ⟨hbefore, hafter⟩ := Input.bytes_of_readLine_none h
    simp [Spot.bytes, Deed.unitBytes, Deed.units, Deed.unit?, hbefore, hafter]
  | accepts ended h | rejects ended h =>
    simp [Spot.bytes, Deed.unitBytes, Deed.units, Deed.unit?, Draft.after, Draft.blank]
  | _ => rfl

theorem Act.out {p q : Spot} {deed : Deed} (h : Act file size p deed q) :
    q.shell.session.out = p.shell.session.out ++ deed.written := by
  cases h with
  | reads d h | ends d h => exact (String.append_empty).symm
  | @accepts s d p session ended h | @rejects s d p session ended h =>
    have hsame := Session.out_compile file s.limited (some "typein") (d.linesBefore + 1)
      (Text.readUtf8 d.bytes) s.session
    rw [h] at hsame
    exact hsame.trans (String.append_empty).symm
  | executes ended d h hout => exact hout
  | _ => rfl

def Spot.owed (p : Spot) : Nat :=
  match p.stage with
  | .asking => if p.draft.bytes = [] then 0 else 1
  | .reading | .compiling _ => 1
  | _ => 0

theorem Spot.owed_of_outcome {p : Spot} (h : p.outcome? ≠ none) : p.owed = 0 := by
  unfold outcome? at h
  split at h
  · next hstage => rw [owed, hstage]
  · next hstage => rw [owed, hstage]
  · exact absurd rfl h

theorem Spot.owed_behind {ended : Bool} {session : Session} {s : Shell} {d : Draft}
    (hd : d.bytes = []) : owed ⟨.behind ended session, s, d⟩ = 0 := by
  unfold owed
  rcases Stage.behind_cases ended session with h | h <;> rw [h]
  exact if_pos hd

theorem Spot.owed_afterRun {ended : Bool} {r : Runtime} {session : Session} {outcome : Outcome}
    {s : Shell} {d : Draft} (hd : d.bytes = []) :
    owed ⟨.afterRun ended r session outcome, s, d⟩ = 0 := by
  rcases Stage.afterRun_cases ended r session outcome with h | ⟨text, h⟩ | ⟨why, h⟩ <;> rw [h]
  · exact owed_behind hd
  · rfl
  · rfl

theorem Act.owed {p q : Spot} {deed : Deed} (h : Act file size p deed q) (hp : p.Sound) :
    p.owed + [deed].count (.asks "js> ") = (Deed.units [deed]).length + q.owed := by
  cases h with
  | asks s d hprompt =>
    by_cases hd : d.bytes = []
    · rw [if_pos hd] at hprompt
      simp [Spot.owed, Deed.units, Deed.unit?, hd, hprompt]
    · rw [if_neg hd] at hprompt
      simp [Spot.owed, Deed.units, Deed.unit?, hd, hprompt]
  | @reads s line input d h =>
    have hne := add_ne_nil d (Input.ne_nil_of_readLine h)
    cases hpasses : Passes s.runtime (d.add line).bytes <;>
      simp [Spot.owed, Deed.units, Deed.unit?, hne]
  | ends d h | accepts ended h => rfl
  | rejects ended h =>
    rw [Spot.owed_behind rfl]
    rfl
  | executes ended d h hout =>
    rw [Spot.owed_afterRun hp.1]
    rfl
  | shows ended text s d =>
    rw [Spot.owed_behind hp.1]
    rfl
  | leaves s d => rfl

theorem Act.eq_reads_none {p q : Spot} {deed : Deed} (h : Act file size p deed q)
    (hq : q.stage = .compiling true) : deed = .reads none := by
  have behind {ended : Bool} {s : Session} : Stage.behind ended s ≠ .compiling true := by
    rcases Stage.behind_cases ended s with h | h <;> rw [h] <;> nofun
  cases h with
  | @reads s line input d h =>
    cases hpasses : Passes s.runtime (d.add line).bytes <;> simp [hpasses] at hq
  | ends d h => rfl
  | rejects ended h | shows ended => exact absurd hq behind
  | @executes s p outcome runtime session written ended d h hout =>
    dsimp only at hq
    rcases Stage.afterRun_cases ended runtime session outcome with h | ⟨text, h⟩ | ⟨why, h⟩ <;>
      rw [h] at hq
    · exact absurd hq behind
    · cases hq
    · cases hq
  | _ => cases hq

theorem Act.of_compiles {p q : Spot} {d : Draft} (h : Act file size p (.compiles d) q) :
    ∃ ended, p.stage = .compiling ended ∧ d = p.draft := by
  cases h with
  | accepts ended | rejects ended => exact ⟨ended, rfl, rfl⟩

def Stage.IsLast : Stage → Prop
  | .showing _ _ | .leaving | .left | .interrupted _ => True
  | _ => False

structure Spot.Quits (p : Spot) : Prop where
  quitting : p.shell.session.quitting = true
  last : p.stage.IsLast

theorem Stage.isLast_behind {ended : Bool} {s : Session} (h : s.quitting = true) :
    (behind ended s).IsLast := by
  unfold behind
  rw [h, Bool.or_true, if_pos rfl]
  trivial

theorem Act.quits {p q : Spot} {deed : Deed} (h : Act file size p deed q) (hp : p.Quits) :
    q.Quits ∧ ((∃ text, deed = .shows text) ∨ deed = .leaves) := by
  cases h with
  | shows ended text s d => exact ⟨⟨hp.quitting, Stage.isLast_behind hp.quitting⟩, .inl ⟨text, rfl⟩⟩
  | leaves s d => exact ⟨⟨hp.quitting, trivial⟩, .inr rfl⟩
  | _ => exact hp.last.elim

theorem Act.quits_of_executes {p q : Spot} {written : String}
    (h : Act file size p (.executes written) q) (hquit : q.shell.session.quitting = true) :
    q.Quits := by
  cases h with
  | @executes s p outcome runtime session _ ended d h hout =>
    refine ⟨hquit, ?_⟩
    rcases Stage.afterRun_cases ended runtime session outcome with h | ⟨text, h⟩ | ⟨why, h⟩ <;>
      rw [h]
    · exact Stage.isLast_behind hquit
    · trivial
    · trivial

namespace Acts

variable {p q r : Spot} {deeds deeds' : List Deed}

theorem append (h : Acts file size p deeds q) (h' : Acts file size q deeds' r) :
    Acts file size p (deeds ++ deeds') r := by
  induction h with
  | nil => exact h'
  | cons first _ ih => exact .cons first (ih h')

theorem sound (h : Acts file size p deeds q) (hp : p.Sound) : q.Sound := by
  induction h with
  | nil => exact hp
  | cons first _ ih => exact ih (first.sound hp)

theorem bytes (h : Acts file size p deeds q) : p.bytes = Deed.unitBytes deeds ++ q.bytes := by
  induction h with
  | nil => rfl
  | @cons p q r deed deeds first _ ih =>
    rw [first.bytes, ih, ← List.append_assoc, ← Deed.unitBytes_append]
    rfl

theorem out (h : Acts file size p deeds q) :
    q.shell.session.out = p.shell.session.out ++ Deed.writtenBy deeds := by
  induction h with
  | nil => exact (String.append_empty).symm
  | cons first _ ih => rw [ih, first.out, String.append_assoc]; rfl

theorem owed (h : Acts file size p deeds q) (hp : p.Sound) :
    p.owed + deeds.count (.asks "js> ") = (Deed.units deeds).length + q.owed := by
  induction h with
  | nil => exact Nat.add_comm ..
  | @cons p q r deed deeds first _ ih =>
    have howed := first.owed hp
    have hlater := ih (first.sound hp)
    rw [← List.singleton_append, List.count_append, Deed.units_append, List.length_append]
    omega

theorem snoc_cases (h : Acts file size p deeds q) :
    (deeds = [] ∧ p = q) ∨ ∃ front deed r, deeds = front ++ [deed] ∧ Acts file size p front r ∧
      Act file size r deed q := by
  induction h with
  | nil p => exact .inl ⟨rfl, rfl⟩
  | @cons p q r deed deeds first rest ih =>
    rcases ih with ⟨rfl, rfl⟩ | ⟨front, deed', r', rfl, hfront, hlast⟩
    · exact .inr ⟨[], deed, p, rfl, .nil p, first⟩
    · exact .inr ⟨deed :: front, deed', r', rfl, .cons first hfront, hlast⟩

theorem getLast?_of_ended (h : Acts file size p deeds q) (hp : p.stage ≠ .compiling true)
    (hq : q.stage = .compiling true) : deeds.getLast? = some (.reads none) := by
  rcases h.snoc_cases with ⟨rfl, rfl⟩ | ⟨front, deed, r, rfl, -, hlast⟩
  · exact absurd hq hp
  · rw [List.getLast?_concat, hlast.eq_reads_none hq]

theorem quits (h : Acts file size p deeds q) (hp : p.Quits) :
    ∀ deed ∈ deeds, (∃ text, deed = .shows text) ∨ deed = .leaves := by
  induction h with
  | nil => exact fun _ hmem => absurd hmem List.not_mem_nil
  | cons first _ ih =>
    obtain ⟨hq, hdeed⟩ := first.quits hp
    exact List.forall_mem_cons.mpr ⟨hdeed, ih hq⟩

end Acts

section Run

variable {s : Shell} {d : Draft} {session : Session}

theorem run_of_rejected {e : ParseError}
    (h : s.limited.compile (Session.host file) (some unitName) (d.linesBefore + 1) d.source
      s.session = (.error e, session)) :
    run file ⟨s, d⟩ = .ok { s with runtime := s.limited, session } := by
  unfold Shell.limited at h
  unfold run Shell.runSource
  dsimp only
  rw [h]
  rfl

/-- What the run of a unit comes to in the shell behind it. -/
def ranTo (t : Shell) : Outcome → Except Interruption (Option Value × Shell)
  | .value v => .ok (some v, t)
  | .stopped (.thrown _ _ _) | .stopped .aborted => .ok (none, t)
  | .stopped (.fault f) => .error (.fault f)
  | .stopped (.wanting name) => .error (.wanting name)
  | .stopped .outOfFuel => .error .outOfFuel

theorem runSource_of_accepted {p : Program} {outcome : Outcome} {runtime : Runtime}
    {later : Session}
    (h : s.limited.compile (Session.host file) (some unitName) (d.linesBefore + 1) d.source
      s.session = (.ok p, session))
    (hexecute : s.limited.execute (Session.host file) Evaluation.plenty (some unitName) p session =
      (outcome, runtime, later)) :
    s.runSource file unitName (d.linesBefore + 1) d.source =
      ranTo { s with runtime, session := later } outcome := by
  unfold Shell.limited at h hexecute
  unfold Shell.runSource
  dsimp only
  rw [h]
  dsimp only
  rw [hexecute]
  cases outcome with
  | value v => rfl
  | stopped e => cases e <;> rfl

/-- Shows what a unit came to. -/
def shown : Option Value × Shell → Except Interruption Shell
  | (none, t) | (some .undefined, t) => .ok t
  | (some v, t) =>
    match t.runtime.heap.text v with
    | .ok text => .ok (write (text ++ "\n") t)
    | .error f => .error (.fault f)

def Spot.Follows (file : String → FileState) (ended : Bool) (s : Shell) (d : Draft)
    (q : Spot) : Prop :=
  match run file ⟨s, d⟩ with
  | .ok t => q = ⟨.behind ended t.session, t, d.after⟩
  | .error why => q.outcome? = some (.error why)

/-- Behind the execution of a unit its value is shown if it has one. -/
theorem exists_acts_afterRun (size : Nat) {outcome : Outcome} {runtime : Runtime} {later : Session}
    (ended : Bool) (hran : s.runSource file unitName (d.linesBefore + 1) d.source =
      ranTo { s with runtime, session := later } outcome) : ∃ deeds q,
      Acts file size ⟨.afterRun ended runtime later outcome,
        { s with runtime, session := later }, d.after⟩ deeds q ∧ q.Follows file ended s d := by
  have hrun : run file ⟨s, d⟩ =
      ranTo { s with runtime, session := later } outcome >>= shown := by
    rw [← hran]
    rfl
  unfold Spot.Follows
  rw [hrun]
  cases outcome with
  | value v =>
    by_cases hv : v = .undefined
    · subst hv
      exact ⟨[], _, .nil _, rfl⟩
    · have hstage : Stage.afterRun ended runtime later (.value v) =
          match runtime.heap.text v with
          | .ok text => .showing ended text
          | .error f => .interrupted (.fault f) := by
        cases v <;> first | exact absurd rfl hv | rfl
      have hshown : ranTo { s with runtime, session := later } (.value v) >>= shown =
          match runtime.heap.text v with
          | .ok text => .ok (write (text ++ "\n") { s with runtime, session := later })
          | .error f => .error (.fault f) := by
        cases v <;> first | exact absurd rfl hv | rfl
      rw [hstage, hshown]
      cases runtime.heap.text v with
      | ok text => exact ⟨[.shows text], _, .cons (.shows ended text _ _) (.nil _), rfl⟩
      | error f => exact ⟨[], _, .nil _, rfl⟩
  | stopped e =>
    cases e with
    | thrown | aborted | fault | wanting | outOfFuel => exact ⟨[], _, .nil _, rfl⟩

/-- Running a draft is compiling it, executing what comes of that, and showing the value. -/
theorem exists_acts_run (file : String → FileState) (size : Nat) (ended : Bool) (s : Shell)
    (d : Draft) : ∃ deeds q, Acts file size ⟨.compiling ended, s, d⟩ deeds q ∧
      q.Follows file ended s d := by
  cases hcompile : s.limited.compile (Session.host file) (some unitName) (d.linesBefore + 1)
    d.source s.session with
  | mk compiled session =>
    cases compiled with
    | error e =>
      refine ⟨_, _, .cons (.rejects ended hcompile) (.nil _), ?_⟩
      rw [Spot.Follows, run_of_rejected hcompile]
    | ok p =>
      cases hexecute : s.limited.execute (Session.host file) Evaluation.plenty (some unitName) p
        session with
      | mk outcome rest =>
        obtain ⟨runtime, later⟩ := rest
        obtain ⟨written, hout⟩ := Session.exists_out_execute file s.limited Evaluation.plenty
          (some unitName) p session
        rw [hexecute] at hout
        obtain ⟨deeds, q, hacts, hq⟩ := exists_acts_afterRun size ended
          (runSource_of_accepted hcompile hexecute)
        exact ⟨_, q, .cons (.accepts ended hcompile)
          (.cons (.executes ended d.after hexecute hout) hacts), hq⟩

end Run

def Spot.Continues (file : String → FileState) (size : Nat) (p : Prompt) (q : Spot) : Prop :=
  match p.step file size with
  | .ok (.inl r) => q = ⟨.asking, r.shell, r.draft⟩
  | .ok (.inr s) => q.outcome? = some (.ok s)
  | .error why => q.outcome? = some (.error why)

theorem Spot.Follows.cases {ended : Bool} {s : Shell} {d : Draft} {q : Spot}
    (h : q.Follows file ended s d) :
    (∃ why, run file ⟨s, d⟩ = .error why ∧ q.outcome? = some (.error why)) ∨
      ∃ t, run file ⟨s, d⟩ = .ok t ∧ q = ⟨.behind ended t.session, t, d.after⟩ := by
  unfold Follows at h
  cases hrun : run file ⟨s, d⟩ with
  | error why =>
    rw [hrun] at h
    exact .inl ⟨why, rfl, h⟩
  | ok t =>
    rw [hrun] at h
    exact .inr ⟨t, rfl, h⟩

section Step

variable {p : Prompt} {rest : Input}

/-- At the end of standard input the draft is run, and the prompt is left. -/
theorem exists_acts_ended (hread : p.shell.input.readLine size = (.ok none, rest)) : ∃ deeds q,
    Acts file size ⟨.reading, p.ask.shell, p.draft⟩ deeds q ∧ q.Continues file size p := by
  have hstep : p.step file size = .inr <$> (p.ask.withInput rest).finish file := by
    rw [step, hread]
  obtain ⟨deeds, q, hacts, hfollows⟩ :=
    exists_acts_run file size true (p.ask.shell.withInput rest) p.draft
  have hreads : Acts file size ⟨.reading, p.ask.shell, p.draft⟩ (.reads none :: deeds) q :=
    .cons (.ends p.draft hread) hacts
  unfold Spot.Continues
  rw [hstep, finish]
  rcases hfollows.cases with ⟨why, hrun, hq⟩ | ⟨t, hrun, rfl⟩
  · rw [show run file (p.ask.withInput rest) = .error why from hrun]
    exact ⟨_, q, hreads, hq⟩
  · rw [show run file (p.ask.withInput rest) = .ok t from hrun]
    exact ⟨_, _, hreads.append (.cons (.leaves t p.draft.after) (.nil _)), rfl⟩

/-- A line is put to the draft, which is run once it passes for a unit. -/
theorem exists_acts_line {line : List UInt8}
    (hread : p.shell.input.readLine size = (.ok (some line), rest)) : ∃ deeds q,
    Acts file size ⟨.reading, p.ask.shell, p.draft⟩ deeds q ∧ q.Continues file size p := by
  have hstep : p.step file size = (p.ask.withInput rest).take file line := by
    rw [step, hread]
  have hreads : Act file size ⟨.reading, p.ask.shell, p.draft⟩ (.reads (some line))
      ⟨if Passes p.shell.runtime (p.draft.add line).bytes then .compiling false else .asking,
        p.ask.shell.withInput rest, p.draft.add line⟩ := .reads p.draft hread
  unfold Spot.Continues
  rw [hstep]
  cases hcomplete : (p.draft.add line).isComplete p.shell.runtime with
  | false =>
    rw [take_incomplete (p := p.ask.withInput rest) hcomplete]
    have hpasses : Passes p.shell.runtime (p.draft.add line).bytes = false := hcomplete
    rw [hpasses] at hreads
    exact ⟨_, _, .cons hreads (.nil _), rfl⟩
  | true =>
    have htake : (p.ask.withInput rest).take file line =
        (run file ⟨p.ask.shell.withInput rest, p.draft.add line⟩).map fun s =>
          if s.session.quitting then .inr (leave s) else .inl ⟨s, (p.draft.add line).after⟩ :=
      take_complete hcomplete
    have hpasses : Passes p.shell.runtime (p.draft.add line).bytes = true := hcomplete
    rw [if_pos hpasses] at hreads
    obtain ⟨deeds, q, hacts, hfollows⟩ :=
      exists_acts_run file size false (p.ask.shell.withInput rest) (p.draft.add line)
    have hran := Acts.cons hreads hacts
    rw [htake]
    -- The unit has run: the prompt is interrupted, leaves, or asks for the next unit.
    rcases hfollows.cases with ⟨why, hrun, hq⟩ | ⟨t, hrun, rfl⟩ <;> rw [hrun]
    · exact ⟨_, q, hran, hq⟩
    · dsimp only [Except.map]
      cases hquit : t.session.quitting with
      | true =>
        rw [Stage.behind, hquit] at hran
        exact ⟨_, _, hran.append (.cons (.leaves t _) (.nil _)), rfl⟩
      | false =>
        rw [Stage.behind, hquit] at hran
        exact ⟨_, _, hran, rfl⟩

end Step

/-- A step of the prompt asks for a line, reads it, and may run a unit. -/
theorem exists_acts_step (file : String → FileState) (size : Nat) (p : Prompt)
    (hbroken : p.shell.input.broken = none) : ∃ deeds q,
      Acts file size ⟨.asking, p.shell, p.draft⟩ deeds q ∧ q.Continues file size p := by
  -- A line is asked for before it is known whether there is one.
  have hask : Act file size ⟨.asking, p.shell, p.draft⟩ (.asks _)
      ⟨.reading, p.ask.shell, p.draft⟩ :=
    .asks p.shell p.draft (by rw [isEmpty_source]; simp [text, continuation])
  obtain ⟨line, rest, hread⟩ := Input.readLine_of_not_broken size hbroken
  cases line with
  | none =>
    obtain ⟨deeds, q, hacts, hcontinues⟩ := exists_acts_ended hread
    exact ⟨_, q, .cons hask hacts, hcontinues⟩
  | some line =>
    obtain ⟨deeds, q, hacts, hcontinues⟩ := exists_acts_line hread
    exact ⟨_, q, .cons hask hacts, hcontinues⟩

theorem step_broken {p q : Prompt} (h : p.step file size = .ok (.inl q)) :
    q.shell.input.broken = p.shell.input.broken := by
  unfold step at h
  split at h
  · next line rest hread =>
    rw [take_input h]
    exact (Input.bytes_of_readLine_some hread).2
  · next rest _ _ =>
    cases hfinish : (p.ask.withInput rest).finish file <;> rw [hfinish] at h <;> cases h

/-- What the prompt comes to, it comes to deed by deed. -/
theorem exists_acts (file : String → FileState) (size : Nat) (p : Prompt)
    (hbroken : p.shell.input.broken = none) : ∃ deeds q,
      Acts file size ⟨.asking, p.shell, p.draft⟩ deeds q ∧
        q.outcome? = some (p.takeAll file size) := by
  induction hn : p.shell.input.bytes.length using Nat.strongRecOn generalizing p with
  | ind n ih =>
    obtain ⟨deeds, q, hacts, hcontinues⟩ := exists_acts_step file size p hbroken
    unfold Spot.Continues at hcontinues
    cases hstep : p.step file size with
    | error why =>
      rw [hstep] at hcontinues
      rw [takeAll, hstep]
      exact ⟨deeds, q, hacts, hcontinues⟩
    | ok next =>
      rw [hstep] at hcontinues
      cases next with
      | inr s =>
        rw [takeAll, hstep]
        exact ⟨deeds, q, hacts, hcontinues⟩
      | inl r =>
        subst hcontinues
        have hshorter := length_bytes_step hstep
        obtain ⟨later, q, hlater, hq⟩ :=
          ih _ (hn ▸ hshorter) r ((step_broken hstep).trans hbroken) rfl
        rw [takeAll, hstep]
        exact ⟨deeds ++ later, q, hacts.append hlater, hq⟩

end Prompt

namespace Shell

open Prompt (Spot Act Acts Passes)

/-- The prompt parts standard input into units: it goes from deed to deed until it is left or
interrupted, and wherever it stands, the bytes of the units that were compiled, of the draft and of
what is unread are all bytes, in their order, and it has written what its deeds write. Nothing is
left over unless a script wanted to quit. It asks once for each unit. A unit that is compiled is the
draft of the pieces read since, and it passes for a unit or was read up to the end; behind one in
which a script wants to quit, nothing is read and nothing compiled. -/
theorem interact_parts (file : String → FileState) (size : Nat) (s : Shell)
    (hbroken : s.input.broken = none) :
    (∃ deeds p, Acts file size (.start s) deeds p ∧ p.outcome? = some (s.interact file size)) ∧
    (∀ deeds p, Acts file size (.start s) deeds p →
      Deed.unitBytes deeds ++ (p.draft.bytes ++ p.shell.input.bytes) = s.input.bytes ∧
      p.shell.session.out = s.session.out ++ Deed.writtenBy deeds ∧
      (∀ t, p.outcome? = some (.ok t) →
        Deed.unitBytes deeds ++ t.input.bytes = s.input.bytes ∧
          (t.session.quitting = false → t.input.bytes = [])) ∧
      (p.outcome? ≠ none → deeds.count (.asks "js> ") = (Deed.units deeds).length)) ∧
    (∀ deeds p d q, Acts file size (.start s) deeds p → Act file size p (.compiles d) q →
      d = p.draft ∧
      (Passes p.shell.runtime d.bytes = true ∨ deeds.getLast? = some (.reads none))) ∧
    ∀ deeds p written q later r, Acts file size (.start s) deeds p →
      Act file size p (.executes written) q → q.shell.session.quitting = true →
      Acts file size q later r → ∀ deed ∈ later, (∃ text, deed = .shows text) ∨ deed = .leaves := by
  have hstart : (Spot.start s).Sound := trivial
  refine ⟨Prompt.exists_acts file size (.start s) hbroken,
    fun deeds p h => ⟨h.bytes.symm, h.out, fun t houtcome => ?_, fun hended => ?_⟩,
    fun deeds p d q h hcompiles => ?_,
    fun deeds p written q later r h hexecutes hquit hlater => ?_⟩
  -- Once the prompt has left, nothing is drafted, and what was not compiled is still to be read.
  · obtain ⟨hleft, rfl⟩ := Spot.left_of_outcome houtcome
    have hsound := h.sound hstart
    rw [Spot.Sound, hleft] at hsound
    have hbytes : s.input.bytes = Deed.unitBytes deeds ++ (p.draft.bytes ++ p.shell.input.bytes) :=
      h.bytes
    rw [hsound.1, List.nil_append] at hbytes
    exact ⟨hbytes.symm, hsound.2⟩
  -- A unit that was asked for and not yet compiled is owed; at the end none is.
  · have howed := h.owed hstart
    rwa [Spot.owed_of_outcome hended, Nat.add_zero,
      show (Spot.start s).owed = 0 from rfl, Nat.zero_add] at howed
  · obtain ⟨ended, hstage, rfl⟩ := hcompiles.of_compiles
    refine ⟨rfl, ?_⟩
    cases ended with
    | false =>
      have hsound := h.sound hstart
      rw [Spot.Sound, hstage] at hsound
      exact .inl hsound
    | true => exact .inr (h.getLast?_of_ended nofun hstage)
  · exact hlater.quits (hexecutes.quits_of_executes hquit)

def typedText : Shell :=
  .new .bare ⟨[[123, Input.newline, 125, Input.newline, 39, 97, 39]], none⟩

theorem interact_parts_typedText :
    typedText.input.broken = none ∧ ∃ deeds p t,
      Acts (fun _ => .unknown) Prompt.lineBufferSize (.start typedText) deeds p ∧
        p.outcome? = some (.ok t) ∧
        typedText.interact (fun _ => .unknown) Prompt.lineBufferSize = .ok t ∧
        Deed.unitBytes deeds = [123, Input.newline, 125, Input.newline, 39, 97, 39] ∧
        Deed.writtenBy deeds = "js> js> a\njs> \n" ∧
        deeds.count (.asks "js> ") = (Deed.units deeds).length := by
  have hbroken : typedText.input.broken = none := rfl
  obtain ⟨⟨deeds, p, hacts, houtcome⟩, hparts, -⟩ :=
    interact_parts (fun _ => .unknown) Prompt.lineBufferSize typedText hbroken
  have hseen : (typedText.interact (fun _ => .unknown) Prompt.lineBufferSize).toOption.map
      (fun t => (t.session.out, t.session.quitting)) = some ("js> js> a\njs> \n", false) := by
    decide +kernel
  obtain ⟨-, hout, hleft, hcount⟩ := hparts deeds p hacts
  cases hend : typedText.interact (fun _ => .unknown) Prompt.lineBufferSize with
  | error why =>
    rw [hend] at hseen
    cases hseen
  | ok t =>
    rw [hend] at hseen houtcome
    obtain ⟨htext, hquit⟩ := Prod.mk.inj (Option.some.inj hseen)
    obtain ⟨hbytes, hrest⟩ := hleft t houtcome
    obtain ⟨-, rfl⟩ := Spot.left_of_outcome houtcome
    have hwritten : "" ++ Deed.writtenBy deeds = "js> js> a\njs> \n" := hout.symm.trans htext
    rw [hrest hquit, List.append_nil] at hbytes
    refine ⟨hbroken, deeds, p, _, hacts, houtcome, rfl, hbytes, ?_, hcount ?_⟩
    · rwa [String.empty_append] at hwritten
    · rw [houtcome]
      nofun

example : ((new .bare ⟨["quit()\n1\n".toUTF8.toList], none⟩).interact (fun _ => .unknown)
    Prompt.lineBufferSize).toOption.map (fun t => (t.session.out, t.input.bytes)) =
      some ("js> \n", [49, Input.newline]) := by
  decide +kernel

end Shell

end ScriptShell
