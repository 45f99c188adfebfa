import ScriptShell.Shell

namespace ScriptShell

/-- The lines of a unit that were typed so far. -/
structure Draft where
  /-- How many lines were read before. -/
  linesBefore : Nat
  lineCount : Nat
  bytes : List UInt8
  deriving DecidableEq, Repr

namespace Draft

def blank (linesBefore : Nat) : Draft :=
  ⟨linesBefore, 0, []⟩

def add (d : Draft) (line : List UInt8) : Draft :=
  { d with lineCount := d.lineCount + 1, bytes := d.bytes ++ line }

def source (d : Draft) : String :=
  Text.readUtf8 d.bytes

/-- Whether a draft is a unit of its own. One that was cut inside a character is none if nothing is
wrong with the bytes in front of that character. -/
def isComplete (r : Runtime) (d : Draft) : Bool :=
  !Text.endsInsideChar 0 d.bytes && r.isCompilable d.source

def after (d : Draft) : Draft :=
  blank (d.linesBefore + d.lineCount)

end Draft

/-- A shell at its prompt. -/
structure Prompt where
  shell : Shell
  draft : Draft

namespace Prompt

def text : String := "js> "

def continuation : String := ""

def unitName : String := "typein"

def lineBufferSize : Nat := 256

def write (text : String) (s : Shell) : Shell :=
  { s with session := s.session.write text }

def start (s : Shell) : Prompt :=
  ⟨s, .blank 0⟩

def ask (p : Prompt) : Prompt :=
  { p with shell := write (if p.draft.source.isEmpty then text else continuation) p.shell }

def withInput (input : Input) (p : Prompt) : Prompt :=
  { p with shell := p.shell.withInput input }

/-- Runs the draft and shows its value unless it is undefined. -/
def run (file : String → FileState) (p : Prompt) : Except Interruption Shell := do
  match ← p.shell.runSource file unitName (p.draft.linesBefore + 1) p.draft.source with
  | (none, s) | (some .undefined, s) => return s
  | (some v, s) =>
    match s.runtime.heap.text v with
    | .ok text => return write (text ++ "\n") s
    | .error f => throw (.fault f)

def leave (s : Shell) : Shell :=
  write "\n" s

/-- Takes one more line. Gives the prompt that goes on, or the shell that has left it because
a script wanted to quit. -/
def take (file : String → FileState) (p : Prompt) (line : List UInt8) :
    Except Interruption (Prompt ⊕ Shell) := do
  let p := { p with draft := p.draft.add line }
  if p.draft.isComplete p.shell.runtime then
    let s ← p.run file
    return if s.session.quitting then .inr (leave s) else .inl ⟨s, p.draft.after⟩
  else return .inl p

def finish (file : String → FileState) (p : Prompt) : Except Interruption Shell :=
  leave <$> p.run file

def step (file : String → FileState) (size : Nat) (p : Prompt) :
    Except Interruption (Prompt ⊕ Shell) :=
  match p.shell.input.readLine size with
  | (.ok (some line), input) => (p.ask.withInput input).take file line
  | (_, input) => .inr <$> (p.ask.withInput input).finish file

theorem run_withInput (file : String → FileState) (p : Prompt) (input : Input) :
    (p.withInput input).run file = (p.run file).map (·.withInput input) := by
  simp only [run, withInput, Shell.runSource_withInput]
  cases p.shell.runSource file unitName (p.draft.linesBefore + 1) p.draft.source with
  | error e => rfl
  | ok ran =>
    obtain ⟨v, t⟩ := ran
    rcases v with _ | v
    · rfl
    cases v with
    | undefined => rfl
    | _ =>
      dsimp only [Except.map, bind, Except.bind, Shell.withInput]
      split <;> rfl

theorem take_withInput (file : String → FileState) (p : Prompt) (input : Input)
    (line : List UInt8) : (p.withInput input).take file line =
      (p.take file line).map (Sum.map (·.withInput input) (·.withInput input)) := by
  have hrun := run_withInput file ⟨p.shell, p.draft.add line⟩ input
  unfold take
  dsimp only [withInput, Shell.withInput] at hrun ⊢
  split
  · rw [hrun]
    cases run file ⟨p.shell, p.draft.add line⟩ with
    | error e => rfl
    | ok s =>
      change Except.ok (if s.session.quitting = true then _ else _) =
        Except.ok (Sum.map _ _ (if s.session.quitting = true then _ else _))
      split <;> rfl
  · rfl

theorem take_input {file : String → FileState} {p q : Prompt} {line : List UInt8}
    (h : p.take file line = .ok (.inl q)) : q.shell.input = p.shell.input := by
  have hsame := take_withInput file p p.shell.input line
  rw [show p.withInput p.shell.input = p from rfl, h] at hsame
  have hq := Sum.inl.inj (Except.ok.inj hsame)
  exact (congrArg (fun r : Prompt => r.shell.input) hq).trans rfl

theorem length_bytes_step {file : String → FileState} {size : Nat} {p q : Prompt}
    (h : p.step file size = .ok (.inl q)) :
    q.shell.input.bytes.length < p.shell.input.bytes.length := by
  unfold step at h
  split at h
  · next line input hread =>
    rw [take_input h]
    exact Input.length_bytes_readLine hread
  · next input _ _ =>
    cases hfinish : (p.ask.withInput input).finish file with
    | error e =>
      rw [hfinish] at h
      cases h
    | ok s =>
      rw [hfinish] at h
      cases h

/-- Takes lines until a script wants to quit or there are none left. -/
def takeAll (file : String → FileState) (size : Nat) (p : Prompt) : Except Interruption Shell :=
  match _h : p.step file size with
  | .ok (.inl q) => takeAll file size q
  | .ok (.inr s) => .ok s
  | .error why => .error why
termination_by p.shell.input.bytes.length
decreasing_by exact length_bytes_step ‹_›

end Prompt

def Shell.interact (file : String → FileState) (bufferSize : Nat) (s : Shell) :
    Except Interruption Shell :=
  (Prompt.start s).takeAll file bufferSize

end ScriptShell
