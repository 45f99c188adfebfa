import ScriptShell.CommandLine
import ScriptShell.Machine.Hosted

namespace ScriptShell.Main

/-- The files that were looked up in the course of a step. -/
abbrev Known := List (String × FileState)

def Known.file (k : Known) (name : String) : FileState :=
  (k.lookup name).getD .unknown

def meansNotDirectory (code : UInt32) : Bool :=
  code.toInt32.toInt.natAbs = 20

def fileError : IO.Error → FileError
  | .noFileOrDirectory _ _ _ => .notFound
  | .inappropriateType _ code _ => if meansNotDirectory code then .notDirectory else .isDirectory
  | .permissionDenied _ _ _ => .other "Permission denied"
  | e => .other (toString e)

def lookUp (name : String) : IO FileState := do
  try return .bytes (← IO.FS.readBinFile name).toList
  catch e => return .failed (fileError e)

/-- Takes a step, from the start again whenever it turns out to want another file. -/
partial def step {α : Type} (f : (String → FileState) → Except Interruption α)
    (known : Known) : IO α := do
  match f known.file with
  | .ok a => return a
  | .error (.wanting name) => step f ((name, ← lookUp name) :: known)
  | .error _ => throw (IO.userError "the script is too much for this shell")

/-- Passes on what was written since the last time. -/
def flush (s : Shell) : IO Shell := do
  let stdout ← IO.getStdout
  stdout.putStr s.session.out
  stdout.flush
  let stderr ← IO.getStderr
  stderr.putStr s.session.err
  stderr.flush
  return { s with session := { s.session with out := "", err := "" } }

partial def drain (stream : IO.FS.Stream) (bytes : ByteArray) : IO ByteArray := do
  let more ← stream.read 4096
  if more.isEmpty then return bytes else drain stream (bytes ++ more)

def readInput : IO Input := do
  try return ⟨[(← drain (← IO.getStdin) ByteArray.empty).toList], none⟩
  catch e => return ⟨[], some (fileError e).message⟩

def readLine (stream : IO.FS.Stream) (room : Nat) : IO (List UInt8) := do
  match room with
  | 0 => return []
  | room + 1 =>
    match (← stream.read 1).toList with
    | [] => return []
    | b :: _ => if b = Input.newline then return [b] else return b :: (← readLine stream room)

def nextLine : IO (List UInt8) := do
  try readLine (← IO.getStdin) (Input.lineRoom Prompt.lineBufferSize)
  catch _ => return []

partial def interact (p : Prompt) : IO Shell := do
  let p := { p.ask with shell := ← flush p.ask.shell }
  match ← nextLine with
  | [] => step p.finish []
  | line =>
    match ← step (p.take · line) [] with
    | .inl p => interact p
    | .inr s => return s

def perform (s : Shell) (task : Action) : IO Shell := do
  let s ←
    if task = .runFile Shell.inputName then pure { s with input := ← readInput } else pure s
  flush (← step (s.perform · task) [])

def obey (i : Invocation) : IO Shell := do
  let s := (Shell.new Machine.Hosted.machine ⟨[], none⟩).defineArguments i.scriptArgs
  let s ← i.tasks.foldlM perform s
  if i.isInteractive then interact (Prompt.start s) else return s

end ScriptShell.Main

open ScriptShell in
def main (args : List String) : IO UInt32 := do
  match Invocation.ofArguments args with
  | .error _ =>
    (← IO.getStderr).putStr usageText
    return exitUsage.toUInt32
  | .ok i =>
    try return (← ScriptShell.Main.flush (← ScriptShell.Main.obey i)).session.exitCode.toUInt32
    catch e =>
      (← IO.getStderr).putStrLn (toString e)
      return exitFailure.toUInt32
