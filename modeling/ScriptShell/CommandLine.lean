import ScriptShell.Prompt

namespace ScriptShell

def exitUsage : Int32 := 2

def usageText : String :=
  "minjs 0.1.0\nusage: minjs [-PswW] [-b branchlimit] [-c stackchunksize] [-v version] " ++
  "[-f scriptfile] [-S maxstacksize] [scriptfile] [scriptarg...]\n"

def Invocation.tasks (i : Invocation) : List Action :=
  i.actions ++ (i.filename.map Action.runFile).toList

namespace Shell

def refuse (s : Shell) : Shell :=
  { s with session := s.session.writeError usageText }

def obey (file : String → FileState) (i : Invocation) (s : Shell) : Except Interruption Shell := do
  let s ← i.tasks.foldlM (perform file) (s.defineArguments i.scriptArgs)
  if i.isInteractive then s.interact file Prompt.lineBufferSize else return s

def run (file : String → FileState) (args : List String) (s : Shell) :
    Except Interruption (Int32 × Shell) :=
  match Invocation.ofArguments args with
  | .error _ => .ok (exitUsage, s.refuse)
  | .ok i => (s.obey file i).map fun s => (s.session.exitCode, s)

end Shell

end ScriptShell
