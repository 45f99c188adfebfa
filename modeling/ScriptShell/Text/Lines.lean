namespace ScriptShell.Text

def byteSize (text : List Char) : Nat :=
  text.foldr (fun c n => c.utf8Size + n) 0

/-- The longest front of a text that takes at most so many bytes, and what follows it. -/
def splitAtByte : Nat → List Char → List Char × List Char
  | _, [] => ([], [])
  | n, c :: cs =>
    if c.utf8Size ≤ n then
      let (front, back) := splitAtByte (n - c.utf8Size) cs
      (c :: front, back)
    else ([], c :: cs)

def lastLine (text : List Char) : List Char :=
  (text.reverse.takeWhile (· ≠ '\n')).reverse

def firstLine : List Char → List Char
  | [] => []
  | c :: cs => if c = '\n' then ['\n'] else c :: firstLine cs

/-- The lines of a text without their breaks; a text that ends in one has an empty last line. -/
def splitLines : List Char → List (List Char)
  | [] => [[]]
  | c :: cs =>
    if c = '\n' then [] :: splitLines cs
    else
      match splitLines cs with
      | line :: lines => (c :: line) :: lines
      | [] => [[c]]

end ScriptShell.Text
