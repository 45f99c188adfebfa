import ScriptShell.Fault
import ScriptShell.Text.Units
import ScriptShell.Number.Literal
import ScriptShell.Token

namespace ScriptShell

namespace Scan

def charOfCode (code : Nat) : Char :=
  if code.isValidChar then Char.ofNat code else Text.replacement

def hexCode (digits : List Char) : Nat :=
  digits.foldl (fun n c => n * 16 + (Text.digit? 16 c).getD 0) 0

/-- What a backslash makes of the character behind it; most stand for themselves. -/
def escaped : Char → Char
  | 'n' => '\n'
  | 't' => '\t'
  | 'r' => '\r'
  | 'b' => '\x08'
  | 'f' => '\x0c'
  | 'v' => '\x0b'
  | '0' => '\x00'
  | c => c

def prepend (chars : List Char) (length : Nat) (text : List Char × Nat) : List Char × Nat :=
  (chars ++ text.1, length + text.2)

/-- The text of a string literal behind its opening quote and the length of the rest of its
spelling, the closing quote included. -/
def stringBody (quote : Char) : List Char → Except ParseFault (List Char × Nat)
  | [] => .error .unterminatedString
  | c :: rest =>
    if c = '\n' then .error .unterminatedString
    else if c = quote then .ok ([], 1)
    else if c = '\\' then
      match rest with
      | [] => .error .unterminatedString
      | 'x' :: d₁ :: d₂ :: more =>
        if [d₁, d₂].all Text.isHexDigit then
          (stringBody quote more).map (prepend [charOfCode (hexCode [d₁, d₂])] 4)
        else .error .malformedEscape
      | 'u' :: d₁ :: d₂ :: d₃ :: d₄ :: more =>
        if [d₁, d₂, d₃, d₄].all Text.isHexDigit then
          (stringBody quote more).map (prepend [charOfCode (hexCode [d₁, d₂, d₃, d₄])] 6)
        else .error .malformedEscape
      | 'x' :: _ => .error .malformedEscape
      | 'u' :: _ => .error .malformedEscape
      | '\n' :: more => (stringBody quote more).map (prepend [] 2)
      | e :: more => (stringBody quote more).map (prepend [escaped e] 2)
    else (stringBody quote rest).map (prepend [c] 1)

theorem stringBody_newline (quote : Char) (text : List Char) :
    stringBody quote ('\n' :: text) = .error .unterminatedString := by
  rw [stringBody.eq_def]
  rfl

def startsName (c : Char) : Bool :=
  c = '_' || c = '$' || Text.isLetter c

def continuesName (c : Char) : Bool :=
  c = '_' || c = '$' || Text.isLetterOrNumeral c

/-- The value and the length of the number at the front of a text. -/
def numberAt (text : List Char) : Except ParseFault (Float × Nat) :=
  match text with
  | '0' :: 'x' :: rest | '0' :: 'X' :: rest =>
    let digits := rest.takeWhile Text.isHexDigit
    if digits.isEmpty then .error .missingHexDigits
    else .ok (Number.ofHexDigits digits, digits.length + 2)
  | _ =>
    match Number.literalAt? text with
    | some l => .ok (l.value, l.length)
    | none => .error .malformedNumber

def startsNumber (c : Char) (rest : List Char) : Bool :=
  c.isDigit || (c = '.' && (rest.head?.map Char.isDigit).getD false)

/-- A fault and how many characters behind the start of the token it lies. -/
abbrev LexemeError := ParseFault × Nat

/-- The token that begins with `c` in front of `rest`, and how much of `rest` it takes. -/
def lexeme (lets : Bool) (c : Char) (rest : List Char) : Except LexemeError (TokenKind × Nat) :=
  if c = '"' || c = '\'' then
    match stringBody c rest with
    | .ok (text, length) => .ok (.text (String.ofList text), length)
    | .error fault => .error (fault, 0)
  else if startsNumber c rest then
    match numberAt (c :: rest) with
    | .ok (value, length) =>
      if (((c :: rest).drop length).head?.map startsName).getD false then
        .error (.nameAfterNumber, length)
      else .ok (.number value, length - 1)
    | .error fault => .error (fault, 0)
  else if startsName c then
    let tail := rest.takeWhile continuesName
    let word := String.ofList (c :: tail)
    match Keyword.ofWord? lets word with
    | some k => .ok (.keyword k, tail.length)
    | none => .ok (.name word, tail.length)
  else
    match Mark.longest? (c :: rest) with
    | some m => .ok (.mark m, m.spelling.length - 1)
    | none => .error (.illegalCharacter, 0)

/-- Where the scanner stands; `newline` tells whether a line has ended since the last token. -/
inductive State where
  | blank (newline : Bool)
  | lineComment (newline : Bool)
  /-- In front of the star that opens a comment. -/
  | opening (newline : Bool) (opened : Location)
  | blockComment (newline : Bool) (opened : Location)
  /-- In front of the slash that closes a comment. -/
  | closing (newline : Bool)
  /-- Inside a token of which `left + 1` more characters follow. -/
  | inside (left : Nat)

def State.afterFirst : Nat → State
  | 0 => .blank false
  | n + 1 => .inside n

def cons (t : Token) (ts : Tokens) : Tokens :=
  { ts with items := t :: ts.items }

/-- The tokens of a text that begins at `l` in the given state. -/
def scanFrom (lets : Bool) (state : State) (l : Location) :
    List Char → Except ParseError Tokens
  | [] =>
    match state with
    | .blank newline | .lineComment newline | .closing newline => .ok ⟨[], l, newline⟩
    | .opening _ opened | .blockComment _ opened => .error ⟨.unterminatedComment, opened, true⟩
    | .inside _ => .ok ⟨[], l, false⟩
  | c :: rest =>
    let next := l.after c
    match state with
    | .inside n => scanFrom lets (.afterFirst n) next rest
    | .lineComment newline =>
      scanFrom lets (if c = '\n' then .blank true else .lineComment newline) next rest
    | .opening newline opened => scanFrom lets (.blockComment newline opened) next rest
    | .blockComment newline opened =>
      if c = '*' && rest.head? = some '/' then scanFrom lets (.closing newline) next rest
      else scanFrom lets (.blockComment (newline || c = '\n') opened) next rest
    | .closing newline => scanFrom lets (.blank newline) next rest
    | .blank newline =>
      if c = '\n' || c = '\r' then scanFrom lets (.blank true) next rest
      else if Text.isBlank c then scanFrom lets (.blank newline) next rest
      else if c = '/' && rest.head? = some '/' then scanFrom lets (.lineComment newline) next rest
      else if c = '/' && rest.head? = some '*' then scanFrom lets (.opening newline l) next rest
      else
        match lexeme lets c rest with
        | .ok (kind, n) =>
          (scanFrom lets (.afterFirst n) next rest).map (cons ⟨kind, l, newline⟩)
        | .error (fault, n) => .error ⟨fault, l.advance ((c :: rest).take n), false⟩

end Scan

/-- How a source is to be read. -/
structure ParseOptions where
  /-- The number of the source's first line. -/
  startLine : Nat := 1
  /-- Whether `let` and `const` are reserved words. -/
  letKeywords : Bool := true
  /-- Whether questionable code is warned about. -/
  strict : Bool := false
  deriving DecidableEq, Repr

def Tokens.ofSource (letKeywords : Bool) (startLine : Nat) (source : String) :
    Except ParseError Tokens :=
  Scan.scanFrom letKeywords (.blank false) (.start startLine) source.toList

end ScriptShell
