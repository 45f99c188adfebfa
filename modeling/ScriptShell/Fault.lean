import ScriptShell.Location

namespace ScriptShell

/-- The reasons why a source is no program. -/
inductive ParseFault where
  | illegalCharacter
  | unterminatedString
  | malformedEscape
  | missingHexDigits
  | malformedNumber
  | nameAfterNumber
  | unterminatedComment
  /-- Something that has to come next does not. -/
  | missing (what : String)
  | unexpected
  | invalidProperty
  | invalidTarget
  | invalidOperand
  | breakOutsideLoop
  | continueOutsideLoop
  | returnOutsideFunction
  /-- A search was cut off; no source leads to this. -/
  | exhausted
  deriving DecidableEq, Repr

def ParseFault.message : ParseFault → String
  | .illegalCharacter => "illegal character"
  | .unterminatedString => "unterminated string literal"
  | .malformedEscape => "malformed escape sequence"
  | .missingHexDigits => "missing hexadecimal digits after '0x'"
  | .malformedNumber => "malformed number literal"
  | .nameAfterNumber => "identifier starts immediately after numeric literal"
  | .unterminatedComment => "unterminated comment"
  | .missing what => "missing " ++ what
  | .unexpected => "syntax error"
  | .invalidProperty => "invalid property id"
  | .invalidTarget => "invalid assignment left-hand side"
  | .invalidOperand => "invalid increment/decrement operand"
  | .breakOutsideLoop => "unlabeled break must be inside loop"
  | .continueOutsideLoop => "continue must be inside loop"
  | .returnOutsideFunction => "return not in function"
  | .exhausted => "too deeply nested"

/-- A fault and its place in the source. -/
structure ParseError where
  fault : ParseFault
  place : Location
  /-- The source ended where more of it could still have mended the fault. -/
  atEnd : Bool
  deriving DecidableEq, Repr

end ScriptShell
