import ScriptShell.Location
import ScriptShell.Number.Text
import ScriptShell.Text.Quoted

namespace ScriptShell

/-- The reserved words. -/
inductive Keyword where
  | var | let_ | const | function | return_ | if_ | else_ | while | do_ | for_ | break_
  | continue_ | throw | try_ | catch_ | finally_ | true_ | false_ | null | typeof | void
  deriving DecidableEq, Repr

def Keyword.spelling : Keyword → String
  | .var => "var"
  | .let_ => "let"
  | .const => "const"
  | .function => "function"
  | .return_ => "return"
  | .if_ => "if"
  | .else_ => "else"
  | .while => "while"
  | .do_ => "do"
  | .for_ => "for"
  | .break_ => "break"
  | .continue_ => "continue"
  | .throw => "throw"
  | .try_ => "try"
  | .catch_ => "catch"
  | .finally_ => "finally"
  | .true_ => "true"
  | .false_ => "false"
  | .null => "null"
  | .typeof => "typeof"
  | .void => "void"

def Keyword.all : List Keyword :=
  [.var, .let_, .const, .function, .return_, .if_, .else_, .while, .do_, .for_, .break_,
    .continue_, .throw, .try_, .catch_, .finally_, .true_, .false_, .null, .typeof, .void]

/-- The keyword a word spells. The words `let` and `const` are reserved only if `lets` is set. -/
def Keyword.ofWord? (lets : Bool) (word : String) : Option Keyword :=
  Keyword.all.find? fun k => k.spelling = word && (lets || (k ≠ .let_ && k ≠ .const))

/-- Operators and punctuation. -/
inductive Mark where
  | shiftRightZeroEq
  | eqEqEq | notEqEq | shiftRightZero | shiftLeftEq | shiftRightEq
  | eqEq | notEq | le | ge | andAnd | orOr | shiftLeft | shiftRight | plusEq | minusEq
  | starEq | slashEq | percentEq | ampEq | pipeEq | caretEq | plusPlus | minusMinus
  | plus | minus | star | slash | percent | lt | gt | bang | amp | pipe | caret | tilde | eq
  | dot | question | colon | leftParen | rightParen | leftBrace | rightBrace | leftBracket
  | rightBracket | semicolon | comma
  deriving DecidableEq, Repr

def Mark.spelling : Mark → String
  | .shiftRightZeroEq => ">>>="
  | .eqEqEq => "==="
  | .notEqEq => "!=="
  | .shiftRightZero => ">>>"
  | .shiftLeftEq => "<<="
  | .shiftRightEq => ">>="
  | .eqEq => "=="
  | .notEq => "!="
  | .le => "<="
  | .ge => ">="
  | .andAnd => "&&"
  | .orOr => "||"
  | .shiftLeft => "<<"
  | .shiftRight => ">>"
  | .plusEq => "+="
  | .minusEq => "-="
  | .starEq => "*="
  | .slashEq => "/="
  | .percentEq => "%="
  | .ampEq => "&="
  | .pipeEq => "|="
  | .caretEq => "^="
  | .plusPlus => "++"
  | .minusMinus => "--"
  | .plus => "+"
  | .minus => "-"
  | .star => "*"
  | .slash => "/"
  | .percent => "%"
  | .lt => "<"
  | .gt => ">"
  | .bang => "!"
  | .amp => "&"
  | .pipe => "|"
  | .caret => "^"
  | .tilde => "~"
  | .eq => "="
  | .dot => "."
  | .question => "?"
  | .colon => ":"
  | .leftParen => "("
  | .rightParen => ")"
  | .leftBrace => "\x7b"
  | .rightBrace => "\x7d"
  | .leftBracket => "["
  | .rightBracket => "]"
  | .semicolon => ";"
  | .comma => ","

def Mark.all : List Mark :=
  [.shiftRightZeroEq, .eqEqEq, .notEqEq, .shiftRightZero, .shiftLeftEq, .shiftRightEq, .eqEq,
    .notEq, .le, .ge, .andAnd, .orOr, .shiftLeft, .shiftRight, .plusEq, .minusEq, .starEq,
    .slashEq, .percentEq, .ampEq, .pipeEq, .caretEq, .plusPlus, .minusMinus, .plus, .minus,
    .star, .slash, .percent, .lt, .gt, .bang, .amp, .pipe, .caret, .tilde, .eq, .dot, .question,
    .colon, .leftParen, .rightParen, .leftBrace, .rightBrace, .leftBracket, .rightBracket,
    .semicolon, .comma]

def Mark.longest? (text : List Char) : Option Mark :=
  Mark.all.find? fun m => m.spelling.toList.isPrefixOf text

/-- What a token is, apart from its place. -/
inductive TokenKind where
  | number (value : Float)
  | text (value : String)
  | name (value : String)
  | keyword (value : Keyword)
  | mark (value : Mark)

def TokenKind.describe : TokenKind → String
  | .number x => "number " ++ Number.plainText x
  | .text s => "string " ++ Text.quoted s
  | .name s => "identifier '" ++ s ++ "'"
  | .keyword k => "'" ++ k.spelling ++ "'"
  | .mark m => "'" ++ m.spelling ++ "'"

structure Token where
  kind : TokenKind
  place : Location
  /-- Whether a line ended between this token and the one before. -/
  newlineBefore : Bool

/-- The tokens of a source together with the place where it ends. -/
structure Tokens where
  items : List Token
  finish : Location
  /-- Whether a line ended between the last token and the end. -/
  newlineAtEnd : Bool

end ScriptShell
