namespace ScriptShell

inductive ErrorKind where
  | error | typeError | referenceError | syntaxError | rangeError | internalError
  deriving DecidableEq, Repr

def ErrorKind.name : ErrorKind → String
  | .error => "Error"
  | .typeError => "TypeError"
  | .referenceError => "ReferenceError"
  | .syntaxError => "SyntaxError"
  | .rangeError => "RangeError"
  | .internalError => "InternalError"

inductive MathFunction where
  | floor | ceil | abs | round | sqrt | pow | max | min
  deriving DecidableEq, Repr

def MathFunction.all : List MathFunction :=
  [.floor, .ceil, .abs, .round, .sqrt, .pow, .max, .min]

def MathFunction.name : MathFunction → String
  | .floor => "floor"
  | .ceil => "ceil"
  | .abs => "abs"
  | .round => "round"
  | .sqrt => "sqrt"
  | .pow => "pow"
  | .max => "max"
  | .min => "min"

def MathFunction.arity : MathFunction → Nat
  | .pow | .max | .min => 2
  | _ => 1

inductive Native where
  | toText
  | toNumber
  | newArray
  | newError (kind : ErrorKind)
  | parseInt
  | parseFloat
  | isNaN
  | fromCharCode
  | math (f : MathFunction)
  | load
  | print
  | quit
  | collect
  | read
  | version
  | symbolFinder
  | callAddress
  | peekByte
  | pokeByte
  | peekWord
  | pokeWord
  /-- A function that was added from outside. -/
  | embedded (name : String) (arity : Nat)
  deriving DecidableEq, Repr

namespace Native

def name : Native → String
  | .toText => "String"
  | .toNumber => "Number"
  | .newArray => "Array"
  | .newError kind => kind.name
  | .parseInt => "parseInt"
  | .parseFloat => "parseFloat"
  | .isNaN => "isNaN"
  | .fromCharCode => "fromCharCode"
  | .math f => f.name
  | .load => "load"
  | .print => "print"
  | .quit => "quit"
  | .collect => "gc"
  | .read => "read"
  | .version => "version"
  | .symbolFinder => "get_dlsym"
  | .callAddress => "ffi_call"
  | .peekByte => "peek8"
  | .pokeByte => "poke8"
  | .peekWord => "peek32"
  | .pokeWord => "poke32"
  | .embedded name _ => name

def arity : Native → Nat
  | .toText | .toNumber | .newArray | .newError _ | .parseFloat | .isNaN | .fromCharCode
  | .load | .read | .peekByte | .peekWord => 1
  | .parseInt | .pokeByte | .pokeWord => 2
  | .math f => f.arity
  | .print | .quit | .collect | .version | .symbolFinder => 0
  | .callAddress => 9
  | .embedded _ arity => arity

def library : List Native :=
  [.toText, .toNumber, .newArray, .newError .error, .newError .typeError,
    .newError .referenceError, .newError .syntaxError, .newError .rangeError, .parseInt,
    .parseFloat, .isNaN]

def shell : List Native :=
  [.load, .print, .quit, .collect, .read, .version]

def bridge : List Native :=
  [.symbolFinder, .callAddress, .peekByte, .pokeByte, .peekWord, .pokeWord]

end Native

end ScriptShell
