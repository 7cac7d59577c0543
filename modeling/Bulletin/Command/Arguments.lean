import Bulletin.Text.Basic

/-! Binding arguments to the named inputs of a command. An input is given as an option with its
value after a space or an equals sign, as an operand if it may be one, or in the environment; what
is given as an argument goes before the environment. -/

namespace Bulletin.Arguments

/-- The inputs of a command by name: those that may be operands, in their order, and the others. -/
structure Inputs where
  operands : List Text
  options : List Text

abbrev Bound := List (Text × Text)

def Inputs.named? (i : Inputs) (option : Text) : Option Text :=
  (i.operands ++ i.options).find? fun name => ['-', '-'] ++ name = option

/-- The rest after digits that follow a digit, with single underscores between them. -/
def moreDigits : Text → Text
  | c :: d :: r =>
    if c.isDigit || (c = '_' && d.isDigit) then moreDigits (d :: r) else c :: d :: r
  | [c] => if c.isDigit then [] else [c]
  | [] => []

def digits? : Text → Option Text
  | c :: r => if c.isDigit then some (moreDigits r) else none
  | [] => none

def exponent (t : Text) : Text :=
  match t with
  | c :: r =>
    if c = 'e' ∨ c = 'E' then
      let r := match r with
        | '+' :: r => r
        | '-' :: r => r
        | r => r
      (digits? r).getD t
    else t
  | [] => []

def magnitude? (t : Text) : Option Text :=
  let lower := t.map Char.toLower
  match ["infinity".toList, "inf".toList, "nan".toList].find? fun word => word.isPrefixOf lower with
  | some word => some (t.drop word.length)
  | none =>
    match digits? t with
    | some ('.' :: r) => some (exponent ((digits? r).getD r))
    | some r => some (exponent r)
    | none => match t with
      | '.' :: r => (digits? r).map exponent
      | _ => none

def sign? : Text → Option Text
  | '-' :: r => some r
  | '+' :: r => some r
  | _ => none

def isImaginaryUnit (t : Text) : Bool := t = ['j'] || t = ['J']

/-- Whether a text after a sign is a real or complex number. -/
def isNumber (t : Text) : Bool :=
  match magnitude? t.trimEnd with
  | none => isImaginaryUnit t.trimEnd
  | some [] => true
  | some r =>
    isImaginaryUnit r ||
    match sign? r with
    | none => false
    | some r => isImaginaryUnit r || (magnitude? r).any isImaginaryUnit

/-- Whether an argument is taken for an option: it starts with a hyphen and is not a negative
number. -/
def looksLikeOption : Text → Bool
  | '-' :: r => !isNumber r
  | _ => false

def bind? (b : Bound) (name value : Text) : Option Bound :=
  if (b.lookup name).isSome then none else some (b ++ [(name, value)])

/-- Reads options with their values; what is left are operands. -/
def readOptions? (i : Inputs) (b : Bound) : List Text → Option (Bound × List Text)
  | [] => some (b, [])
  | t :: r =>
    let operand := (readOptions? i b r).map fun p => (p.1, t :: p.2)
    if t.head? ≠ some '-' then operand
    else match t.cut? ['='] with
      | some (option, value) => match i.named? option with
        | some name => (bind? b name value).bind fun b => readOptions? i b r
        | none => if looksLikeOption t then none else operand
      | none => match i.named? t with
        | some name => match r with
          | [] => none
          | value :: r =>
            if looksLikeOption value then none
            else (bind? b name value).bind fun b => readOptions? i b r
        | none => if looksLikeOption t then none else operand

def readOperands? (b : Bound) : List Text → List Text → Option Bound
  | _, [] => some b
  | [], _ :: _ => none
  | name :: names, value :: values =>
    (bind? b name value).bind fun b => readOperands? b names values

/-- The arguments before and after the first pair of hyphens that stands alone. -/
def splitAtEnd : List Text → List Text × List Text
  | [] => ([], [])
  | t :: r =>
    if t = ['-', '-'] then ([], r)
    else
      let p := splitAtEnd r
      (t :: p.1, p.2)

def read? (i : Inputs) (args : List Text) : Option Bound := do
  let (before, after) := splitAtEnd args
  let (b, operands) ← readOptions? i [] before
  readOperands? b i.operands (operands ++ after)

def environmentName (name : Text) : Text :=
  "INPUT_".toList ++ name.map fun c => if c = '-' then '_' else c.toUpper

def value? (b : Bound) (environment : Text → Option Text) (name : Text) : Option Text :=
  (b.lookup name).orElse fun _ => environment (environmentName name)

end Bulletin.Arguments
