/-
  PageServer.Binding.Expression — reading bindings: bare words, string literals, and helper
  expressions `name(argument, ...)` nested to any depth.
-/

import PageServer.Binding.Basic
import PageServer.Binding.Literals
import PageServer.Text.Blank
import PageServer.Text.Case

namespace PageServer

inductive BindingError where
  | invalidKeyPath (token : String)
  | unterminatedString (expression : String)
  | unbalancedParens (expression : String)
  | emptyExpression
  | trailingText (expression : String)
  deriving DecidableEq, Repr

def BindingError.message : BindingError → String
  | .invalidKeyPath t => "invalid key path " ++ Text.quote t
  | .unterminatedString e => "unterminated string literal in " ++ Text.quote e
  | .unbalancedParens e => "unbalanced parentheses in " ++ Text.quote e
  | .emptyExpression => "empty helper expression"
  | .trailingText e => "unexpected text after expression in " ++ Text.quote e

instance : ToString BindingError := ⟨BindingError.message⟩

namespace Binding

/-! ## Bare words -/

/-- An optional sign, then digits with at most one point between or around them. -/
def isNumeric (s : List Char) : Bool :=
  let digits := match s with
    | '-' :: r => r
    | '+' :: r => r
    | _ => s
  digits.any Char.isDigit && digits.all (fun c => c.isDigit || c == '.') && digits.count '.' ≤ 1

/-- With a point, or beyond 64 bits, a number is a floating point number. -/
def number? (s : List Char) : Option Value :=
  if s.contains '.' then (Decimal.read? s).map .float
  else match Text.readInt 64 s with
    | .ok n => some (.int n)
    | .error _ => (Decimal.read? s).map .float

def keyPathOf (s : List Char) : Except BindingError Binding :=
  match KeyPath.parse? s with
  | some p => .ok (keyPath p)
  | none => .error (.invalidKeyPath (String.ofList s))

/-- The truth value a word stands for, in any letter case. -/
def truthWord? (s : List Char) : Option Bool :=
  match Text.asciiLower (String.ofList s) with
  | "true" | "yes" => some true
  | "false" | "no" | "nil" | "null" => some false
  | _ => none

/-- Numbers first, then truth values; all other words are key paths. -/
def ofWord (s : List Char) : Except BindingError Binding :=
  match if isNumeric s then number? s else none with
  | some v => .ok (constant v)
  | none =>
    match truthWord? s with
    | some b => .ok (constant (.bool b))
    | none => keyPathOf s

/-! ## Helper expressions -/

/-- Whether `c` ends a bare word inside of an expression. -/
def endsWord (c : Char) : Bool := c == '(' || c == ')' || c == ',' || Text.isBlank c

def unescaped (inner : List Char) : Value := .string (String.ofList (Text.unescape inner))

mutual

/-- One term of the expression `whole`, and the text after it. The first argument bounds the
    number of steps; it is never used up, as a step takes at least one character. -/
def readTerm (whole : String) : Nat → List Char → Except BindingError (Binding × List Char)
  | 0, _ => .error (.unbalancedParens whole)
  | fuel + 1, s =>
    match Text.trimStart s with
    | [] => .error .emptyExpression
    | '"' :: r =>
      match Text.literal? r with
      | none => .error (.unterminatedString whole)
      | some (inner, after) => .ok (constant (unescaped inner), after)
    | c :: r =>
      if endsWord c then .error (.unbalancedParens whole)
      else
        let word := (c :: r).takeWhile (!endsWord ·)
        let rest := Text.trimStart ((c :: r).dropWhile (!endsWord ·))
        match rest with
        | '(' :: r' => do
          let (arguments, after) ← readArguments whole fuel r'
          return (call (String.ofList word) arguments, after)
        | _ => do return (← ofWord word, rest)

/-- The arguments after an opening parenthesis, up to and including the closing one. -/
def readArguments (whole : String) :
    Nat → List Char → Except BindingError (List Binding × List Char)
  | 0, _ => .error (.unbalancedParens whole)
  | fuel + 1, s =>
    match Text.trimStart s with
    | ')' :: r => .ok ([], r)
    | r => readMore whole fuel r

/-- At least one argument. -/
def readMore (whole : String) : Nat → List Char → Except BindingError (List Binding × List Char)
  | 0, _ => .error (.unbalancedParens whole)
  | fuel + 1, s => do
    let (b, rest) ← readTerm whole fuel s
    match Text.trimStart rest with
    | ',' :: r =>
      let (more, after) ← readMore whole fuel r
      return (b :: more, after)
    | ')' :: r => return ([b], r)
    | _ => throw (.unbalancedParens whole)

end

/-- An expression without its `~`, and nothing else. -/
def ofExpression (s : List Char) : Except BindingError Binding := do
  let whole := String.ofList s
  let (b, rest) ← readTerm whole (2 * s.length + 2) s
  if (Text.trimStart rest).isEmpty then return b else throw (.trailingText whole)

/-! ## Bindings of a declaration -/

/-- The right hand side of a binding whose literals are set aside. A `~` introduces an
    expression. -/
def ofRaw (t : Literals) (raw : List Char) : Except BindingError Binding :=
  match Text.trim raw with
  | '~' :: r => ofExpression (t.reinline r)
  | s =>
    match t.lookup? s with
    | some inner => .ok (constant (unescaped inner.toList))
    | none => ofWord s

end Binding

end PageServer
