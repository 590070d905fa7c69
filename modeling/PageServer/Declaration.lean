/-
  PageServer.Declaration — declaration files: which element or component a tag of a template
  stands for, and its bindings.

      // line comment
      Name : Type { key = value; other = "literal"; }
      /* block comment */

  A file is read in three steps. Block comments are taken out, then line comments while string
  literals are set aside, then what is left is cut at braces and semicolons.
-/

import PageServer.Binding.Expression

namespace PageServer

inductive DeclarationError where
  | unterminatedComment
  | unterminatedString
  | unterminatedBlock (header : String)
  | trailingText (text : String)
  | missingColon (header : String)
  | missingTagName (header : String)
  | missingTypeName (header : String)
  | duplicateTagName (tag : String)
  | missingEquals (tag line : String)
  | missingKey (tag line : String)
  | missingValue (tag line : String)
  | duplicateBinding (tag key : String)
  | invalidBinding (tag key : String) (cause : BindingError)
  deriving DecidableEq, Repr

namespace DeclarationError

def message : DeclarationError → String
  | unterminatedComment => "unterminated block comment"
  | unterminatedString => "unterminated string literal"
  | unterminatedBlock h => "missing '\x7d' for declaration " ++ Text.quote h
  | trailingText t => "text after the last declaration: " ++ Text.quote t
  | missingColon h => "missing ':' in declaration header " ++ Text.quote h
  | missingTagName h => "missing tag name in declaration header " ++ Text.quote h
  | missingTypeName h => "missing type name in declaration header " ++ Text.quote h
  | duplicateTagName t => "duplicate tag name " ++ Text.quote t
  | missingEquals t l => "no '=' in binding " ++ Text.quote l ++ " of declaration " ++ Text.quote t
  | missingKey t l =>
    "missing binding name in " ++ Text.quote l ++ " of declaration " ++ Text.quote t
  | missingValue t l =>
    "missing value in binding " ++ Text.quote l ++ " of declaration " ++ Text.quote t
  | duplicateBinding t k =>
    "binding " ++ Text.quote k ++ " given twice in declaration " ++ Text.quote t
  | invalidBinding t k e =>
    "binding " ++ Text.quote k ++ " of declaration " ++ Text.quote t ++ ": " ++ e.message

instance : ToString DeclarationError := ⟨message⟩

/-- The texts of the error and of what caused it. -/
def chain (e : DeclarationError) : List String :=
  e.message :: match e with
    | invalidBinding _ _ cause => [cause.message]
    | _ => []

end DeclarationError

structure Declaration where
  name : String
  typeName : String
  bindings : Bindings

namespace Declaration

def beqBindings : Bindings → Bindings → Bool
  | [], [] => true
  | (k, a) :: as, (l, b) :: bs => k == l && a == b && beqBindings as bs
  | _, _ => false

def beq (a b : Declaration) : Bool :=
  a.name == b.name && a.typeName == b.typeName && beqBindings a.bindings b.bindings

instance : BEq Declaration := ⟨beq⟩

def bindingText : String × Binding → String
  | (key, b) => " " ++ key ++ " = " ++ b.text ++ ";"

def text (d : Declaration) : String :=
  d.name ++ " : " ++ d.typeName ++ " \x7b" ++ String.join (d.bindings.map bindingText) ++ " \x7d"

end Declaration

/-- The declarations of a file by tag name. -/
abbrev Declarations := List (String × Declaration)

namespace Declarations

/-! ## Comments and literals -/

/-- Where the first reading of a file stands. -/
inductive CommentState where
  | outside
  | literal
  | lineComment
  | blockComment
  deriving DecidableEq, Repr

/-- The text without its block comments. Quotes inside of a line comment begin no literal, and
    in literals and line comments no block comment begins. -/
def dropBlockComments : CommentState → List Char → Except DeclarationError (List Char)
  | .blockComment, [] => .error .unterminatedComment
  | _, [] => .ok []
  | .outside, '/' :: '*' :: r => dropBlockComments .blockComment r
  | .outside, '/' :: '/' :: r => (dropBlockComments .lineComment r).map ('/' :: '/' :: ·)
  | .outside, '"' :: r => (dropBlockComments .literal r).map ('"' :: ·)
  | .outside, c :: r => (dropBlockComments .outside r).map (c :: ·)
  | .literal, '\\' :: c :: r => (dropBlockComments .literal r).map ('\\' :: c :: ·)
  | .literal, '"' :: r => (dropBlockComments .outside r).map ('"' :: ·)
  | .literal, c :: r => (dropBlockComments .literal r).map (c :: ·)
  | .lineComment, '\n' :: r => (dropBlockComments .outside r).map ('\n' :: ·)
  | .lineComment, c :: r => (dropBlockComments .lineComment r).map (c :: ·)
  | .blockComment, '*' :: '/' :: r => dropBlockComments .outside r
  | .blockComment, _ :: r => dropBlockComments .blockComment r

/-- Where the second reading stands; in a literal with its contents so far, last character
    first. -/
inductive LiteralState where
  | outside
  | literal (inner : List Char)
  | lineComment
  deriving DecidableEq, Repr

/-- The text with a line break for each line comment and a placeholder for each literal, and
    the literals. -/
def setLiteralsAside :
    LiteralState → Literals → List Char → Except DeclarationError (List Char × Literals)
  | .outside, t, [] => .ok ([], t)
  | .lineComment, t, [] => .ok (['\n'], t)
  | .literal _, _, [] => .error .unterminatedString
  | .outside, t, '/' :: '/' :: r => setLiteralsAside .lineComment t r
  | .outside, t, '"' :: r => setLiteralsAside (.literal []) t r
  | .outside, t, c :: r => (setLiteralsAside .outside t r).map fun (s, t) => (c :: s, t)
  | .lineComment, t, '\n' :: r =>
    (setLiteralsAside .outside t r).map fun (s, t) => ('\n' :: s, t)
  | .lineComment, t, _ :: r => setLiteralsAside .lineComment t r
  | .literal inner, t, '\\' :: c :: r => setLiteralsAside (.literal (c :: '\\' :: inner)) t r
  | .literal inner, t, '"' :: r =>
    let (token, t) := t.push inner.reverse
    (setLiteralsAside .outside t r).map fun (s, t) => (token ++ s, t)
  | .literal inner, t, c :: r => setLiteralsAside (.literal (c :: inner)) t r

/-! ## Blocks -/

/-- A header or the end of a file, without stray semicolons before it. -/
def trimSemicolons (s : List Char) : List Char :=
  Text.trim ((Text.trim s).dropWhile (· == ';'))

/-- The headers and the bodies, which stand between braces. -/
def blocks (s : List Char) : Except DeclarationError (List (List Char × List Char)) :=
  match _h : Text.cut? '\x7b' s with
  | none =>
    let rest := trimSemicolons s
    if rest.isEmpty then .ok [] else .error (.trailingText (String.ofList rest))
  | some (header, after) =>
    let header := trimSemicolons header
    match _h' : Text.cut? '\x7d' after with
    | none => .error (.unterminatedBlock (String.ofList header))
    | some (body, rest) => do return (header, body) :: (← blocks rest)
  termination_by s.length
  decreasing_by
    have := Text.cut?_length _h
    have := Text.cut?_length _h'
    omega

/-- The bindings so far with that of one line, which is not empty. -/
def readBinding (t : Literals) (tag : String) (bs : Bindings) (line : List Char) :
    Except DeclarationError Bindings := do
  let shown := String.ofList line
  let some (key, value) := Text.cut? '=' line | throw (.missingEquals tag shown)
  let key := Text.trim key
  let value := Text.trim value
  if key.isEmpty then throw (.missingKey tag shown)
  if value.isEmpty then throw (.missingValue tag shown)
  let name := match t.lookup? key with
    | some inner => String.ofList (Text.unescape inner.toList)
    | none => String.ofList key
  match Binding.ofRaw t value with
  | .error e => throw (.invalidBinding tag name e)
  | .ok b =>
    match bs.insert? name b with
    | some bs => return bs
    | none => throw (.duplicateBinding tag name)

def readBody (t : Literals) (tag : String) (body : List Char) :
    Except DeclarationError Bindings :=
  (((Text.pieces ';' body).map Text.trim).filter (!·.isEmpty)).foldlM (readBinding t tag) []

/-- The declarations so far with that of one block. -/
def readBlock (t : Literals) (ds : Declarations) (block : List Char × List Char) :
    Except DeclarationError Declarations := do
  let (header, body) := block
  let shown := String.ofList header
  let some (name, typeName) := Text.cut? ':' header | throw (.missingColon shown)
  let name := String.ofList (Text.trim name)
  let typeName := String.ofList (Text.trim typeName)
  if name = "" then throw (.missingTagName shown)
  if typeName = "" then throw (.missingTypeName shown)
  if Assoc.contains name ds then throw (.duplicateTagName name)
  let bindings ← readBody t name body
  return Assoc.put name ⟨name, typeName, bindings⟩ ds

def parse (text : String) : Except DeclarationError Declarations := do
  let s ← dropBlockComments .outside text.toList
  let (s, t) ← setLiteralsAside .outside {} s
  let bs ← blocks s
  bs.foldlM (readBlock t) []

end Declarations

end PageServer
