/-
  PageServer.Template.Compiler — the element tree of a template.

  Open tags stand on a stack. A tag that is closed becomes an element among the children of the
  tag around it. The innermost text and the tags around it keep their order, so nothing of a
  template is lost.
-/

import PageServer.Declaration
import PageServer.Registry
import PageServer.Template.Tag

namespace PageServer.Template

inductive CompileError where
  | declaration (e : DeclarationError)
  | markup (e : MarkupError)
  | noDeclaration (tag : String)
  | unresolvedType (tag : String) (e : ResolveError)
  | invalidElement (tag typeName : String) (e : ElementError)
  | unknownHelper (tag helper : String)
  | inComponent (component : String) (e : CompileError)

namespace CompileError

def message : CompileError → String
  | declaration e => "declarations: " ++ e.message
  | markup e => "template: " ++ e.message
  | noDeclaration t => "no declaration for dynamic tag " ++ Text.quote t
  | unresolvedType t e => "tag " ++ Text.quote t ++ ": " ++ e.message
  | invalidElement t n e => "tag " ++ Text.quote t ++ " (" ++ n ++ "): " ++ e.message
  | unknownHelper t h => "tag " ++ Text.quote t ++ ": unknown helper function " ++ Text.quote h
  | inComponent c e => "in component " ++ Text.quote c ++ ": " ++ e.message

instance : ToString CompileError := ⟨message⟩

/-- The texts of the error and of what caused it. -/
def chain : CompileError → List String
  | declaration e => message (declaration e) :: e.chain
  | markup e => [message (markup e), e.message]
  | unresolvedType t e => [message (unresolvedType t e), e.message]
  | inComponent c e => message (inComponent c e) :: e.chain
  | e => [e.message]

end CompileError

/-! ## Open tags -/

inductive TagKind where
  | root
  /-- A tag that names a declaration. -/
  | named
  | inline (d : Declaration)

/-- An open tag, with the elements in it so far, last one first, and the text after them, last
    character first. -/
structure OpenTag where
  name : Option String
  kind : TagKind
  elements : List Element := []
  text : List Char := []

namespace OpenTag

def addText (t : OpenTag) (c : Char) : OpenTag := { t with text := c :: t.text }

/-- The elements with the text after them, last one first. -/
def flushed (t : OpenTag) : List Element :=
  if t.text.isEmpty then t.elements
  else .text (String.ofList t.text.reverse) :: t.elements

def addElement (t : OpenTag) (e : Element) : OpenTag :=
  { t with elements := e :: t.flushed, text := [] }

def children (t : OpenTag) : List Element := t.flushed.reverse

/-- What stands between the tags, as one element. A lone child is taken as it is, but for a
    component, which gets a group around it and so an element id of its own. -/
def content (t : OpenTag) : Option Element :=
  match t.children with
  | [] => none
  | [e] => if e.isComponent then some (.group t.name [e]) else some e
  | es => some (.group t.name es)

/-- The name of the tag in messages. -/
def shown (t : OpenTag) : String :=
  match t.kind with
  | .root => "(root)"
  | .named => "webobject " ++ Text.quote (t.name.getD "")
  | .inline d => "wo:" ++ d.typeName

end OpenTag

/-- A compilation under way: the open tags around the innermost one, that one itself, and the
    number of inline tags so far. -/
structure Compilation where
  outer : List OpenTag := []
  top : OpenTag := ⟨none, .root, [], []⟩
  inlineCount : Nat := 0

/-! ## From tags to elements -/

variable {σ : Type}

def declarationOf (ds : Declarations) (t : OpenTag) : Except CompileError Declaration :=
  match t.kind with
  | .inline d => .ok d
  | _ =>
    let name := t.name.getD ""
    match Assoc.get? name ds with
    | some d => .ok d
    | none => .error (.noDeclaration name)

/-- The element of a type, with the bindings of a declaration. -/
def elementOf (d : Declaration) (t : ElementType σ) (content : Option Element) :
    Except ElementError Element :=
  match t with
  | .component c => .ok (.component d.name c.name d.bindings content)
  | .builtin b => do
    return .control (← b.build d.bindings) (if b.hasContent then content else none)
  | .widget w => do return .control (.widget d.typeName d.name (← w.accept d.bindings)) content

/-- The element of a closed tag. Helpers are looked up before the type. -/
def build (r : Registry σ) (ds : Declarations) (t : OpenTag) : Except CompileError Element := do
  let d ← declarationOf ds t
  let helpers := d.bindings.flatMap (·.2.helperNames)
  if let some h := helpers.find? (!r.helpers.contains ·) then throw (.unknownHelper d.name h)
  match r.resolve d.typeName with
  | .error e => throw (.unresolvedType d.name e)
  | .ok type =>
    match elementOf d type t.content with
    | .error e => throw (.invalidElement d.name d.typeName e)
    | .ok e => return e

/-- The binding of an attribute: `$` introduces a key path, `~` a helper expression, anything
    else is a constant. -/
def attributeBinding (value : String) : Except BindingError Binding :=
  match value.toList with
  | '$' :: path => Binding.keyPathOf path
  | '~' :: e => Binding.ofExpression e
  | _ => .ok (.constant (.string value))

/-- The bindings of the inline tag `name`, with that of one more attribute. -/
def addAttribute (name typeName : String) (bs : Bindings) (a : String × String) :
    Except CompileError Bindings :=
  match attributeBinding a.2 with
  | .error e => .error (.declaration (.invalidBinding name a.1 e))
  | .ok b =>
    match bs.insert? a.1 b with
    | some bs => .ok bs
    | none => .error (.declaration (.duplicateBinding ("wo:" ++ typeName) a.1))

/-- The declaration that an inline tag makes. -/
def inlineDeclaration (count : Nat) (typeName : String) (attributes : List (String × String)) :
    Except CompileError Declaration := do
  let name := "_inline_" ++ toString count
  return ⟨name, typeName, ← attributes.foldlM (addAttribute name typeName) []⟩

namespace Compilation

/-- The innermost tag is closed. -/
def close (r : Registry σ) (ds : Declarations) (c : Compilation) :
    Except CompileError Compilation :=
  match c.outer with
  | [] => .error (.markup (.unexpectedClosingTag "(root)"))
  | t :: outer => do
    return { c with outer := outer, top := t.addElement (← build r ds c.top) }

def openTag (r : Registry σ) (ds : Declarations) (t : OpenTag) (selfClosing : Bool)
    (c : Compilation) : Except CompileError Compilation :=
  let c := { c with outer := c.top :: c.outer, top := t }
  if selfClosing then c.close r ds else .ok c

/-- A closing tag has to fit the innermost open one. -/
def closeTag (r : Registry σ) (ds : Declarations) (fits : TagKind → Bool) (found : String)
    (c : Compilation) : Except CompileError Compilation :=
  if fits c.top.kind then c.close r ds
  else match c.top.kind with
    | .root => .error (.markup (.unexpectedClosingTag found))
    | _ => .error (.markup (.mismatchedClosingTag c.top.shown found))

def handle (r : Registry σ) (ds : Declarations) (c : Compilation) :
    Tag → Except CompileError Compilation
  | .openNamed name selfClosing =>
    c.openTag r ds { name := some name, kind := .named } selfClosing
  | .openInline typeName attributes selfClosing => do
    let d ← inlineDeclaration c.inlineCount typeName attributes
    { c with inlineCount := c.inlineCount + 1 }.openTag r ds
      { name := some d.name, kind := .inline d } selfClosing
  | .closeNamed =>
    c.closeTag r ds (fun | .named => true | _ => false) "</webobject>"
  | .closeInline typeName =>
    c.closeTag r ds (fun | .inline d => d.typeName == typeName | _ => false)
      ("</wo:" ++ typeName ++ ">")

/-- The rest `s` of the template. -/
def run (r : Registry σ) (ds : Declarations) (c : Compilation) (s : List Char) :
    Except CompileError Compilation :=
  match s with
  | [] => .ok c
  | ch :: rest =>
    match _h : Tag.read? (ch :: rest) with
    | .error e => .error (.markup e)
    | .ok none => run r ds { c with top := c.top.addText ch } rest
    | .ok (some (tag, after)) => do run r ds (← c.handle r ds tag) after
  termination_by s.length
  decreasing_by
    · simp
    · exact Tag.read?_length _h

/-- The whole template is always a group, so that no element in it has the empty id. -/
def finish (c : Compilation) : Except CompileError Element :=
  if c.outer.isEmpty then .ok (.group c.top.name c.top.children)
  else .error (.markup (.unclosedTag c.top.shown))

end Compilation

def compileWith (r : Registry σ) (ds : Declarations) (template : String) :
    Except CompileError Element := do
  (← Compilation.run r ds {} template.toList).finish

/-- The declarations are read before the template. -/
def compile (r : Registry σ) (template declarations : String) : Except CompileError Element :=
  match Declarations.parse declarations with
  | .error e => .error (.declaration e)
  | .ok ds => compileWith r ds template

end PageServer.Template
