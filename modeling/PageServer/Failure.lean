/-
  PageServer.Failure — why working on a page or handling a request failed.
-/

import PageServer.Template.Compiler

namespace PageServer

inductive Failure where
  /-- A failure of the application's own code, in its own words. -/
  | application (text : String)
  | helper (e : HelperError)
  | compile (e : Template.CompileError)
  | resolve (e : ResolveError)
  | notSettable (b : Binding)
  | path (p : KeyPath) (e : Value.PathError)
  | notList (list : Binding) (v : Value)
  | noSettableKey (component key : String)
  | noAction (component action : String)
  /-- Components are nested beyond all bounds. -/
  | tooDeep
  | noFrame
  | noResult
  | directAction (name : String) (cause : Failure)

namespace Failure

/-- The text of a failure and of what caused it. -/
def report : Failure → String
  | application text => text
  | helper e => e.message
  | compile e => ": ".intercalate e.chain
  | resolve e => e.message
  | notSettable b => "binding " ++ b.text ++ " is not settable"
  | path p e => "setting key path " ++ p.text ++ ": " ++ e.message
  | notList l v =>
    "Repetition: list binding " ++ l.text ++ " gave a non-list value: " ++ v.shown
  | noSettableKey c k => c ++ " has no settable key " ++ Text.quote k
  | noAction c a => c ++ " has no action " ++ Text.quote a
  | tooDeep => "components nested too deeply"
  | noFrame => "component stack underflow"
  | noResult => "direct action returned no result"
  | directAction n cause => "direct action " ++ Text.quote n ++ ": " ++ cause.report

instance : ToString Failure := ⟨report⟩

end Failure

end PageServer
