/-
  PageServer.Guestbook — an application: a guest book with a counter, a form that adds names to
  a list, and a second page.
-/

import PageServer.Application

namespace PageServer.Guestbook

/-! ## Templates -/

def mainTemplate : String :=
"<html><head><title>Guest book</title></head>
<body>
<h1>Guest book</h1>
<p>Visits on this page: <webobject name=\"Count\"/>
 (<webobject name=\"Increment\">one more</webobject>)</p>
<webobject name=\"Form\">
 Your name: <wo:TextField value=\"$name\"/>
 <webobject name=\"Sign\"/>
</webobject>
<webobject name=\"HasGuests\">
 <ul><webobject name=\"Guests\"><li><webobject name=\"Guest\"/>
  (#<wo:String value=\"$position\"/>)</li></webobject></ul>
</webobject>
<webobject name=\"NoGuests\"><p>Nobody signed yet.</p></webobject>
<p><webobject name=\"Frame\">The guest book has <webobject name=\"Total\"/> entries.</webobject></p>
<p><webobject name=\"ToAbout\">About</webobject> | <webobject name=\"Restart\">start over</webobject></p>
</body></html>
"

def mainDeclarations : String :=
"
Count : WOString \x7b value = count; \x7d
Increment : WOHyperlink \x7b action = increment; \x7d
Form : WOForm \x7b\x7d
Sign : WOSubmitButton \x7b action = sign; value = \"Sign\"; \x7d
HasGuests : WOConditional \x7b condition = guests; \x7d
NoGuests : WOConditional \x7b condition = guests; negate = true; \x7d
Guests : WORepetition \x7b list = guests; item = guest; index = index; \x7d
Guest : WOString \x7b value = ~capitalize(guest); valueWhenEmpty = \"(anonymous)\"; \x7d
Frame : Panel \x7b title = \"Summary\"; \x7d
Total : WOString \x7b value = ~length(guests); \x7d
ToAbout : WOHyperlink \x7b action = about; \x7d
Restart : WOHyperlink \x7b directActionName = \"default\"; \x7d
"

def panelTemplate : String :=
  "<div class=\"box\"><h2><wo:String value=\"$title\"/></h2>"
    ++ "<webobject name=\"Content\"/></div>"

def panelDeclarations : String := "Content : ComponentContent \x7b\x7d"

def aboutTemplate : String :=
  "<html><body><p>Pages are kept on the server, links address "
    ++ "the elements on them.</p><p><webobject name=\"Back\">back</webobject></p>"
    ++ "</body></html>"

def aboutDeclarations : String := "Back : Hyperlink \x7b action = back; \x7d"

/-! ## Components -/

/-- The page with the guests. -/
structure MainPage where
  count : Int := 0
  /-- The name in the form. -/
  name : String := ""
  guests : List String := []
  /-- The guest of the current round, and the number of the round. -/
  guest : Value := .null
  index : Int := 0

namespace MainPage

def value? (m : MainPage) : String → Option Value
  | "count" => some (.int m.count)
  | "name" => some (.string m.name)
  | "guests" => some (.list (m.guests.map Value.string))
  | "guest" => some m.guest
  | "index" => some (.int m.index)
  | "position" => some (.int (m.index + 1))
  | _ => none

def take (m : MainPage) (key : String) (v : Value) : Except Failure MainPage :=
  match key, v with
  | "name", v => .ok { m with name := v.text }
  | "guest", v => .ok { m with guest := v }
  | "index", .int i => .ok { m with index := i }
  | key, v =>
    .error (.application ("Main: can't set " ++ Text.quote key ++ " to " ++ v.inspect))

/-- The name in the form becomes the last guest. -/
def sign (m : MainPage) : MainPage :=
  { m with name := "", guests := m.guests ++ [String.ofList (Text.trim m.name.toList)] }

def perform (m : MainPage) : String → Except Failure Reply × MainPage
  | "increment" => (.ok .stay, { m with count := m.count + 1 })
  | "sign" => (.ok .stay, m.sign)
  | "about" => (.ok (.openPage "About" []), m)
  | action => (.error (.application ("Main: unknown action " ++ Text.quote action)), m)

end MainPage

inductive Page where
  | main (m : MainPage)
  /-- A titled box around something. -/
  | panel (title : String)
  | about

namespace Page

def name : Page → String
  | main _ => "Main"
  | panel _ => "Panel"
  | about => "About"

def value? : Page → String → Option Value
  | main m, key => m.value? key
  | panel title, "title" => some (.string title)
  | _, _ => none

/-- `called` is what messages call the component. -/
def take (called : String) (p : Page) (key : String) (v : Value) : Except Failure Page :=
  match p with
  | main m => (m.take key v).map main
  | panel _ =>
    if key = "title" then .ok (panel v.text)
    else .error (.application ("Panel: can't set " ++ Text.quote key))
  | about => .error (.noSettableKey called key)

def perform (called : String) : Page → String → Except Failure Reply × Page
  | main m, action =>
    let (reply, m) := m.perform action
    (reply, main m)
  | panel title, action => (.error (.noAction called action), panel title)
  | about, "back" => (.ok (.openPage "Main" []), about)
  | about, action =>
    (.error (.application ("About: unknown action " ++ Text.quote action)), about)

end Page

/-- A component of the guest book, which is a part of some program. -/
structure State where
  program : String
  page : Page

namespace State

/-- The name of the program stands before that of the component. -/
def name (s : State) : String := s.program ++ "::" ++ s.page.name

def take (s : State) (key : String) (v : Value) : Except Failure State :=
  (s.page.take s.name key v).map fun p => { s with page := p }

def perform (s : State) (action : String) : Except Failure Reply × State :=
  let (reply, p) := s.page.perform s.name action
  (reply, { s with page := p })

instance : Component State where
  name := name
  value? s := s.page.value?
  take := take
  perform := perform

end State

/-! ## The application -/

def definitions (program : String) : List (Definition State) :=
  [⟨"Main", mainTemplate, mainDeclarations, program, .main {}⟩,
   ⟨"Panel", panelTemplate, panelDeclarations, program, .panel ""⟩,
   ⟨"About", aboutTemplate, aboutDeclarations, program, .about⟩]

/-- Without a page that was shown before, one begins with the guests. -/
def start : DirectAction := fun _ context => (.ok (.openPage "Main" []), context)

def registered (program : String) (app : Application State) :
    Except NameTaken (Application State) :=
  (definitions program).foldlM Application.registerComponent app

/-- The guest book of a program. The names of its components are its own, so nothing is
    refused. -/
def application (program : String) (settings : Settings) : Application State :=
  let app : Application State := .new settings
  let app := (registered program app).toOption.getD app
  ((app.registerDirectAction DirectActions.defaultName start).toOption).getD app

end PageServer.Guestbook
