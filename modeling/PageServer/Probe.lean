/-
  PageServer.Probe — a widget that shows where it stands.
-/

import PageServer.Element

namespace PageServer

/-- The element id in brackets, with marks for the sender and for controls in a form. -/
def Place.text (p : Place) : String :=
  "[" ++ p.elementId.text ++ (if p.isSender then "*" else "") ++ (if p.inForm then "f" else "")
    ++ "]"

namespace Widget

/-- Shows its place, and writes that text through `note`; as the sender it runs `action`. -/
def probe : Widget where
  accept bs := .ok (bs.filter fun b => b.1 == "action" || b.1 == "note")
  render p _ := p.text
  writes p bs := ((bs.get? "note").map (·, Value.string p.text)).toList
  action p bs := if p.isSender then (bs.get? "action").filter Binding.isSettable else none

end Widget

end PageServer
