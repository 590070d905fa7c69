/-
  PageServer.Text.Markup — writing text and tags into HTML.
-/

namespace PageServer.Text

def htmlChar (c : Char) : List Char :=
  if c = '<' then ['&', 'l', 't', ';']
  else if c = '>' then ['&', 'g', 't', ';']
  else if c = '&' then ['&', 'a', 'm', 'p', ';']
  else if c = '"' then ['&', 'q', 'u', 'o', 't', ';']
  else if c = '\'' then ['&', '#', '3', '9', ';']
  else [c]

/-- The characters with a meaning in HTML replaced by entities. -/
def htmlEscape (s : String) : String := String.ofList (s.toList.flatMap htmlChar)

/-- ` name="value"`, or nothing for an attribute without a value. -/
def tagAttribute : String × Option String → String
  | (name, some value) => " " ++ name ++ "=\"" ++ htmlEscape value ++ "\""
  | (_, none) => ""

/-- An opening tag, closed in itself on request. -/
def tag (name : String) (attributes : List (String × Option String)) (selfClosing : Bool) :
    String :=
  "<" ++ name ++ String.join (attributes.map tagAttribute) ++ (if selfClosing then " />" else ">")

end PageServer.Text
