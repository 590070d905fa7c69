/-
  PageServer.Http.Notice — the pages that tell of a fault.
-/

import PageServer.Http.Response

namespace PageServer.Http.Notice

def page (title body : String) : String :=
  let title := Text.htmlEscape title
  "<html><head><title>" ++ title ++ "</title></head><body><h1>" ++ title ++ "</h1>" ++ body
    ++ "</body></html>\n"

def paragraph (s : String) : String := "<p>" ++ Text.htmlEscape s ++ "</p>"

def ofStatus (status : Status) : Response :=
  .html status (page status.title (paragraph status.description))

/-- For a link to a page that is no longer kept. -/
def expired (restartUrl : String) : Response :=
  .html .gone (page "Page Expired"
    ("<p>The page you were working with is no longer available, most likely because you have "
      ++ "been inactive for a while or have used many other pages since.</p><p><a href=\""
      ++ Text.htmlEscape restartUrl ++ "\">Start over</a></p>"))

/-- Shows the id under which the error is reported, and nothing else of it. -/
def internalError (errorId : String) : Response :=
  let status := Status.internalServerError
  .html status (page status.title
    (paragraph (status.description ++ " (error id " ++ errorId ++ ")")))

def badRequest (message : String) : Response :=
  let status := Status.badRequest
  .html status (page status.title (paragraph status.description ++ paragraph message))

end PageServer.Http.Notice
