import Windowing.Viewport

/-!
# Scroll requests

A scroll request says where a viewport is to be scrolled to, in terms that still make sense
after the content has changed, so that it can be applied again.

## Main definitions

* `ScrollRequest` — the requests.
* `ScrollRequest.apply` — scrolling a viewport as requested.
-/

namespace Windowing

/-- Where a viewport is to be scrolled to. -/
inductive ScrollRequest (S : Type) where
  /-- To an offset. -/
  | offset (offset : S)
  /-- To an item, aligned in some way. -/
  | item (index : Nat) (align : ScrollAlign)
  /-- To the end of the content. -/
  | stop

/-- Scrolls a viewport as requested; answers whether it moved. -/
def ScrollRequest.apply {M S : Type} [Scalar S] [ExtentModel M S] (viewport : Viewport M S) :
    ScrollRequest S → Except Fault (Viewport M S × Bool)
  | .offset target => .ok (viewport.scrollTo target)
  | .item index align => viewport.bring index align
  | .stop => .ok viewport.scrollToEnd

end Windowing
