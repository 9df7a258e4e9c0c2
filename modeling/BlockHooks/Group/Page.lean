/-
BlockHooks/Group/Page.lean

Listings read page by page.

A request names how many items to skip and how many to give at most.  The
page that answers it holds the items and, if any item comes after them, the
request for the following page.

`drain` follows those requests from page to page and puts the items
together.  The program modelled here follows them unconditionally.  The walk
below goes on only while the offset grows and so ends for any source of
pages, offsets being below 2⁶⁴; a listing that is read with a positive limit
is never cut short by this.
-/
import BlockHooks.Action
import BlockHooks.Amount

namespace BlockHooks

/-- Which part of a listing is wanted. -/
structure PageRequest where
  /-- The number of items to skip. -/
  offset : UInt64
  /-- The largest number of items wanted. -/
  limit : UInt64
  deriving DecidableEq, Repr

/-- The request for the first `limit` items. -/
def PageRequest.first (limit : UInt64) : PageRequest := ⟨0, limit⟩

/-- A part of a listing, and where to read on. -/
structure Page (α : Type) where
  items : List α
  /-- The request for the following page, if there is one. -/
  next : Option PageRequest
  deriving DecidableEq, Repr

namespace Page

variable {α : Type}

/-- The page of the listing `all` that a request asks for. -/
def paginate (all : List α) (request : PageRequest) : Page α :=
  let rest := all.drop request.offset.toNat
  let items := rest.take request.limit.toNat
  let next :=
    if (rest.drop request.limit.toNat).isEmpty then none
    else some ⟨addCapped request.offset (UInt64.ofNat items.length), request.limit⟩
  ⟨items, next⟩

/-- At most `count` pages of `all`, each the one that the page before it
names, from `request` on. -/
def follow (all : List α) : Nat → PageRequest → List (Page α)
  | 0, _ => []
  | count + 1, request =>
    let page := paginate all request
    match page.next with
    | none => [page]
    | some next => page :: follow all count next

/-- The items of all pages from `request` on.

The program modelled here follows `next` unconditionally.  The test that the
offset grows is there for the walk to end whatever `list` answers.  It never
stops a listing that is read with a positive limit: there each page that is
named starts later than the one that names it (`Page.lt_next_iff`). -/
def drain {σ ε : Type} (list : PageRequest → Action σ ε (Page α)) (request : PageRequest) :
    Action σ ε (List α) := do
  let page ← list request
  match page.next with
  | none => return page.items
  | some next =>
    if request.offset < next.offset then
      return page.items ++ (← drain list next)
    else
      return page.items
  termination_by UInt64.size - request.offset.toNat
  decreasing_by
    have := next.offset.toNat_lt_size
    have : request.offset.toNat < next.offset.toNat := by assumption
    omega

end Page

end BlockHooks
