/-
BlockHooks/Proofs/Paging.lean

Reading a listing page by page gives the listing.

A page is either the last one, and holds all that is left, or it is full and
names the offset right after its own items (`paginate_of_le`,
`paginate_of_lt`); what holds along these two cases holds of every request
(`request_induction`).  Following the pages of a listing of at most 2⁶⁴ items
therefore gives what is left of it from the first offset on, whatever the
size of the pages (`run_drain`); a longer one would have items behind the
largest offset.
-/
import BlockHooks.Group.Page

namespace BlockHooks

namespace Page

variable {σ ε α : Type}

/-! ### One page -/

/-- The last page holds what is left. -/
theorem paginate_of_le {all : List α} {request : PageRequest}
    (h : all.length ≤ request.offset.toNat + request.limit.toNat) :
    paginate all request = ⟨all.drop request.offset.toNat, none⟩ := by
  have hlen : (all.drop request.offset.toNat).length ≤ request.limit.toNat := by
    rw [List.length_drop]
    omega
  simp only [paginate, List.take_of_length_le hlen, List.drop_eq_nil_of_le hlen,
    List.isEmpty_nil, if_true]

/-- Any other page is full, and the following one starts where it ends. -/
theorem paginate_of_lt {all : List α} {request : PageRequest} (hlen : all.length ≤ UInt64.size)
    (h : request.offset.toNat + request.limit.toNat < all.length) :
    ∃ next : PageRequest, next.limit = request.limit ∧
      next.offset.toNat = request.offset.toNat + request.limit.toNat ∧
      paginate all request
        = ⟨(all.drop request.offset.toNat).take request.limit.toNat, some next⟩ := by
  have hitems : ((all.drop request.offset.toNat).take request.limit.toNat).length
      = request.limit.toNat := by
    rw [List.length_take, List.length_drop]
    omega
  have hmore : ((all.drop request.offset.toNat).drop request.limit.toNat).isEmpty = false := by
    rw [List.isEmpty_eq_false_iff, List.drop_drop]
    exact List.ne_nil_of_length_pos (by rw [List.length_drop]; omega)
  refine ⟨⟨addCapped request.offset request.limit, request.limit⟩, rfl, ?_, ?_⟩
  · -- the sum is below 2⁶⁴, so nothing is cut off
    rw [toNat_addCapped]
    omega
  · show (⟨_, if ((all.drop _).drop _).isEmpty then none
      else some ⟨addCapped _ (UInt64.ofNat (List.length _)), _⟩⟩ : Page α) = _
    rw [hmore, hitems, UInt64.ofNat_toNat, if_neg Bool.false_ne_true]

/-! ### All pages -/

theorem limit_pos {request : PageRequest} (h : request.limit ≠ 0) : 0 < request.limit.toNat :=
  Nat.pos_of_ne_zero fun hzero => h (UInt64.toNat_inj.1 hzero)

/-- What holds of a request that the last page answers, and holds of any other
if it holds of the one that its page names, holds of all requests for pages
with room for an item. -/
theorem request_induction {all : List α} {P : PageRequest → Prop}
    (hlen : all.length ≤ UInt64.size)
    (last : ∀ request : PageRequest, request.limit ≠ 0 →
      all.length ≤ request.offset.toNat + request.limit.toNat → P request)
    (more : ∀ request next : PageRequest, request.limit ≠ 0 →
      request.offset.toNat + request.limit.toNat < all.length →
      next.limit = request.limit →
      next.offset.toNat = request.offset.toNat + request.limit.toNat →
      paginate all request
        = ⟨(all.drop request.offset.toNat).take request.limit.toNat, some next⟩ →
      P next → P request)
    (request : PageRequest) (hlimit : request.limit ≠ 0) : P request := by
  -- on the number of items that are left
  induction hleft : all.length - request.offset.toNat using Nat.strongRecOn
    generalizing request with
  | ind left ih =>
    rcases Nat.lt_or_ge (request.offset.toNat + request.limit.toNat) all.length with hlt | hle
    · obtain ⟨next, hsame, hoffset, hpage⟩ := paginate_of_lt hlen hlt
      refine more request next hlimit hlt hsame hoffset hpage (ih _ ?_ next (hsame ▸ hlimit) rfl)
      have hpos := limit_pos hlimit
      omega
    · exact last request hlimit hle

/-- One page, and then the pages after it. -/
theorem drain_eq (list : PageRequest → Action σ ε (Page α)) (request : PageRequest) :
    drain list request = (do
      let page ← list request
      match page.next with
      | none => pure page.items
      | some next =>
        if request.offset < next.offset then do
          let items ← drain list next
          pure (page.items ++ items)
        else pure page.items) :=
  (drain.eq_def list request).trans rfl

/-- A source that answers with the pages of `all` is read from the offset of
the first request to the end. -/
theorem run_drain {list : PageRequest → Action σ ε (Page α)} {all : List α} {s : σ}
    (hlen : all.length ≤ UInt64.size)
    (hlist : ∀ request : PageRequest, request.limit ≠ 0 →
      (list request).run s = (.ok (paginate all request), s))
    (request : PageRequest) (hlimit : request.limit ≠ 0) :
    (drain list request).run s = (.ok (all.drop request.offset.toNat), s) := by
  revert request
  refine request_induction hlen ?last ?more
  case last =>
    intro request hlimit hle
    rw [drain_eq, Action.run_bind_ok (hlist request hlimit), paginate_of_le hle, Action.run_pure]
  case more =>
    intro request next hlimit _ _ hoffset hpage ih
    have hgrows : request.offset < next.offset := by
      rw [UInt64.lt_iff_toNat_lt, hoffset]
      exact Nat.lt_add_of_pos_right (limit_pos hlimit)
    -- the page and what the following request gives are the rest, cut in two
    rw [drain_eq, Action.run_bind_ok (hlist request hlimit), hpage]
    show Action.run (if request.offset < next.offset then _ else _) s = _
    rw [if_pos hgrows, Action.run_bind_ok ih, Action.run_pure, hoffset, ← List.drop_drop,
      List.take_append_drop]

/-- A source that fails at the first request gives no items. -/
theorem run_drain_error {list : PageRequest → Action σ ε (Page α)} {request : PageRequest}
    {s s' : σ} {e : ε} (h : (list request).run s = (.error e, s')) :
    (drain list request).run s = (.error e, s') := by
  rw [drain_eq, Action.run_bind_error h]

end Page

end BlockHooks
