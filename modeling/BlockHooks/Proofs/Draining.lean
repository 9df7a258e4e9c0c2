/-
BlockHooks/Proofs/Draining.lean

How many pages a listing has, and what is on them.

The pages from any request on, each the one that the page before it names,
cut what is left of the listing into pieces: all of them full but the last,
none of them empty if anything is left, in the order of the listing (`Cut`).
They come to an end by themselves, at the page that names no other, so that
the number of pages one is prepared to read does not matter from some number
on (`exists_cut_follow`).

What carries the count is that a page names the offset after its own items.
An offset that is named is thus a later one, unless the pages have no room
for any item (`lt_next_iff`).  With such pages one would read on forever
(`follow_of_limit_zero`); neither a scan nor the book admits them.
-/
import BlockHooks.Proofs.Scan

namespace BlockHooks

namespace Page

variable {α : Type}

/-! ### Cutting a list into pages -/

/-- The pages hold the items, `limit` on each but the last. -/
structure Cut (limit : Nat) (items : List α) (pages : List (Page α)) : Prop where
  /-- There are as many as are needed, but at least one. -/
  count : pages.length = max 1 ((items.length + limit - 1) / limit)
  full : ∀ page ∈ pages.dropLast, page.items.length = limit
  nonempty : items ≠ [] → ∀ page ∈ pages, page.items ≠ []
  last : ∃ page ∈ pages.getLast?, page.next = none
  joined : pages.flatMap Page.items = items

variable {limit : Nat} {items rest : List α} {pages : List (Page α)} {page : Page α}

theorem Cut.ne_nil (h : Cut limit items pages) : pages ≠ [] := by
  rintro rfl
  obtain ⟨_, hmem, -⟩ := h.last
  cases hmem

/-- All items on one page. -/
theorem cut_singleton (hpos : 0 < limit) (hlen : items.length ≤ limit) :
    Cut limit items [⟨items, none⟩] where
  count := by
    have hone : (items.length + limit - 1) / limit ≤ 1 := by
      rw [Nat.div_le_iff_le_mul_add_pred hpos]
      omega
    rw [List.length_singleton]
    omega
  full := nofun
  nonempty hne page hmem := by
    rw [List.mem_singleton.1 hmem]
    exact hne
  last := ⟨_, rfl, rfl⟩
  joined := List.append_nil items

/-- A full page in front of others that are not empty. -/
theorem Cut.cons (hpos : 0 < limit) (hlen : page.items.length = limit) (hrest : rest ≠ [])
    (h : Cut limit rest pages) : Cut limit (page.items ++ rest) (page :: pages) where
  count := by
    have hleft : 0 < rest.length := List.length_pos_iff.2 hrest
    -- one page more for `limit` items more
    have hstep : ((page.items ++ rest).length + limit - 1) / limit
        = (rest.length + limit - 1) / limit + 1 := by
      rw [← Nat.add_div_right _ hpos, List.length_append, hlen]
      congr 1
      omega
    have hone : 1 ≤ (rest.length + limit - 1) / limit := by
      rw [Nat.le_div_iff_mul_le hpos]
      omega
    rw [List.length_cons, h.count, hstep]
    omega
  full := by
    rw [List.dropLast_cons_of_ne_nil h.ne_nil, List.forall_mem_cons]
    exact ⟨hlen, h.full⟩
  nonempty _ := by
    rw [List.forall_mem_cons]
    exact ⟨List.ne_nil_of_length_pos (hlen ▸ hpos), h.nonempty hrest⟩
  last := by
    rw [List.getLast?_cons_of_ne_nil h.ne_nil]
    exact h.last
  joined := by
    rw [List.flatMap_cons, h.joined]

/-! ### Following the pages -/

variable {xs : List α}

theorem follow_succ_of_last {request : PageRequest} (h : paginate xs request = ⟨items, none⟩)
    (count : Nat) : follow xs (count + 1) request = [⟨items, none⟩] := by
  rw [follow, h]

theorem follow_succ_of_next {request next : PageRequest}
    (h : paginate xs request = ⟨items, some next⟩) (count : Nat) :
    follow xs (count + 1) request = ⟨items, some next⟩ :: follow xs count next := by
  rw [follow, h]

/-- From any request on, the pages cut what is left of the listing, and they
end by themselves. -/
theorem exists_cut_follow (hsize : xs.length ≤ UInt64.size) (request : PageRequest)
    (hlimit : request.limit ≠ 0) :
    ∃ pages, Cut request.limit.toNat (xs.drop request.offset.toNat) pages ∧
      ∀ count, pages.length ≤ count → follow xs count request = pages := by
  revert request
  -- a request reads the last page, or a full one that names a later request
  refine request_induction hsize ?last ?more
  case last =>
    intro request hlimit hle
    refine ⟨[⟨xs.drop request.offset.toNat, none⟩], cut_singleton (limit_pos hlimit) ?_, ?_⟩
    · rw [List.length_drop]
      omega
    · intro count hcount
      obtain ⟨count, rfl⟩ := Nat.exists_eq_add_of_le' hcount
      exact follow_succ_of_last (paginate_of_le hle) count
  case more =>
    rintro request next hlimit hlt hsame hoffset hpage ⟨pages, hcut, hfollow⟩
    rw [hsame, hoffset, ← List.drop_drop] at hcut
    let page : Page α := ⟨(xs.drop request.offset.toNat).take request.limit.toNat, some next⟩
    have hfull : page.items.length = request.limit.toNat := by
      rw [List.length_take, List.length_drop]
      omega
    have hleft : (xs.drop request.offset.toNat).drop request.limit.toNat ≠ [] := by
      rw [List.drop_drop]
      exact List.ne_nil_of_length_pos (by rw [List.length_drop]; omega)
    refine ⟨page :: pages, ?_, ?_⟩
    · have hcons := Cut.cons (limit_pos hlimit) hfull hleft hcut
      rw [List.take_append_drop] at hcons
      exact hcons
    · intro count hcount
      obtain ⟨count, rfl⟩ := Nat.exists_eq_add_of_le' (Nat.le_of_add_left_le hcount)
      rw [follow_succ_of_next hpage, hfollow count (Nat.le_of_succ_le_succ hcount)]

/-! ### Progress -/

/-- The page that is named starts later, unless pages have no room for an item. -/
theorem lt_next_iff (hsize : xs.length ≤ UInt64.size) {request next : PageRequest}
    (h : (paginate xs request).next = some next) :
    request.offset < next.offset ↔ request.limit ≠ 0 := by
  rcases Nat.lt_or_ge (request.offset.toNat + request.limit.toNat) xs.length with hlt | hle
  · obtain ⟨next', -, hoffset, hpage⟩ := paginate_of_lt hsize hlt
    rw [hpage] at h
    cases h
    rw [UInt64.lt_iff_toNat_lt, hoffset, Ne, ← UInt64.toNat_inj]
    show _ < _ + _ ↔ ¬ request.limit.toNat = 0
    omega
  · rw [paginate_of_le hle] at h
    cases h

/-- Pages without room for an item name themselves while any item is left. -/
theorem follow_of_limit_zero (hsize : xs.length ≤ UInt64.size) {offset : UInt64}
    (h : offset.toNat < xs.length) (count : Nat) :
    follow xs count ⟨offset, 0⟩ = List.replicate count ⟨[], some ⟨offset, 0⟩⟩ := by
  have hmore : (PageRequest.mk offset 0).offset.toNat + (PageRequest.mk offset 0).limit.toNat
      < xs.length := h
  obtain ⟨next, hlimit, hoffset, hpage⟩ := paginate_of_lt hsize hmore
  obtain rfl : next = ⟨offset, 0⟩ := by
    rw [PageRequest.mk.injEq]
    exact ⟨UInt64.toNat_inj.1 hoffset, hlimit⟩
  induction count with
  | zero => rfl
  | succ count ih =>
    rw [follow_succ_of_next hpage, ih, List.replicate_succ]
    rfl

/-- The book refuses such pages, or all listings. -/
theorem exists_listed_of_limit_zero (g : MemGroups) (all : Except GroupError (List α))
    (offset : UInt64) : ∃ e, g.listed ⟨offset, 0⟩ all = .error e := by
  rw [MemGroups.listed]
  split
  · exact ⟨_, rfl⟩
  · exact ⟨_, rfl⟩

/-! ### All items -/

/-- What is left of `xs` from an offset on: all but as many items as the
offset says, or as there are. -/
theorem drop_min_length (n : Nat) : xs.drop (min n xs.length) = xs.drop n := by
  rcases Nat.le_total n xs.length with hle | hle
  · rw [Nat.min_eq_left hle]
  · rw [Nat.min_eq_right hle, List.drop_length, List.drop_eq_nil_of_le hle]

/-- **Reading all pages loses, repeats and reorders nothing, and ends.**  From
any offset on, the pages of a listing of fewer than 2⁶⁴ items cut all its items
from there on, or none if the offset is behind the last; from the first page
on, they cut the listing.  However many pages one is prepared to read, these
are the pages one gets, the last of which names no other.  A source that
answers with them is read to the same items.

Only pages without room for an item would not get on: while items are left,
they name themselves.  No scan is set up with them, and the book refuses
them. -/
theorem pages_cut_listing (xs : List α) (hsize : xs.length < UInt64.size) :
    (∀ request : PageRequest, request.limit ≠ 0 →
      ∃ pages, Cut request.limit.toNat (xs.drop (min request.offset.toNat xs.length)) pages ∧
        (∀ count, pages.length ≤ count → follow xs count request = pages) ∧
        ∀ {σ ε : Type} (list : PageRequest → Action σ ε (Page α)) (s : σ),
          (∀ r : PageRequest, r.limit ≠ 0 → (list r).run s = (.ok (paginate xs r), s)) →
          (drain list request).run s
            = (.ok (xs.drop (min request.offset.toNat xs.length)), s)) ∧
    (∀ limit : UInt64, limit ≠ 0 →
      ∃ pages, Cut limit.toNat xs pages ∧
        (∀ count, pages.length ≤ count → follow xs count (.first limit) = pages) ∧
        ∀ {σ ε : Type} (list : PageRequest → Action σ ε (Page α)) (s : σ),
          (∀ r : PageRequest, r.limit ≠ 0 → (list r).run s = (.ok (paginate xs r), s)) →
          (drain list (.first limit)).run s = (.ok xs, s)) ∧
    (∀ request next : PageRequest, (paginate xs request).next = some next →
      (request.offset < next.offset ↔ request.limit ≠ 0)) ∧
    (∀ offset : UInt64, offset.toNat < xs.length → ∀ count,
      follow xs count ⟨offset, 0⟩ = List.replicate count ⟨[], some ⟨offset, 0⟩⟩) ∧
    (∀ c : ScanConfig, c.validate = .ok () → c.pageLimit ≠ 0) ∧
    ∀ (g : MemGroups) (all : Except GroupError (List α)) (offset : UInt64),
      ∃ e, g.listed ⟨offset, 0⟩ all = .error e := by
  have hle := Nat.le_of_lt hsize
  refine ⟨fun request hlimit => ?_, fun limit hlimit => ?_, fun request next => lt_next_iff hle,
    fun offset => follow_of_limit_zero hle, fun c hvalid => Scanner.pageLimit_ne_zero ⟨c, hvalid⟩,
    fun g all offset => exists_listed_of_limit_zero g all offset⟩
  · obtain ⟨pages, hcut, hfollow⟩ := exists_cut_follow hle request hlimit
    -- a request behind the last item has nothing left, as one at the end has
    rw [drop_min_length]
    exact ⟨pages, hcut, hfollow, fun list s hlist => run_drain hle hlist request hlimit⟩
  · obtain ⟨pages, hcut, hfollow⟩ := exists_cut_follow hle (.first limit) hlimit
    exact ⟨pages, hcut, hfollow, fun list s hlist => run_drain hle hlist (.first limit) hlimit⟩

end Page

/-- Seven items. -/
def Scenario.seven : List Nat := [1, 2, 3, 4, 5, 6, 7]

open Page Scenario in
/-- Pages of three, and what there is from the tenth item on. -/
theorem Page.pages_cut_listing_seven :
    seven.length < UInt64.size ∧ (3 : UInt64) ≠ 0 ∧
    (∃ pages, Cut 3 seven pages ∧ follow seven 5 (.first 3) = pages ∧
      pages.map Page.items = [[1, 2, 3], [4, 5, 6], [7]]) ∧
    (drain (fun r => pure (paginate seven r) : PageRequest → Action Unit Empty _)
      (.first 3)).run () = (.ok seven, ()) ∧
    ∃ pages, Cut 3 [] pages ∧ follow seven 5 ⟨9, 3⟩ = pages ∧
      pages.map Page.items = [[]] := by
  have hsize : seven.length < UInt64.size := by decide
  have hlimit : (3 : UInt64) ≠ 0 := by decide
  obtain ⟨hfrom, hfirst, -⟩ := pages_cut_listing seven hsize
  obtain ⟨pages, hcut, hfollow, hdrain⟩ := hfirst 3 hlimit
  obtain ⟨pages', hcut', hfollow', -⟩ := hfrom ⟨9, 3⟩ hlimit
  refine ⟨hsize, hlimit, ⟨pages, hcut, ?_⟩, hdrain _ () fun _ _ => rfl, pages', hcut', ?_⟩
  · have hpages := hfollow 5 (by rw [hcut.count]; decide)
    refine ⟨hpages, ?_⟩
    rw [← hpages]
    decide
  · have hpages := hfollow' 5 (by rw [hcut'.count]; decide)
    refine ⟨hpages, ?_⟩
    rw [← hpages]
    decide

end BlockHooks
