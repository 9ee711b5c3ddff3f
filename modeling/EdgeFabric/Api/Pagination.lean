/-
A client that reads the list of nodes page by page (`GET /api/v1/nodes`): it asks for
the first page without a cursor and goes on with the cursor of each answer.

`NodeHandler.List` gives a cursor only to a request that came with one. The first
request does not, so that the client stops after the first page
(`first_page_is_the_last`); it has every node only if one page holds them all
(`node_list_complete`).
-/
import EdgeFabric.Api.Fleet
import EdgeFabric.Store.Cursor

namespace EdgeFabric

/-- The client, from a cursor on: the items of all pages until an answer has no cursor. -/
def NodeClient.follow (v : Env) (c : Caller) (limit : String) : Nat → Cursor → World → Option (List Datum)
  | 0, _, _ => none
  | fuel + 1, cursor, w =>
    match (NodeHandler.list c { limit, cursor }).1.exec v w with
    | (.ok ⟨_, .list items _ _ _ next⟩, w') =>
      if next = .absent then some items else (NodeClient.follow v c limit fuel next w').map (items ++ ·)
    | _ => none

def NodeHandler.nextCursor (params : ListParams) (nodes : List Node) : Cursor :=
  match nodes.getLast? with
  | some last =>
    if params.cursor ≠ .absent ∧ nodes.length = params.limit then .at last.createdAt last.id.text else .absent
  | none => .absent

theorem NodeHandler.nextCursor_absent {params : ListParams} {nodes : List Node}
    (h : params.cursor = .absent ∨ nodes.length ≠ params.limit) : nextCursor params nodes = .absent := by
  unfold nextCursor
  split
  · refine if_neg fun hn => ?_
    rcases h with h | h
    · exact hn.1 h
    · exact h hn.2
  · rfl

abbrev pageSize (limit : String) : Nat := (parseListParams { limit }).limit

theorem pageSize_pos (limit : String) : 0 < pageSize limit := by
  unfold pageSize parseListParams
  dsimp only
  split
  · omega
  · decide

section
variable {v : Env} {s : Store} (hv : ∀ t, v.fault t = none) (c : Caller) (limit : String)

theorem NodeHandler.list_returns (hv : ∀ t, v.fault t = none) (q : ListQuery) :
    Ends v s (NodeHandler.list c q).1
      (fun r s' => s' = s ∧ ∃ nodes total offset size,
        Store.listNodes c.claims.tenantID (parseListParams q) s = .ok (nodes, total) ∧
        r = ⟨200, .list (nodes.map .node) total offset size (nextCursor (parseListParams q) nodes)⟩)
      fun _ _ => False := by
  refine .bind (.mapError (Ends.read_cases (fun page hpage => ?_) (by simp [hv]) fun e he => ?_))
  · obtain ⟨nodes, total⟩ := page
    dsimp only
    split
    · next last hlast =>
      split
      · next hfull =>
        refine .pure ⟨rfl, nodes, total, 0, (parseListParams q).limit, hpage, ?_⟩
        simp only [nextCursor, hlast, if_pos hfull]
      · next hfull =>
        refine .pure ⟨rfl, nodes, total, (parseListParams q).offset, (parseListParams q).limit, hpage, ?_⟩
        simp only [nextCursor, hlast, if_neg hfull]
        rfl
    · next hlast =>
      refine .pure ⟨rfl, nodes, total, (parseListParams q).offset, (parseListParams q).limit, hpage, ?_⟩
      simp only [nextCursor, hlast]
      rfl
  · unfold Store.listNodes at he
    dsimp only at he
    split at he <;> cases he

include hv

theorem NodeClient.follow_succ (fuel : Nat) (cursor : Cursor) (w : World) :
    ∃ nodes total w', Store.listNodes c.claims.tenantID (parseListParams { limit, cursor }) w.store =
      .ok (nodes, total) ∧ w'.store = w.store ∧ NodeClient.follow v c limit (fuel + 1) cursor w =
        if NodeHandler.nextCursor (parseListParams { limit, cursor }) nodes = .absent then some (nodes.map .node)
        else (NodeClient.follow v c limit fuel
          (NodeHandler.nextCursor (parseListParams { limit, cursor }) nodes) w').map (nodes.map .node ++ ·) := by
  have hends := NodeHandler.list_returns (s := w.store) c hv { limit, cursor }
  rcases hx : (NodeHandler.list c { limit, cursor }).1.exec v w with ⟨_ | r, w'⟩
  · exact (hends.error rfl hx).elim
  · obtain ⟨hstore, nodes, total, offset, size, hlist, rfl⟩ := hends.ok rfl hx
    refine ⟨nodes, total, w', hlist, hstore, ?_⟩
    rw [NodeClient.follow, hx]

/-- The client has each node that it may see once precisely if one page holds them all: the
first answer is the last one. -/
theorem node_list_complete (w : World) (fuel : Nat) :
    (∃ nodes : List Node, NodeClient.follow v c limit (fuel + 1) .absent w = some (nodes.map .node) ∧
      nodes.Perm (w.store.nodesOf c.claims.tenantID) ∧ (nodes.map Node.id).Nodup) ↔
      (w.store.nodesOf c.claims.tenantID).length ≤ pageSize limit := by
  obtain ⟨nodes, total, w', hlist, -, hfollow⟩ := NodeClient.follow_succ hv c limit fuel .absent w
  rw [hfollow, if_pos (NodeHandler.nextCursor_absent (.inl rfl))]
  cases hlist
  have hlimit : (parseListParams { limit }).effectiveLimit = pageSize limit := if_neg (pageSize_pos limit).ne'
  constructor
  · rintro ⟨nodes, hnodes, hperm, -⟩
    have hlen := congrArg List.length (Option.some.inj hnodes)
    rw [List.length_map, List.length_map] at hlen
    rw [← hperm.length_eq, ← hlen, ← hlimit]
    exact List.length_take_le _ _
  · intro hfit
    have hperm : (newestFirst Node.createdAt (w.store.nodesOf c.claims.tenantID)).Perm
        (w.store.nodesOf c.claims.tenantID) :=
      List.perm_insertionSort _ _
    refine ⟨newestFirst Node.createdAt (w.store.nodesOf c.claims.tenantID), ?_, hperm, ?_⟩
    · rw [ListParams.page_eq_self rfl (by rwa [length_newestFirst, hlimit])]
    · exact (hperm.map _).nodup_iff.mpr (w.store.nodup_nodesOf _)

end

namespace Sample

def superuser : Caller := { claims := { userID := 1, tenantID := none, role := .superUser }, remoteAddr := "192.0.2.9" }

end Sample

theorem node_list_complete_fleet :
    ∃ nodes : List Node, NodeClient.follow Env.calm Sample.superuser "2" 1 .absent ⟨0, Sample.fleet⟩ =
      some (nodes.map .node) ∧ nodes.Perm [Sample.node 10 100, Sample.node 11 100] := by
  obtain ⟨nodes, hfollow, hperm, -⟩ :=
    (node_list_complete (v := Env.calm) (fun _ => rfl) Sample.superuser "2" ⟨0, Sample.fleet⟩ 0).mpr (by decide)
  exact ⟨nodes, hfollow, hperm⟩

/-- Two nodes in pages of one. The first answer has no cursor, and the client stops with one
of them. -/
theorem first_page_is_the_last :
    (∀ fuel, NodeClient.follow Env.calm Sample.superuser "1" (fuel + 1) .absent ⟨0, Sample.fleet⟩ =
        some [.node (Sample.node 10 100)]) ∧
      Sample.fleet.nodesOf Sample.superuser.claims.tenantID = [Sample.node 10 100, Sample.node 11 100] :=
  ⟨fun _ => rfl, rfl⟩

end EdgeFabric
