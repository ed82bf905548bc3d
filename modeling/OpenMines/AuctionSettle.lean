import OpenMines.AuctionMoney

namespace OpenMines

open LivePlayers Lib.Run

/-- The order that the finalizer pays, delivers or deletes. -/
def FinalizeJob.hand : FinalizeJob → Option OrderRow
  | .selling order _ => some order
  | .delivering order _ => some order
  | .deleting order _ => some order
  | _ => none

/-- The payments for an order: none to the shop. -/
def OrderRow.sale (o : OrderRow) : List OrderRow := if o.initiatorId ≠ 0 then [o] else []

def OrderRow.bids (o : OrderRow) : List Bid := if o.buyerId ≠ 0 then [o.bid] else []

/-- What was paid and is not delivered. -/
def FinalizeJob.due : FinalizeJob → List OrderRow
  | .delivering order _ => order.sale
  | .rolling order _ => order.sale
  | _ => []

@[simp] theorem FinalizeJob.due_listed (todo : List OrderRow) : (listed todo).due = [] := rfl

@[simp] theorem FinalizeJob.due_selling (order : OrderRow) (todo : List OrderRow) : (selling order todo).due = [] := rfl

@[simp] theorem FinalizeJob.due_delivering (order : OrderRow) (todo : List OrderRow) :
    (delivering order todo).due = order.sale := rfl

@[simp] theorem FinalizeJob.due_rolling (order : OrderRow) (todo : List OrderRow) :
    (rolling order todo).due = order.sale := rfl

@[simp] theorem FinalizeJob.due_deleting (order : OrderRow) (todo : List OrderRow) : (deleting order todo).due = [] := rfl

/-- The orders that the finalizer has listed and not deleted. -/
def FinalizeJob.pending : FinalizeJob → List OrderRow
  | .idle => []
  | .listed todo => todo
  | .selling order todo => order :: todo
  | .delivering order todo => order :: todo
  | .rolling order todo => order :: todo
  | .deleting order todo => order :: todo

/-- The bid that is to be given back. -/
def BetJob.outbid : BetJob → List Bid
  | .refunding _ order _ _ => [order.bid]
  | _ => []

namespace AuctionState

/-- The bids that can still win their orders. -/
def standing (orders delivered : List OrderRow) : List Bid :=
  (orders.filter (fun o => o.buyerId ≠ 0 ∧ o ∉ delivered)).map OrderRow.bid

/-- Every accepted bid was refunded or withdrawn, won its order, stands, or is to be given back. -/
def BidsKept (s : AuctionState) : Prop :=
  s.accepted.Perm
    (s.refunded ++ s.withdrawn ++ s.delivered.map OrderRow.bid ++ standing s.orders s.delivered ++ s.job.outbid)

/-- The conditions on a step under which an order is settled once. -/
def Undisturbed (s : AuctionState) : AuctionEvent → Prop
  | .cas _ => ∀ request order amount, s.job = .betting request order amount →
      ∀ o ∈ s.finalize.hand, o.id ≠ request.orderId
  | .refund ok rollbackOk => ∀ request order amount now, s.job = .refunding request order amount now →
      ¬ (ok = true ∧ (s.rows order.buyerId).isSome) →
      rollbackOk = true ∧ (∃ o ∈ s.orders, o.id = request.orderId) ∧
        ∀ o ∈ s.finalize.hand, o.id ≠ request.orderId
  | .finalizeNext offline _ => ∀ order todo, s.finalize = .listed (order :: todo) → offline = false →
      order ∈ s.orders
  | .finalizeStep ok =>
    (∀ order todo, s.finalize = .rolling order todo →
      (s.live order.initiatorId).isSome ∨ ok = true ∧ (s.rows order.initiatorId).isSome) ∧
    ∀ order todo, s.finalize = .deleting order todo → ok = true
  | _ => True

/-- The player ids start at 1. -/
structure Named (s : AuctionState) : Prop where
  rows : s.rows 0 = none
  live : s.live 0 = none
  logins : ∀ login ∈ s.logins, login.1 ≠ 0
  bets : ∀ request, .bet request ∈ s.queue → request.playerId ≠ 0
  job : ∀ request order amount, s.job = .betting request order amount → request.playerId ≠ 0

/-- The order of a bet under way, as long as it exists, is the one that the worker has read or written. -/
def BetReads (s : AuctionState) : Prop :=
  match s.job with
  | .idle => True
  | .betting request order _ => ∀ o ∈ s.orders, o.id = request.orderId → o = order
  | .refunding request order amount now =>
    order.id = request.orderId ∧ order.buyerId ≠ 0 ∧ request.playerId ≠ 0 ∧
      ∀ o ∈ s.orders, o.id = request.orderId →
        o = { order with cost := amount, buyerId := request.playerId, betTime := now }

structure Orderly (s : AuctionState) : Prop where
  ids : (s.orders.map OrderRow.id).Nodup
  reads : s.BetReads
  pending : ∀ o ∈ s.finalize.pending, o.buyerId ≠ 0
  hand : ∀ o ∈ s.finalize.hand, o ∈ s.orders
  rolling : ∀ order todo, s.finalize = .rolling order todo →
    order.initiatorId ≠ 0 ∧ ∃ o ∈ s.orders, o.id = order.id
  deleting : ∀ order todo, s.finalize = .deleting order todo → order ∈ s.delivered
  deliveredIds : (s.delivered.map OrderRow.id).Nodup
  delivered : ∀ d ∈ s.delivered, ∀ o ∈ s.orders, o.id = d.id → ∃ todo, s.finalize = .deleting d todo
  paid : s.paid.Perm (s.unpaid ++ s.delivered.flatMap OrderRow.sale ++ s.finalize.due)
  bids : s.BidsKept

variable {s t : AuctionState} {raise : Int → Int}

section Standing

variable {orders delivered : List OrderRow} {o : OrderRow}

theorem standing_perm {orders' : List OrderRow} (delivered : List OrderRow) (h : orders'.Perm orders) :
    (standing orders' delivered).Perm (standing orders delivered) := (h.filter _).map _

theorem standing_cons (hdelivered : o ∉ delivered) :
    standing (o :: orders) delivered = o.bids ++ standing orders delivered := by
  unfold standing OrderRow.bids
  by_cases ho : o.buyerId ≠ 0
  · rw [List.filter_cons_of_pos (by simp [ho, hdelivered]), if_pos ho]
    rfl
  · rw [List.filter_cons_of_neg (by simp [not_not.mp ho]), if_neg ho]
    rfl

theorem standing_cons_of_mem (hdelivered : o ∈ delivered) :
    standing (o :: orders) delivered = standing orders delivered := by
  rw [standing, List.filter_cons_of_neg (by simp [hdelivered])]
  rfl

theorem standing_congr {delivered' : List OrderRow} (h : ∀ x ∈ orders, x ∈ delivered' ↔ x ∈ delivered) :
    standing orders delivered' = standing orders delivered := by
  unfold standing
  congr 1
  refine List.filter_congr fun x hx => ?_
  simp only [h x hx]

theorem mem_deleteOrder {x : OrderRow} {id : Int32} : x ∈ deleteOrder orders id ↔ x ∈ orders ∧ x.id ≠ id := by
  simp [deleteOrder]

/-- An order, and the others. -/
theorem perm_cons_deleteOrder (hids : (orders.map OrderRow.id).Nodup) (ho : o ∈ orders) :
    orders.Perm (o :: deleteOrder orders o.id) := by
  refine (List.perm_ext_iff_of_nodup (List.Nodup.of_map _ hids) ?_).mpr fun x => ?_
  · exact List.nodup_cons.mpr ⟨fun hmem => (mem_deleteOrder.mp hmem).2 rfl, (List.Nodup.of_map _ hids).filter _⟩
  · rw [List.mem_cons, mem_deleteOrder]
    constructor
    · intro hx
      by_cases hid : x.id = o.id
      · exact .inl (List.inj_on_of_nodup_map hids hx ho hid)
      · exact .inr ⟨hx, hid⟩
    · rintro (rfl | ⟨hx, -⟩)
      · exact ho
      · exact hx

theorem cas_perm {id : Int32} (cost betTime : Int) {expectedCost : Int} (buyer : PlayerId) {expectedBuyer : PlayerId}
    (hids : (orders.map OrderRow.id).Nodup) (ho : o ∈ orders) (hmatch : o.matchesCas id expectedBuyer expectedCost = true) :
    (tryUpdateOrderBetCas orders id cost buyer betTime expectedBuyer expectedCost).1.Perm
      ({ o with cost, buyerId := buyer, betTime } :: deleteOrder orders o.id) := by
  have hrest : (deleteOrder orders o.id).map (fun x =>
      if x.matchesCas id expectedBuyer expectedCost then { x with cost, buyerId := buyer, betTime } else x) =
      deleteOrder orders o.id := by
    refine (List.map_congr_left fun x hx => ?_).trans (List.map_id _)
    refine if_neg fun hx' => (mem_deleteOrder.mp hx).2 ?_
    rw [(matchesCas_iff.mp hx').1, (matchesCas_iff.mp hmatch).1]
  have hmap := (perm_cons_deleteOrder hids ho).map (fun x =>
    if x.matchesCas id expectedBuyer expectedCost then { x with cost, buyerId := buyer, betTime } else x)
  rw [List.map_cons, hrest, if_pos hmatch] at hmap
  exact hmap

end Standing

section Bets

theorem orderly_finishBet (h : s.Orderly) (hjob : s.job.outbid = []) (request : AuctionBetRequest)
    (result : AuctionBetResult) : (s.finishBet request result).Orderly :=
  { h with
    reads := trivial
    bids := by
      have hbids := h.bids
      rw [BidsKept, hjob] at hbids
      exact hbids }

/-- An order that the finalizer does not have is not delivered. -/
theorem Orderly.not_delivered (h : s.Orderly) {o d : OrderRow} (ho : o ∈ s.orders) (hd : d ∈ s.delivered)
    (hhand : ∀ x ∈ s.finalize.hand, x.id ≠ o.id) : d.id ≠ o.id := by
  intro hid
  obtain ⟨todo, htodo⟩ := h.delivered d hd o ho hid.symm
  exact hhand d (by rw [htodo]; rfl) hid

theorem Orderly.fresh (h : s.Orderly) (hbefore : ∀ order todo, s.finalize ≠ .deleting order todo) {o d : OrderRow}
    (ho : o ∈ s.orders) (hd : d ∈ s.delivered) : d.id ≠ o.id := by
  intro hid
  obtain ⟨todo, htodo⟩ := h.delivered d hd o ho hid.symm
  exact hbefore d todo htodo

/-- The row of an order that the finalizer does not have changes. -/
theorem orderly_replace (h : s.Orderly) {o o' : OrderRow} {orders : List OrderRow} {job : BetJob}
    {accepted withdrawn : List Bid} (ho : o ∈ s.orders) (horders : orders.Perm (o' :: deleteOrder s.orders o.id))
    (hid : o'.id = o.id) (hhand : ∀ x ∈ s.finalize.hand, x.id ≠ o.id)
    (hreads : BetReads { s with orders, job })
    (hbids : (accepted ++ s.withdrawn ++ o.bids ++ s.job.outbid).Perm
      (s.accepted ++ withdrawn ++ o'.bids ++ job.outbid)) :
    Orderly { s with orders, job, accepted, withdrawn } := by
  have hmem (x : OrderRow) : x ∈ orders ↔ x = o' ∨ x ∈ s.orders ∧ x.id ≠ o.id := by
    rw [horders.mem_iff, List.mem_cons, mem_deleteOrder]
  refine { h with ids := ?_, reads := hreads, hand := ?_, rolling := ?_, delivered := ?_, bids := ?_ }
  · have hids := (horders.map OrderRow.id).trans
      (((perm_cons_deleteOrder h.ids ho).map OrderRow.id).trans (by rw [List.map_cons, List.map_cons, hid])).symm
    exact hids.nodup_iff.mpr h.ids
  · intro x hx
    exact (hmem x).mpr (.inr ⟨h.hand x hx, hhand x hx⟩)
  · intro order todo hrolling
    obtain ⟨hinitiator, x, hx, hxid⟩ := h.rolling order todo hrolling
    refine ⟨hinitiator, ?_⟩
    by_cases hxo : x.id = o.id
    · exact ⟨o', (hmem o').mpr (.inl rfl), by rw [hid, ← hxo, hxid]⟩
    · exact ⟨x, (hmem x).mpr (.inr ⟨hx, hxo⟩), hxid⟩
  · intro d hd x hx hxd
    rcases (hmem x).mp hx with rfl | ⟨hx, -⟩
    · exact h.delivered d hd o ho (hid.symm.trans hxd)
    · exact h.delivered d hd x hx hxd
  · have hold : o ∉ s.delivered := fun hd => h.not_delivered ho hd hhand rfl
    have hnew : o' ∉ s.delivered := fun hd => h.not_delivered ho hd hhand hid
    have hbefore := standing_perm s.delivered (perm_cons_deleteOrder h.ids ho)
    have hafter := standing_perm s.delivered horders
    rw [standing_cons hold] at hbefore
    rw [standing_cons hnew] at hafter
    refine List.perm_iff_count.mpr fun b => ?_
    have hkept := h.bids.count_eq b
    have hcount := hbids.count_eq b
    have hbefore := hbefore.count_eq b
    have hafter := hafter.count_eq b
    simp only [List.count_append] at hkept hcount hbefore hafter ⊢
    omega

theorem orderly_casBet (h : s.Orderly) (hnamed : s.Named) {request : AuctionBetRequest} {order : OrderRow}
    {amount now : Int} (hjob : s.job = .betting request order amount)
    (hhand : ∀ o ∈ s.finalize.hand, o.id ≠ request.orderId) : (s.casBet now request order amount).Orderly := by
  have hbidder := hnamed.job request order amount hjob
  have hreads := h.reads
  rw [BetReads, hjob] at hreads
  unfold casBet
  dsimp only
  split
  · exact orderly_finishBet h (by rw [hjob]; rfl) request .lostRace
  · rename_i haffected
    obtain ⟨o, ho, hmatch, -⟩ := exists_cas h.ids haffected
    have hid := (matchesCas_iff.mp hmatch).1
    obtain rfl := hreads o ho hid
    have horders := cas_perm amount now request.playerId h.ids ho hmatch
    have hothers : ∀ x ∈ (tryUpdateOrderBetCas s.orders request.orderId amount request.playerId now o.buyerId
        o.cost).1, x.id = request.orderId →
        x = { o with cost := amount, buyerId := request.playerId, betTime := now } := by
      intro x hx hxid
      rcases List.mem_cons.mp (horders.mem_iff.mp hx) with rfl | hx
      · rfl
      · exact absurd (hxid.trans hid.symm) (mem_deleteOrder.mp hx).2
    rw [← hid] at hhand
    split
    · rename_i hbuyer
      refine orderly_replace h ho horders rfl hhand ⟨hid, hbuyer, hbidder, hothers⟩ ?_
      have hold : o.bids = [o.bid] := if_pos hbuyer
      have hnew : OrderRow.bids { o with cost := amount, buyerId := request.playerId, betTime := now } =
          [⟨o.id, request.playerId, amount⟩] := if_pos hbidder
      rw [hold, hnew, hid, hjob]
      refine List.perm_iff_count.mpr fun b => ?_
      simp only [BetJob.outbid, List.count_append, List.count_cons, List.count_nil]
      omega
    · rename_i hbuyer
      have hold : o.bids = [] := if_neg hbuyer
      have hnew : OrderRow.bids { o with cost := amount, buyerId := request.playerId, betTime := now } =
          [⟨o.id, request.playerId, amount⟩] := if_pos hbidder
      have horderly : Orderly { s with
          orders := (tryUpdateOrderBetCas s.orders request.orderId amount request.playerId now o.buyerId o.cost).1
          accepted := ⟨request.orderId, request.playerId, amount⟩ :: s.accepted
          job := .idle } := by
        refine orderly_replace h ho horders rfl hhand trivial ?_
        rw [hold, hnew, hid, hjob]
        refine List.perm_iff_count.mpr fun b => ?_
        simp only [BetJob.outbid, List.count_append, List.count_cons, List.count_nil]
        omega
      exact { horderly with reads := trivial }

theorem orderly_refundBet (h : s.Orderly) {ok rollbackOk : Bool} {request : AuctionBetRequest} {order : OrderRow}
    {amount now : Int} (hjob : s.job = .refunding request order amount now)
    (hfair : ¬ (ok = true ∧ (s.rows order.buyerId).isSome) →
      rollbackOk = true ∧ (∃ o ∈ s.orders, o.id = request.orderId) ∧ ∀ o ∈ s.finalize.hand, o.id ≠ request.orderId) :
    (s.refundBet ok rollbackOk request order amount now).Orderly := by
  have hreads := h.reads
  rw [BetReads, hjob] at hreads
  obtain ⟨hid, hbuyer, hbidder, hreads⟩ := hreads
  unfold refundBet
  split
  · refine { h with reads := trivial, bids := ?_ }
    refine List.perm_iff_count.mpr fun b => ?_
    have hkept := h.bids.count_eq b
    rw [hjob] at hkept
    simp only [finishBet, BetJob.outbid, List.count_append, List.count_cons, List.count_nil] at hkept ⊢
    omega
  · rename_i hok
    obtain ⟨rfl, ⟨o, ho, hoid⟩, hhand⟩ := hfair hok
    have hrow := hreads o ho hoid
    have hmatch : o.matchesCas request.orderId request.playerId amount = true :=
      matchesCas_iff.mpr ⟨hoid, by rw [hrow], by rw [hrow]⟩
    have horders := cas_perm order.cost order.betTime order.buyerId h.ids ho hmatch
    have hback : ({ o with cost := order.cost, buyerId := order.buyerId, betTime := order.betTime } : OrderRow) =
        order := by rw [hrow]
    rw [hback] at horders
    have haffected : (tryUpdateOrderBetCas s.orders request.orderId order.cost order.buyerId order.betTime
        request.playerId amount).2 ≠ 0 :=
      Nat.pos_iff_ne_zero.mp (List.countP_pos_iff.mpr ⟨o, ho, hmatch⟩)
    have horderly : Orderly { s with
        orders := (tryUpdateOrderBetCas s.orders request.orderId order.cost order.buyerId order.betTime
          request.playerId amount).1
        withdrawn := ⟨request.orderId, request.playerId, amount⟩ :: s.withdrawn
        job := .idle } := by
      refine orderly_replace h ho horders (hid.trans hoid.symm) (by rw [hoid]; exact hhand) trivial ?_
      have hold : o.bids = [⟨request.orderId, request.playerId, amount⟩] := by
        rw [OrderRow.bids, hrow, if_pos hbidder, ← hid]
        rfl
      have hnew : order.bids = [order.bid] := if_pos hbuyer
      rw [hold, hnew, hjob]
      refine List.perm_iff_count.mpr fun b => ?_
      simp only [BetJob.outbid, List.count_append, List.count_cons, List.count_nil]
      omega
    dsimp only
    rw [if_pos rfl, if_neg haffected]
    exact { horderly with reads := trivial }

end Bets

section Finalizer

/-- Money that is credited leaves the orders and the bids alone. -/
theorem orderly_finalize (h : s.Orderly) {rows live : LivePlayers} {job : FinalizeJob} {paid unpaid : List OrderRow}
    (hbefore : ∀ order todo, s.finalize ≠ .deleting order todo) (hdeleting : ∀ order todo, job ≠ .deleting order todo)
    (hpending : ∀ o ∈ job.pending, o.buyerId ≠ 0) (hhand : ∀ o ∈ job.hand, o ∈ s.orders)
    (hrolling : ∀ order todo, job = .rolling order todo →
      order.initiatorId ≠ 0 ∧ ∃ o ∈ s.orders, o.id = order.id)
    (hpaid : (paid ++ s.unpaid ++ s.finalize.due).Perm (s.paid ++ unpaid ++ job.due)) :
    Orderly { s with rows, live, finalize := job, paid, unpaid } := by
  refine { h with
    pending := hpending
    hand := hhand
    rolling := hrolling
    deleting := fun order todo hjob => absurd hjob (hdeleting order todo)
    delivered := ?_
    paid := ?_ }
  · intro d hd o ho hid
    obtain ⟨todo, htodo⟩ := h.delivered d hd o ho hid
    exact absurd htodo (hbefore d todo)
  · refine List.perm_iff_count.mpr fun o => ?_
    have hkept := h.paid.count_eq o
    have hcount := hpaid.count_eq o
    simp only [List.count_append] at hkept hcount ⊢
    omega

/-- The finalizer goes on with its list. -/
theorem orderly_listed (h : s.Orderly) {todo : List OrderRow} {rows live : LivePlayers} {unpaid : List OrderRow}
    (hbefore : ∀ order todo, s.finalize ≠ .deleting order todo) (htodo : ∀ o ∈ todo, o.buyerId ≠ 0)
    (hpaid : (s.unpaid ++ s.finalize.due).Perm unpaid) :
    Orderly { s with rows, live, finalize := .listed todo, unpaid } := by
  refine orderly_finalize h hbefore (fun _ _ => by simp) htodo (fun o ho => by cases ho) (fun _ _ ho => by cases ho) ?_
  change (s.paid ++ s.unpaid ++ s.finalize.due).Perm (s.paid ++ unpaid ++ [])
  rw [List.append_nil, List.append_assoc]
  exact hpaid.append_left _

theorem betReads_deleteOrder (h : s.BetReads) (id : Int32) :
    BetReads { s with orders := deleteOrder s.orders id } := by
  unfold BetReads at *
  dsimp only
  split
  · trivial
  · rename_i hjob
    rw [hjob] at h
    exact fun o ho => h o (mem_deleteOrder.mp ho).1
  · rename_i hjob
    rw [hjob] at h
    obtain ⟨hid, hbuyer, hbidder, h⟩ := h
    exact ⟨hid, hbuyer, hbidder, fun o ho => h o (mem_deleteOrder.mp ho).1⟩

theorem standing_deleteOrder_cons {orders delivered : List OrderRow} {o : OrderRow} :
    standing (deleteOrder orders o.id) (o :: delivered) = standing (deleteOrder orders o.id) delivered := by
  refine standing_congr fun x hx => ?_
  rw [List.mem_cons, or_iff_right]
  rintro rfl
  exact (mem_deleteOrder.mp hx).2 rfl

theorem standing_deliver {orders delivered : List OrderRow} {o : OrderRow} (hids : (orders.map OrderRow.id).Nodup)
    (ho : o ∈ orders) : (standing orders (o :: delivered)).Perm (standing (deleteOrder orders o.id) delivered) := by
  have hperm := standing_perm (o :: delivered) (perm_cons_deleteOrder hids ho)
  rwa [standing_cons_of_mem List.mem_cons_self, standing_deleteOrder_cons] at hperm

/-- A delivery turns the bid that stands into the one that has won. -/
theorem bids_deliver (h : s.Orderly) {order : OrderRow} (ho : order ∈ s.orders) (hbuyer : order.buyerId ≠ 0)
    (hnew : order ∉ s.delivered) {orders : List OrderRow}
    (horders : orders = s.orders ∨ orders = deleteOrder s.orders order.id) :
    BidsKept { s with orders, delivered := order :: s.delivered } := by
  have hbefore := standing_perm s.delivered (perm_cons_deleteOrder h.ids ho)
  rw [standing_cons hnew, OrderRow.bids, if_pos hbuyer] at hbefore
  have hafter : (standing orders (order :: s.delivered)).Perm
      (standing (deleteOrder s.orders order.id) s.delivered) := by
    rcases horders with rfl | rfl
    · exact standing_deliver h.ids ho
    · exact List.Perm.of_eq standing_deleteOrder_cons
  refine List.perm_iff_count.mpr fun b => ?_
  have hkept := h.bids.count_eq b
  have hbefore := hbefore.count_eq b
  have hafter := hafter.count_eq b
  simp only [List.map_cons, List.count_append, List.count_cons, List.count_nil] at hkept hbefore hafter ⊢
  omega

/-- The order in the hands of the finalizer is deleted after its delivery. -/
theorem orderly_delete (h : s.Orderly) {order : OrderRow} {todo : List OrderRow}
    (hjob : s.finalize = .deleting order todo) :
    Orderly { s with finalize := .listed todo, orders := deleteOrder s.orders order.id } := by
  have hpending := h.pending
  have hpaid := h.paid
  rw [hjob] at hpending hpaid
  have hdelivered := h.deleting order todo hjob
  refine { h with
    ids := h.ids.sublist ((List.filter_sublist).map _)
    reads := betReads_deleteOrder h.reads order.id
    pending := fun o ho => hpending o (List.mem_cons_of_mem _ ho)
    hand := fun o ho => by cases ho
    rolling := fun _ _ ho => by cases ho
    deleting := fun _ _ ho => by cases ho
    delivered := ?_
    paid := hpaid
    bids := ?_ }
  · intro d hd o ho hid
    obtain ⟨ho, hne⟩ := mem_deleteOrder.mp ho
    obtain ⟨todo', htodo⟩ := h.delivered d hd o ho hid
    rw [hjob] at htodo
    cases htodo
    exact absurd hid hne
  · have hstanding := standing_perm s.delivered
      (perm_cons_deleteOrder h.ids (h.hand order (by rw [hjob]; rfl)))
    rw [standing_cons_of_mem hdelivered] at hstanding
    refine List.perm_iff_count.mpr fun b => ?_
    have hkept := h.bids.count_eq b
    have hstanding := hstanding.count_eq b
    simp only [List.count_append] at hkept hstanding ⊢
    omega

/-- An order is delivered that the finalizer has not delivered yet. -/
theorem orderly_deliver (h : s.Orderly) {order : OrderRow} {todo : List OrderRow} {rows live : LivePlayers}
    (hjob : s.finalize = .delivering order todo) :
    Orderly { s with rows, live, finalize := .deleting order todo, delivered := order :: s.delivered } := by
  have hpending := h.pending
  have hpaid := h.paid
  rw [hjob] at hpending hpaid
  have horder := h.hand order (by rw [hjob]; rfl)
  have hfresh (d : OrderRow) (hd : d ∈ s.delivered) : d.id ≠ order.id :=
    h.fresh (fun _ _ => by rw [hjob]; simp) horder hd
  refine { h with
    pending := hpending
    hand := ?_
    rolling := fun _ _ ho => by cases ho
    deleting := ?_
    deliveredIds := ?_
    delivered := ?_
    paid := ?_
    bids := bids_deliver h horder (hpending order List.mem_cons_self) (fun hd => hfresh order hd rfl) (.inl rfl) }
  · intro o ho
    cases ho
    exact horder
  · intro o todo' ho
    cases ho
    exact List.mem_cons_self
  · refine List.nodup_cons.mpr ⟨fun hmem => ?_, h.deliveredIds⟩
    obtain ⟨d, hd, hid⟩ := List.mem_map.mp hmem
    exact hfresh d hd hid
  · intro d hd o ho hid
    rcases List.mem_cons.mp hd with rfl | hd
    · exact ⟨todo, rfl⟩
    · obtain ⟨todo', htodo⟩ := h.delivered d hd o ho hid
      rw [hjob] at htodo
      cases htodo
  · refine List.perm_iff_count.mpr fun o => ?_
    have hkept := hpaid.count_eq o
    simp only [FinalizeJob.due, List.flatMap_cons, List.count_append, List.count_nil] at hkept ⊢
    omega

/-- The transaction for players who are not in the game. -/
theorem orderly_offline (h : s.Orderly) {order : OrderRow} {todo : List OrderRow}
    (hjob : s.finalize = .listed todo) (hbuyer : order.buyerId ≠ 0) : (s.finalizeOrderOffline order).Orderly := by
  unfold finalizeOrderOffline
  split
  · rename_i hfound
    have horder : order ∈ s.orders := List.mem_of_find?_eq_some hfound.1
    have hpaid := h.paid
    rw [hjob] at hpaid
    have hfresh (d : OrderRow) (hd : d ∈ s.delivered) : d.id ≠ order.id :=
      h.fresh (fun _ _ => by rw [hjob]; simp) horder hd
    have hsale : (if order.initiatorId ≠ 0 then order :: s.paid else s.paid) = order.sale ++ s.paid := by
      unfold OrderRow.sale
      split <;> rfl
    refine { h with
      ids := h.ids.sublist ((List.filter_sublist).map _)
      reads := betReads_deleteOrder h.reads order.id
      hand := fun o ho => by rw [hjob] at ho; cases ho
      rolling := fun _ _ ho => by rw [hjob] at ho; cases ho
      deleting := fun _ _ ho => by rw [hjob] at ho; cases ho
      deliveredIds := ?_
      delivered := ?_
      paid := ?_
      bids := bids_deliver h horder hbuyer (fun hd => hfresh order hd rfl) (.inr rfl) }
    · refine List.nodup_cons.mpr ⟨fun hmem => ?_, h.deliveredIds⟩
      obtain ⟨d, hd, hid⟩ := List.mem_map.mp hmem
      exact hfresh d hd hid
    · intro d hd o ho hid
      obtain ⟨ho, hne⟩ := mem_deleteOrder.mp ho
      rcases List.mem_cons.mp hd with rfl | hd
      · exact absurd hid hne
      · exact h.delivered d hd o ho hid
    · dsimp only
      rw [hsale, hjob]
      refine List.perm_iff_count.mpr fun o => ?_
      have hkept := hpaid.count_eq o
      simp only [FinalizeJob.due, List.flatMap_cons, List.count_append, List.count_nil] at hkept ⊢
      omega
  · exact h

theorem creditMoney_eq_some {ok : Bool} {player : PlayerId} {amount : Int} {u : AuctionState}
    (h : s.creditMoney ok player amount = some u) :
    ∃ rows live, u = { s with rows, live } ∧ (∀ p, (rows p).isSome = (s.rows p).isSome) ∧
      ∀ p, (live p).isSome = (s.live p).isSome := by
  unfold creditMoney at h
  split at h
  · cases h
    exact ⟨s.rows, _, rfl, fun _ => rfl, fun _ => modifyPlayer_isSome⟩
  · split at h
    · cases h
      exact ⟨_, s.live, rfl, fun _ => modifyPlayer_isSome, fun _ => rfl⟩
    · cases h

theorem creditInventory_eq_some {ok : Bool} {player : PlayerId} {item : Int32} {count : Int} {u : AuctionState}
    (h : s.creditInventory ok player item count = some u) :
    ∃ rows live, u = { s with rows, live } ∧ (∀ p, (rows p).isSome = (s.rows p).isSome) ∧
      ∀ p, (live p).isSome = (s.live p).isSome := by
  unfold creditInventory at h
  split at h
  · cases h
    exact ⟨s.rows, _, rfl, fun _ => rfl, fun _ => modifyPlayer_isSome⟩
  · split at h
    · cases h
      exact ⟨_, s.live, rfl, fun _ => modifyPlayer_isSome, fun _ => rfl⟩
    · cases h

theorem orderly_finalizeNext (h : s.Orderly) {offline ok : Bool} (hfair : s.Undisturbed (.finalizeNext offline ok))
    (hstep : s.finalizeNext offline ok = some t) : t.Orderly := by
  have hpending := h.pending
  unfold finalizeNext at hstep
  split at hstep
  · rename_i hjob
    cases hstep
    refine orderly_finalize h (fun _ _ => by rw [hjob]; simp) (fun _ _ => by simp) (fun o ho => by cases ho)
      (fun o ho => by cases ho) (fun _ _ ho => by cases ho) ?_
    rw [hjob]
    exact List.Perm.refl _
  · rename_i order todo hjob
    rw [hjob] at hpending
    have hbefore (o : OrderRow) (todo' : List OrderRow) : s.finalize ≠ .deleting o todo' := by
      rw [hjob]
      simp
    have hlisted : Orderly { s with finalize := .listed todo } :=
      orderly_listed h hbefore (fun o ho => hpending o (List.mem_cons_of_mem _ ho))
        (by simp [hjob])
    split at hstep
    · cases hstep
      split
      · exact orderly_offline hlisted rfl (hpending order List.mem_cons_self)
      · exact hlisted
    · rename_i honline
      cases hstep
      have horder := hfair order todo hjob (by simpa using honline)
      refine orderly_finalize h hbefore (fun _ _ => by simp) hpending ?_ (fun _ _ ho => by cases ho) ?_
      · intro o ho
        cases ho
        exact horder
      · rw [hjob]
        exact List.Perm.refl _
  · cases hstep

theorem orderly_finalizeStep (h : s.Orderly) {ok : Bool} (hfair : s.Undisturbed (.finalizeStep ok))
    (hstep : s.finalizeStep ok = some t) : t.Orderly := by
  have hpending := h.pending
  unfold finalizeStep at hstep
  split at hstep
  · rename_i order todo hjob
    rw [hjob] at hpending
    have hbefore (o : OrderRow) (todo' : List OrderRow) : s.finalize ≠ .deleting o todo' := by
      rw [hjob]
      simp
    have horder := h.hand order (by rw [hjob]; rfl)
    have hhand : ∀ o ∈ (FinalizeJob.delivering order todo).hand, o ∈ s.orders := by
      intro o ho
      cases ho
      exact horder
    split at hstep
    · rename_i hshop
      cases hstep
      refine orderly_finalize h hbefore (fun _ _ => by simp) hpending hhand (fun _ _ ho => by cases ho) ?_
      rw [hjob, FinalizeJob.due_selling, FinalizeJob.due_delivering, OrderRow.sale, if_neg (not_not.mpr hshop)]
    · rename_i hseller
      split at hstep
      · rename_i u hu
        obtain ⟨rows, live, rfl, -⟩ := creditMoney_eq_some hu
        cases hstep
        refine orderly_finalize h hbefore (fun _ _ => by simp) hpending hhand (fun _ _ ho => by cases ho) ?_
        rw [hjob, FinalizeJob.due_selling, FinalizeJob.due_delivering, OrderRow.sale, if_pos hseller, List.append_nil]
        exact (List.perm_append_singleton order (s.paid ++ s.unpaid)).symm
      · cases hstep
        exact orderly_listed h hbefore (fun o ho => hpending o (List.mem_cons_of_mem _ ho))
          (by simp [hjob])
  · rename_i order todo hjob
    rw [hjob] at hpending
    have hbefore (o : OrderRow) (todo' : List OrderRow) : s.finalize ≠ .deleting o todo' := by
      rw [hjob]
      simp
    have horder := h.hand order (by rw [hjob]; rfl)
    split at hstep
    · rename_i u hu
      obtain ⟨rows, live, rfl, -⟩ := creditInventory_eq_some hu
      cases hstep
      exact orderly_deliver h hjob
    · cases hstep
      by_cases hseller : order.initiatorId ≠ 0
      · rw [if_pos hseller]
        refine orderly_finalize h hbefore (fun _ _ => by simp) hpending (fun o ho => by cases ho) ?_ ?_
        · intro o todo' ho
          cases ho
          exact ⟨hseller, order, horder, rfl⟩
        · rw [hjob]
          exact List.Perm.refl _
      · rw [if_neg hseller]
        refine orderly_listed h hbefore (fun o ho => hpending o (List.mem_cons_of_mem _ ho)) ?_
        rw [hjob, FinalizeJob.due_delivering, OrderRow.sale, if_neg hseller, List.append_nil]
  · rename_i order todo hjob
    rw [hjob] at hpending
    have hbefore (o : OrderRow) (todo' : List OrderRow) : s.finalize ≠ .deleting o todo' := by
      rw [hjob]
      simp
    have hseller := (h.rolling order todo hjob).1
    split at hstep
    · rename_i u hu
      obtain ⟨rows, live, rfl, -⟩ := creditMoney_eq_some hu
      cases hstep
      refine orderly_listed h hbefore (fun o ho => hpending o (List.mem_cons_of_mem _ ho)) ?_
      rw [hjob, FinalizeJob.due_rolling, OrderRow.sale, if_pos hseller]
      exact List.perm_append_singleton order s.unpaid
    · rename_i hnone
      exfalso
      unfold creditMoney at hnone
      rcases hfair.1 order todo hjob with hlive | hrow
      · rw [if_pos hlive] at hnone
        cases hnone
      · rw [if_pos hrow] at hnone
        split at hnone <;> cases hnone
  · rename_i order todo hjob
    cases hstep
    rw [if_pos (hfair.2 order todo hjob)]
    exact orderly_delete h hjob
  · cases hstep

end Finalizer

section Steps

theorem Named.of (h : s.Named) (hrows : (t.rows 0).isSome = (s.rows 0).isSome)
    (hlive : (t.live 0).isSome = (s.live 0).isSome) (hlogins : t.logins = s.logins)
    (hqueue : ∀ save ∈ t.queue, save ∈ s.queue)
    (hjob : ∀ request order amount, t.job = .betting request order amount → s.job = t.job) : t.Named where
  rows := by
    rw [h.rows] at hrows
    simpa using hrows
  live := by
    rw [h.live] at hlive
    simpa using hlive
  logins := hlogins ▸ h.logins
  bets := fun request hrequest => h.bets request (hqueue _ hrequest)
  job := fun request order amount ht => h.job request order amount ((hjob request order amount ht).trans ht)

theorem Named.live_ne (h : s.Named) {p : PlayerId} {l : LivePlayer} (hl : s.live p = some l) : p ≠ 0 := by
  rintro rfl
  rw [h.live] at hl
  cases hl

theorem Named.queueBet (h : s.Named) {player : PlayerId} {session : SessionId} {buildingX buildingY orderId : Int32}
    {requestedAmount : Option Int}
    (hstep : s.queueBet player session buildingX buildingY orderId requestedAmount = some t) : t.Named := by
  obtain ⟨l, hl, rfl⟩ := Option.map_eq_some_iff.mp hstep
  refine { h with bets := fun request hrequest => ?_ }
  rcases List.mem_append.mp hrequest with hrequest | hrequest
  · exact h.bets request hrequest
  · simp only [List.mem_singleton, AuctionSave.bet.injEq] at hrequest
    subst hrequest
    exact h.live_ne hl

theorem Named.queueRow (h : s.Named) {player : PlayerId} (hstep : s.queueRow player = some t) : t.Named := by
  obtain ⟨l, hl, rfl⟩ := Option.map_eq_some_iff.mp hstep
  refine { h with bets := fun request hrequest => ?_ }
  rcases List.mem_append.mp hrequest with hrequest | hrequest
  · exact h.bets request hrequest
  · simp at hrequest

theorem Named.connect (h : s.Named) {player : PlayerId} (hplayer : player ≠ 0) (row : LivePlayer) :
    (s.connect player row).Named := by
  unfold AuctionState.connect
  split
  · exact { h with live := (Function.update_of_ne hplayer.symm ..).trans h.live }
  · exact { h with live := (Function.update_of_ne hplayer.symm ..).trans h.live }

theorem Named.complete (h : s.Named) (hstep : s.complete = some t) : t.Named := by
  unfold AuctionState.complete at hstep
  split at hstep
  · cases hstep
  · rename_i c rest hc
    cases hstep
    refine h.of rfl ?_ rfl (fun _ hsave => hsave) (fun _ _ _ _ => rfl)
    obtain ⟨request, result⟩ := c
    cases result with
    | won amount previous previousCost order =>
        change (applyAuctionBetWon s.live request.playerId amount previous previousCost 0).isSome = _
        unfold applyAuctionBetWon
        split
        · rw [modifyPlayer_isSome, modifyPlayer_isSome]
        · exact modifyPlayer_isSome
    | _ => rfl

theorem Named.finalizeNext (h : s.Named) {offline ok : Bool} (hstep : s.finalizeNext offline ok = some t) :
    t.Named := by
  unfold AuctionState.finalizeNext at hstep
  split at hstep
  · cases hstep
    exact { h with }
  · rename_i order todo hjob
    split at hstep
    · cases hstep
      split
      · unfold finalizeOrderOffline
        split
        · refine h.of ?_ rfl rfl (fun _ hsave => hsave) (fun _ _ _ _ => rfl)
          dsimp only
          split
          · exact modifyPlayer_isSome.trans modifyPlayer_isSome
          · exact modifyPlayer_isSome
        · exact { h with }
      · exact { h with }
    · cases hstep
      exact { h with }
  · cases hstep

theorem Named.finalizeStep (h : s.Named) {ok : Bool} (hstep : s.finalizeStep ok = some t) : t.Named := by
  have hcredited {rows live : LivePlayers} (hrows : ∀ p, (rows p).isSome = (s.rows p).isSome)
      (hlive : ∀ p, (live p).isSome = (s.live p).isSome) : Named { s with rows, live } :=
    h.of (hrows 0) (hlive 0) rfl (fun _ hsave => hsave) (fun _ _ _ _ => rfl)
  unfold AuctionState.finalizeStep at hstep
  split at hstep
  · split at hstep
    · cases hstep
      exact { h with }
    · split at hstep
      · rename_i hu
        obtain ⟨rows, live, rfl, hrows, hlive⟩ := creditMoney_eq_some hu
        cases hstep
        exact { hcredited hrows hlive with }
      · cases hstep
        exact { h with }
  · split at hstep
    · rename_i hu
      obtain ⟨rows, live, rfl, hrows, hlive⟩ := creditInventory_eq_some hu
      cases hstep
      exact { hcredited hrows hlive with }
    · cases hstep
      exact { h with }
  · split at hstep
    · rename_i hu
      obtain ⟨rows, live, rfl, hrows, hlive⟩ := creditMoney_eq_some hu
      cases hstep
      exact { hcredited hrows hlive with }
    · cases hstep
      exact { h with }
  · cases hstep
    exact { h with }
  · cases hstep

theorem Named.persist (h : s.Named) (hstep : s.persist raise = some t) : t.Named := by
  unfold AuctionState.persist at hstep
  split at hstep
  · rename_i id row rest hjob hqueue
    cases hstep
    have hzero : (s.rows.modifyPlayer id (fun _ => row) 0).isSome = (s.rows 0).isSome := modifyPlayer_isSome
    rw [h.rows] at hzero
    exact { h with
      rows := by simpa using hzero
      bets := fun request hrequest => h.bets request (by rw [hqueue]; exact List.mem_cons_of_mem _ hrequest) }
  · rename_i request rest hjob hqueue
    cases hstep
    have hfinish (result : AuctionBetResult) : (s.finishBet request result).Named := { h with
      bets := fun r hr => h.bets r (List.mem_of_mem_tail hr)
      job := fun _ _ _ hr => by cases hr }
    unfold startBet
    split
    · exact hfinish _
    · dsimp only
      split
      · exact hfinish _
      · exact { h with
          job := by
            rintro r o a ⟨rfl, rfl, rfl⟩
            exact h.bets _ (by rw [hqueue]; exact List.mem_cons_self) }
  · cases hstep

theorem orderly_persist (h : s.Orderly) (hstep : s.persist raise = some t) : t.Orderly := by
  unfold AuctionState.persist at hstep
  split at hstep
  · cases hstep
    exact { h with }
  · rename_i request rest hjob hqueue
    cases hstep
    have hidle : s.job.outbid = [] := by
      rw [hjob]
      rfl
    unfold startBet
    split
    · exact orderly_finishBet h hidle request .notFound
    · rename_i order hfound
      dsimp only
      split
      · exact orderly_finishBet h hidle request .rejected
      · have hbids := h.bids
        rw [BidsKept, hidle] at hbids
        have hsame : order.id = request.orderId := by simpa using List.find?_some hfound
        refine { h with reads := fun o ho hid => ?_, bids := hbids }
        exact List.inj_on_of_nodup_map h.ids ho (List.mem_of_find?_eq_some hfound) (hid.trans hsame.symm)
  · cases hstep

theorem Named.step (h : s.Named) {e : AuctionEvent} (hstep : s.step raise e = some t) : t.Named := by
  cases e with
  | bet player session buildingX buildingY orderId requestedAmount => exact h.queueBet hstep
  | flush player => exact h.queueRow hstep
  | readRow player =>
      obtain ⟨row, hrow, rfl⟩ := Option.map_eq_some_iff.mp hstep
      refine { h with logins := fun login hlogin => ?_ }
      rcases List.mem_append.mp hlogin with hlogin | hlogin
      · exact h.logins login hlogin
      · rw [List.mem_singleton.mp hlogin]
        rintro rfl
        rw [h.rows] at hrow
        cases hrow
  | connect i =>
      obtain ⟨login, hlogin, rfl⟩ := Option.map_eq_some_iff.mp hstep
      have hconnect := h.connect (h.logins login (List.mem_of_getElem? hlogin)) login.2
      exact { hconnect with logins := fun l hl => h.logins l (List.mem_of_mem_eraseIdx hl) }
  | disconnect player keepOffline =>
      obtain ⟨u, hu, rfl⟩ := Option.map_eq_some_iff.mp hstep
      have hrow := h.queueRow hu
      split
      · exact hrow
      · refine { hrow with live := ?_ }
        by_cases hplayer : (0 : PlayerId) = player
        · rw [hplayer]
          exact Function.update_self ..
        · exact (Function.update_of_ne hplayer ..).trans hrow.live
  | persist => exact h.persist hstep
  | cas now =>
      simp only [AuctionState.step] at hstep
      split at hstep
      · rename_i hjob
        cases hstep
        unfold casBet
        dsimp only
        split
        · exact h.of rfl rfl rfl (fun _ hsave => List.mem_of_mem_tail hsave) (fun _ _ _ hr => by cases hr)
        · split
          · exact h.of rfl rfl rfl (fun _ hsave => hsave) (fun _ _ _ hr => by cases hr)
          · exact h.of rfl rfl rfl (fun _ hsave => List.mem_of_mem_tail hsave) (fun _ _ _ hr => by cases hr)
      · cases hstep
  | retry =>
      simp only [AuctionState.step] at hstep
      split at hstep
      · cases hstep
        exact { h with job := fun _ _ _ hr => by cases hr }
      · cases hstep
  | refund ok rollbackOk =>
      simp only [AuctionState.step] at hstep
      split at hstep
      · cases hstep
        unfold refundBet
        split
        · exact h.of modifyPlayer_isSome rfl rfl (fun _ hsave => List.mem_of_mem_tail hsave)
            (fun _ _ _ hr => by cases hr)
        · dsimp only
          split
          · exact h.of rfl rfl rfl (fun _ hsave => List.mem_of_mem_tail hsave) (fun _ _ _ hr => by cases hr)
          · exact h.of rfl rfl rfl (fun _ hsave => List.mem_of_mem_tail hsave) (fun _ _ _ hr => by cases hr)
      · cases hstep
  | complete => exact h.complete hstep
  | listReady cutoff =>
      simp only [AuctionState.step] at hstep
      split at hstep
      · cases hstep
        exact { h with }
      · cases hstep
  | finalizeNext offline ok => exact h.finalizeNext hstep
  | finalizeStep ok => exact h.finalizeStep hstep

theorem orderly_step (h : s.Orderly) (hnamed : s.Named) {e : AuctionEvent} (hfair : s.Undisturbed e)
    (hstep : s.step raise e = some t) : t.Orderly := by
  cases e with
  | bet player session buildingX buildingY orderId requestedAmount =>
      obtain ⟨l, -, rfl⟩ := Option.map_eq_some_iff.mp hstep
      exact { h with }
  | flush player =>
      obtain ⟨l, -, rfl⟩ := Option.map_eq_some_iff.mp hstep
      exact { h with }
  | readRow player =>
      obtain ⟨row, -, rfl⟩ := Option.map_eq_some_iff.mp hstep
      exact { h with }
  | connect i =>
      obtain ⟨login, -, rfl⟩ := Option.map_eq_some_iff.mp hstep
      dsimp only
      unfold connect
      split <;> exact { h with }
  | disconnect player keepOffline =>
      obtain ⟨u, hu, rfl⟩ := Option.map_eq_some_iff.mp hstep
      obtain ⟨l, -, rfl⟩ := Option.map_eq_some_iff.mp hu
      split <;> exact { h with }
  | persist => exact orderly_persist h hstep
  | cas now =>
      simp only [step] at hstep
      split at hstep
      · rename_i request order amount hjob
        cases hstep
        exact orderly_casBet h hnamed hjob (hfair request order amount hjob)
      · cases hstep
  | retry =>
      simp only [step] at hstep
      split at hstep
      · rename_i hjob
        cases hstep
        have hbids := h.bids
        rw [BidsKept, hjob] at hbids
        exact { h with reads := trivial, bids := hbids }
      · cases hstep
  | refund ok rollbackOk =>
      simp only [step] at hstep
      split at hstep
      · rename_i request order amount now hjob
        cases hstep
        exact orderly_refundBet h hjob (hfair request order amount now hjob)
      · cases hstep
  | complete =>
      simp only [step, complete] at hstep
      split at hstep
      · cases hstep
      · cases hstep
        exact { h with }
  | listReady cutoff =>
      simp only [step] at hstep
      split at hstep
      · rename_i hjob
        cases hstep
        refine orderly_finalize h (fun _ _ => by simp [hjob]) (fun _ _ => by simp) ?_ (fun o ho => by cases ho)
          (fun _ _ ho => by cases ho) ?_
        · intro o ho hbuyer
          have hready := (List.mem_filter.mp ho).2
          simp only [decide_eq_true_eq] at hready
          rw [hbuyer] at hready
          exact absurd hready.1 (by decide)
        · rw [hjob]
          exact List.Perm.refl _
      · cases hstep
  | finalizeNext offline ok => exact orderly_finalizeNext h hfair hstep
  | finalizeStep ok => exact orderly_finalizeStep h hfair hstep

/-- The auction when the server starts. -/
structure Opening (s : AuctionState) : Prop extends Named s where
  ids : (s.orders.map OrderRow.id).Nodup
  idle : s.job = .idle
  finalize : s.finalize = .idle
  accepted : s.accepted = standing s.orders []
  refunded : s.refunded = []
  withdrawn : s.withdrawn = []
  paid : s.paid = []
  unpaid : s.unpaid = []
  delivered : s.delivered = []

theorem Opening.orderly (h : s.Opening) : s.Orderly where
  ids := h.ids
  reads := by
    unfold BetReads
    rw [h.idle]
    trivial
  pending := fun o ho => by rw [h.finalize] at ho; cases ho
  hand := fun o ho => by rw [h.finalize] at ho; cases ho
  rolling := fun _ _ ho => by rw [h.finalize] at ho; cases ho
  deleting := fun _ _ ho => by rw [h.finalize] at ho; cases ho
  deliveredIds := by
    rw [h.delivered]
    exact List.nodup_nil
  delivered := fun d hd => by rw [h.delivered] at hd; cases hd
  paid := by
    rw [h.paid, h.unpaid, h.delivered, h.finalize]
    exact List.Perm.refl _
  bids := by
    rw [BidsKept, h.accepted, h.refunded, h.withdrawn, h.delivered, h.idle]
    simp [BetJob.outbid]

theorem orderly_run {es : List AuctionEvent} (hs : s.Opening) (hfair : Meets (step raise) Undisturbed s es)
    (hrun : run (step raise) s es = some t) : t.Orderly := by
  have hinv : t.Orderly ∧ t.Named := by
    refine run_preserves_of_meets (P := fun s => s.Orderly ∧ s.Named) ⟨hs.orderly, hs.toNamed⟩ hfair ?_ hrun
    rintro e u v ⟨hu, hnamed⟩ hfair hstep
    exact ⟨orderly_step hu hnamed hfair hstep, hnamed.step hstep⟩
  exact hinv.1

end Steps

section Settled

theorem filter_ids {l : List OrderRow} (hids : (l.map OrderRow.id).Nodup) {o : OrderRow} (ho : o ∈ l) :
    l.filter (fun d => d.id = o.id) = [o] := by
  induction l with
  | nil => cases ho
  | cons x l ih =>
      obtain ⟨hx, hids⟩ := List.nodup_cons.mp hids
      rcases List.mem_cons.mp ho with rfl | ho
      · rw [List.filter_cons_of_pos (by simp), List.filter_eq_nil_iff.mpr]
        intro d hd
        simp only [decide_eq_true_eq]
        exact fun hid => hx (hid ▸ List.mem_map_of_mem hd)
      · have hne : x.id ≠ o.id := fun hid => hx (hid ▸ List.mem_map_of_mem ho)
        rw [List.filter_cons_of_neg (by simpa using hne), ih hids ho]

theorem length_filter_ids {l : List OrderRow} (hids : (l.map OrderRow.id).Nodup) (id : Int32) :
    (l.filter (fun d => d.id = id)).length ≤ 1 := by
  by_cases h : ∃ o ∈ l, o.id = id
  · obtain ⟨o, ho, rfl⟩ := h
    rw [filter_ids hids ho]
    exact le_refl _
  · rw [List.filter_eq_nil_iff.mpr]
    · exact Nat.zero_le _
    · intro d hd
      simp only [decide_eq_true_eq]
      exact fun hid => h ⟨d, hd, hid⟩

/-- The payments that were not taken back, for the order of an id. -/
theorem Orderly.paid_filter (h : s.Orderly) (id : Int32) :
    (s.paid.filter (fun o => o.id = id)).Perm (s.unpaid.filter (fun o => o.id = id) ++
      (s.delivered.flatMap OrderRow.sale ++ s.finalize.due).filter (fun o => o.id = id)) := by
  have hpaid := h.paid.filter (fun o => decide (o.id = id))
  rw [List.append_assoc, List.filter_append] at hpaid
  exact hpaid

theorem sale_filter (o : OrderRow) (id : Int32) :
    o.sale.filter (fun d => d.id = id) = if o.id = id then o.sale else [] := by
  unfold OrderRow.sale
  split <;> split <;> simp_all

theorem flatMap_sale_filter (l : List OrderRow) (id : Int32) :
    (l.flatMap OrderRow.sale).filter (fun o => o.id = id) =
      (l.filter (fun o => o.id = id)).flatMap OrderRow.sale := by
  induction l with
  | nil => rfl
  | cons o l ih =>
      rw [List.flatMap_cons, List.filter_append, ih, sale_filter, List.filter_cons]
      by_cases hid : o.id = id
      · simp [hid]
      · simp [hid]

theorem sale_length (o : OrderRow) : o.sale.length ≤ 1 := by
  unfold OrderRow.sale
  split <;> simp

theorem due_length (job : FinalizeJob) : job.due.length ≤ 1 := by
  unfold FinalizeJob.due
  split
  · exact sale_length _
  · exact sale_length _
  · exact Nat.zero_le _

theorem mem_sale {o d : OrderRow} (hd : d ∈ o.sale) : d = o := by
  unfold OrderRow.sale at hd
  split at hd
  · exact List.mem_singleton.mp hd
  · cases hd

/-- What was paid and is not delivered is no order delivered before. -/
theorem Orderly.due_fresh (h : s.Orderly) {o d : OrderRow} (ho : o ∈ s.finalize.due) (hd : d ∈ s.delivered) :
    d.id ≠ o.id := by
  cases hjob : s.finalize with
  | delivering order todo =>
      rw [hjob] at ho
      obtain rfl := mem_sale ho
      exact h.fresh (fun _ _ => by simp [hjob]) (h.hand o (by rw [hjob]; rfl)) hd
  | rolling order todo =>
      rw [hjob] at ho
      obtain rfl := mem_sale ho
      obtain ⟨-, x, hx, hid⟩ := h.rolling o todo hjob
      rw [← hid]
      exact h.fresh (fun _ _ => by simp [hjob]) hx hd
  | _ =>
      rw [hjob] at ho
      cases ho

theorem Orderly.filter_due_of_delivered (h : s.Orderly) {d : OrderRow} (hd : d ∈ s.delivered) :
    s.finalize.due.filter (fun o => o.id = d.id) = [] := by
  rw [List.filter_eq_nil_iff]
  intro o ho hid
  exact h.due_fresh ho hd (of_decide_eq_true hid).symm

theorem Orderly.paid_once (h : s.Orderly) (id : Int32) :
    (s.paid.filter (fun o => o.id = id)).length ≤ (s.unpaid.filter (fun o => o.id = id)).length + 1 := by
  rw [(h.paid_filter id).length_eq, List.length_append, List.filter_append, flatMap_sale_filter]
  refine Nat.add_le_add_left ?_ _
  by_cases hd : ∃ d ∈ s.delivered, d.id = id
  · obtain ⟨d, hd, rfl⟩ := hd
    rw [h.filter_due_of_delivered hd, filter_ids h.deliveredIds hd]
    simpa using sale_length d
  · rw [List.filter_eq_nil_iff.mpr]
    · exact (List.length_filter_le _ _).trans (due_length _)
    · intro d hmem hid
      exact hd ⟨d, hmem, of_decide_eq_true hid⟩

theorem Orderly.paid_delivered (h : s.Orderly) {o : OrderRow} (ho : o ∈ s.delivered) (hseller : o.initiatorId ≠ 0) :
    (s.paid.filter (fun d => d.id = o.id)).Perm (o :: s.unpaid.filter (fun d => d.id = o.id)) := by
  have hpaid := h.paid_filter o.id
  rw [List.filter_append, flatMap_sale_filter, h.filter_due_of_delivered ho, filter_ids h.deliveredIds ho] at hpaid
  simp only [List.flatMap_cons, List.flatMap_nil, List.append_nil, OrderRow.sale, if_pos hseller] at hpaid
  exact hpaid.trans (List.perm_append_singleton o _)

end Settled

/-- In a run whose steps do not disturb the settlement, the seller of an order is paid once and
for the bid that won it, the goods are delivered once, and no bid gets lost. -/
theorem settled_once (s t : AuctionState) (es : List AuctionEvent) (hs : s.Opening)
    (hfair : Meets (step raise) Undisturbed s es) (hrun : run (step raise) s es = some t) :
    (∀ id, (t.paid.filter (fun o => o.id = id)).length ≤ (t.unpaid.filter (fun o => o.id = id)).length + 1) ∧
      (∀ id, (t.delivered.filter (fun o => o.id = id)).length ≤ 1) ∧
      (∀ o ∈ t.delivered, o.initiatorId ≠ 0 →
        (t.paid.filter (fun d => d.id = o.id)).Perm (o :: t.unpaid.filter (fun d => d.id = o.id))) ∧
      t.BidsKept := by
  have h := orderly_run hs hfair hrun
  exact ⟨h.paid_once, length_filter_ids h.deliveredIds, fun o ho hseller => h.paid_delivered ho hseller, h.bids⟩

/-- Player 9 sells to player 3, who is in the game as player 4 is. -/
def oneSale : AuctionState where
  orders := [⟨1, 9, 0, 5, 10, 3, 5⟩]
  rows := fun p => if p = 3 ∨ p = 4 ∨ p = 9 then some ⟨100, 0, fun _ => 0, 0, none, 0, false⟩ else none
  live := fun p => if p = 3 ∨ p = 4 then some ⟨100, 0, fun _ => 0, 0, none, 0, false⟩ else none
  queue := []
  job := .idle
  completions := []
  logins := []
  finalize := .idle
  accepted := [⟨1, 3, 10⟩]
  refunded := []
  withdrawn := []
  paid := []
  unpaid := []
  delivered := []

theorem opening_oneSale : oneSale.Opening where
  rows := rfl
  live := rfl
  logins := fun _ h => by cases h
  bets := fun _ h => by cases h
  job := fun _ _ _ h => by cases h
  ids := by decide
  idle := rfl
  finalize := rfl
  accepted := by decide
  refunded := rfl
  withdrawn := rfl
  paid := rfl
  unpaid := rfl
  delivered := rfl

def sellAndDelete (deleted : Bool) : List AuctionEvent :=
  [.listReady 10, .finalizeNext false true, .finalizeStep true, .finalizeStep true, .finalizeStep deleted]

theorem undisturbed_sellAndDelete : Meets (step raisedPrice) Undisturbed oneSale (sellAndDelete true) := by
  refine ⟨trivial, fun t₁ h₁ => ⟨?_, fun t₂ h₂ => ⟨?_, fun t₃ h₃ => ⟨?_, fun t₄ h₄ => ⟨?_, fun _ _ => trivial⟩⟩⟩⟩⟩
  · obtain rfl := Option.some.inj h₁
    intro order todo hlisted _
    obtain ⟨rfl, -⟩ := List.cons.inj (FinalizeJob.listed.inj hlisted)
    decide
  · obtain rfl := Option.some.inj h₁
    obtain rfl := Option.some.inj h₂
    exact ⟨fun _ _ h => (by cases h), fun _ _ h => by cases h⟩
  · obtain rfl := Option.some.inj h₁
    obtain rfl := Option.some.inj h₂
    obtain rfl := Option.some.inj h₃
    exact ⟨fun _ _ h => (by cases h), fun _ _ h => by cases h⟩
  · obtain rfl := Option.some.inj h₁
    obtain rfl := Option.some.inj h₂
    obtain rfl := Option.some.inj h₃
    obtain rfl := Option.some.inj h₄
    exact ⟨fun _ _ h => (by cases h), fun _ _ _ => rfl⟩

theorem settled_once_sold :
    ∃ t, run (step raisedPrice) oneSale (sellAndDelete true) = some t ∧ t.orders = [] ∧
      (t.paid.filter (fun o => o.id = 1)).length ≤ 1 ∧ (t.delivered.filter (fun o => o.id = 1)).length ≤ 1 ∧
      t.BidsKept := by
  have hrun : (run (step raisedPrice) oneSale (sellAndDelete true)).isSome := by decide
  obtain ⟨t, ht⟩ := Option.isSome_iff_exists.mp hrun
  obtain ⟨hpaid, hdelivered, -, hbids⟩ := settled_once oneSale t _ opening_oneSale undisturbed_sellAndDelete ht
  have horders : (run (step raisedPrice) oneSale (sellAndDelete true)).map (fun t => (t.orders, t.unpaid)) =
      some ([], []) := by decide
  rw [ht] at horders
  obtain ⟨horders, hunpaid⟩ := Prod.mk.inj (Option.some.inj horders)
  have hpaid := hpaid 1
  rw [hunpaid] at hpaid
  exact ⟨t, ht, horders, hpaid, hdelivered 1, hbids⟩

/-- After a failed deletion the order is paid and delivered again, and the bid that comes after the
list is lost. -/
theorem sold_twice_and_lost_bid :
    oneSale.Opening ∧
    (∃ t, run (step raisedPrice) oneSale
        (sellAndDelete false ++ .finalizeNext true true :: sellAndDelete true) = some t ∧
      (t.paid.filter (fun o => o.id = 1)).length = 2 ∧ t.unpaid = [] ∧
      (t.delivered.filter (fun o => o.id = 1)).length = 2) ∧
    ∃ t, run (step raisedPrice) oneSale
        [.bet 4 0 0 0 1 none, .listReady 10, .persist, .cas 12, .refund true true, .finalizeNext false true,
          .finalizeStep true, .finalizeStep true, .finalizeStep true] = some t ∧
      t.orders = [] ∧ ¬ t.BidsKept := by
  refine ⟨opening_oneSale, ⟨_, rfl, ?_⟩, _, rfl, ?_⟩
  · decide
  · unfold BidsKept
    decide

end AuctionState

end OpenMines
