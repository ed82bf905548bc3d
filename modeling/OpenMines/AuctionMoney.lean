import OpenMines.Auction
import OpenMines.Lib.Conservation

namespace OpenMines

open LivePlayers Lib.Conservation Lib.Run

namespace AuctionState

/-- The rows of a player that wait in the queue. -/
def queuedRows (queue : List AuctionSave) (p : PlayerId) : List LivePlayer :=
  queue.filterMap (fun save =>
    match save with
    | .player id row => if id = p then some row else none
    | .bet _ => none)

/-- The money of a player: in the game, else as it was saved last. -/
def holding (s : AuctionState) (p : PlayerId) : Int :=
  match s.live p with
  | some l => l.money
  | none =>
    match (queuedRows s.queue p).getLast? with
    | some row => row.money
    | none => ((s.rows p).map LivePlayer.money).getD 0

def total (ids : Finset PlayerId) (s : AuctionState) : Int := ∑ p ∈ ids, s.holding p

def escrowOf (o : OrderRow) : Int := if o.buyerId = 0 then 0 else o.cost

/-- The bids that stand. -/
def escrow (s : AuctionState) : Int := (s.orders.map escrowOf).sum

/-- What a completion will still do to the money of the players. -/
def owedOf (live : LivePlayers) (c : AuctionBetRequest × AuctionBetResult) : Int :=
  match c.2 with
  | .won amount previousBuyerId previousCost _ =>
    -amount + if previousBuyerId ≠ 0 ∧ (live previousBuyerId).isSome then previousCost else 0
  | _ => 0

def owedByJob : BetJob → Int
  | .refunding _ order amount _ => -amount + order.cost
  | _ => 0

/-- What is still to be debited and refunded for the bets under way. -/
def owed (s : AuctionState) : Int := (s.completions.map (owedOf s.live)).sum + owedByJob s.job

/-- No bet is between its order and the money of its bidder. -/
def Settled (s : AuctionState) : Prop := s.completions = [] ∧ s.job = .idle

theorem owed_of_settled {s : AuctionState} (h : s.Settled) : s.owed = 0 := by
  rw [owed, h.1, h.2]
  rfl

/-- No won bet that outbid the player waits for its completion. -/
def NotOutbid (s : AuctionState) (p : PlayerId) : Prop :=
  ∀ c ∈ s.completions, ∀ amount previousCost order, c.2 ≠ .won amount p previousCost order

/-- The conditions on a step under which it keeps the money of the players together. -/
def Fair (s : AuctionState) : AuctionEvent → Prop
  | .connect i => ∀ login ∈ s.logins[i]?, s.live login.1 = none →
      login.2.money = s.holding login.1 ∧ s.NotOutbid login.1
  | .disconnect player keepOffline => keepOffline = true ∨ s.NotOutbid player
  | .refund ok rollbackOk =>
    match s.job with
    | .refunding _ order _ _ =>
      if ok = true ∧ (s.rows order.buyerId).isSome then
        s.live order.buyerId = none → queuedRows s.queue order.buyerId = [] ∧
          ∀ row ∈ s.rows order.buyerId, row.money + order.cost ≤ i64Max
      else rollbackOk = true
    | _ => True
  | .complete =>
    ∀ request amount previousBuyerId previousCost order,
      s.completions.head? = some (request, .won amount previousBuyerId previousCost order) →
      (∃ p, s.live request.playerId = some p ∧ amount ≤ p.money) ∧
      ∀ p, s.live previousBuyerId = some p → p.money + previousCost ≤ i64Max
  | _ => True


/-- The money of the players, the bids that stand, and what is still to be debited and refunded. -/
def worth (ids : Finset PlayerId) (s : AuctionState) : Int := s.total ids + s.escrow + s.owed

def JobOk (s : AuctionState) : Prop :=
  match s.job with
  | .idle => True
  | .betting request order amount => (∃ rest, s.queue = .bet request :: rest) ∧ 0 ≤ amount ∧ 0 ≤ order.cost
  | .refunding request order amount _ =>
    (∃ rest, s.queue = .bet request :: rest) ∧ 0 ≤ amount ∧ 0 ≤ order.cost ∧ order.buyerId ≠ 0 ∧
      ∃ o ∈ s.orders, o.matchesCas request.orderId request.playerId amount = true

def wonOk (c : AuctionBetRequest × AuctionBetResult) : Prop :=
  match c.2 with
  | .won amount _ previousCost _ => 0 ≤ amount ∧ 0 ≤ previousCost
  | _ => True

/-- Everybody in the game, in the queue and in a login has a row. -/
structure Registered (ids : Finset PlayerId) (s : AuctionState) : Prop where
  known : ∀ p, (s.rows p).isSome → p ∈ ids
  nobody : s.rows 0 = none
  live : ∀ p, (s.live p).isSome → (s.rows p).isSome
  queued : ∀ p row, .player p row ∈ s.queue → (s.rows p).isSome
  logins : ∀ login ∈ s.logins, (s.rows login.1).isSome
  bidders : ∀ request, .bet request ∈ s.queue → request.playerId ≠ 0

structure Ordered (s : AuctionState) : Prop where
  ids : (s.orders.map OrderRow.id).Nodup
  costs : ∀ o ∈ s.orders, 0 ≤ o.cost
  job : s.JobOk
  completions : ∀ c ∈ s.completions, wonOk c

def InRange (s : AuctionState) : Prop := ∀ p, 0 ≤ s.holding p ∧ s.holding p ≤ i64Max

structure Books (ids : Finset PlayerId) (s : AuctionState) : Prop extends Registered ids s, Ordered s where
  money : s.InRange

variable {ids : Finset PlayerId} {s t : AuctionState} {raise : Int → Int} {p q : PlayerId}

section Holding

@[simp] theorem queuedRows_append (queue more : List AuctionSave) :
    queuedRows (queue ++ more) p = queuedRows queue p ++ queuedRows more p :=
  List.filterMap_append

@[simp] theorem queuedRows_bet (request : AuctionBetRequest) (queue : List AuctionSave) :
    queuedRows (.bet request :: queue) p = queuedRows queue p := rfl

@[simp] theorem queuedRows_nil : queuedRows [] p = [] := rfl

theorem queuedRows_player (row : LivePlayer) (queue : List AuctionSave) :
    queuedRows (.player q row :: queue) p = if q = p then row :: queuedRows queue p else queuedRows queue p := by
  by_cases hq : q = p
  · simp [queuedRows, hq]
  · simp [queuedRows, hq]

theorem holding_of_live {l : LivePlayer} (h : s.live p = some l) : s.holding p = l.money := by
  rw [holding, h]

theorem holding_congr (hlive : t.live p = s.live p) (hqueue : queuedRows t.queue p = queuedRows s.queue p)
    (hrows : t.rows p = s.rows p) : t.holding p = s.holding p := by
  rw [holding, holding, hlive, hqueue, hrows]

theorem holding_of_queue {row : LivePlayer} (hlive : s.live p = none)
    (hlast : (queuedRows s.queue p).getLast? = some row) : s.holding p = row.money := by
  rw [holding, hlive, hlast]

theorem worth_congr (hholding : ∀ p, t.holding p = s.holding p) (hescrow : t.escrow = s.escrow)
    (howed : t.owed = s.owed) : t.worth ids = s.worth ids := by
  rw [worth, worth, total, total, Finset.sum_congr rfl fun p _ => hholding p, hescrow, howed]

theorem inRange_congr (h : s.InRange) (hholding : ∀ p, t.holding p = s.holding p) : t.InRange := by
  intro p
  rw [hholding]
  exact h p

end Holding

section Queue

theorem jobOk_append (h : s.JobOk) (save : AuctionSave) : JobOk { s with queue := s.queue ++ [save] } := by
  unfold JobOk at *
  cases hjob : s.job with
  | idle => trivial
  | betting request order amount =>
      rw [hjob] at h
      obtain ⟨⟨rest, hrest⟩, h⟩ := h
      exact ⟨⟨rest ++ [save], by rw [hrest]; rfl⟩, h⟩
  | refunding request order amount now =>
      rw [hjob] at h
      obtain ⟨⟨rest, hrest⟩, h⟩ := h
      exact ⟨⟨rest ++ [save], by rw [hrest]; rfl⟩, h⟩

theorem books_queueBet (h : s.Books ids) {session : SessionId} {buildingX buildingY orderId : Int32}
    {requestedAmount : Option Int}
    (hstep : s.queueBet p session buildingX buildingY orderId requestedAmount = some t) :
    t.Books ids ∧ t.worth ids = s.worth ids := by
  obtain ⟨l, hl, rfl⟩ := Option.map_eq_some_iff.mp hstep
  have hholding (q : PlayerId) : holding { s with
      queue := s.queue ++ [.bet ⟨p, session, buildingX, buildingY, orderId, requestedAmount, l.money⟩] } q =
      s.holding q := holding_congr rfl (by simp) rfl
  have hp : p ≠ 0 := by
    rintro rfl
    have hrow := h.live 0 (by rw [hl]; rfl)
    rw [h.nobody] at hrow
    cases hrow
  refine ⟨{ h with
    queued := ?_
    bidders := ?_
    job := jobOk_append h.job _
    money := inRange_congr h.money hholding }, worth_congr hholding rfl rfl⟩
  · intro q row hq
    rcases List.mem_append.mp hq with hq | hq
    · exact h.queued q row hq
    · simp at hq
  · intro request hrequest
    rcases List.mem_append.mp hrequest with hrequest | hrequest
    · exact h.bidders request hrequest
    · simp only [List.mem_singleton, AuctionSave.bet.injEq] at hrequest
      subst hrequest
      exact hp

theorem holding_queueRow {l : LivePlayer} (hl : s.live p = some l) (q : PlayerId) :
    holding { s with queue := s.queue ++ [.player p l] } q = s.holding q := by
  by_cases hq : q = p
  · subst hq
    rw [holding_of_live hl]
    exact holding_of_live hl
  · exact holding_congr rfl (by simp [queuedRows_player, Ne.symm hq]) rfl

theorem books_queueRow (h : s.Books ids) (hstep : s.queueRow p = some t) :
    t.Books ids ∧ t.worth ids = s.worth ids := by
  obtain ⟨l, hl, rfl⟩ := Option.map_eq_some_iff.mp hstep
  refine ⟨{ h with
    queued := ?_
    bidders := ?_
    job := jobOk_append h.job _
    money := inRange_congr h.money (holding_queueRow hl) }, worth_congr (holding_queueRow hl) rfl rfl⟩
  · intro q row hq
    rcases List.mem_append.mp hq with hq | hq
    · exact h.queued q row hq
    · simp only [List.mem_singleton, AuctionSave.player.injEq] at hq
      rw [hq.1]
      exact h.live p (by rw [hl]; rfl)
  · intro request hrequest
    rcases List.mem_append.mp hrequest with hrequest | hrequest
    · exact h.bidders request hrequest
    · simp at hrequest

end Queue

section Logins

theorem owedOf_congr {live live' : LivePlayers} {c : AuctionBetRequest × AuctionBetResult}
    (h : ∀ amount previous previousCost order, c.2 = .won amount previous previousCost order →
      (live' previous).isSome = (live previous).isSome) : owedOf live' c = owedOf live c := by
  unfold owedOf
  split
  · rename_i amount previous previousCost order he
    rw [h amount previous previousCost order he]
  · rfl

theorem owed_congr (hcompletions : t.completions = s.completions) (hjob : t.job = s.job)
    (h : ∀ p, ¬ s.NotOutbid p → (t.live p).isSome = (s.live p).isSome) : t.owed = s.owed := by
  have hmap : t.completions.map (owedOf t.live) = s.completions.map (owedOf s.live) := by
    rw [hcompletions]
    refine List.map_congr_left fun c hc => owedOf_congr fun amount previous previousCost order he => ?_
    exact h previous fun hno => hno c hc amount previousCost order he
  rw [owed, owed, hmap, hjob]

theorem books_readRow (h : s.Books ids) {row : LivePlayer} (hrow : s.rows p = some row) :
    Books ids { s with logins := s.logins ++ [(p, row)] } ∧
      worth ids { s with logins := s.logins ++ [(p, row)] } = s.worth ids := by
  refine ⟨{ h with logins := ?_ }, rfl⟩
  intro login hlogin
  rcases List.mem_append.mp hlogin with hlogin | hlogin
  · exact h.logins login hlogin
  · rw [List.mem_singleton.mp hlogin, hrow]
    rfl

/-- A player appears in the game with the money that he has. -/
theorem books_setLive (h : s.Books ids) {l : LivePlayer} {logins : List (PlayerId × LivePlayer)}
    (hlogins : ∀ login ∈ logins, (s.rows login.1).isSome) (hknown : (s.rows p).isSome)
    (hmoney : l.money = s.holding p) (hnot : (s.live p).isSome ∨ s.NotOutbid p) :
    Books ids { s with live := Function.update s.live p (some l), logins } ∧
      worth ids { s with live := Function.update s.live p (some l), logins } = s.worth ids := by
  have hsame (q : PlayerId) :
      holding { s with live := Function.update s.live p (some l), logins } q = s.holding q := by
    by_cases hq : q = p
    · subst hq
      rw [← hmoney]
      exact holding_of_live (Function.update_self ..)
    · exact holding_congr (Function.update_of_ne hq ..) rfl rfl
  refine ⟨{ h with
    live := ?_
    logins := hlogins
    money := inRange_congr h.money hsame }, worth_congr hsame rfl (owed_congr rfl rfl fun q hq => ?_)⟩
  · intro q hq
    by_cases hqp : q = p
    · rw [hqp]
      exact hknown
    · dsimp only at hq
      rw [Function.update_of_ne hqp] at hq
      exact h.live q hq
  · by_cases hqp : q = p
    · subst hqp
      rcases hnot with hlive | hnot
      · simp [hlive]
      · exact absurd hnot hq
    · exact congrArg Option.isSome (Function.update_of_ne hqp ..)

theorem books_connect (h : s.Books ids) {i : Nat} (hfair : s.Fair (.connect i)) {login : PlayerId × LivePlayer}
    (hlogin : s.logins[i]? = some login) :
    Books ids { s.connect login.1 login.2 with logins := s.logins.eraseIdx i } ∧
      worth ids { s.connect login.1 login.2 with logins := s.logins.eraseIdx i } = s.worth ids := by
  have hlogins : ∀ l ∈ s.logins.eraseIdx i, (s.rows l.1).isSome := fun l hl =>
    h.logins l (List.mem_of_mem_eraseIdx hl)
  have hknown := h.logins login (List.mem_of_getElem? hlogin)
  unfold connect
  cases hlive : s.live login.1 with
  | some l => exact books_setLive h hlogins hknown (holding_of_live hlive).symm (.inl (by rw [hlive]; rfl))
  | none =>
      obtain ⟨hmoney, hnot⟩ := hfair login hlogin hlive
      exact books_setLive h hlogins hknown hmoney (.inr hnot)

theorem books_logout (h : s.Books ids) {l : LivePlayer} (hl : s.live p = some l) (hnot : s.NotOutbid p)
    (hlast : (queuedRows s.queue p).getLast? = some l) :
    Books ids { s with live := Function.update s.live p none } ∧
      worth ids { s with live := Function.update s.live p none } = s.worth ids := by
  have hsame (q : PlayerId) : holding { s with live := Function.update s.live p none } q = s.holding q := by
    by_cases hq : q = p
    · subst hq
      rw [holding_of_live hl]
      exact holding_of_queue (Function.update_self ..) hlast
    · exact holding_congr (Function.update_of_ne hq ..) rfl rfl
  refine ⟨{ h with
    live := ?_
    money := inRange_congr h.money hsame }, worth_congr hsame rfl (owed_congr rfl rfl fun q hq => ?_)⟩
  · intro q hq
    by_cases hqp : q = p
    · subst hqp
      simp at hq
    · dsimp only at hq
      rw [Function.update_of_ne hqp] at hq
      exact h.live q hq
  · have hqp : q ≠ p := by
      rintro rfl
      exact hq hnot
    exact congrArg Option.isSome (Function.update_of_ne hqp ..)

theorem books_disconnect (h : s.Books ids) {keepOffline : Bool} (hfair : s.Fair (.disconnect p keepOffline))
    (hstep : s.step raise (.disconnect p keepOffline) = some t) : t.Books ids ∧ t.worth ids = s.worth ids := by
  obtain ⟨u, hu, rfl⟩ := Option.map_eq_some_iff.mp hstep
  obtain ⟨hbooks, hworth⟩ := books_queueRow h hu
  split
  · exact ⟨hbooks, hworth⟩
  · rename_i hkeep
    have hnot : s.NotOutbid p := hfair.resolve_left hkeep
    obtain ⟨l, hl, rfl⟩ := Option.map_eq_some_iff.mp hu
    obtain ⟨hbooks', hworth'⟩ := books_logout (p := p) hbooks hl hnot (by simp [queuedRows_player])
    exact ⟨hbooks', hworth'.trans hworth⟩

end Logins

section Worker

theorem modifyPlayer_isSome {players : LivePlayers} {f : LivePlayer → LivePlayer} :
    (players.modifyPlayer q f p).isSome = (players p).isSome := by
  unfold modifyPlayer
  by_cases hp : p = q
  · subst hp
    simp
  · simp [hp]

theorem modifyPlayer_of_ne {players : LivePlayers} {f : LivePlayer → LivePlayer} (hne : p ≠ q) :
    players.modifyPlayer q f p = players p := Function.update_of_ne hne ..

theorem modifyPlayer_self {players : LivePlayers} {f : LivePlayer → LivePlayer} {l : LivePlayer}
    (hl : players p = some l) : players.modifyPlayer p f p = some (f l) := by
  rw [modifyPlayer, Function.update_self, hl]
  rfl

theorem registered_rows (h : Registered ids s) (rows : LivePlayers) (hrows : ∀ p, (rows p).isSome = (s.rows p).isSome) :
    Registered ids { s with rows } where
  known p hp := h.known p (hrows p ▸ hp)
  nobody := by
    have hzero := hrows 0
    rw [h.nobody] at hzero
    simpa using hzero
  live p hp := (hrows p).trans (h.live p hp)
  queued p row hp := (hrows p).trans (h.queued p row hp)
  logins login hlogin := (hrows login.1).trans (h.logins login hlogin)
  bidders := h.bidders

/-- The worker saves a row. -/
theorem books_saveRow (h : s.Books ids) {row : LivePlayer} {rest : List AuctionSave} (hjob : s.job = .idle)
    (hqueue : s.queue = .player p row :: rest) :
    Books ids { s with rows := s.rows.modifyPlayer p (fun _ => row), queue := rest } ∧
      worth ids { s with rows := s.rows.modifyPlayer p (fun _ => row), queue := rest } = s.worth ids := by
  have hknown := h.queued p row (by rw [hqueue]; exact List.mem_cons_self)
  obtain ⟨old, hold⟩ := Option.isSome_iff_exists.mp hknown
  have hsame (q : PlayerId) :
      holding { s with rows := s.rows.modifyPlayer p (fun _ => row), queue := rest } q = s.holding q := by
    by_cases hq : q = p
    · subst hq
      unfold holding
      dsimp only
      cases s.live q with
      | some l => rfl
      | none =>
          rw [hqueue, queuedRows_player, if_pos rfl, modifyPlayer_self hold, List.getLast?_cons]
          cases (queuedRows rest q).getLast? <;> rfl
    · refine holding_congr rfl ?_ (modifyPlayer_of_ne hq)
      rw [hqueue, queuedRows_player, if_neg (Ne.symm hq)]
  have hrows := registered_rows h.toRegistered (s.rows.modifyPlayer p (fun _ => row))
    fun q => modifyPlayer_isSome
  refine ⟨{ h with
    known := hrows.known
    nobody := hrows.nobody
    live := hrows.live
    logins := hrows.logins
    queued := fun q r hr => hrows.queued q r (by rw [hqueue]; exact List.mem_cons_of_mem _ hr)
    bidders := fun r hr => h.bidders r (by rw [hqueue]; exact List.mem_cons_of_mem _ hr)
    job := ?_
    money := inRange_congr h.money hsame }, worth_congr hsame rfl rfl⟩
  simp only [JobOk, hjob]

/-- The worker is done with the bet at the head of the queue. -/
theorem books_finishBet (h : s.Books ids) {request : AuctionBetRequest} {rest : List AuctionSave}
    (result : AuctionBetResult) (hqueue : s.queue = .bet request :: rest) (hresult : wonOk (request, result)) :
    (s.finishBet request result).Books ids ∧
      (s.finishBet request result).worth ids =
        s.worth ids + (owedOf s.live (request, result) - owedByJob s.job) := by
  have hsame (q : PlayerId) : (s.finishBet request result).holding q = s.holding q :=
    holding_congr rfl (by rw [finishBet, hqueue]; rfl) rfl
  refine ⟨{ h with
    queued := ?_
    bidders := ?_
    job := trivial
    completions := ?_
    money := inRange_congr h.money hsame }, ?_⟩
  · intro q row hq
    rw [finishBet, hqueue] at hq
    exact h.queued q row (by rw [hqueue]; exact List.mem_cons_of_mem _ hq)
  · intro r hr
    rw [finishBet, hqueue] at hr
    exact h.bidders r (by rw [hqueue]; exact List.mem_cons_of_mem _ hr)
  · intro c hc
    rcases List.mem_append.mp hc with hc | hc
    · exact h.completions c hc
    · rw [List.mem_singleton.mp hc]
      exact hresult
  · have howed : (s.finishBet request result).owed =
        s.owed + (owedOf s.live (request, result) - owedByJob s.job) := by
      simp only [owed, finishBet, List.map_append, List.sum_append, List.map_cons, List.map_nil, List.sum_cons,
        List.sum_nil, owedByJob]
      omega
    have htotal : (s.finishBet request result).total ids = s.total ids :=
      Finset.sum_congr rfl fun q _ => hsame q
    have hescrow : (s.finishBet request result).escrow = s.escrow := rfl
    rw [worth, worth, htotal, hescrow, howed]
    omega

theorem books_persist (hraise : ∀ c, 0 ≤ c → 0 ≤ raise c) (h : s.Books ids) (hstep : s.persist raise = some t) :
    t.Books ids ∧ t.worth ids = s.worth ids := by
  unfold persist at hstep
  split at hstep
  · rename_i p row rest hjob hqueue
    cases hstep
    exact books_saveRow h hjob hqueue
  · rename_i request rest hjob hqueue
    cases hstep
    have hfinish (result : AuctionBetResult) (hok : wonOk (request, result))
        (howed : owedOf s.live (request, result) = 0) : (s.finishBet request result).Books ids ∧
        (s.finishBet request result).worth ids = s.worth ids := by
      obtain ⟨hbooks, hworth⟩ := books_finishBet h result hqueue hok
      refine ⟨hbooks, ?_⟩
      rw [hworth, howed, hjob]
      simp [owedByJob]
    unfold startBet
    split
    · exact hfinish .notFound trivial rfl
    · rename_i order horder
      dsimp only
      split
      · exact hfinish .rejected trivial rfl
      · rename_i hbid
        simp only [not_or, not_lt] at hbid
        have hcost := h.costs order (List.mem_of_find?_eq_some horder)
        have hmin : 0 ≤ minBid raise order.cost (decide (0 < order.buyerId)) := by
          unfold minBid
          split
          · exact hraise _ hcost
          · exact hcost
        refine ⟨{ h with job := ⟨⟨rest, hqueue⟩, hmin.trans hbid.1, hcost⟩ }, worth_congr (fun _ => rfl) rfl ?_⟩
        rw [owed, owed, hjob]
        rfl
  · cases hstep

end Worker

section Bets

variable {orders : List OrderRow} {id : Int32} {cost betTime expectedCost : Int} {buyer expectedBuyer : PlayerId}

theorem mem_cas {x : OrderRow}
    (hx : x ∈ (tryUpdateOrderBetCas orders id cost buyer betTime expectedBuyer expectedCost).1) :
    x ∈ orders ∨ ∃ o ∈ orders, o.matchesCas id expectedBuyer expectedCost = true ∧
      x = { o with cost, buyerId := buyer, betTime } := by
  obtain ⟨o, ho, rfl⟩ := List.mem_map.mp hx
  split
  · rename_i hmatch
    exact .inr ⟨o, ho, hmatch, rfl⟩
  · exact .inl ho

theorem ids_cas : (tryUpdateOrderBetCas orders id cost buyer betTime expectedBuyer expectedCost).1.map OrderRow.id =
    orders.map OrderRow.id := by
  rw [tryUpdateOrderBetCas, List.map_map]
  refine List.map_congr_left fun o _ => ?_
  simp only [Function.comp]
  split <;> rfl

theorem matchesCas_iff {o : OrderRow} :
    o.matchesCas id expectedBuyer expectedCost = true ↔ o.id = id ∧ o.buyerId = expectedBuyer ∧ o.cost = expectedCost :=
  decide_eq_true_iff

/-- The ids tell the orders apart, so the update changes one order if any. -/
theorem exists_cas (hids : (orders.map OrderRow.id).Nodup)
    (haffected : (tryUpdateOrderBetCas orders id cost buyer betTime expectedBuyer expectedCost).2 ≠ 0) :
    ∃ o ∈ orders, o.matchesCas id expectedBuyer expectedCost = true ∧
      ∀ x ∈ orders, x.matchesCas id expectedBuyer expectedCost = true → x = o := by
  obtain ⟨o, ho, hmatch⟩ := List.countP_pos_iff.mp (Nat.pos_of_ne_zero haffected)
  refine ⟨o, ho, hmatch, fun x hx hx' => List.inj_on_of_nodup_map hids hx ho ?_⟩
  rw [(matchesCas_iff.mp hx').1, (matchesCas_iff.mp hmatch).1]

theorem escrow_cas (hids : (orders.map OrderRow.id).Nodup)
    (haffected : (tryUpdateOrderBetCas orders id cost buyer betTime expectedBuyer expectedCost).2 ≠ 0) :
    ((tryUpdateOrderBetCas orders id cost buyer betTime expectedBuyer expectedCost).1.map escrowOf).sum =
      (orders.map escrowOf).sum +
        ((if buyer = 0 then 0 else cost) - if expectedBuyer = 0 then 0 else expectedCost) := by
  obtain ⟨o, ho, hmatch, huniq⟩ := exists_cas hids haffected
  have hsum := sum_map_ite (List.Nodup.of_map _ hids) ho hmatch huniq escrowOf
    fun o => { o with cost, buyerId := buyer, betTime }
  obtain ⟨-, hbuyer, hcost⟩ := matchesCas_iff.mp hmatch
  rw [tryUpdateOrderBetCas, hsum]
  simp only [escrowOf, hbuyer, hcost]

theorem books_cas (h : s.Books ids) {request : AuctionBetRequest} {order : OrderRow} {amount now : Int}
    (hjob : s.job = .betting request order amount) :
    (s.casBet now request order amount).Books ids ∧
      (s.casBet now request order amount).worth ids = s.worth ids := by
  have hok := h.job
  rw [JobOk, hjob] at hok
  obtain ⟨⟨rest, hqueue⟩, hamount, hcost⟩ := hok
  have hbidder : request.playerId ≠ 0 := h.bidders request (by rw [hqueue]; exact List.mem_cons_self)
  unfold casBet
  dsimp only
  split
  · obtain ⟨hbooks, hworth⟩ := books_finishBet h .lostRace hqueue trivial
    refine ⟨hbooks, ?_⟩
    rw [hworth, hjob]
    simp [owedOf, owedByJob]
  · rename_i haffected
    have hescrow := escrow_cas h.ids haffected
    rw [if_neg hbidder] at hescrow
    have hcosts : ∀ x ∈ (tryUpdateOrderBetCas s.orders request.orderId amount request.playerId now order.buyerId
        order.cost).1, 0 ≤ x.cost := by
      intro x hx
      rcases mem_cas hx with hx | ⟨o, -, -, rfl⟩
      · exact h.costs x hx
      · exact hamount
    split
    · rename_i hbuyer
      obtain ⟨o, ho, hmatch, -⟩ := exists_cas h.ids haffected
      refine ⟨{ h with
        ids := by rw [ids_cas]; exact h.ids
        costs := hcosts
        job := ⟨⟨rest, hqueue⟩, hamount, hcost, hbuyer, ?_⟩ }, ?_⟩
      · refine ⟨{ o with cost := amount, buyerId := request.playerId, betTime := now }, ?_, ?_⟩
        · exact List.mem_map.mpr ⟨o, ho, if_pos hmatch⟩
        · exact matchesCas_iff.mpr ⟨(matchesCas_iff.mp hmatch).1, rfl, rfl⟩
      · rw [if_neg hbuyer] at hescrow
        simp only [worth, escrow, hescrow, owed, owedByJob, hjob]
        change total ids s + _ + _ = _
        omega
    · rename_i hbuyer
      have hbuyer : order.buyerId = 0 := not_not.mp hbuyer
      rw [if_pos hbuyer] at hescrow
      have hbooks : Books ids { s with
          orders := (tryUpdateOrderBetCas s.orders request.orderId amount request.playerId now order.buyerId
            order.cost).1
          accepted := ⟨request.orderId, request.playerId, amount⟩ :: s.accepted } := { h with
        ids := by rw [ids_cas]; exact h.ids
        costs := hcosts
        job := by
          rw [JobOk, hjob]
          exact ⟨⟨rest, hqueue⟩, hamount, hcost⟩ }
      obtain ⟨hbooks', hworth⟩ := books_finishBet hbooks (won request order amount now) hqueue
        ⟨hamount, hcost⟩
      refine ⟨hbooks', ?_⟩
      have howed : owedOf s.live (request, won request order amount now) = -amount := by
        simp [owedOf, won, hbuyer]
      rw [hworth]
      simp only [howed, worth, escrow, hescrow, owed, owedByJob, hjob]
      change total ids s + _ + _ + _ = _
      omega

theorem total_eq (hp : p ∈ ids) (h : ∀ q, q ≠ p → t.holding q = s.holding q) :
    t.total ids = s.total ids + (t.holding p - s.holding p) :=
  sum_eq_of_eq_off hp fun q _ hq => h q hq

/-- The refund of a player who is not in the game. -/
theorem holding_addPlayerMoney {row : LivePlayer} (amount : Int) (hlive : s.live p = none)
    (hqueue : queuedRows s.queue p = []) (hrow : s.rows p = some row) :
    holding { s with rows := addPlayerMoney s.rows p amount } p = row.money + amount ∧ s.holding p = row.money := by
  unfold holding
  dsimp only
  rw [hlive, hqueue, addPlayerMoney, modifyPlayer_self hrow, hrow]
  exact ⟨rfl, rfl⟩

theorem holding_addPlayerMoney_of_ne {amount : Int} (hq : q ≠ p) :
    holding { s with rows := addPlayerMoney s.rows p amount } q = s.holding q :=
  holding_congr rfl rfl (modifyPlayer_of_ne hq)

/-- The refund of the bid before, which a player in the game gets with the completion. -/
theorem books_refunded (h : s.Books ids) {order : OrderRow} {row : LivePlayer} (hrow : s.rows order.buyerId = some row)
    (hcost : 0 ≤ order.cost)
    (hoffline : s.live order.buyerId = none → queuedRows s.queue order.buyerId = [] ∧ row.money + order.cost ≤ i64Max) :
    Books ids { s with
      rows := addPlayerMoney s.rows order.buyerId order.cost
      refunded := order.bid :: s.refunded } ∧
    worth ids { s with
      rows := addPlayerMoney s.rows order.buyerId order.cost
      refunded := order.bid :: s.refunded } =
        s.worth ids + if (s.live order.buyerId).isSome then 0 else order.cost := by
  have hregistered := registered_rows h.toRegistered (addPlayerMoney s.rows order.buyerId order.cost)
    fun q => modifyPlayer_isSome
  have hbooks (hmoney : InRange { s with
      rows := addPlayerMoney s.rows order.buyerId order.cost
      refunded := order.bid :: s.refunded }) : Books ids { s with
      rows := addPlayerMoney s.rows order.buyerId order.cost
      refunded := order.bid :: s.refunded } := { h with
    known := hregistered.known
    nobody := hregistered.nobody
    live := hregistered.live
    queued := hregistered.queued
    logins := hregistered.logins
    money := hmoney }
  cases hlive : s.live order.buyerId with
  | some l =>
      have hsame (q : PlayerId) : holding { s with
          rows := addPlayerMoney s.rows order.buyerId order.cost
          refunded := order.bid :: s.refunded } q = s.holding q := by
        by_cases hq : q = order.buyerId
        · rw [hq, holding_of_live hlive]
          exact holding_of_live hlive
        · exact holding_congr rfl rfl (modifyPlayer_of_ne hq)
      refine ⟨hbooks (inRange_congr h.money hsame), (worth_congr hsame rfl rfl).trans ?_⟩
      simp
  | none =>
      obtain ⟨hqueue, hmax⟩ := hoffline hlive
      obtain ⟨hafter, hbefore⟩ := holding_addPlayerMoney order.cost hlive hqueue hrow
      have hpos := (h.money order.buyerId).1
      rw [hbefore] at hpos
      refine ⟨hbooks fun q => ?_, ?_⟩
      · by_cases hq : q = order.buyerId
        · rw [hq]
          refine ⟨?_, ?_⟩
          · exact (show (0 : Int) ≤ row.money + order.cost by omega).trans_eq hafter.symm
          · exact hafter.trans_le hmax
        · exact (holding_addPlayerMoney_of_ne (s := s) hq).symm ▸ h.money q
      · have htotal : total ids { s with
            rows := addPlayerMoney s.rows order.buyerId order.cost
            refunded := order.bid :: s.refunded } = s.total ids + order.cost := by
          refine (total_eq (s := s) (h.known order.buyerId (by rw [hrow]; rfl)) fun q hq =>
            holding_addPlayerMoney_of_ne (s := s) hq).trans ?_
          rw [hbefore]
          refine congrArg (s.total ids + ·) ?_
          exact (congrArg (· - row.money) hafter).trans (by omega)
        rw [worth, worth, htotal]
        change s.total ids + order.cost + s.escrow + s.owed = _
        simp
        omega

/-- The order goes back to the bid before. -/
theorem books_rollback (h : s.Books ids) {request : AuctionBetRequest} {order o : OrderRow} {amount now : Int}
    {rest : List AuctionSave} {withdrawn : List Bid} (hjob : s.job = .refunding request order amount now)
    (hqueue : s.queue = .bet request :: rest) (hcost : 0 ≤ order.cost) (hbuyer : order.buyerId ≠ 0)
    (ho : o ∈ s.orders) (hmatch : o.matchesCas request.orderId request.playerId amount = true) :
    let s' := { s with
      orders := (tryUpdateOrderBetCas s.orders request.orderId order.cost order.buyerId order.betTime
        request.playerId amount).1
      withdrawn }
    (s'.finishBet request .permanentFailure).Books ids ∧
      (s'.finishBet request .permanentFailure).worth ids = s.worth ids := by
  have hbidder : request.playerId ≠ 0 := h.bidders request (by rw [hqueue]; exact List.mem_cons_self)
  have haffected : (tryUpdateOrderBetCas s.orders request.orderId order.cost order.buyerId order.betTime
      request.playerId amount).2 ≠ 0 := (List.countP_pos_iff.mpr ⟨o, ho, hmatch⟩).ne'
  have hescrow := escrow_cas h.ids haffected
  rw [if_neg hbidder, if_neg hbuyer] at hescrow
  have hidle : Books ids { s with
      orders := (tryUpdateOrderBetCas s.orders request.orderId order.cost order.buyerId order.betTime
        request.playerId amount).1
      withdrawn
      job := .idle } := { h with
    ids := by rw [ids_cas]; exact h.ids
    costs := by
      intro x hx
      rcases mem_cas hx with hx | ⟨o, -, -, rfl⟩
      · exact h.costs x hx
      · exact hcost
    job := trivial }
  obtain ⟨hbooks, hworth⟩ := books_finishBet hidle .permanentFailure hqueue trivial
  refine ⟨hbooks, Eq.trans hworth ?_⟩
  simp only [owedOf, owedByJob, worth, escrow, hescrow, owed, hjob]
  change total ids s + _ + _ + _ = _
  omega

theorem books_refund (h : s.Books ids) {request : AuctionBetRequest} {order : OrderRow} {amount now : Int}
    {ok rollbackOk : Bool} (hjob : s.job = .refunding request order amount now)
    (hfair : s.Fair (.refund ok rollbackOk)) :
    (s.refundBet ok rollbackOk request order amount now).Books ids ∧
      (s.refundBet ok rollbackOk request order amount now).worth ids = s.worth ids := by
  have hok := h.job
  rw [JobOk, hjob] at hok
  obtain ⟨⟨rest, hqueue⟩, hamount, hcost, hbuyer, o, ho, hmatch⟩ := hok
  unfold Fair at hfair
  simp only [hjob] at hfair
  unfold refundBet
  split
  · rename_i hrow
    rw [if_pos hrow] at hfair
    obtain ⟨row, hrow⟩ := Option.isSome_iff_exists.mp hrow.2
    obtain ⟨hbooks, hworth⟩ := books_refunded h hrow hcost fun hlive =>
      ⟨(hfair hlive).1, (hfair hlive).2 row hrow⟩
    obtain ⟨hbooks', hworth'⟩ := books_finishBet hbooks (won request order amount now) hqueue
      ⟨hamount, hcost⟩
    refine ⟨hbooks', ?_⟩
    rw [hworth', hworth, hjob]
    simp only [owedOf, won, owedByJob, hbuyer, ne_eq, not_false_eq_true, true_and]
    split <;> omega
  · rename_i hrow
    rw [if_neg hrow] at hfair
    dsimp only
    rw [if_pos hfair]
    exact books_rollback h hjob hqueue hcost hbuyer ho hmatch

end Bets

section Complete

theorem books_modifyLive (h : s.Books ids) {l : LivePlayer} {f : LivePlayer → LivePlayer} (hl : s.live p = some l)
    (hlow : 0 ≤ (f l).money) (hhigh : (f l).money ≤ i64Max) :
    Books ids { s with live := s.live.modifyPlayer p f } ∧
      worth ids { s with live := s.live.modifyPlayer p f } = s.worth ids + ((f l).money - l.money) := by
  have hself : holding { s with live := s.live.modifyPlayer p f } p = (f l).money :=
    holding_of_live (modifyPlayer_self hl)
  have hother (q : PlayerId) (hq : q ≠ p) : holding { s with live := s.live.modifyPlayer p f } q = s.holding q :=
    holding_congr (modifyPlayer_of_ne hq) rfl rfl
  have hknown := h.live p (by rw [hl]; rfl)
  refine ⟨{ h with
    live := fun q hq => h.live q (modifyPlayer_isSome (p := q) (q := p) (f := f) ▸ hq)
    money := fun q => ?_ }, ?_⟩
  · by_cases hq : q = p
    · rw [hq, hself]
      exact ⟨hlow, hhigh⟩
    · rw [hother q hq]
      exact h.money q
  · have htotal := total_eq (h.known p hknown) hother
    have howed : owed { s with live := s.live.modifyPlayer p f } = s.owed :=
      owed_congr rfl rfl fun q _ => modifyPlayer_isSome
    rw [hself, holding_of_live hl] at htotal
    rw [worth, worth, htotal, howed]
    change s.total ids + _ + s.escrow + s.owed = _
    omega

theorem books_dropCompletion (h : s.Books ids) {c : AuctionBetRequest × AuctionBetResult}
    {rest : List (AuctionBetRequest × AuctionBetResult)} (hc : s.completions = c :: rest) :
    Books ids { s with completions := rest } ∧
      worth ids { s with completions := rest } = s.worth ids - owedOf s.live c := by
  refine ⟨{ h with
    completions := fun d hd => h.completions d (by rw [hc]; exact List.mem_cons_of_mem _ hd) }, ?_⟩
  have howed : s.owed = owedOf s.live c + owed { s with completions := rest } := by
    rw [owed, owed, hc, List.map_cons, List.sum_cons, Int.add_assoc]
  have hsame : worth ids { s with completions := rest } = s.total ids + s.escrow + owed { s with completions := rest } :=
    rfl
  rw [hsame, worth, howed]
  omega

theorem books_won (h : s.Books ids) (bidder : PlayerId) {previous : PlayerId} {amount previousCost : Int} {l : LivePlayer}
    (hl : s.live bidder = some l) (hamount : 0 ≤ amount) (hle : amount ≤ l.money) (hcost : 0 ≤ previousCost)
    (hmax : ∀ p, s.live previous = some p → p.money + previousCost ≤ i64Max) :
    Books ids { s with live := applyAuctionBetWon s.live bidder amount previous previousCost } ∧
      worth ids { s with live := applyAuctionBetWon s.live bidder amount previous previousCost } =
        s.worth ids + (-amount + if previous ≠ 0 ∧ (s.live previous).isSome then previousCost else 0) := by
  have hmoney := h.money bidder
  rw [holding_of_live hl] at hmoney
  have hdebit : (debitMoney amount l).money = l.money - amount :=
    saturate_eq (by unfold i64Min; omega) (by omega)
  obtain ⟨hbooks, hworth⟩ := books_modifyLive h (f := debitMoney amount) hl (by omega) (by omega)
  rw [hdebit] at hworth
  unfold applyAuctionBetWon
  by_cases hprevious : previous ≠ 0
  · rw [if_pos hprevious]
    cases hp : s.live previous with
    | none =>
        have hsame : (s.live.modifyPlayer bidder (debitMoney amount)).modifyPlayer previous (LivePlayers.creditMoney previousCost) =
            s.live.modifyPlayer bidder (debitMoney amount) := by
          have hnone : s.live.modifyPlayer bidder (debitMoney amount) previous = none := by
            rw [← Option.isNone_iff_eq_none, ← Option.not_isSome, modifyPlayer_isSome, hp]
            rfl
          funext q
          by_cases hq : q = previous
          · rw [hq, hnone, modifyPlayer, Function.update_self, hnone]
            rfl
          · exact modifyPlayer_of_ne hq
        rw [hsame]
        refine ⟨hbooks, hworth.trans ?_⟩
        simp
    | some p =>
        obtain ⟨p', hp', hpm⟩ : ∃ p', s.live.modifyPlayer bidder (debitMoney amount) previous = some p' ∧
            p'.money ≤ p.money := by
          by_cases hsame : previous = bidder
          · rw [hsame] at hp ⊢
            rw [hl] at hp
            cases hp
            exact ⟨_, modifyPlayer_self hl, by omega⟩
          · exact ⟨p, (modifyPlayer_of_ne hsame).trans hp, le_refl _⟩
        have hpos := (hbooks.money previous).1
        rw [holding_of_live hp'] at hpos
        have hpmax := hmax p hp
        have hcredit : (LivePlayers.creditMoney previousCost p').money = p'.money + previousCost :=
          saturate_eq (by unfold i64Min; omega) (by omega)
        obtain ⟨hbooks', hworth'⟩ := books_modifyLive hbooks (f := LivePlayers.creditMoney previousCost) hp' (by omega) (by omega)
        refine ⟨hbooks', hworth'.trans ?_⟩
        rw [hcredit, hworth]
        simp [hprevious]
        omega
  · rw [if_neg hprevious]
    refine ⟨hbooks, hworth.trans ?_⟩
    rw [if_neg fun hno => hprevious hno.1]
    omega

theorem books_complete (h : s.Books ids) (hfair : s.Fair .complete) (hstep : s.complete = some t) :
    t.Books ids ∧ t.worth ids = s.worth ids := by
  unfold complete at hstep
  split at hstep
  · cases hstep
  · rename_i c rest hc
    cases hstep
    obtain ⟨hbooks, hworth⟩ := books_dropCompletion h hc
    have hkeep (howed : owedOf s.live c = 0) : Books ids { s with completions := rest } ∧
        worth ids { s with completions := rest } = s.worth ids := ⟨hbooks, by rw [hworth, howed]; omega⟩
    obtain ⟨request, result⟩ := c
    cases result with
    | won amount previous previousCost order =>
        have hok : wonOk (request, .won amount previous previousCost order) :=
          h.completions _ (by rw [hc]; exact List.mem_cons_self)
        obtain ⟨hamount, hcost⟩ := hok
        obtain ⟨⟨l, hl, hle⟩, hmax⟩ := hfair request amount previous previousCost order (by rw [hc]; rfl)
        obtain ⟨hbooks', hworth'⟩ := books_won hbooks request.playerId hl hamount hle hcost hmax
        refine ⟨hbooks', hworth'.trans ?_⟩
        rw [hworth, owedOf]
        dsimp only
        omega
    | lostRace => exact hkeep rfl
    | rejected => exact hkeep rfl
    | notFound => exact hkeep rfl
    | permanentFailure => exact hkeep rfl

end Complete

end AuctionState

/-- The steps of the finalizer. -/
def AuctionEvent.finalizes : AuctionEvent → Bool
  | .listReady _ => true
  | .finalizeNext .. => true
  | .finalizeStep _ => true
  | _ => false

namespace AuctionState

variable {ids : Finset PlayerId} {s t : AuctionState} {raise : Int → Int}

theorem books_step (hraise : ∀ c, 0 ≤ c → 0 ≤ raise c) (h : s.Books ids) {e : AuctionEvent}
    (he : e.finalizes = false) (hfair : s.Fair e) (hstep : s.step raise e = some t) :
    t.Books ids ∧ t.worth ids = s.worth ids := by
  cases e with
  | bet player session buildingX buildingY orderId requestedAmount => exact books_queueBet h hstep
  | flush player => exact books_queueRow h hstep
  | readRow player =>
      obtain ⟨row, hrow, rfl⟩ := Option.map_eq_some_iff.mp hstep
      exact books_readRow h hrow
  | connect i =>
      obtain ⟨login, hlogin, rfl⟩ := Option.map_eq_some_iff.mp hstep
      exact books_connect h hfair hlogin
  | disconnect player keepOffline => exact books_disconnect h hfair hstep
  | persist => exact books_persist hraise h hstep
  | cas now =>
      simp only [step] at hstep
      split at hstep
      · rename_i hjob
        cases hstep
        exact books_cas h hjob
      · cases hstep
  | retry =>
      simp only [step] at hstep
      split at hstep
      · rename_i hjob
        cases hstep
        refine ⟨{ h with job := trivial }, AuctionState.worth_congr (fun _ => rfl) rfl ?_⟩
        rw [owed, owed, hjob]
        rfl
      · cases hstep
  | refund ok rollbackOk =>
      simp only [step] at hstep
      split at hstep
      · rename_i hjob
        cases hstep
        exact books_refund h hjob hfair
      · cases hstep
  | complete => exact books_complete h hfair hstep
  | listReady cutoff => cases he
  | finalizeNext offline ok => cases he
  | finalizeStep ok => cases he

/-- The auction when the server starts: nobody is in the game, and nothing is under way. -/
structure Start (ids : Finset PlayerId) (s : AuctionState) : Prop where
  live : s.live = fun _ => none
  queue : s.queue = []
  job : s.job = .idle
  completions : s.completions = []
  logins : s.logins = []
  known : ∀ p, (s.rows p).isSome → p ∈ ids
  nobody : s.rows 0 = none
  money : ∀ p, ∀ row ∈ s.rows p, 0 ≤ row.money ∧ row.money ≤ i64Max
  orders : (s.orders.map OrderRow.id).Nodup
  costs : ∀ o ∈ s.orders, 0 ≤ o.cost

theorem Start.settled (h : s.Start ids) : s.Settled := ⟨h.completions, h.job⟩

theorem Start.holding (h : s.Start ids) (p : PlayerId) :
    s.holding p = ((s.rows p).map LivePlayer.money).getD 0 := by
  rw [AuctionState.holding, h.live, h.queue]
  rfl

theorem Start.books (h : s.Start ids) : s.Books ids where
  known := h.known
  nobody := h.nobody
  live := fun p hp => by simp [h.live] at hp
  queued := fun p row hrow => by simp [h.queue] at hrow
  logins := fun login hlogin => by simp [h.logins] at hlogin
  bidders := fun request hrequest => by simp [h.queue] at hrequest
  ids := h.orders
  costs := h.costs
  job := by
    unfold JobOk
    rw [h.job]
    trivial
  completions := fun c hc => by simp [h.completions] at hc
  money := by
    intro p
    rw [h.holding]
    cases hrow : s.rows p with
    | none => exact ⟨le_refl _, by decide⟩
    | some row => exact h.money p row hrow

theorem books_run (hraise : ∀ c, 0 ≤ c → 0 ≤ raise c) {es : List AuctionEvent} (hs : s.Books ids)
    (hes : ∀ e ∈ es, e.finalizes = false) (hfair : Meets (step raise) Fair s es)
    (hrun : run (step raise) s es = some t) : t.Books ids ∧ t.worth ids = s.worth ids := by
  induction es generalizing s with
  | nil =>
      cases hrun
      exact ⟨hs, rfl⟩
  | cons e es ih =>
      obtain ⟨u, hu, ht⟩ := run_cons_eq_some.mp hrun
      obtain ⟨hbooks, hworth⟩ := books_step hraise hs (hes e List.mem_cons_self) hfair.1 hu
      obtain ⟨hbooks', hworth'⟩ :=
        ih hbooks (fun f hf => hes f (List.mem_cons_of_mem _ hf)) (hfair.2 u hu) ht
      exact ⟨hbooks', hworth'.trans hworth⟩

/-- Fair steps keep the money of every player in range, and the money with the bids that stand
and what is owed together. -/
theorem money_conserved (hraise : ∀ c, 0 ≤ c → 0 ≤ raise c) (s t : AuctionState) (es : List AuctionEvent)
    (hs : s.Start ids) (hes : ∀ e ∈ es, e.finalizes = false) (hfair : Meets (step raise) Fair s es)
    (hrun : run (step raise) s es = some t) :
    (∀ p, 0 ≤ t.holding p ∧ t.holding p ≤ i64Max) ∧
      t.total ids + t.escrow + t.owed = s.total ids + s.escrow ∧
      (t.Settled → t.total ids + t.escrow = s.total ids + s.escrow) := by
  obtain ⟨hbooks, hworth⟩ := books_run hraise hs.books hes hfair hrun
  have hstart : s.owed = 0 := owed_of_settled hs.settled
  rw [worth, worth, hstart, Int.add_zero] at hworth
  refine ⟨hbooks.money, hworth, fun ht => ?_⟩
  rw [← hworth, owed_of_settled ht, Int.add_zero]

/-- A hundredth more than a price, rounded up. -/
def raisedPrice (cost : Int) : Int := (cost * 101 + 99) / 100

/-- Two players with 100 each, and an order that starts at 10 with another at 60. -/
def twoBidders : AuctionState where
  orders := [⟨1, 9, 0, 5, 10, 0, 0⟩, ⟨2, 9, 0, 5, 60, 0, 0⟩]
  rows := fun p => if p = 2 ∨ p = 3 then some ⟨100, 0, fun _ => 0, 0, none, 0, false⟩ else none
  live := fun _ => none
  queue := []
  job := .idle
  completions := []
  logins := []
  finalize := .idle
  accepted := []
  refunded := []
  withdrawn := []
  paid := []
  unpaid := []
  delivered := []

theorem start_twoBidders : twoBidders.Start {2, 3} where
  live := rfl
  queue := rfl
  job := rfl
  completions := rfl
  logins := rfl
  known := by
    intro p hp
    by_cases h : p = 2 ∨ p = 3
    · simpa using h
    · simp [twoBidders, h] at hp
  nobody := rfl
  money := by
    intro p row hrow
    simp only [twoBidders] at hrow
    split at hrow
    · cases hrow
      decide
    · cases hrow
  orders := by decide
  costs := by decide

def loginAndBet : List AuctionEvent := [.readRow 2, .connect 0, .bet 2 0 0 0 1 none, .persist, .cas 5]

theorem fair_loginAndBet : Meets (step raisedPrice) Fair twoBidders (loginAndBet ++ [.complete]) := by
  refine ⟨trivial, fun t₁ h₁ => ⟨?_, fun t₂ h₂ => ⟨trivial, fun t₃ h₃ => ⟨trivial, fun t₄ h₄ =>
    ⟨trivial, fun t₅ h₅ => ⟨?_, fun _ _ => trivial⟩⟩⟩⟩⟩⟩
  · obtain rfl := Option.some.inj h₁
    intro login hlogin _
    obtain rfl := Option.some.inj hlogin
    exact ⟨rfl, fun c hc => by cases hc⟩
  · have hrun : run (step raisedPrice) twoBidders loginAndBet = some t₅ := by
      simp only [loginAndBet, run, h₁, h₂, h₃, h₄, h₅, Option.bind_some]
    have hhead : (run (step raisedPrice) twoBidders loginAndBet).map (fun t => t.completions.head?) =
        some (some (⟨2, 0, 0, 0, 1, none, 100⟩, .won 10 0 10 ⟨1, 9, 0, 5, 10, 2, 5⟩)) := by decide
    have hmoney : (run (step raisedPrice) twoBidders loginAndBet).map (fun t => (t.live 2).map LivePlayer.money) =
        some (some 100) := by decide
    have hnobody : (run (step raisedPrice) twoBidders loginAndBet).map (fun t => (t.live 0).isSome) =
        some false := by decide
    rw [hrun] at hhead hmoney hnobody
    simp only [Option.map_some, Option.some.injEq] at hhead hmoney hnobody
    obtain ⟨l, hl, hm⟩ := Option.map_eq_some_iff.mp hmoney
    intro request amount previous previousCost order hwon
    rw [hhead] at hwon
    cases hwon
    refine ⟨⟨l, hl, by omega⟩, fun p hp => ?_⟩
    rw [hp] at hnobody
    cases hnobody

/-- Player 2 bids on the first order. -/
theorem money_conserved_bet :
    ∃ t, run (step raisedPrice) twoBidders (loginAndBet ++ [.complete]) = some t ∧
      t.total {2, 3} + t.escrow + t.owed = 200 := by
  have hrun : (run (step raisedPrice) twoBidders (loginAndBet ++ [.complete])).isSome := by decide
  obtain ⟨t, ht⟩ := Option.isSome_iff_exists.mp hrun
  have hraise : ∀ c, 0 ≤ c → 0 ≤ raisedPrice c := by
    intro c hc
    unfold raisedPrice
    omega
  have hconserved := money_conserved hraise twoBidders t _ start_twoBidders (by decide) fair_loginAndBet ht
  refine ⟨t, ht, hconserved.2.1.trans ?_⟩
  decide

/-- A bidder who leaves before the completion is not debited, and one with two bets under way
gets below zero. -/
theorem unpaid_and_negative :
    twoBidders.Start {2, 3} ∧ twoBidders.total {2, 3} + twoBidders.escrow = 200 ∧
    (∃ t, run (step raisedPrice) twoBidders
        [.readRow 2, .connect 0, .bet 2 0 0 0 1 none, .disconnect 2 false, .persist, .cas 5, .persist, .complete] =
          some t ∧
      t.Settled ∧ t.total {2, 3} + t.escrow = 210) ∧
    ∃ t, run (step raisedPrice) twoBidders
        [.readRow 2, .connect 0, .bet 2 0 0 0 2 none, .bet 2 0 0 0 1 (some 60), .persist, .cas 5, .persist, .cas 6,
          .complete, .complete] = some t ∧
      t.holding 2 = -20 :=
  ⟨start_twoBidders, by decide, ⟨_, rfl, ⟨rfl, rfl⟩, by decide⟩, _, rfl, by decide⟩

end AuctionState

end OpenMines
