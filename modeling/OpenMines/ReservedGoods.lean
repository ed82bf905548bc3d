import Mathlib.Data.List.Count
import OpenMines.GoodsReservation

namespace OpenMines

open LivePlayers Lib.Run

section Amounts

variable {p : PlayerId} {g : Good}

theorem reservedAmount_append (l l' : List Reservation) :
    reservedAmount p g (l ++ l') = reservedAmount p g l + reservedAmount p g l' := by
  induction l with
  | nil => simp [reservedAmount]
  | cons r l ih =>
      simp only [reservedAmount, List.cons_append, List.foldr_cons] at ih ⊢
      rw [ih, Int.add_assoc]

@[simp] theorem reservedAmount_nil : reservedAmount p g [] = 0 := rfl

@[simp] theorem reservedAmount_singleton (r : Reservation) : reservedAmount p g [r] = r.amount p g :=
  Int.add_zero _

theorem amount_of_ne {r : Reservation} (h : r.playerId ≠ p) : r.amount p g = 0 := by
  cases r with
  | order request => exact if_neg fun hp => h hp.1
  | clan request => exact if_neg fun hp => h hp.1

theorem amount_creds_nonneg (r : Reservation) : 0 ≤ r.amount p .creds := by
  cases r with
  | order request => simp [Reservation.amount]
  | clan request =>
      rw [Reservation.amount]
      split <;> decide

theorem reservedAmount_creds_nonneg (l : List Reservation) : 0 ≤ reservedAmount p .creds l := by
  induction l with
  | nil => exact le_refl _
  | cons r l ih => exact Int.add_nonneg (amount_creds_nonneg r) ih

theorem reservedAmount_eq_zero {l : List Reservation} (h : ∀ r ∈ l, r.playerId ≠ p) : reservedAmount p g l = 0 := by
  induction l with
  | nil => rfl
  | cons r l ih =>
      rw [reservedAmount, List.foldr_cons, amount_of_ne (h r List.mem_cons_self), Int.zero_add]
      exact ih fun r' hr' => h r' (List.mem_cons_of_mem _ hr')

end Amounts

section Completions

variable {live : LivePlayers} {p : PlayerId} {g : Good}

/-- A player who was in the game still is, with so much more of a good. -/
def LivePlayers.Gains (live live' : LivePlayers) (p : PlayerId) (g : Good) (d : Int) : Prop :=
  ∀ l, live p = some l → ∃ l', live' p = some l' ∧ l'.amount g = l.amount g + d

theorem gains_modifyPlayer {id : PlayerId} {f : LivePlayer → LivePlayer} {d : Int}
    (hself : id = p → ∀ l, live p = some l → (f l).amount g = l.amount g + d) (hother : id ≠ p → d = 0) :
    live.Gains (live.modifyPlayer id f) p g d := by
  intro l hl
  by_cases hid : id = p
  · subst hid
    refine ⟨f l, ?_, hself rfl l hl⟩
    rw [LivePlayers.modifyPlayer, Function.update_self, hl]
    rfl
  · refine ⟨l, ?_, ?_⟩
    · rw [LivePlayers.modifyPlayer, Function.update_of_ne (Ne.symm hid), hl]
    · rw [hother hid, Int.add_zero]

theorem gains_modifyPlayer_zero {id : PlayerId} {f : LivePlayer → LivePlayer}
    (hf : ∀ l, (f l).amount g = l.amount g) : live.Gains (live.modifyPlayer id f) p g 0 :=
  gains_modifyPlayer (fun _ l _ => by rw [hf, Int.add_zero]) fun _ => rfl

theorem gains_map {f : LivePlayer → LivePlayer} (hf : ∀ l, (f l).amount g = l.amount g) :
    live.Gains (fun id => (live id).map f) p g 0 := by
  intro l hl
  exact ⟨f l, by simp only [hl, Option.map_some], by rw [hf, Int.add_zero]⟩

theorem LivePlayers.Gains.refl (live : LivePlayers) (p : PlayerId) (g : Good) : live.Gains live p g 0 :=
  fun l hl => ⟨l, hl, (Int.add_zero _).symm⟩

theorem LivePlayers.Gains.trans {live' live'' : LivePlayers} {d d' : Int} (h : live.Gains live' p g d)
    (h' : live'.Gains live'' p g d') : live.Gains live'' p g (d + d') := by
  intro l hl
  obtain ⟨l', hl', hd⟩ := h l hl
  obtain ⟨l'', hl'', hd'⟩ := h' l' hl'
  exact ⟨l'', hl'', by rw [hd', hd, Int.add_assoc]⟩

theorem amount_clearClan (c : Int32) (l : LivePlayer) : (clearClan c l).amount g = l.amount g := by
  rw [clearClan]
  split
  · cases g <;> rfl
  · rfl

theorem gains_refundClanCreate {request : ClanCommandRequest} {l : LivePlayer} (hl : live request.playerId = some l)
    (hlow : i64Min ≤ l.creds) (hhigh : l.creds + 1000 ≤ i64Max) :
    live.Gains (live.modifyPlayer request.playerId refundClanCreate) p g
      (reservedAmount p g [.clan request]) := by
  rw [reservedAmount_singleton]
  refine gains_modifyPlayer ?_ fun hne => amount_of_ne hne
  rintro rfl l' hl'
  obtain rfl := Option.some.inj (hl.symm.trans hl')
  cases g with
  | item id => simp [LivePlayer.amount, refundClanCreate, Reservation.amount]
  | creds =>
      simp only [LivePlayer.amount, refundClanCreate, Reservation.amount, and_self, if_true]
      exact saturate_eq (by omega) hhigh

theorem gains_creditItem (request : AuctionOrderCreateRequest) :
    live.Gains (live.modifyPlayer request.playerId (creditItem request.itemId request.num)) p g
      (reservedAmount p g [.order request]) := by
  rw [reservedAmount_singleton]
  refine gains_modifyPlayer ?_ fun hne => amount_of_ne hne
  rintro rfl l -
  cases g with
  | item id =>
      simp only [LivePlayer.amount, creditItem, Reservation.amount, true_and, Good.item.injEq]
      by_cases hid : id = request.itemId
      · rw [hid, Function.update_self, if_pos rfl]
      · rw [Function.update_of_ne hid, if_neg hid, Int.add_zero]
  | creds => simp [LivePlayer.amount, creditItem, Reservation.amount]

/-- A completion gives a player in the game what its failed request had taken, and no other good. -/
theorem gains_applyPersistenceCompletion (c : PersistenceCompletion)
    (hrange : ∀ request, Reservation.clan request ∈ c.refund → ∀ l, live request.playerId = some l →
      i64Min ≤ l.creds ∧ l.creds + 1000 ≤ i64Max) :
    live.Gains (applyPersistenceCompletion (R := Empty) live c).1 p g (reservedAmount p g c.refund) := by
  have hclan : ∀ request : ClanCommandRequest,
      (request.createReserved = true → ∀ l, live request.playerId = some l →
        i64Min ≤ l.creds ∧ l.creds + 1000 ≤ i64Max) →
      live.Gains (if request.createReserved then live.modifyPlayer request.playerId refundClanCreate else live) p g
        (reservedAmount p g (if request.createReserved then [.clan request] else [])) := by
    intro request hrange
    by_cases hreserved : request.createReserved = true
    · rw [if_pos hreserved, if_pos hreserved]
      cases hl : live request.playerId with
      | some l => exact gains_refundClanCreate hl (hrange hreserved l hl).1 (hrange hreserved l hl).2
      | none =>
          rw [reservedAmount_singleton]
          refine gains_modifyPlayer ?_ fun hne => amount_of_ne hne
          rintro rfl l' hl'
          exact absurd (hl.symm.trans hl') (by simp)
    · rw [if_neg hreserved, if_neg hreserved]
      exact LivePlayers.Gains.refl live p g
  cases c with
  | auctionOrderCreated request created =>
      cases created with
      | true => exact LivePlayers.Gains.refl live p g
      | false => exact gains_creditItem request
  | auctionBetCompleted request result =>
      cases result with
      | won amount previousBuyerId previousCost order =>
          have hbidder : live.Gains (live.modifyPlayer request.playerId (debitMoney amount)) p g 0 :=
            gains_modifyPlayer_zero fun l => by cases g <;> rfl
          simp only [applyPersistenceCompletion, applyAuctionBetWon]
          split
          · exact LivePlayers.Gains.trans hbidder (gains_modifyPlayer_zero fun l => by cases g <;> rfl)
          · exact hbidder
      | _ => exact LivePlayers.Gains.refl live p g
  | adminMoneyAllApplied amount applied =>
      cases applied with
      | true => exact gains_map fun l => by cases g <;> rfl
      | false => exact LivePlayers.Gains.refl live p g
  | adminRoleApplied role target =>
      cases target with
      | some id => exact gains_modifyPlayer_zero fun l => by cases g <;> rfl
      | none => exact LivePlayers.Gains.refl live p g
  | clanCommandApplied request result =>
      cases result with
      | created clanId => exact gains_modifyPlayer_zero fun l => by cases g <;> rfl
      | left clanId disbanded =>
          cases disbanded with
          | true => exact gains_map fun l => amount_clearClan clanId l
          | false => exact gains_modifyPlayer_zero fun l => amount_clearClan clanId l
      | kicked clanId targetId => exact gains_modifyPlayer_zero fun l => amount_clearClan clanId l
      | joined clanId => exact gains_modifyPlayer_zero fun l => by cases g <;> rfl
      | requestAccepted clanId targetId => exact gains_modifyPlayer_zero fun l => by cases g <;> rfl
      | promoted clanId targetId =>
          refine gains_modifyPlayer_zero fun l => ?_
          split
          · cases g <;> rfl
          · rfl
      | rejected =>
          exact hclan request fun hreserved => hrange request (by simp [PersistenceCompletion.refund, hreserved])
      | permanentFailure =>
          exact hclan request fun hreserved => hrange request (by simp [PersistenceCompletion.refund, hreserved])
      | _ => exact LivePlayers.Gains.refl live p g
  | reply kind => exact LivePlayers.Gains.refl live p g

theorem isSome_modifyPlayer (id : PlayerId) (f : LivePlayer → LivePlayer) :
    ((live.modifyPlayer id f) p).isSome = (live p).isSome := by
  by_cases hid : p = id
  · subst hid
    rw [LivePlayers.modifyPlayer, Function.update_self, Option.isSome_map]
  · rw [LivePlayers.modifyPlayer, Function.update_of_ne hid]

/-- A completion brings nobody into the game. -/
theorem isSome_applyPersistenceCompletion (c : PersistenceCompletion) :
    ((applyPersistenceCompletion (R := Empty) live c).1 p).isSome = (live p).isSome := by
  have hclan : ∀ request : ClanCommandRequest,
      ((if request.createReserved then live.modifyPlayer request.playerId refundClanCreate else live) p).isSome =
        (live p).isSome := by
    intro request
    split
    · exact isSome_modifyPlayer _ _
    · rfl
  cases c with
  | auctionOrderCreated request created =>
      cases created with
      | true => rfl
      | false => exact isSome_modifyPlayer _ _
  | auctionBetCompleted request result =>
      cases result with
      | won amount previousBuyerId previousCost order =>
          simp only [applyPersistenceCompletion, applyAuctionBetWon]
          split
          · rw [isSome_modifyPlayer, isSome_modifyPlayer]
          · exact isSome_modifyPlayer _ _
      | _ => rfl
  | adminMoneyAllApplied amount applied =>
      cases applied with
      | true => exact Option.isSome_map
      | false => rfl
  | adminRoleApplied role target =>
      cases target with
      | some id => exact isSome_modifyPlayer _ _
      | none => rfl
  | clanCommandApplied request result =>
      cases result with
      | left clanId disbanded =>
          cases disbanded with
          | true => exact Option.isSome_map
          | false => exact isSome_modifyPlayer _ _
      | rejected => exact hclan request
      | permanentFailure => exact hclan request
      | inviteDeclined => rfl
      | requestDeclined => rfl
      | invited targetId => rfl
      | requestSent => rfl
      | _ => exact isSome_modifyPlayer _ _
  | reply kind => rfl

end Completions

namespace GoodsState

variable {s t u : GoodsState} {p q : PlayerId} {g : Good}

section Held

@[simp] theorem queuedRows_append (queue more : List GoodsSave) :
    queuedRows (queue ++ more) p = queuedRows queue p ++ queuedRows more p :=
  List.filterMap_append

theorem queuedRows_player (row : LivePlayer) (queue : List GoodsSave) :
    queuedRows (.player q row :: queue) p = if q = p then row :: queuedRows queue p else queuedRows queue p := by
  by_cases hq : q = p
  · simp [queuedRows, hq]
  · simp [queuedRows, hq]

theorem held_of_live {l : LivePlayer} (h : s.live p = some l) : s.held p g = l.amount g := by
  rw [held, h]
  rfl

theorem lastRow_congr (hqueue : queuedRows t.queue p = queuedRows s.queue p) (hrows : t.rows p = s.rows p) :
    t.lastRow p = s.lastRow p := by
  rw [lastRow, lastRow, hqueue, hrows]

theorem held_congr (hlive : t.live p = s.live p) (hlast : s.live p = none → t.lastRow p = s.lastRow p) :
    t.held p g = s.held p g := by
  rw [held, held, hlive]
  cases hl : s.live p with
  | some l => rfl
  | none => rw [hlast hl]

theorem held_of_lastRow {l : LivePlayer} (hlive : s.live p = none) (hlast : s.lastRow p = some l) :
    s.held p g = l.amount g := by
  rw [held, hlive, hlast]
  rfl

/-- A save that reaches the table changes no last row. -/
theorem lastRow_save {row : LivePlayer} {rest : List GoodsSave} (hqueue : s.queue = .player q row :: rest)
    (hrows : (s.rows q).isSome) (ht : t.rows = s.rows.modifyPlayer q (fun _ => row)) (hrest : t.queue = rest) :
    t.lastRow p = s.lastRow p := by
  rw [lastRow, lastRow, hqueue, hrest, ht, queuedRows_player, LivePlayers.modifyPlayer]
  by_cases hp : q = p
  · subst hp
    obtain ⟨old, hold⟩ := Option.isSome_iff_exists.mp hrows
    rw [if_pos rfl, Function.update_self, hold]
    cases queuedRows rest q with
    | nil => rfl
    | cons row' rows => simp [List.getLast?_cons]
  · rw [if_neg hp, Function.update_of_ne (Ne.symm hp)]

end Held

/-- From one state to another no reservation and no good gets lost, and none comes into being. -/
structure Balanced (s t : GoodsState) : Prop where
  ledger : (s.reserved ++ (t.pending ++ t.created ++ t.returned)).Perm
    (t.reserved ++ (s.pending ++ s.created ++ s.returned))
  held : ∀ p g, t.held p g + reservedAmount p g (t.pending ++ t.created) =
    s.held p g + reservedAmount p g (s.pending ++ s.created)
  spent : ∀ p g, t.spent p g + reservedAmount p g s.created = s.spent p g + reservedAmount p g t.created

theorem Balanced.refl (s : GoodsState) : Balanced s s := ⟨List.Perm.refl _, fun _ _ => rfl, fun _ _ => rfl⟩

theorem Balanced.trans (h : Balanced s t) (h' : Balanced t u) : Balanced s u where
  ledger := by
    have hst := List.perm_iff_count.mp h.ledger
    have htu := List.perm_iff_count.mp h'.ledger
    refine List.perm_iff_count.mpr fun r => ?_
    have hst := hst r
    have htu := htu r
    simp only [List.count_append] at hst htu ⊢
    omega
  held := fun p g => (h'.held p g).trans (h.held p g)
  spent := fun p g => by
    have hst := h.spent p g
    have htu := h'.spent p g
    omega

/-- A step that leaves the reservations and the goods where they are. -/
theorem balanced_of_same (hreserved : t.reserved = s.reserved) (hpending : t.pending = s.pending)
    (hcreated : t.created = s.created) (hreturned : t.returned = s.returned) (horders : t.orders = s.orders)
    (hclans : t.store.clans = s.store.clans) (hheld : ∀ p g, t.held p g = s.held p g) : Balanced s t where
  ledger := by rw [hreserved, hpending, hcreated, hreturned]
  held := fun p g => by rw [hheld, hpending, hcreated]
  spent := fun p g => by
    cases g with
    | item id => rw [spent, spent, horders, hcreated]
    | creds => rw [spent, spent, hclans, hcreated]

/-- What a run relies on: which requests have reserved credits, and credits that fit an `i64`. -/
structure Sound (s : GoodsState) : Prop where
  creates : ∀ request action, .clanCommand request action ∈ s.queue →
    (request.createReserved = true ↔ ∃ name tag, action = .create name tag)
  low : ∀ p, i64Min ≤ s.held p .creds
  high : ∀ p, s.held p .creds + reservedAmount p .creds (s.pending ++ s.created) ≤ i64Max

theorem Sound.of_balanced (h : s.Sound) (hbalanced : Balanced s t)
    (hcreates : ∀ request action, .clanCommand request action ∈ t.queue →
      (request.createReserved = true ↔ ∃ name tag, action = .create name tag))
    (hlow : ∀ p, i64Min ≤ t.held p .creds) : t.Sound where
  creates := hcreates
  low := hlow
  high := fun p => (hbalanced.held p .creds).trans_le (h.high p)

section Steps

theorem pending_enqueue (save : GoodsSave) : (s.enqueue save).pending =
    s.queue.flatMap GoodsSave.reservation ++ save.reservation ++
      s.completions.flatMap PersistenceCompletion.refund := by
  rw [pending, enqueue, List.flatMap_append, List.flatMap_singleton]

theorem creates_enqueue (h : s.Sound) {save : GoodsSave}
    (hsave : ∀ request action, save = .clanCommand request action →
      (request.createReserved = true ↔ ∃ name tag, action = .create name tag)) :
    ∀ request action, .clanCommand request action ∈ s.queue ++ [save] →
      (request.createReserved = true ↔ ∃ name tag, action = .create name tag) := by
  intro request action hmem
  rcases List.mem_append.mp hmem with hmem | hmem
  · exact h.creates request action hmem
  · exact hsave request action (List.mem_singleton.mp hmem).symm

theorem queuedRows_reserve {player : PlayerId} {taken : LivePlayer} {r : Reservation} {save : GoodsSave}
    (hsave : save.reservation = [r]) :
    queuedRows (s.reserve player taken r save).queue p = queuedRows s.queue p := by
  cases save with
  | player id row => cases hsave
  | auctionOrderCreate request => simp [reserve, enqueue, queuedRows]
  | clanCommand request action => simp [reserve, enqueue, queuedRows]

theorem held_reserve {l taken : LivePlayer} {r : Reservation} {save : GoodsSave}
    (hlive : s.live r.playerId = some l) (hsave : save.reservation = [r])
    (htaken : ∀ g, taken.amount g + r.amount r.playerId g = l.amount g) (p : PlayerId) (g : Good) :
    (s.reserve r.playerId taken r save).held p g + r.amount p g = s.held p g := by
  by_cases hp : p = r.playerId
  · subst hp
    have hafter : (s.reserve r.playerId taken r save).live r.playerId = some { taken with dirty := true } :=
      Function.update_self ..
    rw [held_of_live hlive, held_of_live hafter, ← htaken g]
    cases g <;> rfl
  · rw [amount_of_ne (Ne.symm hp), Int.add_zero]
    exact held_congr (Function.update_of_ne hp ..) fun _ => lastRow_congr (queuedRows_reserve hsave) rfl

/-- What is taken from a player waits in the queue. -/
theorem sound_reserve (h : s.Sound) {l taken : LivePlayer} {r : Reservation} {save : GoodsSave}
    (hlive : s.live r.playerId = some l) (hsave : save.reservation = [r])
    (htaken : ∀ g, taken.amount g + r.amount r.playerId g = l.amount g) (hlow : i64Min ≤ taken.creds)
    (hcreates : ∀ request action, save = .clanCommand request action →
      (request.createReserved = true ↔ ∃ name tag, action = .create name tag)) :
    (s.reserve r.playerId taken r save).Sound ∧ Balanced s (s.reserve r.playerId taken r save) := by
  have hheld := held_reserve hlive hsave htaken
  have hpending : (s.reserve r.playerId taken r save).pending =
      s.queue.flatMap GoodsSave.reservation ++ [r] ++ s.completions.flatMap PersistenceCompletion.refund := by
    rw [reserve, pending_enqueue, hsave]
  have hbalanced : Balanced s (s.reserve r.playerId taken r save) := by
    refine ⟨?_, fun p g => ?_, fun p g => ?_⟩
    · refine List.perm_iff_count.mpr fun r' => ?_
      rw [hpending]
      simp only [reserve, enqueue, pending, List.count_append]
      omega
    · have hheld := hheld p g
      rw [hpending, pending]
      simp only [reservedAmount_append, reservedAmount_singleton, reserve, enqueue] at hheld ⊢
      omega
    · cases g <;> rfl
  refine ⟨h.of_balanced hbalanced (creates_enqueue h hcreates) fun p => ?_, hbalanced⟩
  by_cases hp : p = r.playerId
  · subst hp
    rw [held_of_live (l := { taken with dirty := true }) (Function.update_self ..)]
    exact hlow
  · rw [held_congr (Function.update_of_ne hp ..) fun _ => lastRow_congr (queuedRows_reserve hsave) rfl]
    exact h.low p

theorem sound_queueOrder (h : s.Sound) {player : PlayerId} {session : SessionId} {market : Option (Int32 × Int32)}
    {itemId : Int32} {cost num : Int} (ht : s.queueOrder player session market itemId cost num = some t) :
    t.Sound ∧ Balanced s t := by
  rw [queueOrder.eq_def] at ht
  split at ht
  · rename_i buildingX buildingY l hlive
    obtain ⟨-, ⟨⟩⟩ := Option.ite_none_left_eq_some.mp ht
    refine sound_reserve h (r := .order ⟨player, session, buildingX, buildingY, itemId, num, cost⟩) hlive rfl
      (fun g => ?_) ?_ fun _ _ heq => by cases heq
    · cases g with
      | item id =>
          simp only [LivePlayer.amount, Reservation.amount, Reservation.playerId, true_and, Good.item.injEq]
          by_cases hid : id = itemId
          · rw [hid, Function.update_self, if_pos rfl, Int.sub_add_cancel]
          · rw [Function.update_of_ne hid, if_neg hid, Int.add_zero]
      | creds => simp [LivePlayer.amount, Reservation.amount]
    · have hlow := h.low player
      rwa [held_of_live hlive] at hlow
  · cases ht

theorem sound_enqueue (h : s.Sound) {save : GoodsSave} (hnone : save.reservation = [])
    (hcreates : ∀ request action, save = .clanCommand request action →
      (request.createReserved = true ↔ ∃ name tag, action = .create name tag))
    (hheld : ∀ p g, (s.enqueue save).held p g = s.held p g) :
    (s.enqueue save).Sound ∧ Balanced s (s.enqueue save) := by
  have hpending : (s.enqueue save).pending = s.pending := by
    rw [pending_enqueue, hnone, List.append_nil, pending]
  have hbalanced : Balanced s (s.enqueue save) := balanced_of_same rfl hpending rfl rfl rfl rfl hheld
  exact ⟨h.of_balanced hbalanced (creates_enqueue h hcreates) fun p => (h.low p).trans_eq (hheld p .creds).symm,
    hbalanced⟩

theorem sound_command (h : s.Sound) (request : ClanCommandRequest) (action : ClanAction)
    (hreserved : request.createReserved = false) (haction : ∀ name tag, action ≠ .create name tag) :
    (s.enqueue (.clanCommand request action)).Sound ∧ Balanced s (s.enqueue (.clanCommand request action)) := by
  refine sound_enqueue h (if_neg (by simp [hreserved])) ?_ fun p g => ?_
  · rintro _ _ ⟨⟩
    refine iff_of_false (by simp [hreserved]) ?_
    rintro ⟨name, tag, rfl⟩
    exact haction name tag rfl
  · exact held_congr rfl fun _ => lastRow_congr (by simp [enqueue, queuedRows]) rfl

theorem sound_adminClan (h : s.Sound) {player : PlayerId} {session : SessionId} {action : ClanAction}
    (ht : s.adminClan player session action = some t) : t.Sound ∧ Balanced s t := by
  rw [adminClan.eq_def] at ht
  split at ht
  · cases ht
  · cases ht
  · rename_i l name tag hlive
    obtain ⟨⟨-, hcreds⟩, ⟨⟩⟩ := Option.ite_none_right_eq_some.mp ht
    refine sound_reserve h (r := .clan ⟨player, session, true⟩) hlive rfl (fun g => ?_) ?_ ?_
    · cases g <;> simp [LivePlayer.amount, Reservation.amount, Reservation.playerId]
    · simp only [i64Min]
      omega
    · rintro _ _ ⟨⟩
      exact iff_of_true rfl ⟨name, tag, rfl⟩
  · rename_i haction
    cases ht
    exact sound_command h _ _ rfl haction

/-- A row that a player in the game leaves behind is not the last word on what he has. -/
theorem sound_queueRow (h : s.Sound) {player : PlayerId} (ht : s.queueRow player = some t) :
    t.Sound ∧ Balanced s t := by
  obtain ⟨l, hl, rfl⟩ := Option.map_eq_some_iff.mp ht
  refine sound_enqueue h rfl (fun _ _ heq => by cases heq) fun p g => held_congr rfl fun hp => ?_
  have hne : player ≠ p := by
    rintro rfl
    rw [hl] at hp
    cases hp
  exact lastRow_congr (by simp [enqueue, queuedRows, hne]) rfl

theorem sound_disconnect (h : s.Sound) {player : PlayerId} {keepOffline : Bool}
    (ht : s.step (.disconnect player keepOffline) = some t) : t.Sound ∧ Balanced s t := by
  obtain ⟨u, hu, rfl⟩ := Option.map_eq_some_iff.mp ht
  obtain ⟨hsound, hbalanced⟩ := sound_queueRow h hu
  split
  · exact ⟨hsound, hbalanced⟩
  · obtain ⟨l, hl, rfl⟩ := Option.map_eq_some_iff.mp hu
    have hheld : ∀ p g, GoodsState.held { s.enqueue (.player player l) with
        live := Function.update s.live player none } p g = (s.enqueue (.player player l)).held p g := by
      intro p g
      by_cases hp : p = player
      · subst hp
        have hlast : (s.enqueue (.player p l)).lastRow p = some l := by
          simp [lastRow, enqueue, queuedRows]
        rw [held_of_live (s := s.enqueue _) hl]
        exact held_of_lastRow (Function.update_self ..) hlast
      · exact held_congr (Function.update_of_ne hp ..) fun _ => rfl
    have hleft : Balanced (s.enqueue (.player player l)) { s.enqueue (.player player l) with
        live := Function.update s.live player none } := balanced_of_same rfl rfl rfl rfl rfl rfl hheld
    exact ⟨hsound.of_balanced hleft hsound.creates fun p => (hsound.low p).trans_eq (hheld p .creds).symm,
      hbalanced.trans hleft⟩

theorem sound_connect (h : s.Sound) {i : Nat} (hfair : s.Fair (.connect i)) (ht : s.step (.connect i) = some t) :
    t.Sound ∧ Balanced s t := by
  obtain ⟨⟨player, row⟩, hlogin, rfl⟩ := Option.map_eq_some_iff.mp ht
  have hheld : ∀ p g, (s.connect player row).held p g = s.held p g := by
    intro p g
    rw [connect]
    cases hl : s.live player with
    | some l =>
        by_cases hp : p = player
        · subst hp
          rw [held_of_live hl, held_of_live (l := { l with dirty := false, role := row.role }) (Function.update_self ..)]
          cases g <;> rfl
        · exact held_congr (Function.update_of_ne hp ..) fun _ => rfl
    | none =>
        by_cases hp : p = player
        · subst hp
          rw [← hfair (p, row) hlogin hl g, held_of_live (l := { row with dirty := false }) (Function.update_self ..)]
          cases g <;> rfl
        · exact held_congr (Function.update_of_ne hp ..) fun _ => rfl
  have hbalanced : Balanced s { s.connect player row with logins := s.logins.eraseIdx i } := by
    refine balanced_of_same ?_ ?_ ?_ ?_ ?_ ?_ hheld <;>
    · simp only [connect]
      split <;> rfl
  refine ⟨h.of_balanced hbalanced (fun request action hmem => h.creates request action ?_) fun p =>
    (h.low p).trans_eq (hheld p .creds).symm, hbalanced⟩
  simp only [connect] at hmem
  split at hmem <;> exact hmem

theorem foldr_append_singleton {α : Type} (f : α → Int) (l : List α) (x : α) :
    (l ++ [x]).foldr (fun a n => f a + n) 0 = l.foldr (fun a n => f a + n) 0 + f x := by
  induction l with
  | nil => simp
  | cons a l ih =>
      simp only [List.cons_append, List.foldr_cons, ih]
      omega

/-- A clan is created with its row, or nothing changes. -/
theorem clanCommand_create (store : ClanStore) (request : ClanCommandRequest) (io : ClanIo) (name tag : String) :
    (∃ row : ClanRow, row.ownerId = request.playerId ∧
        (store.clanCommand request io (.create name tag)).1.clans = store.clans ++ [row] ∧
        (store.clanCommand request io (.create name tag)).2 = .created row.id) ∨
      (store.clanCommand request io (.create name tag)).1.clans = store.clans ∧
        (store.clanCommand request io (.create name tag)).2 = .permanentFailure := by
  simp only [ClanStore.clanCommand]
  split
  · exact .inr ⟨rfl, rfl⟩
  · rename_i clanId hpick
    cases hcreate : store.createClan ⟨clanId, name, tag, request.playerId⟩ with
    | none => exact .inr ⟨rfl, rfl⟩
    | some v =>
        have hclans : v.clans = store.clans ++ [⟨clanId, name, tag, request.playerId⟩] := by
          rw [ClanStore.createClan] at hcreate
          split at hcreate
          · cases hcreate
          · obtain ⟨-, ⟨⟩⟩ := Option.ite_none_left_eq_some.mp hcreate
            rfl
        simp only [ClanStore.attempt]
        split
        · exact .inl ⟨⟨clanId, name, tag, request.playerId⟩, rfl, hclans, rfl⟩
        · exact .inr ⟨rfl, rfl⟩

theorem attempt_keeps_clans {store : ClanStore} {io : ClanIo} {changed : Option ClanStore} {result : ClanCommandResult}
    (hchanged : ∀ v, changed = some v → v.clans = store.clans) (hresult : ∀ clanId, result ≠ .created clanId) :
    (store.attempt io changed result).1.clans = store.clans ∧
      ∀ clanId, (store.attempt io changed result).2 ≠ .created clanId := by
  cases changed with
  | none => exact ⟨rfl, fun _ h => by cases h⟩
  | some v =>
      simp only [ClanStore.attempt]
      split
      · exact ⟨hchanged v rfl, hresult⟩
      · exact ⟨rfl, fun _ h => by cases h⟩

theorem clanCommand_keeps_clans (store : ClanStore) (request : ClanCommandRequest) (io : ClanIo) {action : ClanAction}
    (haction : ∀ name tag, action ≠ .create name tag) :
    (store.clanCommand request io action).1.clans = store.clans ∧
      ∀ clanId, (store.clanCommand request io action).2 ≠ .created clanId := by
  cases action with
  | create name tag => exact absurd rfl (haction name tag)
  | kick target =>
      simp only [ClanStore.clanCommand]
      split
      · exact ⟨rfl, fun _ h => by cases h⟩
      · refine attempt_keeps_clans (fun v hv => ?_) fun _ h => by cases h
        obtain ⟨-, ⟨⟩⟩ := Option.ite_none_right_eq_some.mp hv
        rfl
  | invalid message => exact ⟨rfl, fun _ h => by cases h⟩
  | invite targetId | request clanId =>
      refine attempt_keeps_clans (fun v hv => ?_) fun _ h => by cases h
      obtain ⟨-, ⟨⟩⟩ := Option.ite_none_left_eq_some.mp hv
      rfl
  | leave | kickById targetId | acceptInvite clanId | declineInvite clanId | acceptRequest targetId
  | declineRequest targetId | promote targetId =>
      refine attempt_keeps_clans (fun v hv => ?_) fun _ h => by cases h
      obtain ⟨-, ⟨⟩⟩ := Option.ite_none_right_eq_some.mp hv
      rfl

/-- A request leaves the queue: for an order or a clan, to be given back, or without a reservation. -/
theorem sound_finish (h : s.Sound) {save : GoodsSave} {rest : List GoodsSave} {completion : PersistenceCompletion}
    (made : List Reservation) (hqueue : s.queue = save :: rest) (hrest : t.queue = rest)
    (hcompletions : t.completions = s.completions ++ [completion]) (hcreated : t.created = s.created ++ made)
    (hmade : made ++ completion.refund = save.reservation) (hreserved : t.reserved = s.reserved)
    (hreturned : t.returned = s.returned) (hlive : t.live = s.live) (hrows : t.rows = s.rows)
    (hplayer : ∀ p, queuedRows s.queue p = queuedRows rest p)
    (hspent : ∀ p g, t.spent p g = s.spent p g + reservedAmount p g made) : t.Sound ∧ Balanced s t := by
  have hpending : s.pending = made ++ completion.refund ++ rest.flatMap GoodsSave.reservation ++
      s.completions.flatMap PersistenceCompletion.refund := by
    rw [pending, hqueue, List.flatMap_cons, hmade]
  have hpending' : t.pending = rest.flatMap GoodsSave.reservation ++
      (s.completions.flatMap PersistenceCompletion.refund ++ completion.refund) := by
    rw [pending, hrest, hcompletions, List.flatMap_append, List.flatMap_singleton]
  have hheld : ∀ p g, t.held p g = s.held p g := fun p g =>
    held_congr (congrFun hlive p) fun _ => lastRow_congr (by rw [hrest, hplayer]) (congrFun hrows p)
  have hbalanced : Balanced s t := by
    refine ⟨List.perm_iff_count.mpr fun r => ?_, fun p g => ?_, fun p g => ?_⟩
    · rw [hpending, hpending', hcreated, hreserved, hreturned]
      simp only [List.count_append]
      omega
    · rw [hheld, hpending, hpending', hcreated]
      simp only [reservedAmount_append]
      omega
    · rw [hspent, hcreated, reservedAmount_append]
      omega
  refine ⟨h.of_balanced hbalanced (fun request action hmem => h.creates request action ?_) fun p => ?_, hbalanced⟩
  · rw [hrest] at hmem
    rw [hqueue]
    exact List.mem_cons_of_mem _ hmem
  · rw [hheld]
    exact h.low p

theorem spent_insertOrder (request : AuctionOrderCreateRequest) (p : PlayerId) (g : Good) :
    (s.insertOrder request).spent p g = s.spent p g + reservedAmount p g [.order request] := by
  rw [reservedAmount_singleton]
  cases g with
  | item id =>
      simp only [spent, insertOrder, Reservation.amount, foldr_append_singleton, Good.item.injEq, eq_comm]
  | creds => simp [spent, insertOrder, Reservation.amount]

theorem sound_clanCommand (h : s.Sound) {request : ClanCommandRequest} {action : ClanAction} {rest : List GoodsSave}
    {answer : StoreAnswer} (hqueue : s.queue = .clanCommand request action :: rest)
    (ht : s.execute answer = some t) : t.Sound ∧ Balanced s t := by
  have hcreates := h.creates request action (by simp [hqueue])
  rw [execute, hqueue] at ht
  cases ht
  by_cases haction : ∃ name tag, action = .create name tag
  · have hreserved := hcreates.mpr haction
    obtain ⟨name, tag, rfl⟩ := haction
    rcases clanCommand_create s.store request answer.toClanIo name tag with
      ⟨row, howner, hclans, hresult⟩ | ⟨hclans, hresult⟩
    · refine sound_finish h [.clan request] hqueue rfl rfl ?_ ?_ rfl rfl rfl rfl ?_ ?_
      · simp only [finish, hresult]
      · simp [GoodsSave.reservation, hreserved, hresult, PersistenceCompletion.refund]
      · intro p
        rw [hqueue]
        rfl
      · intro p g
        rw [reservedAmount_singleton]
        cases g with
        | item id => simp [spent, finish, Reservation.amount]
        | creds => simp only [spent, finish, hclans, foldr_append_singleton, howner, Reservation.amount, and_true]
    · refine sound_finish h [] hqueue rfl rfl ?_ ?_ rfl rfl rfl rfl ?_ ?_
      · simp only [finish, hresult]
      · simp [GoodsSave.reservation, hreserved, hresult, PersistenceCompletion.refund]
      · intro p
        rw [hqueue]
        rfl
      · intro p g
        cases g with
        | item id => simp [spent, finish]
        | creds => simp [spent, finish, hclans]
  · have hreserved : request.createReserved = false := by
      simpa using fun hreserved => haction (hcreates.mp hreserved)
    obtain ⟨hclans, hresult⟩ := clanCommand_keeps_clans s.store request answer.toClanIo
      fun name tag heq => haction ⟨name, tag, heq⟩
    refine sound_finish h [] hqueue rfl rfl ?_ ?_ rfl rfl rfl rfl ?_ ?_
    · simp only [finish]
    · generalize s.store.clanCommand request answer.toClanIo action = done
      obtain ⟨store, result⟩ := done
      cases result <;> simp [GoodsSave.reservation, hreserved, PersistenceCompletion.refund]
    · intro p
      rw [hqueue]
      rfl
    · intro p g
      cases g with
      | item id => simp [spent, finish]
      | creds => simp [spent, finish, hclans]

theorem sound_execute (h : s.Sound) {answer : StoreAnswer} (ht : s.execute answer = some t) :
    t.Sound ∧ Balanced s t := by
  rw [execute.eq_def] at ht
  split at ht
  · cases ht
  · rename_i id row rest hqueue
    split at ht
    · rename_i hok
      cases ht
      have hheld : ∀ p g, GoodsState.held { s with
          rows := s.rows.modifyPlayer id (fun _ => row)
          store := s.store.setMember id row.clanId row.clanRank
          queue := rest } p g = s.held p g :=
        fun p g => held_congr rfl fun _ => lastRow_save hqueue hok.2 rfl rfl
      have hbalanced : Balanced s { s with
          rows := s.rows.modifyPlayer id (fun _ => row)
          store := s.store.setMember id row.clanId row.clanRank
          queue := rest } := by
        refine balanced_of_same rfl ?_ rfl rfl rfl rfl hheld
        rw [pending, pending, hqueue]
        rfl
      refine ⟨h.of_balanced hbalanced (fun request action hmem => h.creates request action ?_) fun p => ?_, hbalanced⟩
      · rw [hqueue]
        exact List.mem_cons_of_mem _ hmem
      · rw [hheld]
        exact h.low p
    · cases ht
      exact ⟨h, Balanced.refl s⟩
  · rename_i request rest hqueue
    have hrows : ∀ p, queuedRows s.queue p = queuedRows rest p := fun p => by rw [hqueue]; rfl
    split at ht
    · cases ht
      exact sound_finish h [.order request] hqueue rfl rfl rfl rfl rfl rfl rfl rfl hrows fun p g =>
        spent_insertOrder request p g
    · split at ht
      · cases ht
        exact sound_finish h [] hqueue rfl rfl (List.append_nil _).symm rfl rfl rfl rfl rfl hrows
          fun p g => by cases g <;> simp [spent, finish]
      · cases ht
        exact ⟨h, Balanced.refl s⟩
  · rename_i request action rest hqueue
    refine sound_clanCommand h hqueue (?_ : s.execute answer = some t)
    rw [execute, hqueue]
    exact ht

/-- A refund that finds its player moves a reservation from the pending ones to the returned ones. -/
theorem sound_complete (h : s.Sound) (hfair : s.Fair .complete) (ht : s.complete = some t) :
    t.Sound ∧ Balanced s t := by
  rw [complete.eq_def] at ht
  split at ht
  · cases ht
  · rename_i c rest hcompletions
    cases ht
    have hback : c.refund.filter (fun r => (s.live r.playerId).isSome) = c.refund :=
      List.filter_eq_self.mpr fun r hr => hfair c (by rw [hcompletions]; rfl) r hr
    have hpending : s.pending = s.queue.flatMap GoodsSave.reservation ++
        (c.refund ++ rest.flatMap PersistenceCompletion.refund) := by
      rw [pending, hcompletions, List.flatMap_cons]
    have hrange : ∀ request, Reservation.clan request ∈ c.refund → ∀ l, s.live request.playerId = some l →
        i64Min ≤ l.creds ∧ l.creds + 1000 ≤ i64Max := by
      intro request hmem l hl
      have hlow := h.low request.playerId
      have hhigh := h.high request.playerId
      rw [held_of_live hl] at hlow hhigh
      refine ⟨hlow, ?_⟩
      have hthousand : (1000 : Int) ≤ reservedAmount request.playerId .creds c.refund := by
        obtain ⟨l₁, l₂, hsplit⟩ := List.append_of_mem hmem
        rw [hsplit, reservedAmount_append, ← List.singleton_append, reservedAmount_append, reservedAmount_singleton]
        have h₁ := reservedAmount_creds_nonneg (p := request.playerId) l₁
        have h₂ := reservedAmount_creds_nonneg (p := request.playerId) l₂
        simp only [Reservation.amount, and_self, if_true]
        omega
      have hqueue := reservedAmount_creds_nonneg (p := request.playerId) (s.queue.flatMap GoodsSave.reservation)
      have hrest := reservedAmount_creds_nonneg (p := request.playerId) (rest.flatMap PersistenceCompletion.refund)
      have hcreated := reservedAmount_creds_nonneg (p := request.playerId) s.created
      simp only [hpending, reservedAmount_append, LivePlayer.amount] at hhigh
      omega
    have hheld : ∀ p g, GoodsState.held { s with
        completions := rest
        live := (applyPersistenceCompletion (R := Empty) s.live c).1
        returned := s.returned ++ c.refund.filter (fun r => (s.live r.playerId).isSome) } p g =
        s.held p g + reservedAmount p g c.refund := by
      intro p g
      cases hl : s.live p with
      | some l =>
          obtain ⟨l', hl', hamount⟩ := gains_applyPersistenceCompletion (p := p) (g := g) c hrange l hl
          rw [held_of_live hl, held_of_live hl', hamount]
      | none =>
          have hl' : (applyPersistenceCompletion (R := Empty) s.live c).1 p = none := by
            have hsome := @isSome_applyPersistenceCompletion s.live p c
            rw [hl] at hsome
            exact Option.not_isSome_iff_eq_none.mp (by simp [hsome])
          have hzero : reservedAmount p g c.refund = 0 := by
            refine reservedAmount_eq_zero fun r hr hp => ?_
            have hsome := hfair c (by rw [hcompletions]; rfl) r hr
            rw [hp, hl] at hsome
            cases hsome
          rw [hzero, Int.add_zero]
          exact held_congr (hl'.trans hl.symm) fun _ => rfl
    have hbalanced : Balanced s { s with
        completions := rest
        live := (applyPersistenceCompletion (R := Empty) s.live c).1
        returned := s.returned ++ c.refund.filter (fun r => (s.live r.playerId).isSome) } := by
      refine ⟨List.perm_iff_count.mpr fun r => ?_, fun p g => ?_, fun p g => by cases g <;> rfl⟩
      · rw [hpending, hback]
        simp only [pending, List.count_append]
        omega
      · rw [hheld, hpending, pending]
        simp only [reservedAmount_append]
        omega
    refine ⟨h.of_balanced hbalanced h.creates fun p => ?_, hbalanced⟩
    rw [hheld]
    exact Int.le_trans (h.low p) (Int.le_add_of_nonneg_right (reservedAmount_creds_nonneg _))

theorem sound_step (h : s.Sound) {e : GoodsEvent} (hfair : s.Fair e) (ht : s.step e = some t) :
    t.Sound ∧ Balanced s t := by
  cases e with
  | createOrder player session market itemId cost num => exact sound_queueOrder h ht
  | clan player session action => exact sound_adminClan h ht
  | execute answer => exact sound_execute h ht
  | complete => exact sound_complete h hfair ht
  | flush player => exact sound_queueRow h ht
  | readRow player =>
      obtain ⟨row, -, rfl⟩ := Option.map_eq_some_iff.mp ht
      exact ⟨⟨h.creates, h.low, h.high⟩, balanced_of_same rfl rfl rfl rfl rfl rfl fun _ _ => rfl⟩
  | connect i => exact sound_connect h hfair ht
  | disconnect player keepOffline => exact sound_disconnect h ht

end Steps

section Runs

/-- The tables when the server starts: nobody is in the game, and nothing is reserved. -/
structure Start (s : GoodsState) : Prop where
  live : s.live = fun _ => none
  queue : s.queue = []
  completions : s.completions = []
  logins : s.logins = []
  reserved : s.reserved = []
  created : s.created = []
  returned : s.returned = []
  creds : ∀ p, ∀ row ∈ s.rows p, i64Min ≤ row.creds ∧ row.creds ≤ i64Max

theorem Start.sound (h : s.Start) : s.Sound := by
  have hrange : ∀ p, i64Min ≤ s.held p .creds ∧ s.held p .creds ≤ i64Max := by
    intro p
    rw [held, h.live, lastRow, h.queue]
    cases hrow : s.rows p with
    | none => simp [queuedRows, i64Min, i64Max]
    | some row => simpa [queuedRows, LivePlayer.amount] using h.creds p row hrow
  refine ⟨fun request action hmem => ?_, fun p => (hrange p).1, fun p => ?_⟩
  · rw [h.queue] at hmem
    cases hmem
  · rw [pending, h.queue, h.completions, h.created]
    exact (Int.add_zero _).trans_le (hrange p).2

theorem balanced_run (hs : s.Sound) {es : List GoodsEvent} (hfair : Meets step Fair s es)
    (hrun : run step s es = some t) : Balanced s t := by
  induction es generalizing s with
  | nil =>
      cases hrun
      exact Balanced.refl _
  | cons e es ih =>
      obtain ⟨u, hu, ht⟩ := run_cons_eq_some.mp hrun
      obtain ⟨hsound, hbalanced⟩ := sound_step hs hfair.1 hu
      exact hbalanced.trans (ih hsound (hfair.2 u hu) ht)

/-- In a run of fair steps every reservation is under way, in a created order or clan, or returned, and
in one of these ways once; the goods of a player are what he has and what is reserved or used. -/
theorem reserved_once (s t : GoodsState) (es : List GoodsEvent) (hs : s.Start) (hfair : Meets step Fair s es)
    (hrun : run step s es = some t) :
    t.reserved.Perm (t.pending ++ t.created ++ t.returned) ∧
      (∀ p g, t.held p g + reservedAmount p g (t.pending ++ t.created) = s.held p g) ∧
      (∀ p g, t.spent p g = s.spent p g + reservedAmount p g t.created) ∧
      (t.Settled → t.reserved.Perm (t.created ++ t.returned) ∧
        ∀ p g, t.held p g + t.spent p g = s.held p g + s.spent p g) := by
  have hbalanced := balanced_run hs.sound hfair hrun
  have hpending : s.pending = [] := by rw [pending, hs.queue, hs.completions]; rfl
  have hledger := hbalanced.ledger
  have hheld := hbalanced.held
  have hspent := hbalanced.spent
  rw [hpending, hs.reserved, hs.created, hs.returned] at hledger
  simp only [hpending, hs.created, List.append_nil, List.nil_append, reservedAmount_nil, Int.add_zero]
    at hledger hheld hspent
  refine ⟨hledger.symm, hheld, hspent, fun hsettled => ⟨?_, fun p g => ?_⟩⟩
  · rw [hsettled] at hledger
    exact hledger.symm
  · have hheld := hheld p g
    rw [hsettled, List.nil_append] at hheld
    rw [hspent p g]
    omega

/-- A player with 1000 credits and five of an item. -/
def onePlayer : GoodsState where
  orders := []
  lastOrder := 0
  store := ⟨[⟨2, "two", none, 0⟩], [], ∅, ∅, List.pairwise_singleton .., List.nodup_nil⟩
  rows := fun p => if p = 2 then some ⟨0, 1000, fun i => if i = 0 then 5 else 0, 0, none, 0, false⟩ else none
  live := fun _ => none
  queue := []
  completions := []
  logins := []
  reserved := []
  created := []
  returned := []

theorem start_onePlayer : onePlayer.Start where
  live := rfl
  queue := rfl
  completions := rfl
  logins := rfl
  reserved := rfl
  created := rfl
  returned := rfl
  creds := by
    intro p row hrow
    obtain ⟨-, ⟨⟩⟩ := Option.ite_none_right_eq_some.mp (show (if p = 2 then some _ else none) = some row from hrow)
    decide

/-- The order is created, and the creation of the clan fails. -/
def orderAndNoClan : List GoodsEvent :=
  [.readRow 2, .connect 0, .createOrder 2 7 (some (0, 0)) 0 10 3, .clan 2 7 (.create "clan" "CLN"),
    .execute ⟨⟨true, true, 0⟩, false⟩, .execute ⟨⟨true, false, 0⟩, false⟩, .complete, .complete]

theorem fair_orderAndNoClan : Meets step Fair onePlayer orderAndNoClan := by
  refine ⟨trivial, fun t₁ h₁ => ⟨?_, fun t₂ h₂ => ⟨trivial, fun t₃ h₃ => ⟨trivial, fun t₄ h₄ => ⟨trivial, fun t₅ h₅ =>
    ⟨trivial, fun t₆ h₆ => ⟨?_, fun t₇ h₇ => ⟨?_, fun _ _ => trivial⟩⟩⟩⟩⟩⟩⟩⟩
  · obtain rfl := Option.some.inj h₁
    intro login hlogin _ g
    obtain rfl := Option.some.inj hlogin
    cases g <;> rfl
  all_goals
    obtain rfl := Option.some.inj h₁
    obtain rfl := Option.some.inj h₂
    obtain rfl := Option.some.inj h₃
    obtain rfl := Option.some.inj h₄
    obtain rfl := Option.some.inj h₅
    obtain rfl := Option.some.inj h₆
  · intro c hc
    obtain rfl := Option.some.inj hc
    decide
  · obtain rfl := Option.some.inj h₇
    intro c hc
    obtain rfl := Option.some.inj hc
    set_option maxRecDepth 1000 in
    decide

theorem reserved_once_order_and_no_clan :
    ∃ t, run step onePlayer orderAndNoClan = some t ∧ t.Settled ∧ t.created.length = 1 ∧ t.returned.length = 1 ∧
      t.reserved.Perm (t.created ++ t.returned) ∧
      ∀ p g, t.held p g + t.spent p g = onePlayer.held p g + onePlayer.spent p g := by
  have hrun : (run step onePlayer orderAndNoClan).isSome := by decide
  obtain ⟨t, ht⟩ := Option.isSome_iff_exists.mp hrun
  obtain ⟨-, -, -, hsettled⟩ := reserved_once onePlayer t _ start_onePlayer fair_orderAndNoClan ht
  have hend : (run step onePlayer orderAndNoClan).map (fun t => (t.pending, t.created.length, t.returned.length)) =
      some ([], 1, 1) := by
    set_option maxRecDepth 1000 in
    decide
  rw [ht] at hend
  obtain ⟨hpending, hend⟩ := Prod.mk.inj (Option.some.inj hend)
  obtain ⟨hcreated, hreturned⟩ := Prod.mk.inj hend
  exact ⟨t, ht, hpending, hcreated, hreturned, hsettled hpending⟩

/-- The credits for a clan get lost when its creation fails after the player has left, and the items
of an order come back with a row that was saved before the order. -/
theorem reserved_lost_and_doubled :
    onePlayer.Start ∧
    (∃ t, run step onePlayer
        [.readRow 2, .connect 0, .clan 2 7 (.create "clan" "CLN"), .disconnect 2 false,
          .execute ⟨⟨true, false, 0⟩, false⟩, .execute ⟨⟨true, true, 0⟩, false⟩, .complete] = some t ∧
      t.Settled ∧ t.reserved.length = 1 ∧ t.created = [] ∧ t.returned = [] ∧
      t.held 2 .creds = 0 ∧ onePlayer.held 2 .creds = 1000 ∧ t.store.clans = []) ∧
    ∃ t, run step onePlayer
        [.readRow 2, .connect 0, .createOrder 2 7 (some (0, 0)) 0 10 5, .disconnect 2 false, .readRow 2, .connect 0,
          .execute ⟨⟨true, true, 0⟩, false⟩, .execute ⟨⟨true, true, 0⟩, false⟩, .complete] = some t ∧
      t.Settled ∧ t.reserved.length = 1 ∧ t.created.length = 1 ∧ t.returned = [] ∧
      t.held 2 (.item 0) = 5 ∧ onePlayer.held 2 (.item 0) = 5 ∧ t.spent 2 (.item 0) = 5 := by
  refine ⟨start_onePlayer, ⟨_, rfl, ?_⟩, _, rfl, ?_⟩
  · unfold Settled
    set_option maxRecDepth 1000 in
    decide
  · unfold Settled
    decide

end Runs

end GoodsState

end OpenMines
