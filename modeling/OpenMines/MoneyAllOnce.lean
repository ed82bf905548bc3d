import OpenMines.AdminMoneyAll

namespace OpenMines

open Lib.CheckedInt Lib.Run

namespace GameState

variable {P : Type} {g g' : GameState P} {player : PlayerId} {entity : Entity} {c : PlayerEntity P}

theorem isOnline_congr (hactive : g'.activePlayers player = g.activePlayers player)
    (hcomponent : g'.playerComponent player = g.playerComponent player) : g'.isOnline player = g.isOnline player := by
  rw [isOnline, isOnline, hactive, hcomponent]

theorem isOnline_of_some (hcomponent : g.playerComponent player = some (entity, c)) :
    g.isOnline player = ((g.activePlayers player).isSome && c.connection.isSome) := by
  rw [isOnline, hcomponent, Option.any_some]

theorem isOnline_of_none (hcomponent : g.playerComponent player = none) : g.isOnline player = false := by
  rw [isOnline, hcomponent, Option.any_none, Bool.and_false]

theorem playerComponent_creditOnline_none (amount : Int64) (h : g.playerComponent player = none) :
    (g.creditOnline amount).playerComponent player = none := by
  rw [playerComponent] at h ⊢
  cases hentity : g.playerEntities player with
  | none =>
      rw [show (g.creditOnline amount).playerEntities player = none from hentity]
      rfl
  | some e =>
      rw [hentity, Option.bind_some, Option.map_eq_none_iff] at h
      rw [show (g.creditOnline amount).playerEntities player = some e from hentity, Option.bind_some,
        show (g.creditOnline amount).ecs e = none from congrArg (Option.map _) h]
      rfl

theorem playerComponent_creditOnline (amount : Int64) (h : g.playerComponent player = some (entity, c))
    (hid : c.id = player) :
    (g.creditOnline amount).playerComponent player =
      some (entity, if g.isOnline player = true then
        { c with money := saturatingAddI64 c.money amount, dirty := true } else c) := by
  obtain ⟨hentity, hc⟩ := playerComponent_eq_some.mp h
  refine playerComponent_eq_some.mpr ⟨hentity, (congrArg (Option.map _) hc).trans ?_⟩
  rw [Option.map_some, hid, hentity]
  by_cases honline : g.isOnline player = true
  · rw [if_pos ⟨rfl, honline⟩, if_pos honline]
  · rw [if_neg fun h => honline h.2, if_neg honline]

theorem Registered.creditOnline (h : g.Registered) (amount : Int64) : (g.creditOnline amount).Registered := h.setEcs _

end GameState

namespace MoneyServer

variable {P : Type} {ops : Nat → PlayerOps P} {s t : MoneyServer P} {player p : PlayerId} {entity : Entity}
  {c : PlayerEntity P}

/-- Each grant is in what the player has, or a completion brings it; what is not marked is saved. -/
structure Account (s : MoneyServer P) (player : PlayerId) : Prop where
  id : ∀ entity c, s.game.playerComponent player = some (entity, c) → c.id = player
  row : (s.game.playerComponent player).isSome → (s.rows player).isSome
  online : s.completions ≠ [] → (s.game.playerComponent player).isSome → s.game.isOnline player = true
  money : (s.rows player).isSome →
    s.holding player + (if s.game.isOnline player = true then s.awaited player else 0) =
      s.earned player + s.granted player
  saved : s.completions = [] → ∀ entity c, s.game.playerComponent player = some (entity, c) → c.dirty = false →
    s.savedMoney player = c.money.toInt

structure Books (s : MoneyServer P) : Prop where
  registered : s.game.Registered
  accounts : ∀ player, s.Account player
  rows : ∀ player row, s.rows player = some row → row.id = player
  queued : ∀ row, .player row ∈ s.queue → (s.rows row.id).isSome
  logins : ∀ row ∈ s.logins, (s.rows row.id).isSome

section Queue

@[simp] theorem queuedRows_nil : queuedRows [] player = [] := rfl

@[simp] theorem queuedRows_append (queue more : List MoneySave) :
    queuedRows (queue ++ more) player = queuedRows queue player ++ queuedRows more player := List.filterMap_append

theorem queuedRows_player (row : PlayerRow) (queue : List MoneySave) : queuedRows (.player row :: queue) player =
    if row.id = player then row :: queuedRows queue player else queuedRows queue player := by
  by_cases hrow : row.id = player
  · simp [queuedRows, hrow]
  · simp [queuedRows, hrow]

@[simp] theorem queuedRows_adminMoneyAll (amount : Int64) (queue : List MoneySave) :
    queuedRows (.adminMoneyAll amount :: queue) player = queuedRows queue player := rfl

theorem queuedRows_eq_nil (h : ∀ row, .player row ∈ s.queue → row.id ≠ player) : queuedRows s.queue player = [] := by
  refine List.filterMap_eq_nil_iff.mpr fun save hsave => ?_
  cases save with
  | player row => exact if_neg (h row hsave)
  | adminMoneyAll => rfl

theorem savedMoney_congr (hqueue : queuedRows t.queue player = queuedRows s.queue player)
    (hrows : t.rows player = s.rows player) : t.savedMoney player = s.savedMoney player := by
  rw [savedMoney, savedMoney, hqueue, hrows]

theorem savedMoney_queued {o : PlayerOps P} (hqueue : t.queue = s.queue ++ [.player (extractPlayerRow o c)])
    (hid : c.id = player) : t.savedMoney player = c.money.toInt := by
  have hrow : (extractPlayerRow o c).id = player := hid
  rw [savedMoney, hqueue, queuedRows_append, queuedRows_player, if_pos hrow, queuedRows_nil, List.getLast?_concat]
  rfl

theorem savedMoney_queued_of_ne {row : PlayerRow} (hqueue : t.queue = s.queue ++ [.player row]) (hrow : row.id ≠ player)
    (hrows : t.rows player = s.rows player) : t.savedMoney player = s.savedMoney player := by
  refine savedMoney_congr ?_ hrows
  rw [hqueue, queuedRows_append, queuedRows_player, if_neg hrow, queuedRows_nil, List.append_nil]

theorem savedMoney_of_nil (hqueue : queuedRows s.queue player = []) {row : PlayerRow} (hrow : s.rows player = some row) :
    s.savedMoney player = row.money.toInt := by
  rw [savedMoney, hqueue, hrow]
  rfl

end Queue

theorem holding_of_some (h : s.game.playerComponent player = some (entity, c)) : s.holding player = c.money.toInt := by
  rw [holding, h]

theorem holding_of_none (h : s.game.playerComponent player = none) : s.holding player = s.savedMoney player := by
  rw [holding, h]

theorem awaited_congr (h : t.completions = s.completions) : t.awaited player = s.awaited player := by
  rw [awaited, awaited, h]

theorem awaited_nil (h : s.completions = []) : s.awaited player = 0 := by
  rw [awaited, h]
  rfl

theorem Account.congr (h : s.Account player) (hcomponent : t.game.playerComponent player = s.game.playerComponent player)
    (hactive : t.game.activePlayers player = s.game.activePlayers player)
    (hrows : (t.rows player).isSome = (s.rows player).isSome) (hsaved : t.savedMoney player = s.savedMoney player)
    (hcompletions : t.completions = s.completions) (hearned : t.earned player = s.earned player)
    (hgranted : t.granted player = s.granted player) : t.Account player := by
  have honline := GameState.isOnline_congr hactive hcomponent
  have hholding : t.holding player = s.holding player := by rw [holding, holding, hcomponent, hsaved]
  refine ⟨?_, ?_, ?_, ?_, ?_⟩
  · rw [hcomponent]
    exact h.id
  · rw [hcomponent, hrows]
    exact h.row
  · rw [hcompletions, hcomponent, honline]
    exact h.online
  · rw [hrows, hholding, honline, awaited_congr hcompletions, hearned, hgranted]
    exact h.money
  · rw [hcompletions, hcomponent, hsaved]
    exact h.saved

theorem account_of_none (hnone : s.game.playerComponent player = none)
    (hmoney : (s.rows player).isSome → s.savedMoney player = s.earned player + s.granted player) : s.Account player := by
  refine ⟨fun e c h => ?_, fun h => ?_, fun _ h => ?_, fun hrow => ?_, fun _ e c h => ?_⟩
  · cases hnone.symm.trans h
  · rw [hnone] at h
    cases h
  · rw [hnone] at h
    cases h
  · rw [holding_of_none hnone, GameState.isOnline_of_none hnone, if_neg (by decide), Int.add_zero]
    exact hmoney hrow
  · cases hnone.symm.trans h

theorem account_of_some (hcomponent : s.game.playerComponent player = some (entity, c)) (hid : c.id = player)
    (hrow : (s.rows player).isSome) (honline : s.completions ≠ [] → s.game.isOnline player = true)
    (hmoney : c.money.toInt + (if s.game.isOnline player = true then s.awaited player else 0) =
      s.earned player + s.granted player)
    (hsaved : s.completions = [] → c.dirty = false → s.savedMoney player = c.money.toInt) : s.Account player := by
  refine ⟨fun e d h => ?_, fun _ => hrow, fun hne _ => honline hne, fun _ => ?_, fun hnil e d h => ?_⟩
  · obtain ⟨rfl, rfl⟩ := Prod.mk.inj (Option.some.inj (hcomponent.symm.trans h))
    exact hid
  · rw [holding_of_some hcomponent]
    exact hmoney
  · obtain ⟨rfl, rfl⟩ := Prod.mk.inj (Option.some.inj (hcomponent.symm.trans h))
    exact hsaved hnil

theorem Account.money_of_some (h : s.Account player) (hcomponent : s.game.playerComponent player = some (entity, c)) :
    c.money.toInt + (if s.game.isOnline player = true then s.awaited player else 0) =
      s.earned player + s.granted player :=
  holding_of_some hcomponent ▸ h.money (h.row (Option.isSome_of_eq_some hcomponent))

theorem Account.money_of_none (h : s.Account player) (hnone : s.game.playerComponent player = none)
    (hrow : (s.rows player).isSome) : s.savedMoney player = s.earned player + s.granted player := by
  have hmoney := h.money hrow
  rwa [holding_of_none hnone, GameState.isOnline_of_none hnone, if_neg (by decide), Int.add_zero] at hmoney

/-- A change to the entity of a player that is marked, or saved with it. -/
theorem Account.setComponent {c' : PlayerEntity P} (h : s.Account player)
    (hbefore : s.game.playerComponent player = some (entity, c))
    (hafter : t.game.playerComponent player = some (entity, c')) (hid : c'.id = c.id)
    (hconnection : c'.connection = c.connection) (hactive : t.game.activePlayers player = s.game.activePlayers player)
    (hrows : t.rows player = s.rows player) (hcompletions : t.completions = s.completions)
    (hearned : t.earned player = s.earned player + (c'.money.toInt - c.money.toInt))
    (hgranted : t.granted player = s.granted player)
    (hsaved : c'.dirty = false → t.savedMoney player = c'.money.toInt) : t.Account player := by
  have honline : t.game.isOnline player = s.game.isOnline player := by
    rw [GameState.isOnline_of_some hbefore, GameState.isOnline_of_some hafter, hactive, hconnection]
  refine account_of_some hafter (hid.trans (h.id entity c hbefore)) ?_ (fun hne => ?_) ?_ fun _ => hsaved
  · exact hrows ▸ h.row (Option.isSome_of_eq_some hbefore)
  · exact honline ▸ h.online (hcompletions ▸ hne) (Option.isSome_of_eq_some hbefore)
  · have hmoney := h.money_of_some hbefore
    rw [honline, awaited_congr hcompletions, hearned, hgranted]
    omega

theorem books_opened (rows : PlayerId → Option PlayerRow) : (opened rows : MoneyServer P).Books where
  registered := GameState.registered_new
  accounts player := by
    refine account_of_none rfl fun hrow => ?_
    obtain ⟨row, hrow⟩ := Option.isSome_iff_exists.mp hrow
    obtain ⟨old, hold, rfl⟩ := Option.map_eq_some_iff.mp hrow
    have hearned : (opened rows : MoneyServer P).earned player = old.money.toInt := by
      change ((rows player).map fun row => row.money.toInt).getD 0 = _
      rw [hold]
      rfl
    rw [savedMoney_of_nil rfl hrow, hearned]
    exact (Int.add_zero _).symm
  rows player row h := by
    obtain ⟨_, _, rfl⟩ := Option.map_eq_some_iff.mp h
    rfl
  queued _ h := by cases h
  logins _ h := by cases h

theorem Books.component_row (h : s.Books) (hcomponent : s.game.playerComponent player = some (entity, c)) :
    (s.rows player).isSome := (h.accounts player).row (Option.isSome_of_eq_some hcomponent)

theorem Books.noComponent (h : s.Books) (hrow : s.rows player = none) : s.game.playerComponent player = none := by
  by_contra hsome
  obtain ⟨component, hcomponent⟩ := Option.ne_none_iff_exists'.mp hsome
  have hknown := (h.accounts player).row (Option.isSome_of_eq_some hcomponent)
  rw [hrow] at hknown
  cases hknown

theorem books_create {row : PlayerRow} (h : s.Books) (hstep : s.create row = some t) : t.Books := by
  obtain ⟨hnew, ht⟩ := Option.ite_none_right_eq_some.mp hstep
  obtain rfl := Option.some.inj ht
  have hrows : ∀ {player}, (s.rows player).isSome → (Function.update s.rows row.id (some row) player).isSome := by
    intro player hsome
    rw [Function.update_apply]
    split
    · rfl
    · exact hsome
  refine ⟨h.registered, fun p => ?_, fun p r hr => ?_, fun r hr => hrows (h.queued r hr),
    fun r hr => hrows (h.logins r hr)⟩
  · by_cases hp : p = row.id
    · subst hp
      have hqueue : queuedRows s.queue row.id = [] := queuedRows_eq_nil fun r hr heq => by
        have hknown := h.queued r hr
        rw [heq, hnew] at hknown
        cases hknown
      refine account_of_none (h.noComponent hnew) fun _ => ?_
      rw [savedMoney]
      dsimp only
      rw [hqueue, Function.update_self, Function.update_self, Function.update_self, Int.add_zero]
      rfl
    · exact (h.accounts p).congr rfl rfl (congrArg Option.isSome (Function.update_of_ne hp ..))
        (savedMoney_congr rfl (Function.update_of_ne hp ..)) rfl (Function.update_of_ne hp ..)
        (Function.update_of_ne hp ..)
  · dsimp only at hr
    rw [Function.update_apply] at hr
    split at hr
    · rename_i hp
      exact hp ▸ Option.some.inj hr ▸ rfl
    · exact h.rows p r hr

theorem books_connect {hub : SessionHub} {i : Nat} {session : SessionId} {now : Nat} (h : s.Books)
    (hfair : s.Fair (.connect hub i session now)) (hstep : s.step ops (.connect hub i session now) = some t) :
    t.Books := by
  obtain ⟨row, hlogin, rfl⟩ := Option.map_eq_some_iff.mp hstep
  refine ⟨h.registered.connect .., fun p => ?_, h.rows, h.queued, fun r hr => h.logins r (List.mem_of_mem_eraseIdx hr)⟩
  by_cases hp : p = row.id
  · subst hp
    cases hopen : hub.isOpen session with
    | false =>
        have hsame := GameState.connect_closed hopen (ops now) s.game row
        exact (h.accounts row.id).congr (congrArg (·.playerComponent row.id) hsame)
          (congrArg (·.activePlayers row.id) hsame) rfl rfl rfl rfl rfl
    | true =>
        obtain ⟨hafter, hactive⟩ := GameState.connect_self hopen
        have hfair := hfair hopen row hlogin
        have hknown := h.logins row (List.mem_of_getElem? hlogin)
        cases hbefore : s.game.playerComponent row.id with
        | none =>
            rw [hbefore] at hfair hafter
            have honline : (s.game.connectEntityInTick (ops now) hub row session).isOnline row.id = true := by
              rw [GameState.isOnline_of_some hafter, hactive]
              rfl
            have hmoney : row.money.toInt + s.awaited row.id = s.earned row.id + s.granted row.id :=
              hfair.trans ((h.accounts row.id).money_of_none hbefore hknown)
            refine account_of_some hafter rfl hknown (fun _ => honline) ?_ fun hnil _ => ?_
            · rw [if_pos honline]
              exact hmoney
            · have hnone : s.awaited row.id = 0 := awaited_nil hnil
              exact (hfair.symm.trans (hnone ▸ Int.add_zero _))
        | some component =>
            obtain ⟨entity, c⟩ := component
            rw [hbefore] at hfair hafter
            have honline : (s.game.connectEntityInTick (ops now) hub row session).isOnline row.id = true := by
              rw [GameState.isOnline_of_some hafter, hactive]
              rfl
            have hmoney := (h.accounts row.id).money_of_some hbefore
            refine account_of_some hafter ((h.accounts row.id).id entity c hbefore) hknown (fun _ => honline) ?_
              fun hnil _ => (h.accounts row.id).saved hnil entity c hbefore (hfair.resolve_right fun hne => hne hnil)
            rw [if_pos honline]
            by_cases hnil : s.completions = []
            · rw [awaited_nil hnil, ite_self] at hmoney
              exact (congrArg (c.money.toInt + ·) (awaited_nil hnil)).trans hmoney
            · rwa [if_pos ((h.accounts row.id).online hnil (Option.isSome_of_eq_some hbefore))] at hmoney
  · obtain ⟨hcomponent, hactive⟩ := GameState.connect_other h.registered hp
    exact (h.accounts p).congr hcomponent hactive rfl rfl rfl rfl rfl

/-- The row of a player that plays is queued. -/
theorem Books.queuePlayer (h : s.Books) {row : PlayerRow} (hrow : (s.rows row.id).isSome) :
    ∀ r, MoneySave.player r ∈ s.queue ++ [.player row] → (s.rows r.id).isSome := by
  intro r hr
  rcases List.mem_append.mp hr with hold | hnew
  · exact h.queued r hold
  · obtain rfl := MoneySave.player.inj (List.mem_singleton.mp hnew)
    exact hrow

theorem books_disconnect {session : SessionId} {now : Nat} (h : s.Books)
    (hfair : s.Fair (.disconnect player session now)) : (s.disconnect ops player session now).Books := by
  have hregistered := h.registered.disconnect (ops now) player session
  cases howner : s.game.activePlayerEntityForSession player session with
  | none =>
      rw [disconnect, GameState.disconnect_of_none howner]
      dsimp only
      rw [Option.toList_none, List.map_nil, List.append_nil]
      exact h
  | some owner =>
      have hnil : s.completions = [] := hfair.resolve_right fun hnone => by
        rw [howner] at hnone
        cases hnone
      obtain ⟨hrow, -, hafter⟩ := @GameState.disconnect_self _ (ops now) _ _ _ _ h.registered howner
      rw [disconnect]
      dsimp only
      rw [hrow]
      cases hbefore : s.game.playerComponent player with
      | none =>
          rw [hbefore] at hafter
          rw [Option.map_none, Option.toList_none, List.map_nil, List.append_nil]
          refine ⟨hregistered, fun p => ?_, h.rows, h.queued, h.logins⟩
          by_cases hp : p = player
          · subst hp
            exact account_of_none hafter fun hrow => (h.accounts p).money_of_none hbefore hrow
          · obtain ⟨hcomponent, hactive⟩ := GameState.disconnect_other h.registered hp
            exact (h.accounts p).congr hcomponent hactive rfl rfl rfl rfl rfl
      | some component =>
          obtain ⟨entity, c⟩ := component
          have hid := (h.accounts player).id entity c hbefore
          have hknown := h.component_row hbefore
          have hmoney := (h.accounts player).money_of_some hbefore
          rw [awaited_nil hnil, ite_self, Int.add_zero] at hmoney
          rw [hbefore, Option.bind_some] at hafter
          refine ⟨hregistered, fun p => ?_, h.rows, h.queuePlayer (show (s.rows c.id).isSome from hid.symm ▸ hknown),
            h.logins⟩
          by_cases hp : p = player
          · subst hp
            by_cases hkeeps : (ops now).running c.programmator
            · rw [if_pos hkeeps] at hafter
              refine account_of_some hafter hid hknown (fun hne => absurd hnil hne) ?_
                fun _ _ => savedMoney_queued (s := s) rfl hid
              rw [GameState.isOnline_of_some hafter, Option.isSome_none, Bool.and_false, if_neg (by decide), Int.add_zero]
              exact hmoney
            · rw [if_neg hkeeps] at hafter
              exact account_of_none hafter fun _ => (savedMoney_queued (s := s) rfl hid).trans hmoney
          · obtain ⟨hcomponent, hactive⟩ := GameState.disconnect_other h.registered hp
            exact (h.accounts p).congr hcomponent hactive rfl
              (savedMoney_queued_of_ne rfl (fun heq => hp (heq.symm.trans hid)) rfl) rfl rfl rfl

theorem books_change {f : PlayerEntity P → PlayerEntity P} (h : s.Books) : (s.change player f).Books := by
  rw [change]
  split
  · rename_i entity c hcomponent
    refine ⟨h.registered.modifyPlayer .., fun p => ?_, h.rows, h.queued, h.logins⟩
    by_cases hp : p = player
    · subst hp
      exact (h.accounts p).setComponent hcomponent (GameState.playerComponent_modifyPlayer_self hcomponent _) rfl rfl
        (congrFun (GameState.activePlayers_modifyPlayer ..) p) rfl rfl (Function.update_self ..) rfl nofun
    · exact (h.accounts p).congr (GameState.playerComponent_modifyPlayer_of_ne h.registered hp _)
        (congrFun (GameState.activePlayers_modifyPlayer ..) p) rfl rfl rfl (Function.update_of_ne hp ..) rfl
  · exact h

theorem books_flush {now : Nat} (h : s.Books) : (s.flush ops player now).Books := by
  rw [flush]
  split
  · rename_i entity c hcomponent
    have hid := (h.accounts player).id entity c hcomponent
    split
    · refine ⟨h.registered.modifyPlayer .., fun p => ?_, h.rows,
        h.queuePlayer (show (s.rows c.id).isSome from hid.symm ▸ h.component_row hcomponent), h.logins⟩
      by_cases hp : p = player
      · subst hp
        exact (h.accounts p).setComponent hcomponent (GameState.playerComponent_modifyPlayer_self hcomponent _) rfl rfl
          (congrFun (GameState.activePlayers_modifyPlayer ..) p) rfl rfl (by simp) rfl
          fun _ => savedMoney_queued (s := s) rfl hid
      · exact (h.accounts p).congr (GameState.playerComponent_modifyPlayer_of_ne h.registered hp _)
          (congrFun (GameState.activePlayers_modifyPlayer ..) p) rfl
          (savedMoney_queued_of_ne rfl (fun heq => hp (heq.symm.trans hid)) rfl) rfl rfl rfl
    · exact h
  · exact h

theorem books_save {now : Nat} (h : s.Books) : (s.save ops player now).Books := by
  rw [save]
  split
  · rename_i entity c hcomponent
    have hid := (h.accounts player).id entity c hcomponent
    refine ⟨h.registered, fun p => ?_, h.rows,
      h.queuePlayer (show (s.rows c.id).isSome from hid.symm ▸ h.component_row hcomponent), h.logins⟩
    by_cases hp : p = player
    · subst hp
      exact (h.accounts p).setComponent hcomponent hcomponent rfl rfl rfl rfl rfl (by simp) rfl
        fun _ => savedMoney_queued (s := s) rfl hid
    · exact (h.accounts p).congr rfl rfl rfl (savedMoney_queued_of_ne rfl (fun heq => hp (heq.symm.trans hid)) rfl)
        rfl rfl rfl
  · exact h

theorem books_moneyAll (h : s.Books) (amount : Int64) :
    ({ s with queue := s.queue ++ [.adminMoneyAll amount] } : MoneyServer P).Books := by
  refine ⟨h.registered, fun p => ?_, h.rows, fun r hr => ?_, h.logins⟩
  · refine (h.accounts p).congr rfl rfl rfl (savedMoney_congr ?_ rfl) rfl rfl rfl
    rw [queuedRows_append, queuedRows_adminMoneyAll, queuedRows_nil, List.append_nil]
  · rcases List.mem_append.mp hr with hold | hnew
    · exact h.queued r hold
    · cases List.mem_singleton.mp hnew

/-- What a save has written is what was saved. -/
theorem savedMoney_written {saved row : PlayerRow} {rest : List MoneySave} (hqueue : s.queue = .player saved :: rest)
    (hrows : t.rows = Function.update s.rows saved.id (some (saved.overwrite row))) (hrest : t.queue = rest)
    (player : PlayerId) : t.savedMoney player = s.savedMoney player := by
  rw [savedMoney, savedMoney, hrest, hqueue, queuedRows_player, hrows]
  by_cases hp : saved.id = player
  · subst hp
    rw [if_pos rfl, Function.update_self]
    cases hlast : queuedRows rest saved.id with
    | nil => rfl
    | cons first more => rw [List.getLast?_cons_cons, List.getLast?_eq_some_getLast (List.cons_ne_nil first more)]
  · rw [if_neg hp, Function.update_of_ne (Ne.symm hp)]

theorem books_persist_player {saved : PlayerRow} {rest : List MoneySave} (h : s.Books)
    (hqueue : s.queue = .player saved :: rest) (hstep : s.persist = some t) : t.Books := by
  rw [persist, hqueue] at hstep
  obtain ⟨row, hrow, rfl⟩ := Option.map_eq_some_iff.mp hstep
  have hrows : ∀ player, (Function.update s.rows saved.id (some (saved.overwrite row)) player).isSome =
      (s.rows player).isSome := by
    intro player
    rw [Function.update_apply]
    split
    · rename_i hp
      rw [hp, hrow]
      rfl
    · rfl
  refine ⟨h.registered, fun p => ?_, fun p r hr => ?_, fun r hr => ?_, fun r hr => (hrows r.id).trans (h.logins r hr)⟩
  · exact (h.accounts p).congr rfl rfl (hrows p) (savedMoney_written hqueue rfl rfl p) rfl rfl rfl
  · dsimp only at hr
    rw [Function.update_apply] at hr
    split at hr
    · rename_i hp
      exact hp ▸ Option.some.inj hr ▸ rfl
    · exact h.rows p r hr
  · exact (hrows r.id).trans (h.queued r (hqueue ▸ List.mem_cons_of_mem _ hr))

theorem toInt_addMoney {amount : Int64} {row : PlayerRow} (h : FitsI64 (row.money.toInt + amount.toInt)) :
    (row.addMoney amount).money.toInt = row.money.toInt + amount.toInt :=
  Int64.toInt_ofInt_of_le h.1 (Int.lt_add_one_of_le h.2)

theorem awaited_concat {grant : AppliedMoneyAll} (hcompletions : t.completions = s.completions ++ [grant])
    (hknown : grant.known player = true) : t.awaited player = s.awaited player + grant.amount.toInt := by
  rw [awaited, hcompletions, List.filter_append, List.map_append, List.sum_append, List.filter_singleton, hknown,
    cond_true, List.map_singleton, List.sum_singleton, awaited]

/-- A grant gives each player its money once: to the row, or by the completion. -/
theorem books_persist_moneyAll {amount : Int64} {rest : List MoneySave} (h : s.Books) (hfair : s.Fair .persist)
    (hqueue : s.queue = .adminMoneyAll amount :: rest) (hstep : s.persist = some t) : t.Books := by
  have hfair := hfair amount rest hqueue
  rw [persist, hqueue] at hstep
  obtain rfl := Option.some.inj hstep
  have hrows : ∀ player, ((s.rows player).map (PlayerRow.addMoney amount)).isSome = (s.rows player).isSome := fun player =>
    Option.isSome_map
  refine ⟨h.registered, fun p => ?_, fun p r hr => ?_, fun r hr => ?_, fun r hr => (hrows r.id).trans (h.logins r hr)⟩
  · cases hcomponent : s.game.playerComponent p with
    | none =>
        refine account_of_none hcomponent fun hsome => ?_
        rw [hrows] at hsome
        obtain ⟨row, hrow⟩ := Option.isSome_iff_exists.mp hsome
        have hfair := hfair p row hrow
        rw [hcomponent, Option.isSome_none, if_neg Bool.false_ne_true] at hfair
        have hmoney := (h.accounts p).money_of_none hcomponent hsome
        have hold : queuedRows s.queue p = [] := hqueue ▸ hfair.1
        rw [savedMoney_of_nil hold hrow] at hmoney
        rw [savedMoney]
        dsimp only
        rw [hfair.1, hrow, Option.isSome_some, if_pos rfl]
        exact (toInt_addMoney hfair.2).trans (by omega)
    | some component =>
        obtain ⟨entity, c⟩ := component
        have hsome := h.component_row hcomponent
        obtain ⟨row, hrow⟩ := Option.isSome_iff_exists.mp hsome
        have honline := hfair p row hrow
        rw [hcomponent, Option.isSome_some, if_pos rfl] at honline
        have hmoney := (h.accounts p).money_of_some hcomponent
        rw [if_pos honline] at hmoney
        refine account_of_some hcomponent ((h.accounts p).id entity c hcomponent) ((hrows p).trans hsome)
          (fun _ => honline) ?_ fun hnil => absurd hnil (by simp)
        rw [if_pos honline, awaited_concat (s := s) rfl hsome]
        dsimp only
        rw [if_pos hsome]
        omega
  · obtain ⟨old, hold, rfl⟩ := Option.map_eq_some_iff.mp hr
    exact h.rows p old hold
  · exact (hrows r.id).trans (h.queued r (hqueue ▸ List.mem_cons_of_mem _ hr))

theorem toInt_saturatingAddI64 {a b : Int64} (h : FitsI64 (a.toInt + b.toInt)) :
    (saturatingAddI64 a b).toInt = a.toInt + b.toInt := by
  rw [saturatingAddI64, toInt_clampI64, if_neg (Int.not_lt.mpr h.1), if_neg (Int.not_lt.mpr h.2)]

theorem awaited_cons {grant : AppliedMoneyAll} {rest : List AppliedMoneyAll}
    (hcompletions : s.completions = grant :: rest) :
    s.awaited player = (if grant.known player = true then grant.amount.toInt else 0) +
      ((rest.filter fun grant => grant.known player).map fun grant => grant.amount.toInt).sum := by
  rw [awaited, hcompletions, List.filter_cons]
  split
  · rw [List.map_cons, List.sum_cons]
  · rw [Int.zero_add]

theorem books_complete (h : s.Books) (hfair : s.Fair .complete) (hstep : s.complete = some t) : t.Books := by
  cases hcompletions : s.completions with
  | nil =>
      rw [complete, hcompletions] at hstep
      cases hstep
  | cons grant rest =>
      have hfair := hfair grant (by rw [hcompletions]; rfl)
      have hbusy : s.completions ≠ [] := by
        rw [hcompletions]
        exact List.cons_ne_nil _ _
      rw [complete, hcompletions] at hstep
      obtain rfl := Option.some.inj hstep
      refine ⟨h.registered.creditOnline _, fun p => ?_, h.rows, h.queued, h.logins⟩
      cases hbefore : s.game.playerComponent p with
      | none =>
          have hafter := GameState.playerComponent_creditOnline_none grant.amount hbefore
          refine account_of_none hafter fun hrow => ?_
          dsimp only
          rw [GameState.isOnline_of_none hbefore, if_neg fun hmem => by cases hmem.1]
          exact (h.accounts p).money_of_none hbefore hrow
      | some component =>
          obtain ⟨entity, c⟩ := component
          have hid := (h.accounts p).id entity c hbefore
          have honline := (h.accounts p).online hbusy (Option.isSome_of_eq_some hbefore)
          have hafter := GameState.playerComponent_creditOnline grant.amount hbefore hid
          rw [if_pos honline] at hafter
          have honline' : (s.game.creditOnline grant.amount).isOnline p = true := by
            rw [GameState.isOnline_of_some hbefore] at honline
            rw [GameState.isOnline_of_some hafter]
            exact honline
          have hmoney := (h.accounts p).money_of_some hbefore
          rw [if_pos honline] at hmoney
          refine account_of_some hafter hid (h.component_row hbefore) (fun _ => honline') ?_ fun _ hclean => by cases hclean
          rw [if_pos honline', awaited]
          dsimp only
          rw [toInt_saturatingAddI64 (hfair p entity c hbefore honline), honline]
          rw [awaited_cons hcompletions] at hmoney
          cases hknown : grant.known p with
          | false =>
              rw [hknown, if_neg (by decide), Int.zero_add] at hmoney
              rw [if_pos ⟨rfl, rfl⟩]
              omega
          | true =>
              rw [hknown, if_pos rfl] at hmoney
              rw [if_neg fun hnew => by cases hnew.2]
              omega

theorem books_step {e : MoneyEvent P} (h : s.Books) (hfair : s.Fair e) (hstep : s.step ops e = some t) : t.Books := by
  cases e with
  | create row => exact books_create h hstep
  | readRow player =>
      obtain ⟨row, hrow, rfl⟩ := Option.map_eq_some_iff.mp hstep
      refine ⟨h.registered, fun p => (h.accounts p).congr rfl rfl rfl rfl rfl rfl rfl, h.rows, h.queued, fun r hr => ?_⟩
      rcases List.mem_append.mp hr with hold | hnew
      · exact h.logins r hold
      · obtain rfl := List.mem_singleton.mp hnew
        exact h.rows player r hrow ▸ Option.isSome_of_eq_some hrow
  | connect hub i session now => exact books_connect h hfair hstep
  | disconnect player session now => exact Option.some.inj hstep ▸ books_disconnect h hfair
  | change player f => exact Option.some.inj hstep ▸ books_change h
  | flush player now => exact Option.some.inj hstep ▸ books_flush h
  | save player now => exact Option.some.inj hstep ▸ books_save h
  | moneyAll amount => exact Option.some.inj hstep ▸ books_moneyAll h amount
  | persist =>
      cases hqueue : s.queue with
      | nil =>
          rw [step, persist, hqueue] at hstep
          cases hstep
      | cons save rest =>
          cases save with
          | player saved => exact books_persist_player h hqueue hstep
          | adminMoneyAll amount => exact books_persist_moneyAll h hfair hqueue hstep
  | complete => exact books_complete h hfair hstep

/-- Where all steps meet the conditions and no completion waits, each player has what it came with and made, and each
grant since it is there once; and so has its row where all there is to save of it is written. -/
theorem granted_once {rows : PlayerId → Option PlayerRow} {es : List (MoneyEvent P)}
    (hrun : run (step ops) (opened rows) es = some t) (hfair : Meets (step ops) Fair (opened rows) es)
    (hcompleted : t.completions = []) :
    ∀ player row, t.rows player = some row →
      t.holding player = t.earned player + t.granted player ∧
        (t.Written player → row.money.toInt = t.earned player + t.granted player ∧
          ∀ entity c, t.game.playerComponent player = some (entity, c) → c.money = row.money) := by
  have hbooks : t.Books := run_preserves_of_meets (P := Books) (books_opened rows) hfair
    (fun _ _ _ hu hcond huv => books_step hu hcond huv) hrun
  intro player row hrow
  have hmoney := (hbooks.accounts player).money (Option.isSome_of_eq_some hrow)
  rw [awaited_nil hcompleted, ite_self, Int.add_zero] at hmoney
  refine ⟨hmoney, fun ⟨hqueue, hclean⟩ => ?_⟩
  have hsaved := savedMoney_of_nil hqueue hrow
  cases hcomponent : t.game.playerComponent player with
  | none =>
      rw [holding_of_none hcomponent, hsaved] at hmoney
      exact ⟨hmoney, nofun⟩
  | some component =>
      obtain ⟨entity, c⟩ := component
      have hsame := (hbooks.accounts player).saved hcompleted entity c hcomponent (hclean entity c hcomponent)
      rw [holding_of_some hcomponent, ← hsame, hsaved] at hmoney
      refine ⟨hmoney, fun e d hd => ?_⟩
      obtain ⟨rfl, rfl⟩ := Prod.mk.inj (Option.some.inj hd)
      exact Int64.toInt_inj.mp (hsame.symm.trans hsaved)

section Runs

def minerOnly : PlayerId → Option PlayerRow := fun p => if p = 7 then some ScheduledPrograms.miner else none

def minerOps : Nat → PlayerOps PlayerProgram := PlayerProgram.ops ScheduledPrograms.textOnly

/-- The grant comes while the miner plays. -/
def grantedOnline : List (MoneyEvent PlayerProgram) :=
  [.readRow 7, .connect SessionHub.new.open.1 0 1 0, .moneyAll 15, .persist, .complete]

/-- The miner leaves between the command and the grant: its row is written after the grant. -/
def leavesBefore : List (MoneyEvent PlayerProgram) :=
  [.readRow 7, .connect SessionHub.new.open.1 0 1 0, .moneyAll 15, .disconnect 7 1 5, .persist, .persist, .complete]

/-- The miner comes between the grant and its completion. -/
def comesBetween : List (MoneyEvent PlayerProgram) :=
  [.moneyAll 15, .persist, .readRow 7, .connect SessionHub.new.open.1 0 1 0, .complete, .flush 7 10, .persist]

/-- The program of the miner runs while nobody plays it. -/
def runsOffline : List (MoneyEvent PlayerProgram) :=
  [.readRow 7, .connect SessionHub.new.open.1 0 1 0,
    .change 7 fun c => { c with programmator := { c.programmator with prog := { c.programmator.prog with running := true } } },
    .disconnect 7 1 5, .persist, .moneyAll 15, .persist, .complete, .flush 7 10, .persist]

/-- What a run leaves to the miner: in its row, and what it has earned and was granted; and whether all is written. -/
def balance (es : List (MoneyEvent PlayerProgram)) : Option (Int64 × Int × Int × Bool) :=
  (run (step minerOps) (opened minerOnly) es).bind fun t => (t.rows 7).map fun row =>
    (row.money, t.earned 7, t.granted 7, t.queue.isEmpty && t.completions.isEmpty &&
      (t.game.playerComponent 7).all fun component => !component.2.dirty)

theorem run_of_balance {es : List (MoneyEvent PlayerProgram)} {money : Int64} {earned granted : Int}
    (h : balance es = some (money, earned, granted, true)) :
    ∃ t row, run (step minerOps) (opened minerOnly) es = some t ∧ t.rows 7 = some row ∧ row.money = money ∧
      t.earned 7 = earned ∧ t.granted 7 = granted ∧ t.completions = [] ∧ t.Written 7 := by
  obtain ⟨t, ht, hmap⟩ := Option.bind_eq_some_iff.mp h
  obtain ⟨row, hrow, heq⟩ := Option.map_eq_some_iff.mp hmap
  simp only [Prod.mk.injEq, Bool.and_eq_true, List.isEmpty_iff] at heq
  obtain ⟨hmoney, hearned, hgranted, ⟨hqueue, hcompletions⟩, hclean⟩ := heq
  refine ⟨t, row, ht, hrow, hmoney, hearned, hgranted, hcompletions, hqueue ▸ rfl, fun entity c hcomponent => ?_⟩
  rw [hcomponent] at hclean
  exact Bool.not_eq_true' _ ▸ hclean

/-- A player that was there when a grant was given has it not at all, or twice. -/
theorem granted_not_once :
    (∃ t row, run (step minerOps) (opened minerOnly) leavesBefore = some t ∧ t.rows 7 = some row ∧ row.money = 1000 ∧
      t.earned 7 = 1000 ∧ t.granted 7 = 15 ∧ t.completions = [] ∧ t.Written 7) ∧
    (∃ t row, run (step minerOps) (opened minerOnly) comesBetween = some t ∧ t.rows 7 = some row ∧ row.money = 1030 ∧
      t.earned 7 = 1000 ∧ t.granted 7 = 15 ∧ t.completions = [] ∧ t.Written 7) ∧
    ∃ t row, run (step minerOps) (opened minerOnly) runsOffline = some t ∧ t.rows 7 = some row ∧ row.money = 1000 ∧
      t.earned 7 = 1000 ∧ t.granted 7 = 15 ∧ t.completions = [] ∧ t.Written 7 :=
  ⟨run_of_balance (by decide), run_of_balance (by decide), run_of_balance (by decide)⟩

theorem grantedOnline_fair : Meets (step minerOps) Fair (opened minerOnly) grantedOnline := by
  refine ⟨trivial, fun s₁ h₁ => ⟨?_, fun s₂ h₂ => ⟨trivial, fun s₃ h₃ => ⟨?_, fun s₄ h₄ => ⟨?_, fun _ _ => trivial⟩⟩⟩⟩⟩
  all_goals obtain rfl := Option.get_of_eq_some (by decide) h₁
  · intro _ row hrow
    obtain rfl : { ScheduledPrograms.miner with id := 7 } = row := Option.some.inj hrow
    exact (by decide : ScheduledPrograms.miner.money.toInt + 0 = ScheduledPrograms.miner.money.toInt)
  all_goals
    obtain rfl := Option.get_of_eq_some (by decide) h₂
    obtain rfl := Option.get_of_eq_some (by decide) h₃
  · intro amount rest _ p row hrow
    obtain ⟨old, hold, -⟩ := Option.map_eq_some_iff.mp hrow
    obtain rfl : p = 7 := by
      by_contra hp
      rw [minerOnly, if_neg hp] at hold
      cases hold
    rw [if_pos (by decide)]
    decide
  · obtain rfl := Option.get_of_eq_some (by decide) h₄
    intro grant hgrant p entity c hcomponent _
    obtain rfl : p = 7 := by
      by_contra hp
      cases (Function.update_of_ne hp ..).symm.trans (GameState.playerComponent_eq_some.mp hcomponent).1
    obtain rfl : ⟨15, fun p => ((opened minerOnly : MoneyServer PlayerProgram).rows p).isSome⟩ = grant :=
      Option.some.inj hgrant
    obtain ⟨-, rfl⟩ := Prod.mk.inj (Option.some.inj hcomponent)
    decide

theorem grantedOnline_once : ∃ t row, run (step minerOps) (opened minerOnly) grantedOnline = some t ∧
    t.rows 7 = some row ∧ t.holding 7 = t.earned 7 + t.granted 7 ∧ t.granted 7 = 15 := by
  have hrun : ((run (step minerOps) (opened minerOnly) grantedOnline).bind fun t => (t.rows 7).map fun _ =>
      (t.completions.isEmpty, t.granted 7)) = some (true, 15) := by decide
  obtain ⟨t, ht, hmap⟩ := Option.bind_eq_some_iff.mp hrun
  obtain ⟨row, hrow, heq⟩ := Option.map_eq_some_iff.mp hmap
  have hcompletions := List.isEmpty_iff.mp (congrArg Prod.fst heq)
  exact ⟨t, row, ht, hrow, (granted_once ht grantedOnline_fair hcompletions 7 row hrow).1, congrArg Prod.snd heq⟩

end Runs

end MoneyServer

end OpenMines
