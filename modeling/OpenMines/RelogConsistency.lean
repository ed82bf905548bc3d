import OpenMines.Relog

namespace OpenMines

open Lib.WriteBehind Lib.Run

namespace RelogServer

variable {P : Type} {ops : Nat → PlayerOps P} {s t : RelogServer P} {player p : PlayerId} {entity : Entity}
  {c : PlayerEntity P} {queue : List RowSave}

/-- The ledger is what the game has of a player, else what was saved of it last. -/
structure Kept (s : RelogServer P) (player : PlayerId) : Prop where
  id : ∀ entity c, s.game.playerComponent player = some (entity, c) → c.id = player
  row : (s.game.playerComponent player).isSome → (s.rows player).isSome
  live : ∀ entity c, s.game.playerComponent player = some (entity, c) → s.ledger player = some c.holdings
  away : s.game.playerComponent player = none → s.saved player = s.ledger player

structure Books (s : RelogServer P) : Prop where
  registered : s.game.Registered
  kept : ∀ player, s.Kept player
  rows : ∀ player row, s.rows player = some row → row.id = player
  queued : ∀ row, .player row ∈ s.queue → (s.rows row.id).isSome
  logins : ∀ row ∈ s.logins, (s.rows row.id).isSome

theorem Books.consistent (h : s.Books) : s.Consistent := fun player => (h.kept player).live

section Queue

@[simp] theorem saves_append (queue more : List RowSave) : saves (queue ++ more) = saves queue ++ saves more :=
  List.filterMap_append

@[simp] theorem saves_player (row : PlayerRow) (queue : List RowSave) :
    saves (.player row :: queue) = (row.id, some row.holdings) :: saves queue := rfl

@[simp] theorem saves_other (queue : List RowSave) : saves (.other :: queue) = saves queue := rfl

theorem pending_saves_eq_nil (h : ∀ row, .player row ∈ queue → row.id ≠ player) : pending (saves queue) player = [] := by
  refine pending_eq_nil_iff.mpr fun w hw => ?_
  obtain ⟨save, hsave, hwrite⟩ := List.mem_filterMap.mp hw
  cases save with
  | player row => exact Option.some.inj hwrite ▸ h row hsave
  | other => cases hwrite

theorem saved_congr (hqueue : saves t.queue = saves s.queue) (hrows : t.rows player = s.rows player) :
    t.saved player = s.saved player := by
  rw [saved, saved, hqueue]
  exact latest_congr (congrArg (Option.map PlayerRow.holdings) hrows)

theorem saved_queued {o : PlayerOps P} (hqueue : t.queue = s.queue ++ [.player (extractPlayerRow o c)])
    (hid : c.id = player) : t.saved player = some c.holdings := by
  subst hid
  rw [saved, hqueue, saves_append]
  exact latest_concat_self ..

theorem saved_queued_of_ne {row : PlayerRow} (hqueue : t.queue = s.queue ++ [.player row]) (hid : row.id ≠ player)
    (hrows : t.rows player = s.rows player) : t.saved player = s.saved player := by
  rw [saved, hqueue, saves_append]
  exact (latest_concat_of_ne hid ..).trans (latest_congr (congrArg (Option.map PlayerRow.holdings) hrows))

end Queue

theorem Kept.congr (h : s.Kept player) (hcomponent : t.game.playerComponent player = s.game.playerComponent player)
    (hrows : (t.rows player).isSome = (s.rows player).isSome) (hledger : t.ledger player = s.ledger player)
    (hsaved : t.saved player = s.saved player) : t.Kept player := by
  refine ⟨?_, ?_, ?_, ?_⟩
  · rw [hcomponent]
    exact h.id
  · rw [hcomponent, hrows]
    exact h.row
  · rw [hcomponent, hledger]
    exact h.live
  · rw [hcomponent, hledger, hsaved]
    exact h.away

theorem kept_of_none (hnone : s.game.playerComponent player = none) (hsaved : s.saved player = s.ledger player) :
    s.Kept player := by
  refine ⟨fun e c h => ?_, fun h => ?_, fun e c h => ?_, fun _ => hsaved⟩
  · cases hnone.symm.trans h
  · rw [hnone] at h
    cases h
  · cases hnone.symm.trans h

theorem kept_of_some (hcomponent : s.game.playerComponent player = some (entity, c)) (hid : c.id = player)
    (hrow : (s.rows player).isSome) (hledger : s.ledger player = some c.holdings) : s.Kept player := by
  refine ⟨fun e d h => ?_, fun _ => hrow, fun e d h => ?_, fun h => ?_⟩
  · obtain ⟨rfl, rfl⟩ := Prod.mk.inj (Option.some.inj (hcomponent.symm.trans h))
    exact hid
  · obtain ⟨rfl, rfl⟩ := Prod.mk.inj (Option.some.inj (hcomponent.symm.trans h))
    exact hledger
  · cases hcomponent.symm.trans h

theorem books_opened (rows : PlayerId → Option PlayerRow) : (opened rows : RelogServer P).Books where
  registered := GameState.registered_new
  kept player := by
    refine kept_of_none rfl ((latest_of_pending_nil rfl).trans ?_)
    change ((rows player).map fun row => { row with id := player }).map PlayerRow.holdings = _
    rw [Option.map_map]
    rfl
  rows player row h := by
    obtain ⟨_, _, rfl⟩ := Option.map_eq_some_iff.mp h
    rfl
  queued _ h := by cases h
  logins _ h := by cases h

theorem Books.row_of_component (h : s.Books) (hcomponent : s.game.playerComponent player = some (entity, c)) :
    (s.rows player).isSome := (h.kept player).row (Option.isSome_of_eq_some hcomponent)

theorem Books.noComponent (h : s.Books) (hrow : s.rows player = none) : s.game.playerComponent player = none := by
  by_contra hsome
  obtain ⟨component, hcomponent⟩ := Option.ne_none_iff_exists'.mp hsome
  have hknown := h.row_of_component hcomponent
  rw [hrow] at hknown
  cases hknown

theorem books_create {row : PlayerRow} (h : s.Books) (hstep : s.create row = some t) : t.Books := by
  obtain ⟨hnew, ht⟩ := Option.ite_none_right_eq_some.mp hstep
  obtain rfl := Option.some.inj ht
  have hrows : ∀ {player}, (s.rows player).isSome → (Function.update s.rows row.id (some row) player).isSome := by
    intro player hsome
    rw [Function.update_apply]
    split
    · rfl
    · exact hsome
  refine ⟨h.registered, fun p => ?_, fun p r hr => ?_, fun r hr => hrows (h.queued r hr),
    fun r hr => hrows (h.logins r hr)⟩
  · by_cases hp : p = row.id
    · subst hp
      have hqueue : pending (saves s.queue) row.id = [] := pending_saves_eq_nil fun r hr heq => by
        have hknown := h.queued r hr
        rw [heq, hnew] at hknown
        cases hknown
      refine kept_of_none (h.noComponent hnew) ((latest_of_pending_nil hqueue).trans ?_)
      dsimp only
      rw [Function.update_self, Function.update_self, Option.map_some]
    · exact (h.kept p).congr rfl (congrArg Option.isSome (Function.update_of_ne hp ..)) (Function.update_of_ne hp ..)
        (saved_congr rfl (Function.update_of_ne hp ..))
  · dsimp only at hr
    rw [Function.update_apply] at hr
    split at hr
    · rename_i hp
      exact hp ▸ Option.some.inj hr ▸ rfl
    · exact h.rows p r hr

theorem spawned_holdings {o : PlayerOps P} {row : PlayerRow} {session : SessionId} (hhealth : 0 < row.health)
    (hrank : row.asClanRank = row.clanRank) : (spawnPlayer o row session).holdings = row.holdings := by
  rw [holdings_spawnPlayer, if_neg (Int32.not_le.mpr hhealth), hrank]
  rfl

section Connect

variable {hub : SessionHub} {i : Nat} {session : SessionId} {now : Nat} {row : PlayerRow}

theorem kept_connect_of_ne (h : s.Books) (hne : p ≠ row.id)
    (ht : t = { s with
      game := s.game.connectEntityInTick (ops now) hub row session
      logins := s.logins.eraseIdx i }) : t.Kept p := by
  subst ht
  exact (h.kept p).congr (GameState.connect_other h.registered hne).1 rfl rfl (saved_congr rfl rfl)

theorem books_connect (h : s.Books) (hfair : s.Fair (.connect hub i session now))
    (hstep : s.step ops (.connect hub i session now) = some t) : t.Books := by
  obtain ⟨row, hlogin, rfl⟩ := Option.map_eq_some_iff.mp hstep
  refine ⟨h.registered.connect .., fun p => ?_, h.rows, h.queued, fun r hr => h.logins r (List.mem_of_mem_eraseIdx hr)⟩
  by_cases hp : p = row.id
  · subst hp
    cases hopen : hub.isOpen session with
    | false =>
        have hsame := GameState.connect_closed hopen (ops now) s.game row
        exact (h.kept row.id).congr (congrArg (·.playerComponent row.id) hsame) rfl rfl (saved_congr rfl rfl)
    | true =>
        obtain ⟨hafter, -⟩ := @GameState.connect_self _ (ops now) _ s.game row _ hopen
        have hknown := h.logins row (List.mem_of_getElem? hlogin)
        cases hbefore : s.game.playerComponent row.id with
        | none =>
            obtain ⟨hsaved, hhealth, hrank⟩ := hfair hopen row hlogin hbefore
            rw [hbefore] at hafter
            refine kept_of_some hafter rfl hknown (((h.kept row.id).away hbefore).symm.trans (hsaved.trans ?_))
            exact congrArg some (spawned_holdings hhealth hrank).symm
        | some component =>
            obtain ⟨entity, c⟩ := component
            rw [hbefore] at hafter
            exact kept_of_some hafter ((h.kept row.id).id entity c hbefore) hknown ((h.kept row.id).live entity c hbefore)
  · exact kept_connect_of_ne h hp rfl

/-- A login to a player that is not in the game gives back what it had just where it has read what was saved last. -/
theorem consistent_connect_iff (h : s.Books) (hstep : s.step ops (.connect hub i session now) = some t)
    (hlogin : s.logins[i]? = some row) (hopen : hub.isOpen session = true)
    (hbefore : s.game.playerComponent row.id = none) (hhealth : 0 < row.health) (hrank : row.asClanRank = row.clanRank) :
    t.Consistent ↔ s.saved row.id = some row.holdings := by
  constructor
  · intro hconsistent
    obtain ⟨r, hr, rfl⟩ := Option.map_eq_some_iff.mp hstep
    obtain rfl := Option.some.inj (hlogin.symm.trans hr)
    obtain ⟨hafter, -⟩ := @GameState.connect_self _ (ops now) _ s.game row _ hopen
    rw [hbefore] at hafter
    have hledger := hconsistent row.id _ _ hafter
    rw [(h.kept row.id).away hbefore]
    exact hledger.trans (congrArg some (spawned_holdings hhealth hrank))
  · intro hsaved
    refine (books_connect h (fun _ r hr _ => ?_) hstep).consistent
    obtain rfl := Option.some.inj (hlogin.symm.trans hr)
    exact ⟨hsaved, hhealth, hrank⟩

end Connect

section Game

variable {session : SessionId} {now : Nat}

/-- The row of a player that plays is queued. -/
theorem Books.queuePlayer (h : s.Books) {row : PlayerRow} (hrow : (s.rows row.id).isSome) :
    ∀ r, RowSave.player r ∈ s.queue ++ [.player row] → (s.rows r.id).isSome := by
  intro r hr
  rcases List.mem_append.mp hr with hold | hnew
  · exact h.queued r hold
  · obtain rfl := RowSave.player.inj (List.mem_singleton.mp hnew)
    exact hrow

theorem books_disconnect (h : s.Books) : (s.disconnect ops player session now).Books := by
  have hregistered := h.registered.disconnect (ops now) player session
  cases howner : s.game.activePlayerEntityForSession player session with
  | none =>
      rw [disconnect, GameState.disconnect_of_none howner]
      dsimp only
      rw [Option.toList_none, List.map_nil, List.append_nil]
      exact h
  | some owner =>
      obtain ⟨hrow, -, hafter⟩ := @GameState.disconnect_self _ (ops now) _ _ _ _ h.registered howner
      have hother : ∀ {p}, p ≠ player →
          (s.game.disconnectInTick (ops now) player session).1.playerComponent p = s.game.playerComponent p :=
        fun hp => (GameState.disconnect_other h.registered hp).1
      rw [disconnect]
      dsimp only
      rw [hrow]
      cases hbefore : s.game.playerComponent player with
      | none =>
          rw [hbefore] at hafter
          rw [Option.map_none, Option.toList_none, List.map_nil, List.append_nil]
          refine ⟨hregistered, fun p => ?_, h.rows, h.queued, h.logins⟩
          by_cases hp : p = player
          · subst hp
            exact kept_of_none hafter ((h.kept p).away hbefore)
          · exact (h.kept p).congr (hother hp) rfl rfl (saved_congr rfl rfl)
      | some component =>
          obtain ⟨entity, c⟩ := component
          have hid := (h.kept player).id entity c hbefore
          have hknown := h.row_of_component hbefore
          have hledger := (h.kept player).live entity c hbefore
          rw [hbefore, Option.bind_some] at hafter
          refine ⟨hregistered, fun p => ?_, h.rows, h.queuePlayer (show (s.rows c.id).isSome from hid.symm ▸ hknown),
            h.logins⟩
          by_cases hp : p = player
          · subst hp
            by_cases hkeeps : (ops now).running c.programmator
            · rw [if_pos hkeeps] at hafter
              exact kept_of_some hafter hid hknown hledger
            · rw [if_neg hkeeps] at hafter
              exact kept_of_none hafter ((saved_queued (s := s) rfl hid).trans hledger.symm)
          · exact (h.kept p).congr (hother hp) rfl rfl
              (saved_queued_of_ne rfl (fun heq => hp (heq.symm.trans hid)) rfl)

theorem books_change {f : PlayerEntity P → PlayerEntity P} (h : s.Books) : (s.change player f).Books := by
  rw [change]
  split
  · rename_i entity c hcomponent
    refine ⟨h.registered.modifyPlayer .., fun p => ?_, h.rows, h.queued, h.logins⟩
    by_cases hp : p = player
    · subst hp
      exact kept_of_some (GameState.playerComponent_modifyPlayer_self hcomponent _) ((h.kept p).id entity c hcomponent)
        (h.row_of_component hcomponent) (Function.update_self ..)
    · exact (h.kept p).congr (GameState.playerComponent_modifyPlayer_of_ne h.registered hp _) rfl
        (Function.update_of_ne hp ..) (saved_congr rfl rfl)
  · exact h

theorem books_flush (h : s.Books) : (s.flush ops player now).Books := by
  rw [flush]
  split
  · rename_i entity c hcomponent
    have hid := (h.kept player).id entity c hcomponent
    have hknown := h.row_of_component hcomponent
    split
    · refine ⟨h.registered.modifyPlayer .., fun p => ?_, h.rows,
        h.queuePlayer (show (s.rows c.id).isSome from hid.symm ▸ hknown), h.logins⟩
      by_cases hp : p = player
      · subst hp
        exact kept_of_some (GameState.playerComponent_modifyPlayer_self hcomponent _) hid hknown
          ((h.kept p).live entity c hcomponent)
      · exact (h.kept p).congr (GameState.playerComponent_modifyPlayer_of_ne h.registered hp _) rfl rfl
          (saved_queued_of_ne rfl (fun heq => hp (heq.symm.trans hid)) rfl)
    · exact h
  · exact h

theorem books_save (h : s.Books) : (s.save ops player now).Books := by
  rw [save]
  split
  · rename_i entity c hcomponent
    have hid := (h.kept player).id entity c hcomponent
    have hknown := h.row_of_component hcomponent
    refine ⟨h.registered, fun p => ?_, h.rows, h.queuePlayer (show (s.rows c.id).isSome from hid.symm ▸ hknown),
      h.logins⟩
    by_cases hp : p = player
    · subst hp
      exact kept_of_some hcomponent hid hknown ((h.kept p).live entity c hcomponent)
    · exact (h.kept p).congr rfl rfl rfl (saved_queued_of_ne rfl (fun heq => hp (heq.symm.trans hid)) rfl)
  · exact h

end Game

section Table

/-- Rows that stay those of their players, and a queue that is shorter. -/
theorem Books.setRows (h : s.Books) (hgame : t.game = s.game) (hlogins : t.logins = s.logins)
    (hqueue : ∀ save ∈ t.queue, save ∈ s.queue ∨ save = .other)
    (hrows : ∀ p, (t.rows p).isSome = (s.rows p).isSome) (hid : ∀ p row, t.rows p = some row → row.id = p)
    (hkept : ∀ p, t.Kept p) : t.Books := by
  refine ⟨hgame ▸ h.registered, hkept, hid, fun r hr => ?_, fun r hr => ?_⟩
  · rw [hrows]
    exact h.queued r ((hqueue _ hr).resolve_right fun heq => by cases heq)
  · rw [hrows]
    exact h.logins r (hlogins ▸ hr)

theorem books_persist_player {saved : PlayerRow} {rest : List RowSave} {effect : PlayerId → Holdings → Holdings}
    (h : s.Books) (hqueue : s.queue = .player saved :: rest) (hstep : s.persist effect = some t) : t.Books := by
  rw [persist, hqueue] at hstep
  obtain ⟨row, hrow, rfl⟩ := Option.map_eq_some_iff.mp hstep
  have hrows : ∀ p, (Function.update s.rows saved.id (some (saved.withColumns row)) p).isSome = (s.rows p).isSome := by
    intro p
    rw [Function.update_apply]
    split
    · rename_i hp
      rw [hp, hrow]
      rfl
    · rfl
  refine h.setRows rfl rfl (fun save hsave => .inl (hqueue ▸ List.mem_cons_of_mem _ hsave)) hrows (fun p r hr => ?_)
    fun p => (h.kept p).congr rfl (hrows p) rfl ?_
  · dsimp only at hr
    rw [Function.update_apply] at hr
    split at hr
    · rename_i hp
      exact hp ▸ Option.some.inj hr ▸ rfl
    · exact h.rows p r hr
  · have hlookup : (fun p => (Function.update s.rows saved.id (some (saved.withColumns row)) p).map PlayerRow.holdings) =
        Function.update (fun p => (s.rows p).map PlayerRow.holdings) saved.id (some saved.holdings) := by
      funext q
      by_cases hq : q = saved.id
      · rw [hq, Function.update_self, Function.update_self]
        rfl
      · rw [Function.update_of_ne hq, Function.update_of_ne hq]
    rw [RelogServer.saved, RelogServer.saved, hqueue, saves_player, hlookup]
    exact latest_write ..

theorem kept_affect {effect : PlayerId → Holdings → Holdings} {rest : List RowSave} (h : s.Kept player)
    (hqueue : saves rest = saves s.queue) (hsettled : s.Settled effect rest) :
    ({ s.affect effect with queue := rest } : RelogServer P).Kept player := by
  cases hplays : s.game.plays player with
  | true =>
      obtain ⟨component, hcomponent⟩ := Option.isSome_iff_exists.mp (Bool.and_eq_true_iff.mp hplays).2
      obtain ⟨entity, c⟩ := component
      refine kept_of_some (s := { s.affect effect with queue := rest }) hcomponent (h.id entity c hcomponent)
        (Option.isSome_map.trans (h.row (Option.isSome_of_eq_some hcomponent))) ?_
      exact (if_pos hplays).trans (h.live entity c hcomponent)
  | false =>
      have hledger : (s.affect effect).ledger player = (s.ledger player).map (effect player) :=
        if_neg (Bool.eq_false_iff.mp hplays)
      rcases hsettled player hplays with hsame | ⟨hcomponent, hnone⟩
      · have hid : effect player = id := funext hsame
        refine h.congr rfl Option.isSome_map ?_ ?_
        · rw [hledger, hid, Option.map_id_fun, id]
        · rw [saved, saved, hqueue]
          refine latest_congr ?_
          change ((s.rows player).map fun row => row.withHoldings (effect player row.holdings)).map PlayerRow.holdings = _
          rw [Option.map_map]
          exact congrFun (congrArg Option.map (funext fun row : PlayerRow => hsame row.holdings)) _
      · refine kept_of_none (s := { s.affect effect with queue := rest }) hcomponent ?_
        have hbefore : s.saved player = (s.rows player).map PlayerRow.holdings := latest_of_pending_nil (hqueue ▸ hnone)
        rw [saved, hledger, ← h.away hcomponent, hbefore, latest_of_pending_nil hnone, Option.map_map]
        change ((s.rows player).map fun row => row.withHoldings (effect player row.holdings)).map PlayerRow.holdings = _
        rw [Option.map_map]
        rfl

theorem books_affect {effect : PlayerId → Holdings → Holdings} {rest : List RowSave} (h : s.Books)
    (hmem : ∀ save ∈ rest, save ∈ s.queue ∨ save = .other) (hqueue : saves rest = saves s.queue)
    (hsettled : s.Settled effect rest) : ({ s.affect effect with queue := rest } : RelogServer P).Books := by
  refine h.setRows rfl rfl hmem (fun p => Option.isSome_map) (fun p row hrow => ?_)
    fun p => kept_affect (h.kept p) hqueue hsettled
  obtain ⟨old, hold, rfl⟩ := Option.map_eq_some_iff.mp hrow
  exact h.rows p old hold

theorem books_columns {other : PlayerRow} (h : s.Books) :
    ({ s with rows := Function.update s.rows player ((s.rows player).map fun row => row.withColumns other) } :
      RelogServer P).Books := by
  have hcolumns : ∀ p, Function.update s.rows player ((s.rows player).map fun row => row.withColumns other) p =
      (s.rows p).map fun row => if p = player then row.withColumns other else row := by
    intro p
    by_cases hp : p = player
    · subst hp
      simp
    · simp [hp]
  have hrows : ∀ p, (Function.update s.rows player ((s.rows player).map fun row => row.withColumns other) p).isSome =
      (s.rows p).isSome := fun p => by rw [hcolumns, Option.isSome_map]
  refine h.setRows rfl rfl (fun _ hsave => .inl hsave) hrows (fun p row hrow => ?_)
    fun p => (h.kept p).congr rfl (hrows p) rfl (latest_congr ?_)
  · dsimp only at hrow
    rw [hcolumns] at hrow
    obtain ⟨old, hold, rfl⟩ := Option.map_eq_some_iff.mp hrow
    rw [← h.rows p old hold]
    split <;> rfl
  · dsimp only
    rw [hcolumns, Option.map_map]
    refine congrFun (congrArg Option.map (funext fun row => ?_)) _
    rw [Function.comp_apply]
    split <;> rfl

end Table

theorem books_step {e : RelogEvent P} (h : s.Books) (hfair : s.Fair e) (hstep : s.step ops e = some t) : t.Books := by
  cases e with
  | create row => exact books_create h hstep
  | readRow player =>
      obtain ⟨row, hrow, rfl⟩ := Option.map_eq_some_iff.mp hstep
      refine ⟨h.registered, fun p => (h.kept p).congr rfl rfl rfl (saved_congr rfl rfl), h.rows, h.queued, fun r hr => ?_⟩
      rcases List.mem_append.mp hr with hold | hnew
      · exact h.logins r hold
      · obtain rfl := List.mem_singleton.mp hnew
        exact h.rows player r hrow ▸ Option.isSome_of_eq_some hrow
  | connect hub i session now => exact books_connect h hfair hstep
  | disconnect player session now => exact Option.some.inj hstep ▸ books_disconnect h
  | change player f => exact Option.some.inj hstep ▸ books_change h
  | flush player now => exact Option.some.inj hstep ▸ books_flush h
  | save player now => exact Option.some.inj hstep ▸ books_save h
  | request =>
      obtain rfl := Option.some.inj hstep
      have hsaves : saves (s.queue ++ [.other]) = saves s.queue := by
        rw [saves_append, saves_other]
        exact List.append_nil _
      refine h.setRows rfl rfl (fun save hsave => ?_) (fun _ => rfl) h.rows
        fun p => (h.kept p).congr rfl rfl rfl (saved_congr hsaves rfl)
      exact (List.mem_append.mp hsave).imp_right List.mem_singleton.mp
  | persist effect =>
      cases hqueue : s.queue with
      | nil =>
          rw [step, persist, hqueue] at hstep
          cases hstep
      | cons save rest =>
          cases save with
          | player saved => exact books_persist_player h hqueue hstep
          | other =>
              rw [step, persist, hqueue] at hstep
              obtain rfl := Option.some.inj hstep
              exact books_affect h (fun save hsave => .inl (hqueue ▸ List.mem_cons_of_mem _ hsave))
                (hqueue ▸ rfl) (hfair rest hqueue)
  | retry => exact Option.some.inj hstep ▸ h
  | write effect =>
      exact Option.some.inj hstep ▸ books_affect h (fun _ hsave => .inl hsave) rfl hfair
  | columns player other => exact Option.some.inj hstep ▸ books_columns h

section Runs

def minerRow : PlayerId → Option PlayerRow := fun p => if p = 7 then some ScheduledPrograms.miner else none

def textOps : Nat → PlayerOps PlayerProgram := fun now => PlayerProgram.ops ScheduledPrograms.textOnly now

def firstHub : SessionHub := SessionHub.new.open.1

def secondHub : SessionHub := firstHub.open.1

def comesAndEarns : List (RelogEvent PlayerProgram) :=
  [.readRow 7, .connect firstHub 0 1 0, .change 7 fun c => { c with money := c.money + 5 }]

/-- The row is written before the second login reads it. -/
def readsWritten : List (RelogEvent PlayerProgram) :=
  comesAndEarns ++ [.disconnect 7 1 5, .retry, .persist fun _ h => h, .readRow 7, .connect secondHub 0 2 6]

/-- The second login reads the row while that of the logout waits. -/
def readsEarly : List (RelogEvent PlayerProgram) :=
  comesAndEarns ++ [.disconnect 7 1 5, .readRow 7, .connect secondHub 0 2 6]

/-- The second login reads the row while the player is in the game. -/
def readsWhilePlaying : List (RelogEvent PlayerProgram) :=
  [.readRow 7, .connect firstHub 0 1 0, .readRow 7, .change 7 fun c => { c with money := c.money + 5 },
    .disconnect 7 1 5, .persist fun _ h => h, .connect secondHub 0 2 6]

/-- The money of the miner after a run: in the game, and as it should be. -/
def minerMoney (es : List (RelogEvent PlayerProgram)) : Option (Option Int64 × Option Int64) :=
  (run (step textOps) (opened minerRow) es).map fun t =>
    ((t.game.playerComponent 7).map fun component => component.2.money, (t.ledger 7).map Holdings.money)

theorem not_consistent_of_minerMoney {es : List (RelogEvent PlayerProgram)} (has should : Int64)
    (h : minerMoney es = some (some has, some should)) (hne : has ≠ should) :
    ∃ t, run (step textOps) (opened minerRow) es = some t ∧ ¬ t.Consistent := by
  obtain ⟨t, ht, hmap⟩ := Option.map_eq_some_iff.mp h
  obtain ⟨hhas, hshould⟩ := Prod.mk.inj hmap
  obtain ⟨⟨entity, c⟩, hcomponent, rfl⟩ := Option.map_eq_some_iff.mp hhas
  refine ⟨t, ht, fun hconsistent => hne ?_⟩
  rw [hconsistent 7 entity c hcomponent] at hshould
  exact Option.some.inj hshould

theorem readsWritten_fair : Meets (step textOps) Fair (opened minerRow) readsWritten := by
  refine ⟨trivial, fun s₁ h₁ => ⟨?_, fun s₂ h₂ => ⟨trivial, fun s₃ h₃ => ⟨trivial, fun s₄ h₄ => ⟨trivial, fun s₅ h₅ =>
    ⟨?_, fun s₆ h₆ => ⟨trivial, fun s₇ h₇ => ⟨?_, fun _ _ => trivial⟩⟩⟩⟩⟩⟩⟩⟩
  all_goals obtain rfl := Option.get_of_eq_some (by decide) h₁
  · intro _ row hrow _
    obtain rfl : { ScheduledPrograms.miner with id := 7 } = row := Option.some.inj hrow
    decide
  all_goals
    obtain rfl := Option.get_of_eq_some (by decide) h₂
    obtain rfl := Option.get_of_eq_some (by decide) h₃
    obtain rfl := Option.get_of_eq_some (by decide) h₄
    obtain rfl := Option.get_of_eq_some (by decide) h₅
  · intro rest hqueue
    cases hqueue
  · obtain rfl := Option.get_of_eq_some (by decide) h₆
    obtain rfl := Option.get_of_eq_some (by decide) h₇
    intro _ row hrow _
    obtain rfl : { ScheduledPrograms.miner with id := 7, money := 1005 } = row := Option.some.inj hrow
    decide

end Runs

end RelogServer

end OpenMines
