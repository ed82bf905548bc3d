import Mathlib.Data.List.TakeWhile
import Mathlib.Data.Set.List
import OpenMines.PersistenceCalls

namespace OpenMines.Persistence

open Lib.Statements Lib.Statements.Prog

section Answers

variable {d : Database} {player : PlayerId} {program : Int32}

theorem answers_query {α β : Type} {f : Database → α} {k : α → Sql β} (hk : (k (f d)).Answers .transient d) :
    (andThen (query f) k).Answers .transient d := answers_read hk

theorem answers_sql {α β : Type} {f : Database → Option (α × Database)} {k : α → Sql β} {a : α} {d' : Database}
    (h : f d = some (a, d')) (hk : (k a).Answers .transient d') : (andThen (sql f) k).Answers .transient d :=
  answers_statement h hk

theorem saveProgram_answers (source : String) : (saveProgram player program source).Answers .transient d := by
  refine Answers.andThen (answers_transaction (answers_sql rfl ?_)) fun r _ => ?_
  · split
    · rename_i hupdated
      refine answers_sql rfl ?_
      split
      · have hsame : ∀ p : ProgramRow,
            (fun p : ProgramRow => decide (p.id = program ∧ p.playerId = player))
              (if p.id = program ∧ p.playerId = player then { p with code := source } else p) =
            decide (p.id = program ∧ p.playerId = player) := by
          intro p
          by_cases hp : p.id = program ∧ p.playerId = player
          · rw [if_pos hp]
          · rw [if_neg hp]
        have hfound : ((d.programs.map fun p =>
            if p.id = program ∧ p.playerId = player then { p with code := source } else p).find?
              fun p => decide (p.id = program ∧ p.playerId = player)).isSome := by
          rw [List.find?_map, Option.isSome_map, List.find?_isSome]
          obtain ⟨p, hp, hmatch⟩ := List.any_eq_true.mp hupdated
          exact ⟨p, hp, (hsame p).trans hmatch⟩
        obtain ⟨row, hrow⟩ := Option.isSome_iff_exists.mp hfound
        exact answers_sql (a := row) (by simp only [Database.selectProgram, hrow]; rfl) (answers_ret _ _)
      · exact answers_ret _ _
    · exact answers_ret _ _
  · cases r with
    | saved row => exact answers_ret _ _
    | programUnavailable => exact answers_ret _ _
    | playerUnavailable => exact answers_fail (by decide) _

theorem createProgram_answers (name : String) (h : player ∈ d.playerIds) :
    (createProgram player name).Answers .transient d :=
  answers_sql (if_pos h) (answers_swallow fun _ _ => answers_ret _ _)

/-- What is done with a program that was found and belongs to the player. -/
theorem owned_answers {k : ProgramRow → Sql StoreResult}
    (hk : ∀ row, d.getProgram program = some row → (k row).Answers .transient d) :
    (andThen (query fun d => d.getProgram program) fun found =>
      match found with
      | none => ret .rejected
      | some row => if row.playerId ≠ player then ret .rejected else k row : Sql StoreResult).Answers .transient d := by
  refine answers_query ?_
  split
  · exact answers_ret _ _
  · rename_i row hrow
    split
    · exact answers_ret _ _
    · exact hk row hrow

theorem programOpen_answers : (programOpen player program).Answers .transient d :=
  owned_answers fun _ _ => answers_sql rfl (answers_ret _ _)

theorem programRename_answers (name : String) : (programRename player program name).Answers .transient d := by
  refine owned_answers fun row hrow => answers_sql (if_pos ?_) (answers_ret _ _)
  have hid : row.id = program := by
    have hfound := List.find?_some hrow
    exact of_decide_eq_true hfound
  exact hid ▸ List.mem_map_of_mem (List.mem_of_find?_eq_some hrow)

theorem programDelete_answers (clearSelected : Bool) :
    (programDelete player program clearSelected).Answers .transient d := by
  refine answers_sql rfl ?_
  split
  · split
    · exact answers_swallow fun _ _ => answers_ret _ _
    · exact answers_ret _ _
  · exact answers_ret _ _

theorem copyProgram_answers : (copyProgram player program).Answers .transient d := by
  refine owned_answers fun row _ => answers_swallow fun r _ => ?_
  cases r <;> exact answers_ret _ _

theorem deleteBuilding_answers (request : BuildingDeleteRequest) : (deleteBuilding request).Answers .transient d := by
  refine answers_transaction (answers_sql rfl (Answers.andThen ?_ fun conflicting _ => ?_))
  · rw [conflictingIdentity]
    split
    · rw [Answers, query, calm_read]
      exact fun h => by cases h
    · exact answers_ret _ _
  · split
    · exact answers_query (answers_ret _ _)
    · refine Answers.andThen ?_ fun cleared _ => ?_
      · rw [clearRespBindings]
        split
        · rw [Answers, sql, calm_statement rfl]
          exact fun h => by cases h
        · exact answers_ret _ _
      · cases request.boxWrite with
        | some write => exact answers_sql rfl (answers_ret _ _)
        | none => exact answers_ret _ _

theorem cycleChatColor_answers : (cycleChatColor player).Answers .transient d := by
  by_cases hplayer : player ∈ d.playerIds
  · exact answers_sql (if_pos hplayer) (answers_ret _ _)
  · exact answers_sql (if_neg hplayer) (answers_ret _ _)

theorem adminRole_answers (targetName : String) (role : Int32) : (adminRole targetName role).Answers .transient d := by
  refine answers_swallow fun found _ => ?_
  match found with
  | .error _ => exact answers_ret _ _
  | .ok none => exact answers_ret _ _
  | .ok (some target) =>
      refine answers_swallow fun r _ => ?_
      match r with
      | .ok true => exact answers_ret _ _
      | .ok false => exact answers_ret _ _
      | .error _ => exact answers_ret _ _

theorem load_answers : load.Answers .transient d := answers_query (answers_ret _ _)

theorem clanMenu_answers (action : ClanMenuAction) : (clanMenu action).Answers .transient d := by
  cases action with
  | inviteList => exact answers_ret _ _
  | preview clanId =>
      refine answers_swallow fun r _ => ?_
      match r with
      | .ok true => exact answers_ret _ _
      | .ok false => exact answers_ret _ _
      | .error _ => exact answers_ret _ _
  | main | members | invites | requests =>
      refine answers_swallow fun r _ => ?_
      cases r <;> exact answers_ret _ _

theorem whois_answers (ids : List PlayerId) : (whois ids).Answers .transient d := by
  refine Answers.andThen ?_ fun _ _ => answers_ret _ _
  have hok : AllOk (fun id => andThen (swallow (query fun d : Database => decide (id ∈ d.playerIds))) fun _ => ret ())
      ids d := allOk_of_stable (P := fun _ _ => True) (fun _ _ _ => rfl) (fun _ _ _ _ _ => trivial) fun _ _ => trivial
  rw [Answers, (calm_forEach hok).1]
  exact fun h => by cases h

theorem chatPrivate_answers (targetUid : PlayerId) : (chatPrivate targetUid).Answers .transient d := by
  refine answers_query ?_
  split
  · exact load_answers
  · exact answers_ret _ _

theorem auctionOrder_answers (orderId : Int32) : (auctionOrder orderId).Answers .transient d := by
  refine answers_query ?_
  split
  · exact answers_ret _ _
  · split
    · refine answers_query ?_
      split <;> exact answers_ret _ _
    · exact answers_ret _ _

theorem auctionBet_answers (raise : Int → Int) (request : AuctionBetRequest) (now : Int) :
    (auctionBet raise request now).Answers .transient d := by
  refine answers_query ?_
  split
  · exact answers_ret _ _
  · rename_i order _
    dsimp only
    split
    · exact answers_ret _ _
    · refine answers_query (answers_sql rfl ?_)
      split
      · exact answers_ret _ _
      · split
        · refine answers_swallow fun r _ => ?_
          cases r with
          | ok _ => exact answers_ret _ _
          | error _ => exact answers_swallow fun _ _ => answers_fail (by decide) _
        · exact answers_ret _ _

/-- A call that the tables accept is not to be tried again for ever. -/
theorem method_answers (raise : Int → Int) (inputs : Inputs) {cmd : SaveCommand} (h : Accepted cmd [cmd] d) :
    (method raise inputs cmd).Answers .transient d := by
  cases cmd with
  | program player program source => exact saveProgram_answers source
  | programCreate player name => exact createProgram_answers name h
  | programOpen player program => exact programOpen_answers
  | programRename player program name => exact programRename_answers name
  | programDelete player program clearSelected => exact programDelete_answers clearSelected
  | programCopy player program => exact copyProgram_answers
  | auctionOrder orderId => exact auctionOrder_answers orderId
  | auctionOrderCreate request => exact answers_sql rfl (answers_ret _ _)
  | auctionBet request => exact auctionBet_answers raise request inputs.now
  | buildingDelete request => exact deleteBuilding_answers request
  | chatColorCycle player => exact cycleChatColor_answers
  | chatPrivate targetUid => exact chatPrivate_answers targetUid
  | whois ids => exact whois_answers ids
  | clanMenu action => exact clanMenu_answers action
  | adminMoneyAll amount => exact answers_sql rfl (answers_ret _ _)
  | adminRole targetName role => exact adminRole_answers targetName role
  | adminSkill row => exact answers_sql (if_pos h) (answers_ret _ _)
  | clanCommand request action => exact fun h => by cases h
  | programMenu _ | buildingMenu _ | auctionGrid | auctionItemOrders _ | chatResync _ => exact load_answers
  | _ => exact answers_ret _ _

end Answers

section Groups

variable {d : Database}

theorem setPlayer_playerIds (row : PlayerRow) : (d.setPlayer row).playerIds = d.playerIds := by
  rw [Database.playerIds, Database.setPlayer, Database.playerIds]
  dsimp only
  rw [List.map_map]
  refine List.map_congr_left fun r _ => ?_
  rw [Function.comp_apply]
  split
  · rename_i h
    exact h.symm
  · rfl

theorem setBuilding_buildingIds (row : BuildingRow) : (d.setBuilding row).buildingIds = d.buildingIds := by
  rw [Database.buildingIds, Database.setBuilding, Database.buildingIds]
  dsimp only
  rw [List.map_map]
  refine List.map_congr_left fun b _ => ?_
  rw [Function.comp_apply]
  split
  · rename_i h
    exact h.symm
  · rfl

theorem calm_savePlayer {row : PlayerRow} (h : row.id ∈ d.playerIds) :
    (savePlayer row).calm d = ⟨.ok (), d.setPlayer row, 1⟩ := calm_statement (if_pos h)

theorem calm_saveBuilding {row : BuildingRow} (h : row.view.id ∈ d.buildingIds) :
    (saveBuilding row).calm d = ⟨.ok (), d.setBuilding row, 1⟩ := calm_statement (if_pos h)

theorem calm_saveTransfer {transfer : PlayerRow × BuildingRow} (hrow : transfer.1.id ∈ d.playerIds)
    (hpack : transfer.2.view.id ∈ d.buildingIds) :
    (saveTransfer transfer).calm d = ⟨.ok (), (d.setPlayer transfer.1).setBuilding transfer.2, 2⟩ := by
  have hnext : transfer.2.view.id ∈ (d.setPlayer transfer.1).buildingIds := hpack
  rw [saveTransfer, calm_andThen_ok (a := ()) (by rw [calm_savePlayer hrow]), calm_savePlayer hrow,
    calm_saveBuilding hnext]
  rfl

theorem players_allOk {rows : List PlayerRow} (h : ∀ row ∈ rows, row.id ∈ d.playerIds) : AllOk savePlayer rows d := by
  refine allOk_of_stable (P := fun row d => row.id ∈ d.playerIds) (fun row d hrow => ?_) (fun x y d hx hy => ?_) h
  · rw [calm_savePlayer hrow]
  · rwa [calm_savePlayer hx, setPlayer_playerIds]

theorem buildings_allOk {rows : List BuildingRow} (h : ∀ row ∈ rows, row.view.id ∈ d.buildingIds) :
    AllOk saveBuilding rows d := by
  refine allOk_of_stable (P := fun row d => row.view.id ∈ d.buildingIds) (fun row d hrow => ?_)
    (fun x y d hx hy => ?_) h
  · rw [calm_saveBuilding hrow]
  · rwa [calm_saveBuilding hx, setBuilding_buildingIds]

theorem transfers_allOk {transfers : List (PlayerRow × BuildingRow)}
    (h : ∀ t ∈ transfers, t.1.id ∈ d.playerIds ∧ t.2.view.id ∈ d.buildingIds) : AllOk saveTransfer transfers d := by
  refine allOk_of_stable (P := fun t d => t.1.id ∈ d.playerIds ∧ t.2.view.id ∈ d.buildingIds)
    (fun t d ht => ?_) (fun x y d hx hy => ?_) h
  · rw [calm_saveTransfer ht.1 ht.2]
  · have hplayers : ((d.setPlayer x.1).setBuilding x.2).playerIds = d.playerIds := setPlayer_playerIds x.1
    have hbuildings : ((d.setPlayer x.1).setBuilding x.2).buildingIds = d.buildingIds := setBuilding_buildingIds x.2
    rwa [calm_saveTransfer hx.1 hx.2, hplayers, hbuildings]

theorem boxes_allOk (writes : List BoxWrite) : AllOk saveBox writes d :=
  allOk_of_stable (P := fun _ _ => True) (fun _ _ _ => rfl) (fun _ _ _ _ _ => trivial) fun _ _ => trivial

theorem chat_allOk {messages : List ChatAppendRequest} (hnodup : (messages.map ChatAppendRequest.id).Nodup)
    (hfree : ∀ message ∈ messages, message.id ∉ d.chatIds) : AllOk addChatMessage messages d := by
  induction messages generalizing d with
  | nil => trivial
  | cons message rest ih =>
      obtain ⟨hnew, hrest⟩ := List.nodup_cons.mp hnodup
      have hcalm : (addChatMessage message).calm d =
          ⟨.ok (), { d with chatMessages := d.chatMessages ++ [message] }, 1⟩ :=
        calm_statement (if_neg (hfree message List.mem_cons_self))
      rw [AllOk, hcalm]
      refine ⟨rfl, ih hrest fun other hother hmem => ?_⟩
      rw [Database.chatIds, List.map_append, List.mem_append] at hmem
      rcases hmem with hold | hsame
      · exact hfree other (List.mem_cons_of_mem _ hother) hold
      · rw [List.map_singleton, List.mem_singleton] at hsame
        exact hnew (hsame ▸ List.mem_map_of_mem hother)

/-- The method of the store for a list does what is done for each of its elements. -/
def Saves {α : Type} (all : List α → Sql Unit) (one : α → Sql Unit) : Prop :=
  ∀ xs d, AllOk one xs d → ((all xs).calm d).result = .ok () ∧
    ((all xs).calm d).data = xs.foldl (fun d x => ((one x).calm d).data) d

variable {α : Type} {all : List α → Sql Unit} {one : α → Sql Unit}

theorem saves_forEach (one : α → Sql Unit) : Saves (forEach one) one := fun _ _ h => calm_forEach h

theorem saves_commitAll (one : α → Sql Unit) : Saves (fun xs => commitAll (forEach one xs)) one := by
  intro xs d h
  obtain ⟨hresult, hdata⟩ := calm_forEach h
  have hbody : ((andThen (forEach one xs) fun _ => ret (true, ()) : Sql (Bool × Unit)).calm d) =
      ⟨.ok (true, ()), ((forEach one xs).calm d).data, ((forEach one xs).calm d).count⟩ := calm_andThen_ok hresult
  have hcommit := @calm_transaction _ _ _ Failure.transient _ _ () (by rw [hbody])
  rw [hbody, hdata] at hcommit
  exact hcommit

theorem Saves.unlessEmpty (h : Saves all one) : Saves (fun xs => if xs.isEmpty then ret () else all xs) one := by
  intro xs d hok
  cases xs with
  | nil => exact ⟨rfl, rfl⟩
  | cons x xs => exact h _ d hok

theorem calm_saved {m : Sql Unit} (h : (m.calm d).result = .ok ()) :
    ((saved m).calm d).result = .ok .done ∧ ((saved m).calm d).data = (m.calm d).data := by
  rw [saved, calm_andThen_ok h]
  exact ⟨rfl, rfl⟩

/-- A batch is saved as its elements are one after the other. -/
theorem Saves.batch (h : Saves all one) {xs : List α} (hok : AllOk one xs d) :
    ((saved (all xs)).calm d).result = .ok .done ∧
      ((saved (all xs)).calm d).data = xs.foldl (fun d x => ((saved (all [x])).calm d).data) d := by
  obtain ⟨hresult, hdata⟩ := h xs d hok
  refine ⟨(calm_saved hresult).1, ?_⟩
  rw [(calm_saved hresult).2, hdata]
  clear hresult hdata
  induction xs generalizing d with
  | nil => rfl
  | cons x xs ih =>
      obtain ⟨hsingle, hsingleData⟩ := h [x] d ⟨hok.1, trivial⟩
      rw [List.foldl_cons, List.foldl_cons, (calm_saved hsingle).2, hsingleData]
      exact ih hok.2

theorem group_kind {cmd : SaveCommand} {rest : List SaveCommand} :
    ∀ c ∈ group (cmd :: rest), c.kind = cmd.kind := by
  intro c hc
  rw [group] at hc
  split at hc
  · rcases List.mem_cons.mp hc with rfl | htail
    · rfl
    · have hsame := List.mem_takeWhile_imp htail
      exact of_decide_eq_true hsame
  · rw [List.mem_singleton.mp hc]

variable (raise : Int → Int) (inputs : Inputs)

/-- Commands made of requests are done together as they are one after the other. -/
theorem perform_requests (make : α → SaveCommand) {select : SaveCommand → Option α} (hall : Saves all one)
    (hperform : ∀ x cmds, perform raise inputs (make x) cmds = saved (all (cmds.filterMap select)))
    (hselect : ∀ x, select (make x) = some x) {cmds : List SaveCommand} (hcmds : ∀ c ∈ cmds, ∃ x, make x = c)
    (hok : AllOk one (cmds.filterMap select) d) (x : α) :
    ((perform raise inputs (make x) cmds).calm d).result = .ok .done ∧
      ((perform raise inputs (make x) cmds).calm d).data =
        cmds.foldl (fun d c => ((perform raise inputs c [c]).calm d).data) d := by
  obtain ⟨xs, rfl⟩ : ∃ xs : List α, xs.map make = cmds := (Set.range_list_map make).ge hcmds
  have hrequests : (xs.map make).filterMap select = xs := by
    rw [List.filterMap_map, show select ∘ make = some from funext hselect, List.filterMap_some]
  have hsingle : ∀ y, perform raise inputs (make y) [make y] = saved (all [y]) := fun y => by
    rw [hperform, List.filterMap_cons_some (hselect y), List.filterMap_nil]
  rw [hrequests] at hok
  rw [hperform, hrequests, List.foldl_map]
  simp only [hsingle]
  exact hall.batch hok

/-- The commands of a batch are done as they are one after the other. -/
theorem perform_group {cmd : SaveCommand} {cmds : List SaveCommand} (hcmd : compatible cmd.kind = true)
    (hkind : ∀ c ∈ cmds, c.kind = cmd.kind) (h : Accepted cmd cmds d) :
    ((perform raise inputs cmd cmds).calm d).result = .ok .done ∧
      ((perform raise inputs cmd cmds).calm d).data =
        cmds.foldl (fun d c => ((perform raise inputs c [c]).calm d).data) d := by
  cases cmd with
  | player row =>
      refine perform_requests raise inputs SaveCommand.player (saves_commitAll savePlayer).unlessEmpty
        (fun _ _ => rfl) (fun _ => rfl) (fun c hc => ?_) (players_allOk h) row
      cases c <;> cases hkind _ hc
      exact ⟨_, rfl⟩
  | building row =>
      refine perform_requests raise inputs SaveCommand.building (saves_commitAll saveBuilding).unlessEmpty
        (fun _ _ => rfl) (fun _ => rfl) (fun c hc => ?_) (buildings_allOk h) row
      cases c <;> cases hkind _ hc
      exact ⟨_, rfl⟩
  | respProfit row pack =>
      refine perform_requests raise inputs (fun t => .respProfit t.1 t.2) (saves_commitAll saveTransfer).unlessEmpty
        (fun _ _ => rfl) (fun _ => rfl) (fun c hc => ?_) (transfers_allOk h) (row, pack)
      cases c <;> cases hkind _ hc
      exact ⟨(_, _), rfl⟩
  | chargeFill row pack =>
      refine perform_requests raise inputs (fun t => .chargeFill t.1 t.2) (saves_commitAll saveTransfer).unlessEmpty
        (fun _ _ => rfl) (fun _ => rfl) (fun c hc => ?_) (transfers_allOk h) (row, pack)
      cases c <;> cases hkind _ hc
      exact ⟨(_, _), rfl⟩
  | box write =>
      refine perform_requests raise inputs SaveCommand.box (saves_commitAll saveBox)
        (fun _ _ => rfl) (fun _ => rfl) (fun c hc => ?_) (boxes_allOk _) write
      cases c <;> cases hkind _ hc
      exact ⟨_, rfl⟩
  | chatAppend request =>
      refine perform_requests raise inputs SaveCommand.chatAppend (saves_forEach addChatMessage)
        (fun _ _ => rfl) (fun _ => rfl) (fun c hc => ?_) (chat_allOk h.1 h.2) request
      cases c <;> cases hkind _ hc
      exact ⟨_, rfl⟩
  | _ => cases hcmd

end Groups

end OpenMines.Persistence
