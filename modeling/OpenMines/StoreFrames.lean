import OpenMines.Lib.StatementRules
import OpenMines.PersistenceWorker

namespace OpenMines.Persistence

open Lib.Statements Lib.Statements.Prog Database

/-- The player whose programs a command works on. -/
def SaveCommand.programmer : SaveCommand → Option PlayerId
  | .program p _ _ => some p
  | .programCreate p _ => some p
  | .programOpen p _ => some p
  | .programRename p _ _ => some p
  | .programDelete p _ _ => some p
  | .programCopy p _ => some p
  | _ => none

/-- No program, no selection and no message is another one. -/
structure Same (d d' : Database) : Prop where
  programs : d'.programs = d.programs
  lastProgram : d'.lastProgram = d.lastProgram
  selections : ∀ r' ∈ d'.players, ∃ r ∈ d.players, r'.id = r.id ∧ r'.selectedProgramId = r.selectedProgramId
  messages : d'.chatMessages = d.chatMessages

def Blind (I : Database → Prop) : Prop := ∀ d d', Same d d' → I d → I d'

variable {d d' : Database} {I : Database → Prop} {raise : Int → Int}

/-- What leaves the programs, the players and the messages alone. -/
theorem same_rest (hprograms : d'.programs = d.programs) (hlast : d'.lastProgram = d.lastProgram)
    (hplayers : d'.players = d.players) (hmessages : d'.chatMessages = d.chatMessages) : Same d d' :=
  ⟨hprograms, hlast, fun r hr => ⟨r, hplayers ▸ hr, rfl, rfl⟩, hmessages⟩

/-- An update of rows that keeps their selections. -/
theorem same_map {f : PlayerRow → PlayerRow} (hprograms : d'.programs = d.programs)
    (hlast : d'.lastProgram = d.lastProgram) (hplayers : d'.players = d.players.map f)
    (hmessages : d'.chatMessages = d.chatMessages)
    (h : ∀ r, (f r).id = r.id ∧ (f r).selectedProgramId = r.selectedProgramId) : Same d d' := by
  refine ⟨hprograms, hlast, fun r' hr' => ?_, hmessages⟩
  rw [hplayers] at hr'
  obtain ⟨r, hr, rfl⟩ := List.mem_map.mp hr'
  exact ⟨r, hr, h r⟩

section Blind

variable (hI : Blind I)

include hI

theorem keeps_savePlayer (row : PlayerRow) : Preserves I (savePlayer row) := by
  refine keeps_statement fun d a d' hd hf => ?_
  split at hf
  · obtain ⟨-, rfl⟩ := Prod.mk.inj (Option.some.inj hf)
    refine hI d _ (same_map rfl rfl rfl rfl fun r => ?_) hd
    split
    · rename_i hid
      exact ⟨hid.symm, rfl⟩
    · exact ⟨rfl, rfl⟩
  · cases hf

theorem keeps_saveBuilding (row : BuildingRow) : Preserves I (saveBuilding row) := by
  refine keeps_statement fun d a d' hd hf => ?_
  split at hf
  · obtain ⟨-, rfl⟩ := Prod.mk.inj (Option.some.inj hf)
    exact hI d _ (same_rest rfl rfl rfl rfl) hd
  · cases hf

theorem keeps_saveBox (write : BoxWrite) : Preserves I (saveBox write) :=
  keeps_statement fun d a d' hd hf => by
    obtain ⟨-, rfl⟩ := Prod.mk.inj (Option.some.inj hf)
    exact hI d _ (same_rest rfl rfl rfl rfl) hd

omit hI in
theorem keeps_commitAll {m : Sql Unit} (h : Preserves I m) : Preserves I (commitAll m) :=
  (h.andThen fun _ => keeps_ret _).transaction

theorem keeps_saveTransfer (transfer : PlayerRow × BuildingRow) : Preserves I (saveTransfer transfer) :=
  (keeps_savePlayer hI _).andThen fun _ => keeps_saveBuilding hI _

theorem keeps_batchMethod {kind : SaveKind} (hkind : kind ≠ .chatAppend) (cmds : List SaveCommand) :
    Preserves I (batchMethod kind cmds) := by
  have hsaved : ∀ {m : Sql Unit}, Preserves I m → Preserves I (saved m) := fun h => h.andThen fun _ => keeps_ret _
  rw [batchMethod.eq_def]
  split
  · refine hsaved ?_
    rw [savePlayersBatch]
    split
    · exact keeps_ret _
    · exact keeps_commitAll (keeps_forEach fun row _ => keeps_savePlayer hI row)
  · refine hsaved ?_
    rw [saveBuildingsBatch]
    split
    · exact keeps_ret _
    · exact keeps_commitAll (keeps_forEach fun row _ => keeps_saveBuilding hI row)
  · refine hsaved ?_
    rw [savePlayerBuildingBatch]
    split
    · exact keeps_ret _
    · exact keeps_commitAll (keeps_forEach fun row _ => keeps_saveTransfer hI row)
  · refine hsaved ?_
    rw [savePlayerBuildingBatch]
    split
    · exact keeps_ret _
    · exact keeps_commitAll (keeps_forEach fun row _ => keeps_saveTransfer hI row)
  · exact hsaved (keeps_commitAll (keeps_forEach fun write _ => keeps_saveBox hI write))
  · exact absurd rfl hkind
  · exact keeps_ret _

omit hI in
theorem keeps_load : Preserves I load := (keeps_read _).andThen fun _ => keeps_ret _

omit hI in
theorem keeps_auctionOrder (orderId : Int32) : Preserves I (auctionOrder orderId) := by
  refine (keeps_read _).bind fun order => ?_
  cases order with
  | none => exact keeps_ret _
  | some order =>
      dsimp only
      split
      · refine (keeps_read _).bind fun buyer => ?_
        split
        · exact keeps_ret _
        · exact keeps_ret _
      · exact keeps_ret _

theorem keeps_auctionOrderCreate (request : AuctionOrderCreateRequest) : Preserves I (auctionOrderCreate request) :=
  (keeps_statement fun d a d' hd hf => by
    obtain ⟨-, rfl⟩ := Prod.mk.inj (Option.some.inj hf)
    exact hI d _ (same_rest rfl rfl rfl rfl) hd).bind fun _ => keeps_ret _

theorem keeps_updateOrderBetCas (id : Int32) (cost : Int) (buyer : PlayerId) (betTime : Int) (expectedBuyer : PlayerId)
    (expectedCost : Int) : Preserves I (updateOrderBetCas id cost buyer betTime expectedBuyer expectedCost) :=
  keeps_statement fun d a d' hd hf => by
    obtain ⟨-, rfl⟩ := Prod.mk.inj (Option.some.inj hf)
    exact hI d _ (same_rest rfl rfl rfl rfl) hd

theorem keeps_refundOutbid (request : AuctionBetRequest) (order : OrderRow) (amount now : Int) :
    Preserves I (refundOutbid request order amount now) := by
  refine (Preserves.swallow (keeps_statement fun d a d' hd hf => ?_)).bind fun r => ?_
  · split at hf
    · obtain ⟨-, rfl⟩ := Prod.mk.inj (Option.some.inj hf)
      refine hI d _ (same_map rfl rfl rfl rfl fun r => ?_) hd
      split <;> exact ⟨rfl, rfl⟩
    · cases hf
  · cases r with
    | ok _ => exact keeps_ret _
    | error _ => exact (keeps_updateOrderBetCas hI _ _ _ _ _ _).swallow.bind fun _ => keeps_fail _

theorem keeps_auctionBet (request : AuctionBetRequest) (now : Int) : Preserves I (auctionBet raise request now) := by
  refine (keeps_read _).bind fun order => ?_
  cases order with
  | none => exact keeps_ret _
  | some order =>
      dsimp only
      split
      · exact keeps_ret _
      · refine (keeps_read _).bind fun _ => (keeps_updateOrderBetCas hI _ _ _ _ _ _).bind fun won => ?_
        split
        · exact keeps_ret _
        · split
          · exact keeps_refundOutbid hI _ _ _ _
          · exact keeps_ret _

theorem keeps_deleteBuilding (request : BuildingDeleteRequest) : Preserves I (deleteBuilding request) := by
  refine Preserves.transaction ?_
  refine (keeps_statement fun d a d' hd hf => ?_).bind fun deleted => ?_
  · obtain ⟨-, rfl⟩ := Prod.mk.inj (Option.some.inj hf)
    exact hI d _ (same_rest rfl rfl rfl rfl) hd
  · refine Preserves.bind ?_ fun conflicting => ?_
    · rw [conflictingIdentity]
      split
      · exact keeps_read _
      · exact keeps_ret _
    · split
      · exact (keeps_read _).bind fun _ => keeps_ret _
      · refine Preserves.bind ?_ fun cleared => ?_
        · rw [clearRespBindings]
          split
          · refine keeps_statement fun d a d' hd hf => ?_
            obtain ⟨-, rfl⟩ := Prod.mk.inj (Option.some.inj hf)
            refine hI d _ (same_map rfl rfl rfl rfl fun r => ?_) hd
            split <;> exact ⟨rfl, rfl⟩
          · exact keeps_ret _
        · split
          · exact (keeps_saveBox hI _).bind fun _ => keeps_ret _
          · exact keeps_ret _

theorem keeps_cycleChatColor (player : PlayerId) : Preserves I (cycleChatColor player) := by
  refine (keeps_statement fun d a d' hd hf => ?_).bind fun r => ?_
  · split at hf
    · obtain ⟨-, rfl⟩ := Prod.mk.inj (Option.some.inj hf)
      exact hI d _ (same_rest rfl rfl rfl rfl) hd
    · obtain ⟨-, rfl⟩ := Prod.mk.inj (Option.some.inj hf)
      exact hd
  · cases r <;> exact keeps_ret _

theorem keeps_adminMoneyAll (amount : Int) : Preserves I (adminMoneyAll amount) :=
  (keeps_statement fun d a d' hd hf => by
    obtain ⟨-, rfl⟩ := Prod.mk.inj (Option.some.inj hf)
    exact hI d _ (same_map rfl rfl rfl rfl fun _ => ⟨rfl, rfl⟩) hd).bind fun _ => keeps_ret _

theorem keeps_adminRole (targetName : String) (role : Int32) : Preserves I (adminRole targetName role) := by
  refine (keeps_read _).swallow.bind fun r => ?_
  cases r with
  | error _ => exact keeps_ret _
  | ok target =>
      cases target with
      | none => exact keeps_ret _
      | some target =>
          refine (Preserves.swallow (keeps_statement fun d a d' hd hf => ?_)).bind fun r => ?_
          · obtain ⟨-, rfl⟩ := Prod.mk.inj (Option.some.inj hf)
            refine hI d _ (same_map rfl rfl rfl rfl fun r => ?_) hd
            split <;> exact ⟨rfl, rfl⟩
          · split <;> exact keeps_ret _

omit hI in
theorem keeps_chatPrivate (targetUid : PlayerId) : Preserves I (chatPrivate targetUid) := by
  refine (keeps_read _).bind fun found => ?_
  split
  · exact keeps_load
  · exact keeps_ret _

omit hI in
theorem keeps_whois (ids : List PlayerId) : Preserves I (whois ids) :=
  (keeps_forEach fun _ _ => (keeps_read _).swallow.andThen fun _ => keeps_ret _).andThen fun _ => keeps_ret _

omit hI in
theorem keeps_clanMenu (action : ClanMenuAction) : Preserves I (clanMenu action) := by
  rw [clanMenu.eq_def]
  split
  · exact keeps_ret _
  · refine (keeps_read _).swallow.bind fun r => ?_
    split <;> exact keeps_ret _
  · refine (keeps_read _).swallow.bind fun r => ?_
    split <;> exact keeps_ret _

theorem keeps_clanCommand (request : ClanCommandRequest) (draw : Nat) (action : ClanAction) :
    Preserves I (clanCommand request draw action) :=
  fun _ d hd => ⟨fun _ _ => hI d _ (same_rest rfl rfl rfl rfl) hd, nofun⟩

/-- A command that is about neither programs nor messages. -/
theorem keeps_perform {cmd : SaveCommand} (hprogram : cmd.programmer = none) (hchat : cmd.kind ≠ .chatAppend)
    (inputs : Inputs) (cmds : List SaveCommand) : Preserves I (perform raise inputs cmd cmds) := by
  have hbatch : ∀ kind, kind ≠ .chatAppend → Preserves I (batchMethod kind cmds) :=
    fun _ hkind => keeps_batchMethod hI hkind cmds
  cases cmd with
  | player _ => exact hbatch .player (by decide)
  | building _ => exact hbatch .building (by decide)
  | respProfit _ _ => exact hbatch .respProfit (by decide)
  | chargeFill _ _ => exact hbatch .chargeFill (by decide)
  | box _ => exact hbatch .box (by decide)
  | chatAppend _ => exact absurd rfl hchat
  | program _ _ _ | programCreate _ _ | programOpen _ _ | programRename _ _ _ | programDelete _ _ _ | programCopy _ _ =>
      cases hprogram
  | programMenu _ | buildingMenu _ | auctionGrid | auctionItemOrders _ | chatResync _ => exact keeps_load
  | auctionOrder orderId => exact keeps_auctionOrder orderId
  | auctionOrderCreate request => exact keeps_auctionOrderCreate hI request
  | auctionBet request => exact keeps_auctionBet hI request inputs.now
  | buildingDelete request => exact keeps_deleteBuilding hI request
  | chatColorCycle p => exact keeps_cycleChatColor hI p
  | chatMenu => exact keeps_ret _
  | chatPrivate targetUid => exact keeps_chatPrivate targetUid
  | whois ids => exact keeps_whois ids
  | clanMenu action => exact keeps_clanMenu action
  | adminMoneyAll amount => exact keeps_adminMoneyAll hI amount
  | adminRole targetName role => exact keeps_adminRole hI targetName role
  | adminSkill row => exact (keeps_savePlayer hI row).bind fun _ => keeps_ret _
  | clanCommand request action => exact keeps_clanCommand hI request inputs.draw action

end Blind

end OpenMines.Persistence
