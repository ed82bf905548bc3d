import OpenMines.PersistenceWorker

namespace OpenMines.Persistence

open Lib.Statements Lib.Statements.Prog

theorem direct_sql {α : Type} (f : Database → Option (α × Database)) : (sql f).Direct .transient :=
  direct_statement _ _

theorem direct_query {α : Type} (f : Database → α) : (query f).Direct .transient :=
  direct_statement Failure.transient fun d => some (f d, d)

section Batches

variable {α : Type} {f : α → Sql Unit}

theorem commitAll_call (h : ∀ x, (f x).Direct .transient) (xs : List α) :
    (commitAll (forEach f xs)).Steady ∧ (commitAll (forEach f xs)).Atomic .transient := by
  have hbody : (andThen (forEach f xs) fun _ => ret (true, ()) : Sql (Bool × Unit)).Direct .transient :=
    (direct_forEach h xs).andThen fun _ => direct_ret _
  exact ⟨hbody.steady_transaction, hbody.atomic_transaction⟩

theorem saved_call {m : Sql Unit} (h : m.Steady ∧ m.Atomic .transient) :
    (saved m).Steady ∧ (saved m).Atomic .transient :=
  ⟨h.1.andThen fun _ => steady_ret _, h.2.andThen fun _ _ => rfl⟩

theorem savePlayersBatch_call (rows : List PlayerRow) :
    (savePlayersBatch rows).Steady ∧ (savePlayersBatch rows).Atomic .transient := by
  rw [savePlayersBatch]
  split
  · exact ⟨steady_ret _, atomic_ret _⟩
  · exact commitAll_call (fun _ => direct_sql _) rows

theorem saveBuildingsBatch_call (rows : List BuildingRow) :
    (saveBuildingsBatch rows).Steady ∧ (saveBuildingsBatch rows).Atomic .transient := by
  rw [saveBuildingsBatch]
  split
  · exact ⟨steady_ret _, atomic_ret _⟩
  · exact commitAll_call (fun _ => direct_sql _) rows

theorem savePlayerBuildingBatch_call (transfers : List (PlayerRow × BuildingRow)) :
    (savePlayerBuildingBatch transfers).Steady ∧ (savePlayerBuildingBatch transfers).Atomic .transient := by
  rw [savePlayerBuildingBatch]
  split
  · exact ⟨steady_ret _, atomic_ret _⟩
  · exact commitAll_call (fun _ => (direct_sql _).andThen fun _ => direct_sql _) transfers

theorem saveBoxesBatch_call (writes : List BoxWrite) :
    (saveBoxesBatch writes).Steady ∧ (saveBoxesBatch writes).Atomic .transient :=
  commitAll_call (fun _ => direct_sql _) writes

/-- Only the failure of the first message of a batch leaves nothing behind. -/
theorem saveChatMessagesBatch_call (messages : List ChatAppendRequest) :
    (saveChatMessagesBatch messages).Steady ∧ (saveChatMessagesBatch messages).Guarded .transient 1 := by
  refine ⟨(direct_forEach (fun _ => direct_sql _) messages).steady, ?_⟩
  cases messages with
  | nil => exact atomic_ret () 1
  | cons message rest => exact guarded_statement_andThen _ _

end Batches

section Methods

variable {player : PlayerId} {program : Int32}

theorem saveSelectProgram_call (code : String) :
    (saveSelectProgram player program code).Steady ∧ (saveSelectProgram player program code).Atomic .transient := by
  rw [saveSelectProgram]
  refine ⟨Direct.steady_transaction ?_, Direct.atomic_transaction ?_⟩ <;>
  · refine (direct_sql _).andThen fun updated => ?_
    split
    · refine (direct_sql _).andThen fun selected => ?_
      split
      · exact (direct_sql _).andThen fun _ => direct_ret _
      · exact direct_ret _
    · exact direct_ret _

theorem saveProgram_call (source : String) :
    (saveProgram player program source).Steady ∧ (saveProgram player program source).Atomic .transient := by
  obtain ⟨hsteady, hatomic⟩ := @saveSelectProgram_call player program source
  refine ⟨hsteady.andThen fun r => ?_, hatomic.andThen fun r _ => ?_⟩
  · cases r with
    | saved row => exact steady_ret _
    | programUnavailable => exact steady_ret _
    | playerUnavailable => exact steady_fail _
  · cases r <;> rfl

theorem createProgram_call (name : String) :
    (createProgram player name).Steady ∧ (createProgram player name).Guarded .transient 1 := by
  refine ⟨(direct_sql _).steady.andThen fun id => ?_, guarded_statement_andThen _ _⟩
  exact (direct_sql _).steady.swallow.andThen fun _ => steady_ret _

/-- A method that looks a program up, and then writes with one statement. -/
theorem owned_call {f : Database → Option ProgramRow} {k : ProgramRow → Sql StoreResult}
    (hk : ∀ row, (k row).Steady ∧ (k row).Atomic .transient) :
    let m : Sql StoreResult := andThen (query f) fun found =>
      match found with
      | none => ret .rejected
      | some row => if row.playerId ≠ player then ret .rejected else k row
    m.Steady ∧ m.Atomic .transient := by
  refine ⟨(direct_query f).steady.andThen fun found => ?_, Atomic.read_andThen f fun found => ?_⟩
  · cases found with
    | none => exact steady_ret _
    | some row =>
        dsimp only
        split
        · exact steady_ret _
        · exact (hk row).1
  · cases found with
    | none => exact atomic_ret _
    | some row =>
        dsimp only
        split
        · exact atomic_ret _
        · exact (hk row).2

theorem write_call {α : Type} (f : Database → Option (α × Database)) (r : α → StoreResult) :
    (andThen (sql f) fun a => ret (r a) : Sql StoreResult).Steady ∧
      (andThen (sql f) fun a => ret (r a) : Sql StoreResult).Atomic .transient :=
  ⟨(direct_sql f).steady.andThen fun _ => steady_ret _, Atomic.andThen (atomic_statement _ f) fun _ _ => rfl⟩

theorem programOpen_call : (programOpen player program).Steady ∧ (programOpen player program).Atomic .transient :=
  owned_call fun row => write_call _ fun _ => .programOpened row

theorem programRename_call (name : String) :
    (programRename player program name).Steady ∧ (programRename player program name).Atomic .transient :=
  owned_call fun row => write_call _ fun _ => .programRenamed { row with name }

theorem programDelete_call (clearSelected : Bool) :
    (programDelete player program clearSelected).Steady ∧
      (programDelete player program clearSelected).Guarded .transient 1 := by
  refine ⟨(direct_sql _).steady.andThen fun deleted => ?_, guarded_statement_andThen _ _⟩
  split
  · split
    · exact (direct_sql _).steady.swallow.andThen fun _ => steady_ret _
    · exact steady_ret _
  · exact steady_ret _

theorem copyProgram_call :
    (copyProgram player program).Steady ∧ (copyProgram player program).Guarded .transient 1 := by
  refine ⟨(direct_query _).steady.andThen fun found => ?_,
    guarded_statement_andThen (fun d : Database => some (d.getProgram program, d)) _⟩
  cases found with
  | none => exact steady_ret _
  | some row =>
      dsimp only
      split
      · exact steady_ret _
      · refine (direct_sql _).steady.swallow.andThen fun r => ?_
        cases r <;> exact steady_ret _

theorem deleteBuilding_call (request : BuildingDeleteRequest) :
    (deleteBuilding request).Steady ∧ (deleteBuilding request).Atomic .transient := by
  rw [deleteBuilding]
  refine ⟨Direct.steady_transaction ?_, Direct.atomic_transaction ?_⟩ <;>
  · refine (direct_sql _).andThen fun deleted => Direct.andThen ?_ fun conflicting => ?_
    · rw [conflictingIdentity]
      split
      · exact direct_query _
      · exact direct_ret _
    · split
      · exact (direct_query _).andThen fun _ => direct_ret _
      · refine Direct.andThen ?_ fun cleared => ?_
        · rw [clearRespBindings]
          split
          · exact direct_sql _
          · exact direct_ret _
        · cases request.boxWrite with
          | some write => exact (direct_sql _).andThen fun _ => direct_ret _
          | none => exact direct_ret _

theorem cycleChatColor_call : (cycleChatColor player).Steady ∧ (cycleChatColor player).Atomic .transient := by
  refine ⟨(direct_sql _).steady.andThen fun color => ?_, Atomic.andThen (atomic_statement _ _) fun color _ => ?_⟩
  · cases color <;> exact steady_ret _
  · cases color <;> rfl

theorem adminRole_steady (targetName : String) (role : Int32) : (adminRole targetName role).Steady := by
  refine (direct_query _).steady.swallow.andThen fun found => ?_
  match found with
  | .error _ => exact steady_ret _
  | .ok none => exact steady_ret _
  | .ok (some target) =>
      refine (direct_sql _).steady.swallow.andThen fun r => ?_
      match r with
      | .ok true => exact steady_ret _
      | .ok false => exact steady_ret _
      | .error _ => exact steady_ret _

theorem clanCommand_steady (request : ClanCommandRequest) (draw : Nat) (action : ClanAction) :
    (clanCommand request draw action).Steady := by
  intro fails d h
  have hcalm : ∀ i < action.lookups + action.changes, fails i = false := h
  have hlookups : decide (∀ i < action.lookups, fails i = false) = true :=
    decide_eq_true fun i hi => hcalm i (by omega)
  have hchanges : decide (∀ i < action.changes, fails (action.lookups + i) = false) = true :=
    decide_eq_true fun i hi => hcalm _ (by omega)
  simp only [calm, clanCommand, hlookups, hchanges, implies_true, decide_true]

theorem load_call : load.Steady ∧ load.Reads :=
  ⟨(direct_query _).steady.andThen fun _ => steady_ret _, (reads_read _ _).andThen fun _ => reads_ret _⟩

theorem chatPrivate_call (targetUid : PlayerId) : (chatPrivate targetUid).Steady ∧ (chatPrivate targetUid).Reads := by
  refine ⟨(direct_query _).steady.andThen fun found => ?_, (reads_read _ _).andThen fun found => ?_⟩
  · split
    · exact load_call.1
    · exact steady_ret _
  · split
    · exact load_call.2
    · exact reads_ret _

theorem whois_call (ids : List PlayerId) : (whois ids).Steady ∧ (whois ids).Reads := by
  refine ⟨(steady_forEach (fun id => ?_) ids).andThen fun _ => steady_ret _,
    (reads_forEach (fun id => ?_) ids).andThen fun _ => reads_ret _⟩
  · exact (direct_query _).steady.swallow.andThen fun _ => steady_ret _
  · exact (reads_read _ _).swallow.andThen fun _ => reads_ret _

theorem clanMenu_call (action : ClanMenuAction) : (clanMenu action).Steady ∧ (clanMenu action).Reads := by
  cases action with
  | inviteList => exact ⟨steady_ret _, reads_ret _⟩
  | preview clanId =>
      refine ⟨(direct_query _).steady.swallow.andThen fun r => ?_, (reads_read _ _).swallow.andThen fun r => ?_⟩
      · match r with
        | .ok true => exact steady_ret _
        | .ok false => exact steady_ret _
        | .error _ => exact steady_ret _
      · match r with
        | .ok true => exact reads_ret _
        | .ok false => exact reads_ret _
        | .error _ => exact reads_ret _
  | main | members | invites | requests =>
      refine ⟨(direct_query _).steady.swallow.andThen fun r => ?_, (reads_read _ _).swallow.andThen fun r => ?_⟩
      · cases r <;> exact steady_ret _
      · cases r <;> exact reads_ret _

theorem auctionOrder_call (orderId : Int32) : (auctionOrder orderId).Steady ∧ (auctionOrder orderId).Reads := by
  refine ⟨(direct_query _).steady.andThen fun found => ?_, (reads_read _ _).andThen fun found => ?_⟩
  · cases found with
    | none => exact steady_ret _
    | some order =>
        dsimp only
        split
        · refine (direct_query _).steady.andThen fun buyer => ?_
          split <;> exact steady_ret _
        · exact steady_ret _
  · cases found with
    | none => exact reads_ret _
    | some order =>
        dsimp only
        split
        · refine (reads_read _ _).andThen fun buyer => ?_
          split <;> exact reads_ret _
        · exact reads_ret _

theorem refundOutbid_steady (request : AuctionBetRequest) (order : OrderRow) (amount now : Int) :
    (refundOutbid request order amount now).Steady := by
  refine (direct_sql _).steady.swallow.andThen fun r => ?_
  cases r with
  | ok _ => exact steady_ret _
  | error _ => exact (direct_sql _).steady.swallow.andThen fun _ => steady_fail _

theorem auctionBet_call (raise : Int → Int) (request : AuctionBetRequest) (now : Int) :
    (auctionBet raise request now).Steady ∧ (auctionBet raise request now).Guarded .transient 3 := by
  refine ⟨(direct_query _).steady.andThen fun found => ?_, Guarded.read_andThen _ fun found => ?_⟩
  · cases found with
    | none => exact steady_ret _
    | some order =>
        dsimp only
        split
        · exact steady_ret _
        · refine (direct_query _).steady.andThen fun _ => (direct_sql _).steady.andThen fun won => ?_
          split
          · exact steady_ret _
          · split
            · exact refundOutbid_steady request order _ now
            · exact steady_ret _
  · cases found with
    | none => exact atomic_ret _ 2
    | some order =>
        dsimp only
        split
        · exact atomic_ret _ 2
        · refine Guarded.read_andThen _ fun _ => ?_
          rw [updateOrderBetCas]
          exact guarded_statement_andThen _ _

end Methods

section Perform

variable (raise : Int → Int) (inputs : Inputs)

/-- How a call bears a failure: its first statements are sheltered, or all of them, or it only reads. -/
def Bears (first : Option Nat) (m : Sql StoreResult) : Prop :=
  match first with
  | some first => m.Guarded .transient first
  | none => m.Atomic .transient ∨ m.Reads

theorem perform_call (cmd : SaveCommand) (cmds : List SaveCommand) :
    (perform raise inputs cmd cmds).Steady ∧ Bears cmd.sheltered (perform raise inputs cmd cmds) := by
  have hload : (load.Steady ∧ (load.Atomic .transient ∨ load.Reads)) := ⟨load_call.1, .inr load_call.2⟩
  cases cmd with
  | player row => exact (saved_call (savePlayersBatch_call _)).imp_right .inl
  | building row => exact (saved_call (saveBuildingsBatch_call _)).imp_right .inl
  | respProfit row pack => exact (saved_call (savePlayerBuildingBatch_call _)).imp_right .inl
  | chargeFill row pack => exact (saved_call (savePlayerBuildingBatch_call _)).imp_right .inl
  | box write => exact (saved_call (saveBoxesBatch_call _)).imp_right .inl
  | chatAppend request =>
      obtain ⟨hsteady, hguarded⟩ := saveChatMessagesBatch_call (cmds.filterMap SaveCommand.chatMessage)
      exact ⟨hsteady.andThen fun _ => steady_ret _, hguarded.andThen fun _ _ => rfl⟩
  | program player program source => exact (saveProgram_call source).imp_right .inl
  | programCreate player name => exact createProgram_call name
  | programMenu player => exact hload
  | programOpen player program => exact programOpen_call.imp_right .inl
  | programRename player program name => exact (programRename_call name).imp_right .inl
  | programDelete player program clearSelected => exact programDelete_call clearSelected
  | programCopy player program => exact copyProgram_call
  | buildingMenu player => exact hload
  | auctionGrid => exact hload
  | auctionItemOrders itemId => exact hload
  | auctionOrder orderId => exact (auctionOrder_call orderId).imp_right .inr
  | auctionOrderCreate request => exact (write_call _ fun _ => .orderCreated).imp_right .inl
  | auctionBet request => exact auctionBet_call raise request inputs.now
  | buildingDelete request => exact (deleteBuilding_call request).imp_right .inl
  | chatColorCycle player => exact cycleChatColor_call.imp_right .inl
  | chatResync channelTag => exact hload
  | chatMenu => exact ⟨steady_ret _, .inr (reads_ret _)⟩
  | chatPrivate targetUid => exact (chatPrivate_call targetUid).imp_right .inr
  | whois ids => exact (whois_call ids).imp_right .inr
  | clanMenu action => exact (clanMenu_call action).imp_right .inr
  | adminMoneyAll amount => exact (write_call _ .moneyApplied).imp_right .inl
  | adminRole targetName role => exact ⟨adminRole_steady targetName role, fun _ _ _ h => absurd h (Nat.not_lt_zero _)⟩
  | adminSkill row => exact (write_call _ fun _ => .done).imp_right .inl
  | clanCommand request action =>
      exact ⟨clanCommand_steady request inputs.draw action, fun _ _ _ h => absurd h (Nat.not_lt_zero _)⟩

variable {raise inputs} {cmd : SaveCommand} {cmds : List SaveCommand} {fails : Nat → Bool} {d : Database}

theorem perform_of_calm (h : ∀ i < ((perform raise inputs cmd cmds).calm d).count, fails i = false) :
    perform raise inputs cmd cmds fails d = (perform raise inputs cmd cmds).calm d :=
  (perform_call raise inputs cmd cmds).1 fails d h

/-- A call that is spared does as when no statement fails, or is to be tried again and has changed
nothing, or changes nothing at all. -/
theorem perform_of_spared (h : Spared raise inputs cmd cmds fails d) :
    perform raise inputs cmd cmds fails d = (perform raise inputs cmd cmds).calm d ∨
      (perform raise inputs cmd cmds fails d).result = .error .transient ∧
        (perform raise inputs cmd cmds fails d).data = d ∨
      (perform raise inputs cmd cmds fails d).data = d ∧ ((perform raise inputs cmd cmds).calm d).data = d := by
  by_cases hcalm : ∀ i < ((perform raise inputs cmd cmds).calm d).count, fails i = false
  · exact .inl (perform_of_calm hcalm)
  · have hbears := (perform_call raise inputs cmd cmds).2
    rw [Bears.eq_def] at hbears
    rw [Spared] at h
    split at hbears
    · rename_i first hfirst
      rcases h first hfirst with ⟨i, hi, hcount, hfails⟩ | h
      · exact .inr (.inl (hbears fails d i hi hcount hfails))
      · exact absurd h hcalm
    · rcases hbears with hatomic | hreads
      · simp only [not_forall, Bool.not_eq_false] at hcalm
        obtain ⟨i, hcount, hfails⟩ := hcalm
        exact .inr (.inl (hatomic (i + 1) fails d i (Nat.lt_succ_self i) hcount hfails))
      · exact .inr (.inr ⟨hreads fails d, hreads _ d⟩)

end Perform

end OpenMines.Persistence
