import OpenMines.CommandSaves
import OpenMines.Simulation

namespace OpenMines

open Lib.Text

/-! ### The classification of a button by the beginning of its text -/

/-- The texts before the arguments of the buttons that save, with the kinds of the saves. -/
def savingPrefixes : List (String × SaveKind) := [
  ("createprog:", .programCreate), ("openprog:", .programOpen), ("rename:", .programRename),
  ("choose:", .auctionItemOrders), ("openorder:", .auctionOrder), ("aucsetnum:", .auctionOrderCreate),
  ("aucminbet:", .auctionBet), ("aucbet:", .auctionBet),
  ("pack_op:take_money:", .building), ("pack_op:take_crys:", .building), ("pack_save:", .building),
  ("resp_save:", .building), ("resp_profit:", .respProfit), ("resp_fill:", .chargeFill), ("gun_fill:", .chargeFill),
  ("resp_bind:", .player)]

section Kinds

variable {pre button : String} {kind : SaveKind}

theorem startsWith_clan_of_isClanMenuButton (h : isClanMenuButton button = true) : startsWith button "clan_" = true := by
  simp only [isClanMenuButton, Bool.or_eq_true, decide_eq_true_eq] at h
  rcases h with (((((rfl | rfl) | rfl) | rfl) | rfl) | rfl) | h
  · exact startsWith_ofList rfl
  · exact startsWith_ofList rfl
  · exact startsWith_ofList rfl
  · exact startsWith_ofList rfl
  · exact startsWith_ofList rfl
  · exact startsWith_ofList rfl
  · exact startsWith_of_startsWith h (startsWith_ofList rfl)

theorem isClanMenuButton_of_clash (h : startsWith button pre = true) (hclash : clash pre "clan_" = true) :
    isClanMenuButton button = false := by
  rw [Bool.eq_false_iff]
  intro hclan
  have hstarts := startsWith_clan_of_isClanMenuButton hclan
  rw [startsWith_of_clash h hclash] at hstarts
  cases hstarts

-- Below `id` keeps the types of the side goals: without it the literals are compared byte by byte.
theorem buttonPersistenceKind_of_mem (h : (pre, kind) ∈ savingPrefixes) (hbutton : startsWith button pre = true) :
    buttonPersistenceKind button = some kind := by
  simp only [savingPrefixes, List.mem_cons, Prod.mk.injEq, List.not_mem_nil, or_false] at h
  rcases h with ⟨rfl, rfl⟩ | ⟨rfl, rfl⟩ | ⟨rfl, rfl⟩ | ⟨rfl, rfl⟩ | ⟨rfl, rfl⟩ | ⟨rfl, rfl⟩ | ⟨rfl, rfl⟩ | ⟨rfl, rfl⟩ |
    ⟨rfl, rfl⟩ | ⟨rfl, rfl⟩ | ⟨rfl, rfl⟩ | ⟨rfl, rfl⟩ | ⟨rfl, rfl⟩ | ⟨rfl, rfl⟩ | ⟨rfl, rfl⟩ | ⟨rfl, rfl⟩ <;>
    simp (disch := first | exact id (clash_ofList rfl) | exact id (startsWith_ofList rfl)) [buttonPersistenceKind, hbutton,
      startsWith_of_clash hbutton, ne_of_startsWith hbutton, isClanMenuButton_of_clash hbutton,
      isBuildingMutationButton, isChargeFillButton]

theorem buttonPersistenceKind_of_isClanMenuButton (h : isClanMenuButton button = true) :
    buttonPersistenceKind button = some .clanMenu := by
  have hclan := startsWith_clan_of_isClanMenuButton h
  simp (disch := first | exact id (clash_ofList rfl) | exact id (startsWith_ofList rfl)) [buttonPersistenceKind, h,
    startsWith_of_clash hclan, ne_of_startsWith hclan]

theorem buttonPersistenceKind_of_isPlayerMutationButton (h : isPlayerMutationButton button = true) :
    buttonPersistenceKind button = some .player := by
  have hstarts : startsWith button "upgrade" = true ∨ startsWith button "buyslot" = true ∨
      startsWith button "delete:" = true ∨ startsWith button "install:" = true := by
    simp only [isPlayerMutationButton, Bool.or_eq_true, decide_eq_true_eq] at h
    rcases h with ((rfl | rfl) | h) | h
    · exact Or.inl (startsWith_ofList rfl)
    · exact Or.inr (Or.inl (startsWith_ofList rfl))
    · exact Or.inr (Or.inr (Or.inl h))
    · exact Or.inr (Or.inr (Or.inr h))
  rcases hstarts with hbutton | hbutton | hbutton | hbutton <;>
    simp (disch := first | exact id (clash_ofList rfl) | exact id (startsWith_ofList rfl)) [buttonPersistenceKind, h,
      startsWith_of_clash hbutton, ne_of_startsWith hbutton, isClanMenuButton_of_clash hbutton,
      isBuildingMutationButton, isChargeFillButton]

theorem buttonPersistenceKind_craft (h : startsWith button "craft_" = true) : buttonPersistenceKind button = none := by
  simp (disch := first | exact id (clash_ofList rfl) | exact id (startsWith_ofList rfl)) [buttonPersistenceKind,
    startsWith_of_clash h, ne_of_startsWith h, isClanMenuButton_of_clash h, isBuildingMutationButton,
    isChargeFillButton, isPlayerMutationButton]

/-- Of the buttons of the clans only those of the menu are classified. -/
theorem buttonPersistenceKind_clan (h : startsWith button "clan_" = true) (hmenu : isClanMenuButton button = false) :
    buttonPersistenceKind button = none := by
  simp (disch := first | exact id (clash_ofList rfl) | exact id (startsWith_ofList rfl)) [buttonPersistenceKind, hmenu,
    startsWith_of_clash h, ne_of_startsWith h, isBuildingMutationButton, isChargeFillButton, isPlayerMutationButton]

end Kinds

/-! ### The handlers -/

/-- A command saves nothing, or once and as it was classified. -/
def Admitted (kind : Option SaveKind) (saves : List SaveKind) : Prop := saves = [] ∨ ∃ k, kind = some k ∧ saves = [k]

section Admitted

variable {kind : Option SaveKind} {k : SaveKind}

theorem admitted_nil (kind : Option SaveKind) : Admitted kind [] := Or.inl rfl

theorem admitted_singleton : Admitted kind [k] ↔ kind = some k := by
  constructor
  · rintro (h | ⟨k', hkind, h⟩)
    · cases h
    · rw [hkind, (List.cons.inj h).1]
  · exact fun h => Or.inr ⟨k, h, rfl⟩

theorem not_admitted_cons_cons {k' : SaveKind} {saves : List SaveKind} : ¬ Admitted kind (k :: k' :: saves) := by
  rintro (h | ⟨_, _, h⟩) <;> cases h

theorem admitted_saveIf (h : kind = some k) (done : Bool) : Admitted kind (saveIf k done) := by
  cases done with
  | false => exact admitted_nil kind
  | true => exact admitted_singleton.mpr h

theorem admitted_saveIf_iff (h : kind ≠ some k) {done : Bool} : Admitted kind (saveIf k done) ↔ ¬ done = true := by
  cases done with
  | false => exact iff_of_true (admitted_nil kind) nofun
  | true => exact iff_of_false (fun hadmitted => h (admitted_singleton.mp hadmitted)) fun h => h rfl

/-- The permit that was reserved for the classification is used for a save of its kind, or for none. -/
theorem publishCommandSaves_isSome {R : Type} (kind : Option SaveKind) (saves : List (SaveCommand R)) :
    (publishCommandSaves kind saves).isSome = true ↔ Admitted kind (saves.map SaveCommand.kind) := by
  match kind, saves with
  | none, [] | some _, [] => exact iff_of_true rfl (admitted_nil _)
  | none, [_] => exact iff_of_false nofun fun h => nomatch admitted_singleton.mp h
  | some k, [save] =>
    rw [List.map_cons, List.map_nil, admitted_singleton, publishCommandSaves, Option.some.injEq]
    split
    · rename_i h
      exact iff_of_true rfl h
    · rename_i h
      exact iff_of_false nofun h
  | none, _ :: _ :: _ | some _, _ :: _ :: _ => exact iff_of_false nofun not_admitted_cons_cons

theorem admitted_ite {c : Prop} [Decidable c] {saves others : List SaveKind} (h : c → Admitted kind saves)
    (hothers : ¬ c → Admitted kind others) : Admitted kind (if c then saves else others) := by
  split
  · rename_i hc
    exact h hc
  · rename_i hc
    exact hothers hc

theorem admitted_strip {o : Option String} {saves : String → List SaveKind} {others : List SaveKind} :
    (∀ rest, o = some rest → Admitted kind (saves rest)) → (o = none → Admitted kind others) →
      Admitted kind (if let some rest := o then saves rest else others) := by
  intro h hothers
  cases o with
  | none => exact hothers rfl
  | some rest => exact h rest rfl

theorem admitted_getD {o : Option WorldPos} {saves : WorldPos → List SaveKind} (h : ∀ c, Admitted kind (saves c)) :
    Admitted kind ((o.map saves).getD []) := by
  cases o with
  | none => exact admitted_nil kind
  | some c => exact h c

end Admitted

section Chat

variable {parseF32 : String → Option UInt32} {text token : String} {name : AdminCommandName}

theorem parseSlashCommand_trim (parseF32 : String → Option UInt32) (text : String) :
    parseSlashCommand parseF32 (trim text) = parseSlashCommand parseF32 text := by
  rw [parseSlashCommand, splitWhitespace_trim]
  rfl

theorem startsWith_slash : startsWith text "/" = true ↔ text.toList.head? = some '/' := by
  have hlist : "/".toList = ['/'] := String.toList_ofList
  rw [startsWith_iff, hlist]
  cases text.toList with
  | nil => exact iff_of_false (by simp) nofun
  | cons c cs =>
    rw [List.cons_prefix_cons, List.head?_cons, Option.some.injEq, and_iff_left (List.nil_prefix), eq_comm]

theorem head_of_fromSlash (h : AdminCommandName.fromSlash token = some name) : token.toList.head? = some '/' := by
  unfold AdminCommandName.fromSlash at h
  split at h <;> first | rfl | cases h

/-- A text that is no command is not classified. -/
theorem persistenceKind_of_not_slash (h : startsWith (trim text) "/" = false) :
    (parseSlashCommand parseF32 text).persistenceKind = none := by
  rw [parseSlashCommand]
  cases hwords : splitWhitespace text with
  | nil => rfl
  | cons command args =>
    cases hname : AdminCommandName.fromSlash command with
    | none =>
      dsimp only
      rw [hname]
      rfl
    | some name =>
      have hslash : startsWith (trim text) "/" = true :=
        startsWith_slash.mpr ((head_trim hwords).trans (head_of_fromSlash hname))
      rw [h] at hslash
      cases hslash

end Chat

namespace CommandState

variable {s : CommandState} {player : PlayerId} {session : SessionId} {parseF32 : String → Option UInt32}
  {button : String}

theorem admitted_slash (command : SlashCommand) :
    Admitted command.persistenceKind (s.applySlashCommand player command) := by
  cases command with
  | moneyAll amount => exact admitted_saveIf rfl _
  | skill command => exact admitted_saveIf rfl _
  | role target role => exact admitted_saveIf rfl _
  | clan action =>
    cases action with
    | invalid message => exact admitted_nil _
    | create name tag => exact admitted_saveIf rfl _
    | leave | kick | acceptInvite | declineInvite | acceptRequest | declineRequest | promote | kickById | invite
    | request => exact admitted_singleton.mpr rfl
  | give | giveAll | money | skillHelp | teleport | heal | kick | pack | help | unknown | invalid =>
    exact admitted_nil _

theorem admitted_localChat (message : String) :
    Admitted (parseSlashCommand parseF32 (trim message)).persistenceKind (s.applyLocalChat player parseF32 message) := by
  rw [applyLocalChat]
  exact admitted_ite (fun _ => admitted_slash (parseSlashCommand parseF32 (trim message))) fun _ => admitted_nil _

theorem admitted_channelChat (payload : List UInt8) :
    Admitted (parseSlashCommand parseF32 (extractChannelMessageText payload)).persistenceKind
        (s.applyChannelChat player parseF32 payload) ↔
      ¬ (s.checkChatRate player = true ∧ plainText (extractChannelMessageText payload) = true ∧
        s.mayChat player = true) := by
  rw [applyChannelChat]
  by_cases hrate : s.checkChatRate player = true
  · rw [if_neg (not_not_intro hrate)]
    cases hslash : startsWith (trim (extractChannelMessageText payload)) "/" with
    | true =>
      have hplain : plainText (extractChannelMessageText payload) = false := by
        rw [plainText, hslash, Bool.not_true, Bool.and_false]
      rw [if_pos rfl, ← parseSlashCommand_trim, hplain]
      exact iff_of_true (admitted_slash _) fun h => absurd h.2.1 (by decide)
    | false =>
      rw [if_neg (by decide), persistenceKind_of_not_slash hslash]
      refine Iff.trans (admitted_saveIf_iff (by nofun)) (not_congr ?_)
      rw [prepareChannelChat, Bool.and_eq_true, and_iff_right hrate]
  · rw [if_pos hrate]
    exact iff_of_true (admitted_nil _) fun h => hrate h.1

theorem admitted_programAction (event : String) (payload : List UInt8) :
    Admitted ((PlayerCommand.programAction event payload).persistenceKind parseF32)
      (s.applyProgramAction player session event payload) := by
  unfold applyProgramAction
  split
  · split
    · rw [PlayerCommand.persistenceKind, if_pos rfl]
      cases decodeProgramSave payload with
      | none => exact admitted_nil _
      | some program =>
        dsimp only [Option.map_some]
        split <;> exact admitted_singleton.mpr rfl
    · rw [PlayerCommand.persistenceKind, if_neg (by decide), if_neg (by decide), if_pos rfl]
      cases payloadProgramId payload with
      | none => exact admitted_nil _
      | some id => exact admitted_singleton.mpr rfl
    · rw [PlayerCommand.persistenceKind, if_neg (by decide), if_pos rfl]
      exact admitted_saveIf rfl _
    · exact admitted_nil _
  · exact admitted_nil _

/-! ### The buttons -/

/-- A bet on an order whose amount cannot be read. -/
def unreadBet (button : String) : Bool :=
  ((stripPrefix button "aucbet:").bind (splitOnce · ':')).any fun parts =>
    (parseI32 parts.1).isSome && (parseI64 parts.2).isNone

/-- The position in the text of a crafter's button. -/
def craftedAt (button : String) : Option WorldPos :=
  ((stripPrefix button "craft_start:").or (stripPrefix button "craft_claim:")).bind craftCoordinates

/-- The button saves, and not as it was classified. -/
def misclassifiedButton (s : CommandState) (player : PlayerId) (button : String) : Bool :=
  (clanMutationActionForButton button).isSome || unreadBet button && (s.resolveMarketWindow player).isSome ||
    (craftedAt button).any fun c => (s.buildings c).any fun b => b.hasRow

/-- The buttons that change a clan, by the beginnings of their texts. -/
def clanMutationPrefixes : List String := ["clan_leave", "clan_invite_accept:", "clan_invite_decline:", "clan_accept:",
  "clan_decline:", "clan_promote:", "clan_kick_id:", "clan_invite_send:", "clan_request:"]

theorem exists_prefix_of_clanMutation (h : (clanMutationActionForButton button).isSome = true) :
    ∃ pre ∈ clanMutationPrefixes, startsWith button pre = true := by
  rw [clanMutationActionForButton] at h
  split at h
  · rename_i hleave
    rw [hleave]
    exact ⟨_, .head _, startsWith_ofList rfl⟩
  · obtain ⟨parts, hparts⟩ : ∃ parts, splitOnce button ':' = some parts := by
      cases hparts : splitOnce button ':' with
      | none =>
        rw [hparts] at h
        cases h
      | some parts => exact ⟨parts, rfl⟩
    obtain ⟨id, hid⟩ : ∃ id, parseI32 parts.2 = some id := by
      cases hid : parseI32 parts.2 with
      | none =>
        rw [hparts, Option.bind_some, hid] at h
        cases h
      | some id => exact ⟨id, rfl⟩
    have hstarts : startsWith button (parts.1 ++ ":") = true := by
      have hcolon : ":".toList = [':'] := String.toList_ofList
      rw [startsWith_iff, (splitOnce_eq_some hparts).1, String.toList_append, hcolon]
      exact ⟨parts.2.toList, by rw [List.append_assoc]; rfl⟩
    rw [hparts, Option.bind_some, hid, Option.bind_some] at h
    split at h
    case h_9 => cases h
    all_goals
      rename_i hname
      rw [hname] at hstarts
      exact ⟨_, by decide, hstarts⟩

theorem startsWith_of_clanMutation (h : (clanMutationActionForButton button).isSome = true) :
    startsWith button "clan_" = true ∧ isClanMenuButton button = false := by
  obtain ⟨pre, hmem, hpre⟩ := exists_prefix_of_clanMutation h
  simp only [clanMutationPrefixes, List.mem_cons, List.not_mem_nil, or_false] at hmem
  rcases hmem with rfl | rfl | rfl | rfl | rfl | rfl | rfl | rfl | rfl <;>
    refine ⟨startsWith_of_startsWith hpre (startsWith_ofList rfl), ?_⟩ <;>
    simp (disch := first | exact id (clash_ofList rfl) | exact id (startsWith_ofList rfl)) [isClanMenuButton,
      startsWith_of_clash hpre, ne_of_startsWith hpre]

theorem not_clanMutation_of_clash {pre : String} (h : startsWith button pre = true) (hclash : clash pre "clan_" = true) :
    (clanMutationActionForButton button).isSome = false := by
  rw [Bool.eq_false_iff]
  intro hclan
  have hstarts := (startsWith_of_clanMutation hclan).1
  rw [startsWith_of_clash h hclash] at hstarts
  cases hstarts

theorem isClanMenuButton_of_action (h : (clanMenuActionForButton button).isSome = true) : isClanMenuButton button = true := by
  unfold clanMenuActionForButton at h
  split at h
  case h_7 =>
    cases hrest : stripPrefix button "clan_view:" with
    | none =>
      rw [hrest] at h
      cases h
    | some rest =>
      rw [isClanMenuButton, startsWith_of_stripPrefix hrest, Bool.or_true]
  all_goals decide

theorem not_clanMenu_of_clash {pre : String} (h : startsWith button pre = true) (hclash : clash pre "clan_" = true) :
    (clanMenuActionForButton button).isSome = false := by
  rw [Bool.eq_false_iff]
  intro hclan
  have hmenu := isClanMenuButton_of_action hclan
  rw [isClanMenuButton_of_clash h hclash] at hmenu
  cases hmenu

theorem admitted_applyAuctionBet (raw : String) (hbutton : stripPrefix button "aucbet:" = some raw) :
    Admitted (some .auctionBet) (s.applyAuctionBet player raw) ↔
      ¬ (unreadBet button && (s.resolveMarketWindow player).isSome) = true := by
  rw [applyAuctionBet, unreadBet, hbutton, Option.bind_some]
  cases splitOnce raw ':' with
  | none => exact iff_of_true (admitted_nil _) nofun
  | some parts =>
    obtain ⟨rawId, rawAmount⟩ := parts
    dsimp only [Option.any_some]
    cases parseI32 rawId with
    | none => exact iff_of_true (admitted_nil _) nofun
    | some id =>
      cases parseI64 rawAmount with
      | none => exact admitted_saveIf_iff (by decide)
      | some amount => exact iff_of_true (admitted_saveIf rfl _) nofun

theorem kind_of_strip {pre rest : String} {kind : SaveKind} (hmem : (pre, kind) ∈ savingPrefixes)
    (h : stripPrefix button pre = some rest) : buttonPersistenceKind button = some kind :=
  buttonPersistenceKind_of_mem hmem (startsWith_of_stripPrefix h)

theorem kind_of_bind {α : Type} {pre : String} {kind : SaveKind} {f : String → Option α}
    (hmem : (pre, kind) ∈ savingPrefixes) (h : ((stripPrefix button pre).bind f).isSome = true) :
    buttonPersistenceKind button = some kind := by
  obtain ⟨a, ha⟩ := Option.isSome_iff_exists.mp h
  obtain ⟨rest, hrest, -⟩ := Option.bind_eq_some_iff.mp ha
  exact kind_of_strip hmem hrest

theorem admitted_applyAuctionOrderCreate (raw : String) (h : buttonPersistenceKind button = some .auctionOrderCreate) :
    Admitted (buttonPersistenceKind button) (s.applyAuctionOrderCreate player raw) := by
  unfold applyAuctionOrderCreate
  split
  · split
    · exact admitted_saveIf h _
    · exact admitted_nil _
  · exact admitted_nil _

/-- A button that neither changes a clan nor is for a bet or a crafter. -/
structure Ordinary (button : String) : Prop where
  clan : (clanMutationActionForButton button).isSome = false
  bet : stripPrefix button "aucbet:" = none
  start : stripPrefix button "craft_start:" = none
  claim : stripPrefix button "craft_claim:" = none

theorem Ordinary.misclassifiedButton (h : Ordinary button) : s.misclassifiedButton player button = false := by
  rw [CommandState.misclassifiedButton, h.clan, unreadBet, h.bet, craftedAt, h.start, h.claim]
  rfl

/-- A text behind `pack_op:open:` that is read as a position makes another command. -/
theorem parseCoordinates_none {rest : String} (h : parsePair (splitOn rest ':') = none) : parseCoordinates rest = none := by
  rw [parseCoordinates]
  cases hparts : splitOnce rest ':' with
  | none => rfl
  | some parts =>
    obtain ⟨x, y⟩ := parts
    rw [Option.bind_some]
    cases hpair : parsePair [x, y] with
    | none => rfl
    | some c =>
      obtain ⟨_, -, hy⟩ := Option.bind_eq_some_iff.mp hpair
      obtain ⟨n, hn, -⟩ := Option.map_eq_some_iff.mp hy
      have hcolon : ':' ∉ y.toList := fun hin => by
        rcases chars_of_parseI32 hn ':' hin with h | h | h <;> revert h <;> decide
      rw [splitOn_of_splitOnce hparts hcolon, hpair] at h
      cases h

theorem admitted_ordinary (h : Ordinary button)
    (hopen : (stripPrefix button "pack_op:open:").bind (fun rest => parsePair (splitOn rest ':')) = none) :
    Admitted (buttonPersistenceKind button) (s.applyGuiButtonCommand player button) := by
  rw [applyGuiButtonCommand, h.clan, if_neg (by decide), h.bet, h.start, h.claim]
  refine admitted_ite (fun hc => admitted_singleton.mpr ?_) fun _ => ?_
  · exact buttonPersistenceKind_of_isClanMenuButton (isClanMenuButton_of_action hc)
  refine admitted_ite (fun hc => admitted_singleton.mpr ?_) fun _ => ?_
  · rw [hc]
    decide
  refine admitted_ite (fun hc => admitted_saveIf ?_ _) fun _ => ?_
  · rw [hc]
    decide
  refine admitted_ite (fun hc => admitted_saveIf (kind_of_bind (by simp [savingPrefixes]) hc) _) fun _ => ?_
  refine admitted_ite (fun hc => admitted_saveIf (kind_of_bind (by simp [savingPrefixes]) hc) _) fun _ => ?_
  refine admitted_strip (fun raw hraw => ?_) fun _ => ?_
  · refine admitted_ite (fun _ => ?_) fun _ => admitted_nil _
    exact admitted_saveIf (kind_of_strip (by simp [savingPrefixes]) hraw) _
  refine admitted_strip (fun raw hraw => ?_) fun _ => ?_
  · exact admitted_applyAuctionOrderCreate raw (kind_of_strip (by simp [savingPrefixes]) hraw)
  refine admitted_strip (fun raw hraw => ?_) fun _ => ?_
  · exact admitted_saveIf (kind_of_strip (by simp [savingPrefixes]) hraw) _
  refine admitted_strip (fun raw hraw => ?_) fun _ => ?_
  · exact admitted_saveIf (kind_of_strip (by simp [savingPrefixes]) hraw) _
  refine admitted_ite (fun hc => admitted_singleton.mpr (kind_of_bind (by simp [savingPrefixes]) hc)) fun _ => ?_
  refine admitted_strip (fun raw hraw => ?_) fun _ => ?_
  · exact admitted_saveIf (kind_of_strip (by simp [savingPrefixes]) hraw) _
  refine admitted_ite (fun hc => admitted_singleton.mpr (kind_of_bind (by simp [savingPrefixes]) hc)) fun _ => ?_
  refine admitted_strip (fun raw hraw => admitted_getD fun c => ?_) fun _ => ?_
  · exact admitted_saveIf (kind_of_strip (by simp [savingPrefixes]) hraw) _
  refine admitted_strip (fun raw hraw => ?_) fun _ => ?_
  · split
    · exact admitted_getD fun c => admitted_saveIf (kind_of_strip (by simp [savingPrefixes]) hraw) _
    · exact admitted_nil _
  refine admitted_strip (fun raw hraw => ?_) fun _ => ?_
  · split
    · exact admitted_getD fun c => admitted_saveIf (kind_of_strip (by simp [savingPrefixes]) hraw) _
    · exact admitted_nil _
  refine admitted_strip (fun raw hraw => admitted_getD fun c => ?_) fun _ => ?_
  · exact admitted_saveIf (kind_of_strip (by simp [savingPrefixes]) hraw) _
  refine admitted_strip (fun raw hraw => ?_) fun _ => ?_
  · exact admitted_saveIf (kind_of_strip (by simp [savingPrefixes]) hraw) _
  refine admitted_strip (fun raw hraw => ?_) fun _ => ?_
  · exact admitted_saveIf (kind_of_strip (by simp [savingPrefixes]) hraw) _
  refine admitted_ite (fun hc => ?_) fun _ => ?_
  · rw [applyUpButton]
    exact admitted_ite (fun _ => admitted_saveIf (buttonPersistenceKind_of_isPlayerMutationButton hc) _) fun _ =>
      admitted_saveIf (buttonPersistenceKind_of_isPlayerMutationButton hc) _
  refine admitted_strip (fun rest hrest => ?_) fun _ => admitted_nil _
  rw [hrest, Option.bind_some] at hopen
  rw [parseCoordinates_none hopen]
  exact admitted_nil _

section Exceptions

variable {rest : String}

theorem applyGuiButtonCommand_bet (h : stripPrefix button "aucbet:" = some rest) :
    s.applyGuiButtonCommand player button = s.applyAuctionBet player rest := by
  have hpre := startsWith_of_stripPrefix h
  simp (disch := first | exact id (clash_ofList rfl) | exact id (startsWith_ofList rfl)) [applyGuiButtonCommand, h,
    not_clanMutation_of_clash hpre, not_clanMenu_of_clash hpre, stripPrefix_of_clash hpre, ne_of_startsWith hpre]

theorem applyGuiButtonCommand_start (h : stripPrefix button "craft_start:" = some rest) :
    s.applyGuiButtonCommand player button = s.applyCrafterMutation rest := by
  have hpre := startsWith_of_stripPrefix h
  simp (disch := first | exact id (clash_ofList rfl) | exact id (startsWith_ofList rfl)) [applyGuiButtonCommand, h,
    not_clanMutation_of_clash hpre, not_clanMenu_of_clash hpre, stripPrefix_of_clash hpre, ne_of_startsWith hpre]

theorem applyGuiButtonCommand_claim (h : stripPrefix button "craft_claim:" = some rest) :
    s.applyGuiButtonCommand player button = s.applyCrafterMutation rest := by
  have hpre := startsWith_of_stripPrefix h
  simp (disch := first | exact id (clash_ofList rfl) | exact id (startsWith_ofList rfl)) [applyGuiButtonCommand, h,
    not_clanMutation_of_clash hpre, not_clanMenu_of_clash hpre, stripPrefix_of_clash hpre, ne_of_startsWith hpre]

theorem applyGuiButtonCommand_open (h : stripPrefix button "pack_op:open:" = some rest) :
    s.applyGuiButtonCommand player button = ((parseCoordinates rest).map (s.clanPackMenuEffects player)).getD [] := by
  have hpre := startsWith_of_stripPrefix h
  simp (disch := first | exact id (clash_ofList rfl) | exact id (startsWith_ofList rfl)) [applyGuiButtonCommand, h,
    not_clanMutation_of_clash hpre, not_clanMenu_of_clash hpre, stripPrefix_of_clash hpre, ne_of_startsWith hpre,
    parseProgramRenameButton, isPlayerMutationButton, startsWith_of_clash hpre]

end Exceptions

theorem admitted_button
    (hopen : (stripPrefix button "pack_op:open:").bind (fun rest => parsePair (splitOn rest ':')) = none) :
    Admitted (buttonPersistenceKind button) (s.applyGuiButtonCommand player button) ↔
      ¬ s.misclassifiedButton player button = true := by
  cases hclan : (clanMutationActionForButton button).isSome with
  | true =>
    obtain ⟨hstarts, hmenu⟩ := startsWith_of_clanMutation hclan
    rw [buttonPersistenceKind_clan hstarts hmenu, applyGuiButtonCommand, hclan, if_pos rfl, misclassifiedButton, hclan]
    exact iff_of_false (fun h => nomatch admitted_singleton.mp h) fun h => h rfl
  | false =>
    cases hbet : stripPrefix button "aucbet:" with
    | some raw =>
      have hpre := startsWith_of_stripPrefix hbet
      have hstart : stripPrefix button "craft_start:" = none := stripPrefix_of_clash hpre (clash_ofList rfl)
      have hclaim : stripPrefix button "craft_claim:" = none := stripPrefix_of_clash hpre (clash_ofList rfl)
      have hkind : buttonPersistenceKind button = some .auctionBet := kind_of_strip (by simp [savingPrefixes]) hbet
      rw [hkind, applyGuiButtonCommand_bet hbet, misclassifiedButton, hclan, craftedAt, hstart, hclaim]
      exact Iff.trans (admitted_applyAuctionBet raw hbet) (by simp)
    | none =>
      cases hstart : stripPrefix button "craft_start:" with
      | some args =>
        have hcraft : startsWith button "craft_" = true :=
          startsWith_of_startsWith (startsWith_of_stripPrefix hstart) (startsWith_ofList rfl)
        rw [buttonPersistenceKind_craft hcraft, applyGuiButtonCommand_start hstart, misclassifiedButton, hclan, unreadBet,
          hbet, craftedAt, hstart]
        exact Iff.trans (admitted_saveIf_iff (by nofun)) (by simp)
      | none =>
        cases hclaim : stripPrefix button "craft_claim:" with
        | some args =>
          have hcraft : startsWith button "craft_" = true :=
            startsWith_of_startsWith (startsWith_of_stripPrefix hclaim) (startsWith_ofList rfl)
          rw [buttonPersistenceKind_craft hcraft, applyGuiButtonCommand_claim hclaim, misclassifiedButton, hclan,
            unreadBet, hbet, craftedAt, hstart, hclaim]
          exact Iff.trans (admitted_saveIf_iff (by nofun)) (by simp)
        | none =>
          have hordinary : Ordinary button := ⟨hclan, hbet, hstart, hclaim⟩
          rw [hordinary.misclassifiedButton]
          exact iff_of_true (admitted_ordinary hordinary hopen) (by decide)

theorem misclassifiedButton_close (h : classifyGuiButton button = .close) :
    s.misclassifiedButton player button = false := by
  have hclose : button = "exit" ∨ button = "exit:0" ∨ button = "close" := by
    by_contra hother
    rw [classifyGuiButton, if_neg hother] at h
    iterate 13 obtain ⟨-, ⟨⟩⟩ | ⟨-, h⟩ := ite_eq_iff.mp h
    cases h
  refine Ordinary.misclassifiedButton ?_
  rcases hclose with rfl | rfl | rfl <;> exact ⟨by decide, by decide, by decide, by decide⟩

theorem admitted_openPack (c : WorldPos) : Admitted (some .clanMenu) (s.applyOpenPackGui player c) := by
  rw [applyOpenPackGui]
  refine admitted_ite (fun _ => admitted_nil _) fun _ => ?_
  split
  · exact admitted_nil _
  · exact admitted_nil _
  · exact admitted_nil _
  · exact admitted_saveIf rfl _
  · rw [List.append_assoc, applyGuiButtonCommand_open (stripPrefix_ofList_append _ _)]
    exact admitted_getD fun c => admitted_saveIf rfl _

/-! ### The contract -/

/-- The command saves as it was classified, so that the permit that was reserved for it is used or given back. -/
def DurableAdmission (s : CommandState) (player : PlayerId) (session : SessionId) (parseF32 : String → Option UInt32)
    (command : PlayerCommand) : Prop :=
  Admitted (command.persistenceKind parseF32) (s.applyQueuedPlayerCommand player session parseF32 command) ∧
    ∀ (R : Type) (saves : List (SaveCommand R)),
      saves.map SaveCommand.kind = s.applyQueuedPlayerCommand player session parseF32 command →
        (publishCommandSaves (command.persistenceKind parseF32) saves).isSome = true

/-- The command saves, and `persistenceKind` names no save, or another one. -/
def UnclassifiedSave (s : CommandState) (player : PlayerId) (session : SessionId) : PlayerCommand → Prop
  | .channelChat payload => s.checkChatRate player = true ∧ plainText (extractChannelMessageText payload) = true ∧
      s.mayChat player = true
  | .gui (.button _ raw) => s.acceptsGui player session = true ∧ s.misclassifiedButton player raw = true
  | _ => False

theorem durableAdmission_iff_admitted (command : PlayerCommand) :
    DurableAdmission s player session parseF32 command ↔
      Admitted (command.persistenceKind parseF32) (s.applyQueuedPlayerCommand player session parseF32 command) := by
  refine ⟨And.left, fun h => ⟨h, fun R saves hsaves => ?_⟩⟩
  rw [publishCommandSaves_isSome, hsaves]
  exact h

theorem admitted_gui (button : String) :
    Admitted ((PlayerCommand.gui (GuiCommand.parse button)).persistenceKind parseF32)
        (s.applyGuiCommand player session (GuiCommand.parse button)) ↔
      ¬ UnclassifiedSave s player session (.gui (GuiCommand.parse button)) := by
  rw [GuiCommand.parse]
  cases hopen : (stripPrefix button "pack_op:open:").bind fun rest => parsePair (splitOn rest ':') with
  | some c =>
    refine iff_of_true ?_ id
    rw [applyGuiCommand]
    exact admitted_ite (fun _ => admitted_nil _) fun _ => admitted_openPack c
  | none =>
    dsimp only [UnclassifiedSave, PlayerCommand.persistenceKind]
    by_cases haccepts : s.acceptsGui player session = true
    · by_cases hclose : classifyGuiButton button = .close
      · rw [hclose, applyGuiCommand, ite_self, misclassifiedButton_close hclose]
        exact iff_of_true (admitted_nil _) fun h => nomatch h.2
      · rw [applyGuiCommand, if_neg (not_not_intro haccepts), and_iff_right haccepts]
        · exact admitted_button hopen
        · exact hclose
    · unfold applyGuiCommand
      rw [if_pos haccepts]
      exact iff_of_true (admitted_nil _) fun h => haccepts h.1

/-- A command saves as it was classified unless it is a text for the channel, or one of the buttons that
are classified as no save or as another one. -/
theorem durableAdmission_iff (command : PlayerCommand) (hsent : command.Sent) :
    DurableAdmission s player session parseF32 command ↔ ¬ UnclassifiedSave s player session command := by
  rw [durableAdmission_iff_admitted]
  cases command with
  | gui command =>
    obtain ⟨button, rfl⟩ := hsent
    exact admitted_gui button
  | channelChat payload =>
    dsimp only [applyQueuedPlayerCommand, UnclassifiedSave, PlayerCommand.persistenceKind]
    exact admitted_channelChat payload
  | localChat message =>
    dsimp only [applyQueuedPlayerCommand, UnclassifiedSave, PlayerCommand.persistenceKind]
    exact iff_of_true (admitted_localChat message) not_false
  | slash command =>
    dsimp only [applyQueuedPlayerCommand, UnclassifiedSave, PlayerCommand.persistenceKind]
    exact iff_of_true (admitted_slash command) not_false
  | programAction event payload =>
    dsimp only [applyQueuedPlayerCommand, UnclassifiedSave]
    exact iff_of_true (admitted_programAction event payload) not_false
  | disconnect | claimBonus | removePack | chatPrivate =>
    dsimp only [applyQueuedPlayerCommand, UnclassifiedSave, PlayerCommand.persistenceKind]
    exact iff_of_true (admitted_saveIf rfl _) not_false
  | openProgrammer | requestMyBuildings | openClan | chatSettings | chatResync | chatChoose | chatMenu | whois =>
    dsimp only [applyQueuedPlayerCommand, UnclassifiedSave, PlayerCommand.persistenceKind]
    exact iff_of_true (admitted_singleton.mpr rfl) not_false
  | _ => exact iff_of_true (admitted_nil _) not_false

/-- A player in the common channel. -/
def chatting : CommandState where
  cells := fun _ => none
  sessions := fun player => if player = 1 then some 1 else none
  activePlayers := [(1, 1)]
  outboxes := fun session => session = 1
  checkGuiRate := fun _ => true
  checkChatRate := fun _ => true
  players := fun player => if player = 1 then some {
      position := some (0, 0)
      stats := some { money := 0, creds := 0, crystals := fun _ => 0, clanId := none, role := 0, lastBonusAt := 0 }
      metadata := some (1, "miner")
      inventory := some fun _ => 0
      skills := none
      settings := true
      ui := some { currentWindow := none, currentChat := "FED" }
      flags := true } else none
  buildings := fun _ => none
  chatChannels := ["FED"]
  now := 0
  bonusCooldownSecs := 0
  admitsDelete := fun _ => false
  adminSkillSet := fun _ _ => false
  skillsChange := fun _ _ => false

theorem durableAdmission_iff_clanMenu :
    DurableAdmission chatting 1 1 (fun _ => none) (.gui (GuiCommand.parse "clan_menu")) ↔
      ¬ UnclassifiedSave chatting 1 1 (.gui (GuiCommand.parse "clan_menu")) :=
  durableAdmission_iff (.gui (GuiCommand.parse "clan_menu")) ⟨"clan_menu", rfl⟩

/-- The text "hi" is saved, and no permit was reserved for it. -/
theorem not_durableAdmission :
    ¬ ∀ (s : CommandState) (player : PlayerId) (session : SessionId) (parseF32 : String → Option UInt32)
      (command : PlayerCommand), command.Sent → DurableAdmission s player session parseF32 command := by
  intro h
  have hadmitted := (h chatting 1 1 (fun _ => none) (.channelChat [104, 105]) trivial).1
  have hkind : (PlayerCommand.channelChat [104, 105]).persistenceKind (fun _ => none) = none := by decide
  have hsaves : chatting.applyQueuedPlayerCommand 1 1 (fun _ => none) (.channelChat [104, 105]) = [.chatAppend] := by
    decide
  rw [hkind, hsaves, admitted_singleton] at hadmitted
  cases hadmitted

end CommandState

end OpenMines
