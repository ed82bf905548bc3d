import Mathlib.Data.List.Infix
import OpenMines.ClanStore

namespace OpenMines

/-- A clan, or none, and the rank in it. -/
abbrev Membership := Option Int32 × Int32

/-- What waits for the worker: a command, or the row of a player with the membership that it had. -/
inductive ClanWork
  | command (request : ClanCommandRequest) (action : ClanAction)
  | save (playerId : PlayerId) (member : Membership)

structure ClanWorld where
  store : ClanStore
  live : LivePlayers
  queue : List ClanWork
  completions : List (ClanCommandRequest × ClanCommandResult)

inductive ClanEvent
  | command (player : PlayerId) (session : SessionId) (action : ClanAction)
  | execute (io : ClanIo)
  | complete
  | flush (player : PlayerId)

def LivePlayers.members (live : LivePlayers) (p : PlayerId) : Option Membership :=
  (live p).map (fun q => (q.clanId, q.clanRank))

def ClanStore.members (s : ClanStore) (p : PlayerId) : Option Membership :=
  (s.row p).map (fun r => (r.clanId, r.clanRank))

namespace ClanWorld

variable (s : ClanWorld)

def enqueue (work : ClanWork) : ClanWorld := { s with queue := s.queue ++ [work] }

/-- The credits for a new clan are taken when it is asked for. -/
def reserveClanCreate (player : PlayerId) (p : LivePlayer) : ClanWorld :=
  { s with live := Function.update s.live player (some { p with creds := p.creds - 1000, dirty := true }) }

def issue (player : PlayerId) (session : SessionId) (action : ClanAction) : ClanWorld :=
  match s.live player, action with
  | none, _ => s
  | some _, .invalid _ => s
  | some p, .create name tag =>
    if p.clanId = none ∧ 1000 ≤ p.creds then
      (s.reserveClanCreate player p).enqueue (.command ⟨player, session, true⟩ (.create name tag))
    else s
  | some _, action => s.enqueue (.command ⟨player, session, false⟩ action)

/-- The worker takes the next of the queue; a row that cannot be saved stays there. -/
def execute (io : ClanIo) : ClanWorld :=
  match s.queue with
  | [] => s
  | .command request action :: rest =>
    let done := s.store.clanCommand request io action
    { s with store := done.1, queue := rest, completions := s.completions ++ [(request, done.2)] }
  | .save p m :: rest =>
    if io.ok ∧ (s.store.row p).isSome then { s with store := s.store.setMember p m.1 m.2, queue := rest } else s

def complete : ClanWorld :=
  match s.completions with
  | [] => s
  | (request, result) :: rest =>
    { s with live := (applyClanCommandCompletion (R := Unit) s.live request result).1, completions := rest }

def flush (player : PlayerId) : ClanWorld :=
  match s.live.members player with
  | none => s
  | some m => s.enqueue (.save player m)

def step (s : ClanWorld) : ClanEvent → ClanWorld
  | .command player session action => s.issue player session action
  | .execute io => s.execute io
  | .complete => s.complete
  | .flush player => s.flush player

def run (s : ClanWorld) (es : List ClanEvent) : ClanWorld := es.foldl step s

/-- No command is on its way, and every completion has been applied. -/
def Settled : Prop := (∀ request action, .command request action ∉ s.queue) ∧ s.completions = []

/-- The players in the game have the membership of their rows. -/
def Agrees : Prop := ∀ p m, s.live.members p = some m → s.store.members p = some m

/-- To save the row of a player in the game leaves every membership as it is. -/
def FlushKeeps : Prop :=
  ∀ p m, s.live.members p = some m → ∀ q, (s.store.setMember p m.1 m.2).members q = s.store.members q

end ClanWorld

/-- The membership of a player after a completion. -/
def ClanCommandResult.move (request : ClanCommandRequest) (p : PlayerId) (m : Membership) :
    ClanCommandResult → Membership
  | .created c => if p = request.playerId then (some c, clanRankLeader) else m
  | .left c disbanded =>
    if (disbanded = true ∨ p = request.playerId) ∧ m.1 = some c then (none, clanRankNone) else m
  | .kicked c t => if p = t ∧ m.1 = some c then (none, clanRankNone) else m
  | .joined c => if p = request.playerId then (some c, clanRankMember) else m
  | .requestAccepted c t => if p = t then (some c, clanRankMember) else m
  | .promoted c t => if p = t ∧ m.1 = some c then (m.1, clanRankOfficer) else m
  | _ => m

theorem members_modifyPlayer (live : LivePlayers) (t p : PlayerId) (f : LivePlayer → LivePlayer)
    (g : Membership → Membership) (hf : ∀ q, ((f q).clanId, (f q).clanRank) = g (q.clanId, q.clanRank)) :
    (live.modifyPlayer t f).members p = (live.members p).map (fun m => if p = t then g m else m) := by
  rw [LivePlayers.members, LivePlayers.members, LivePlayers.modifyPlayer, Option.map_map]
  by_cases hp : p = t
  · subst hp
    rw [Function.update_self, Option.map_map]
    refine congrArg (fun h => Option.map h (live p)) (funext fun q => ?_)
    simp only [Function.comp_apply, if_true]
    exact hf q
  · rw [Function.update_of_ne hp]
    refine congrArg (fun h => Option.map h (live p)) (funext fun q => ?_)
    rw [Function.comp_apply, if_neg hp]

def clearMember (c : Int32) (m : Membership) : Membership := if m.1 = some c then (none, clanRankNone) else m

theorem members_clearClan (c : Int32) (q : LivePlayer) :
    ((LivePlayers.clearClan c q).clanId, (LivePlayers.clearClan c q).clanRank) =
      clearMember c (q.clanId, q.clanRank) := by
  rw [LivePlayers.clearClan, clearMember]
  split <;> rfl

/-- What the completion does to the players is what it does to their memberships. -/
theorem members_applyClanCommandCompletion (live : LivePlayers) (request : ClanCommandRequest)
    (result : ClanCommandResult) (p : PlayerId) :
    (applyClanCommandCompletion (R := Unit) live request result).1.members p =
      (live.members p).map (fun m => result.move request p m) := by
  have hrefund : (if request.createReserved then live.modifyPlayer request.playerId LivePlayers.refundClanCreate
      else live).members p = (live.members p).map (fun m => m) := by
    rw [Option.map_id']
    split
    · rw [members_modifyPlayer live request.playerId p LivePlayers.refundClanCreate (fun m => m) fun _ => rfl]
      simp only [ite_self, Option.map_id']
    · rfl
  cases result with
  | created c => exact members_modifyPlayer live _ p _ (fun _ => (some c, clanRankLeader)) fun _ => rfl
  | joined c => exact members_modifyPlayer live _ p _ (fun _ => (some c, clanRankMember)) fun _ => rfl
  | requestAccepted c t => exact members_modifyPlayer live t p _ (fun _ => (some c, clanRankMember)) fun _ => rfl
  | left c disbanded =>
      cases disbanded with
      | false =>
          refine (members_modifyPlayer live _ p _ (clearMember c) (members_clearClan c)).trans ?_
          simp only [ClanCommandResult.move, ite_and, Bool.false_eq_true, false_or]
          rfl
      | true =>
          simp only [ClanCommandResult.move, true_or, true_and]
          rw [LivePlayers.members, LivePlayers.members, Option.map_map]
          simp only [applyClanCommandCompletion, if_true, Option.map_map]
          exact congrArg (fun h => Option.map h (live p)) (funext fun q => members_clearClan c q)
  | kicked c t =>
      refine (members_modifyPlayer live t p _ (clearMember c) (members_clearClan c)).trans ?_
      simp only [ClanCommandResult.move, ite_and]
      rfl
  | promoted c t =>
      refine (members_modifyPlayer live t p _ (fun m => if m.1 = some c then (m.1, clanRankOfficer) else m)
        fun q => ?_).trans ?_
      · dsimp only
        split <;> rfl
      · simp only [ClanCommandResult.move, ite_and]
  | rejected => exact hrefund
  | permanentFailure => exact hrefund
  | inviteDeclined | requestDeclined | invited t | requestSent => exact (Option.map_id' ..).symm

namespace ClanStore

variable {s t : ClanStore} {p q : PlayerId} {request : ClanCommandRequest}

theorem members_setMember (s : ClanStore) (q p : PlayerId) (clanId : Option Int32) (clanRank : Int32) :
    (s.setMember q clanId clanRank).members p =
      (s.members p).map (fun m => if p = q then (clanId, clanRank) else m) := by
  rw [members, members, row_setMember, Option.map_map, Option.map_map]
  cases hrow : s.row p with
  | none => rfl
  | some r =>
      simp only [Option.map_some, Function.comp_apply, MemberRow.inClan, row_id hrow]
      split <;> rfl

/-- The player is in no clan, or in one that the completion of a kick names. -/
def Unattached (s : ClanStore) (p : PlayerId) : Prop :=
  ∀ m, s.members p = some m → m = (none, clanRankNone) ∨ m.1 = some 0

/-- The condition on a command about a player in the game: the completions of departures find no clan to clear. -/
def Unnoticed (s : ClanStore) (request : ClanCommandRequest) (io : ClanIo) (p : PlayerId) : ClanAction → Prop
  | .leave => io.ok = true → p = request.playerId → s.Unattached p
  | .kick target =>
    match (if io.lookupOk then s.getPlayerByName target else none) with
    | some r => io.ok = true → p = r.id → s.Unattached p
    | none => p = 0 → ∀ m, s.members p = some m → m.1 ≠ some 0
  | .kickById t => io.ok = true → p = t → s.Unattached p
  | _ => True

theorem map_move_permanentFailure (request : ClanCommandRequest) (p : PlayerId) (m : Option Membership) :
    m.map (fun m => ClanCommandResult.move request p m .permanentFailure) = m := Option.map_id' ..

theorem members_attempt {io : ClanIo} {changed : Option ClanStore} {result : ClanCommandResult}
    (h : io.ok = true → ∀ t, changed = some t → t.members p = (s.members p).map (fun m => result.move request p m)) :
    (s.attempt io changed result).1.members p =
      (s.members p).map (fun m => (s.attempt io changed result).2.move request p m) := by
  cases changed with
  | none => exact (map_move_permanentFailure ..).symm
  | some t =>
      simp only [attempt]
      split
      · rename_i hok
        exact h hok t rfl
      · exact (map_move_permanentFailure ..).symm

theorem members_createClan {clan : ClanRow} (h : s.createClan clan = some t) :
    t.members p = (s.members p).map (fun m => if p = clan.ownerId then (some clan.id, clanRankLeader) else m) := by
  rw [createClan] at h
  split at h
  · cases h
  · split at h
    · cases h
    · obtain rfl := Option.some_inj.mp h
      exact members_setMember _ clan.ownerId p (some clan.id) clanRankLeader

theorem members_leaveClan (h : s.leaveClan q = some t) :
    t.members p = (s.members p).map (fun m => if p = q then (none, clanRankNone) else m) := by
  rw [leaveClan] at h
  split at h
  · obtain rfl := Option.some_inj.mp h
    exact members_setMember s q p none clanRankNone
  · cases h

/-- One who is in no clan that is named stays as he is, as his row does. -/
theorem members_leaveClan_of_unattached (h : s.leaveClan q = some t) (hq : p = q → s.Unattached p) :
    t.members p = (s.members p).map (fun m => if p = q ∧ m.1 = some 0 then (none, clanRankNone) else m) := by
  rw [members_leaveClan h]
  cases hm : s.members p with
  | none => rfl
  | some m =>
      simp only [Option.map_some, ite_and]
      split
      · rename_i hpq
        rcases hq hpq m hm with rfl | hzero
        · rw [ite_self]
        · rw [if_pos hzero]
      · rfl

theorem members_acceptClanRequest {c : Int32} (h : s.acceptClanRequest c q = some t) :
    t.members p = (s.members p).map (fun m => if p = q then (some c, clanRankMember) else m) := by
  rw [acceptClanRequest] at h
  split at h
  · obtain rfl := Option.some_inj.mp h
    exact members_setMember s q p (some c) clanRankMember
  · cases h

theorem members_acceptClanInvite {c : Int32} (h : s.acceptClanInvite c q = some t) :
    t.members p = (s.members p).map (fun m => if p = q then (some c, clanRankMember) else m) := by
  rw [acceptClanInvite] at h
  split at h
  · obtain rfl := Option.some_inj.mp h
    exact members_setMember s q p (some c) clanRankMember
  · cases h

theorem members_setClanRank {c rank : Int32} (h : s.setClanRank q c rank = some t) :
    t.members p = (s.members p).map (fun m => if p = q ∧ m.1 = some c then (m.1, rank) else m) := by
  rw [setClanRank] at h
  split at h
  · rename_i hany
    obtain rfl := Option.some_inj.mp h
    rw [members_setMember]
    by_cases hpq : p = q
    · subst hpq
      obtain ⟨r, hr, hclan⟩ := (Option.any_eq_true _ _).mp hany
      rw [decide_eq_true_eq] at hclan
      rw [members, hr]
      simp only [Option.map_some, hclan, and_self, if_true]
    · simp only [hpq, false_and, if_false]
  · cases h

/-- A change of the requests and the invites. -/
theorem members_edges (h : t.players = s.players) : t.members p = (s.members p).map (fun m => m) := by
  rw [Option.map_id', members, members, row, row, h]

/-- The membership in the tables goes the way that the completion takes in the game. -/
theorem members_clanCommand (io : ClanIo) (action : ClanAction) (h : s.Unnoticed request io p action) :
    (s.clanCommand request io action).1.members p =
      (s.members p).map (fun m => (s.clanCommand request io action).2.move request p m) := by
  cases action with
  | create name tag =>
      rw [clanCommand]
      split
      · exact (map_move_permanentFailure ..).symm
      · exact members_attempt fun _ t ht => members_createClan ht
  | leave =>
      refine members_attempt fun hok t ht => ?_
      simp only [ClanCommandResult.move, Bool.false_eq_true, false_or]
      exact members_leaveClan_of_unattached ht (h hok)
  | kick target =>
      rw [Unnoticed] at h
      rw [clanCommand]
      split
      · rename_i hlookup
        rw [hlookup] at h
        cases hm : s.members p with
        | none => rfl
        | some m =>
            have hstays : ¬ (p = 0 ∧ m.1 = some 0) := fun hzero => h hzero.1 m hm hzero.2
            simp only [Option.map_some, ClanCommandResult.move, if_neg hstays]
      · rename_i r hlookup
        rw [hlookup] at h
        exact members_attempt fun hok t ht => members_leaveClan_of_unattached ht (h hok)
  | kickById targetId => exact members_attempt fun hok t ht => members_leaveClan_of_unattached ht (h hok)
  | acceptInvite clanId => exact members_attempt fun _ t ht => members_acceptClanInvite ht
  | acceptRequest targetId => exact members_attempt fun _ t ht => members_acceptClanRequest ht
  | promote targetId => exact members_attempt fun _ t ht => members_setClanRank ht
  | declineInvite clanId =>
      refine members_attempt fun _ t ht => members_edges ?_
      obtain ⟨-, ⟨⟩⟩ := Option.ite_none_right_eq_some.mp ht
      rfl
  | declineRequest targetId =>
      refine members_attempt fun _ t ht => members_edges ?_
      obtain ⟨-, ⟨⟩⟩ := Option.ite_none_right_eq_some.mp ht
      rfl
  | invite targetId =>
      refine members_attempt fun _ t ht => members_edges ?_
      obtain ⟨-, ⟨⟩⟩ := Option.ite_none_left_eq_some.mp ht
      rfl
  | request clanId =>
      refine members_attempt fun _ t ht => members_edges ?_
      obtain ⟨-, ⟨⟩⟩ := Option.ite_none_left_eq_some.mp ht
      rfl
  | invalid message => exact (Option.map_id' ..).symm

/-! ### Commands that are not about a player -/

/-- What the name of a target stands for. -/
def targetNamed (s : ClanStore) (target : String) : Option PlayerId := (s.getPlayerByName target).map MemberRow.id

/-- The command, or the completion that it may lead to, is about the player. -/
def About (s : ClanStore) (request : ClanCommandRequest) (p : PlayerId) : ClanAction → Prop
  | .create .. => p = request.playerId
  | .leave => p = request.playerId
  | .acceptInvite _ => p = request.playerId
  | .kick target => p = 0 ∨ s.targetNamed target = some p
  | .kickById t => p = t
  | .acceptRequest t => p = t
  | .promote t => p = t
  | _ => False

theorem move_of_not_about (io : ClanIo) {action : ClanAction} (h : ¬ s.About request p action) (m : Membership) :
    (s.clanCommand request io action).2.move request p m = m := by
  have hattempt {changed : Option ClanStore} {result : ClanCommandResult} (hmove : result.move request p m = m) :
      (s.attempt io changed result).2.move request p m = m := by
    cases changed with
    | none => rfl
    | some t =>
        simp only [attempt]
        split
        · exact hmove
        · rfl
  cases action with
  | create name tag =>
      rw [clanCommand]
      split
      · rfl
      · exact hattempt (if_neg h)
  | leave =>
      refine hattempt (if_neg fun hleft => h ?_)
      exact hleft.1.resolve_left (by decide)
  | kick target =>
      rw [clanCommand]
      split
      · exact if_neg fun hkicked => h (Or.inl hkicked.1)
      · rename_i r hlookup
        refine hattempt (if_neg fun hkicked => h (Or.inr ?_))
        split at hlookup
        · rw [targetNamed, hlookup, Option.map_some, hkicked.1]
        · cases hlookup
  | acceptInvite clanId => exact hattempt (if_neg h)
  | acceptRequest targetId => exact hattempt (if_neg h)
  | promote targetId => exact hattempt (if_neg fun hpromoted => h hpromoted.1)
  | kickById targetId => exact hattempt (if_neg fun hkicked => h hkicked.1)
  | declineInvite clanId | declineRequest targetId | invite targetId | request clanId => exact hattempt rfl
  | invalid message => rfl

theorem unnoticed_of_not_about (io : ClanIo) {action : ClanAction} (h : ¬ s.About request p action) :
    s.Unnoticed request io p action := by
  cases action with
  | leave => exact fun _ hp => absurd hp h
  | kickById t => exact fun _ hp => absurd hp h
  | kick target =>
      rw [Unnoticed]
      split
      · rename_i r hlookup
        intro _ hp
        refine absurd (Or.inr ?_) h
        split at hlookup
        · rw [targetNamed, hlookup, Option.map_some, hp]
        · cases hlookup
      · exact fun hp => absurd (Or.inl hp) h
  | _ => trivial

/-- A command that is not about a player leaves his membership as it is. -/
theorem members_of_not_about (io : ClanIo) {action : ClanAction} (h : ¬ s.About request p action) :
    (s.clanCommand request io action).1.members p = s.members p := by
  rw [members_clanCommand io action (unnoticed_of_not_about io h)]
  have hmove := fun m => move_of_not_about io h m
  simp only [hmove, Option.map_id']

/-- Nothing that the worker does gives a name to another player. -/
def SameNames (s t : ClanStore) : Prop :=
  t.players.map (fun r => (r.id, r.name)) = s.players.map (fun r => (r.id, r.name))

theorem targetNamed_congr (h : SameNames s t) (target : String) : t.targetNamed target = s.targetNamed target := by
  have hfind (players : List MemberRow) (key : List Char) :
      (players.find? (fun r => sqlKey r.name = key)).map MemberRow.id =
        ((players.map (fun r => (r.id, r.name))).find? (fun e => sqlKey e.2 = key)).map Prod.fst := by
    rw [List.find?_map, Option.map_map]
    rfl
  rw [targetNamed, targetNamed, getPlayerByName, getPlayerByName]
  split
  · rfl
  · rw [hfind, hfind, h]

theorem sameNames_setMember (s : ClanStore) (q : PlayerId) (clanId : Option Int32) (clanRank : Int32) :
    SameNames s (s.setMember q clanId clanRank) := by
  rw [SameNames, setMember, List.map_map]
  refine List.map_congr_left fun r _ => ?_
  rw [Function.comp_apply, MemberRow.inClan]
  split <;> rfl

theorem sameNames_attempt {io : ClanIo} {changed : Option ClanStore} {result : ClanCommandResult}
    (h : ∀ t, changed = some t → SameNames s t) : SameNames s (s.attempt io changed result).1 := by
  cases changed with
  | none => rfl
  | some t =>
      simp only [attempt]
      split
      · exact h t rfl
      · rfl

theorem sameNames_clanCommand (s : ClanStore) (request : ClanCommandRequest) (io : ClanIo) (action : ClanAction) :
    SameNames s (s.clanCommand request io action).1 := by
  have hleave (q : PlayerId) (t : ClanStore) (ht : s.leaveClan q = some t) : SameNames s t := by
    obtain ⟨-, ⟨⟩⟩ := Option.ite_none_right_eq_some.mp ht
    exact sameNames_setMember ..
  cases action with
  | create name tag =>
      rw [clanCommand]
      split
      · rfl
      · refine sameNames_attempt fun t ht => ?_
        rw [createClan] at ht
        split at ht
        · cases ht
        · obtain ⟨-, ⟨⟩⟩ := Option.ite_none_left_eq_some.mp ht
          exact sameNames_setMember s ..
  | leave => exact sameNames_attempt (hleave _)
  | kickById targetId => exact sameNames_attempt (hleave _)
  | kick target =>
      rw [clanCommand]
      split
      · rfl
      · exact sameNames_attempt (hleave _)
  | acceptInvite clanId =>
      refine sameNames_attempt fun t ht => ?_
      obtain ⟨-, ⟨⟩⟩ := Option.ite_none_right_eq_some.mp ht
      exact sameNames_setMember s ..
  | acceptRequest targetId =>
      refine sameNames_attempt fun t ht => ?_
      obtain ⟨-, ⟨⟩⟩ := Option.ite_none_right_eq_some.mp ht
      exact sameNames_setMember s ..
  | promote targetId =>
      refine sameNames_attempt fun t ht => ?_
      obtain ⟨-, ⟨⟩⟩ := Option.ite_none_right_eq_some.mp ht
      exact sameNames_setMember ..
  | declineInvite clanId =>
      refine sameNames_attempt fun t ht => ?_
      obtain ⟨-, ⟨⟩⟩ := Option.ite_none_right_eq_some.mp ht
      rfl
  | declineRequest targetId =>
      refine sameNames_attempt fun t ht => ?_
      obtain ⟨-, ⟨⟩⟩ := Option.ite_none_right_eq_some.mp ht
      rfl
  | invite targetId =>
      refine sameNames_attempt fun t ht => ?_
      obtain ⟨-, ⟨⟩⟩ := Option.ite_none_left_eq_some.mp ht
      rfl
  | request clanId =>
      refine sameNames_attempt fun t ht => ?_
      obtain ⟨-, ⟨⟩⟩ := Option.ite_none_left_eq_some.mp ht
      rfl
  | invalid message => rfl

theorem About.congr (h : SameNames s t) {action : ClanAction} (habout : t.About request p action) :
    s.About request p action := by
  cases action with
  | kick target =>
      rw [About, targetNamed_congr h] at habout
      exact habout
  | _ => exact habout

end ClanStore

namespace ClanWorld

variable {s : ClanWorld} {p : PlayerId}

/-- What the completions on their way make of a membership. -/
def settle (completions : List (ClanCommandRequest × ClanCommandResult)) (p : PlayerId) (m : Membership) : Membership :=
  completions.foldl (fun m c => c.2.move c.1 p m) m

/-- The condition on an event in the state before it: no departure has a clan to clear, and a row is saved
while nothing about its player is on its way. -/
def MembershipClear (s : ClanWorld) : ClanEvent → Prop
  | .execute io => ∀ request action rest, s.queue = .command request action :: rest →
      ∀ p, (s.live.members p).isSome = true → s.store.Unnoticed request io p action
  | .flush p => (∀ request action, .command request action ∈ s.queue → ¬ s.store.About request p action) ∧
      ∀ c ∈ s.completions, ∀ m, c.2.move c.1 p m = m
  | _ => True

structure MembershipInv (s : ClanWorld) : Prop where
  /-- the rows are ahead of the game by the completions on their way -/
  ahead : ∀ p m, s.live.members p = some m → s.store.members p = some (settle s.completions p m)
  saves : ∀ p m, .save p m ∈ s.queue → s.store.members p = some m
  apart : s.queue.Pairwise (fun w w' => ∀ request action p m, w = .command request action → w' = .save p m →
    ¬ s.store.About request p action)

theorem settle_of_moves {completions : List (ClanCommandRequest × ClanCommandResult)}
    (h : ∀ c ∈ completions, ∀ m, c.2.move c.1 p m = m) (m : Membership) : settle completions p m = m := by
  induction completions generalizing m with
  | nil => rfl
  | cons c completions ih =>
      rw [settle, List.foldl_cons, h c List.mem_cons_self]
      exact ih (fun c' hc' => h c' (List.mem_cons_of_mem c hc')) m

theorem settle_append (completions : List (ClanCommandRequest × ClanCommandResult))
    (c : ClanCommandRequest × ClanCommandResult) (p : PlayerId) (m : Membership) :
    settle (completions ++ [c]) p m = c.2.move c.1 p (settle completions p m) := by
  rw [settle, List.foldl_append]
  rfl

theorem MembershipInv.enqueueCommand (hs : s.MembershipInv) (request : ClanCommandRequest) (action : ClanAction) :
    (s.enqueue (.command request action)).MembershipInv where
  ahead := hs.ahead
  saves q m hq := by
    rcases List.mem_append.mp hq with hq | hq
    · exact hs.saves q m hq
    · cases List.mem_singleton.mp hq
  apart := by
    refine List.pairwise_append.mpr ⟨hs.apart, List.pairwise_singleton _ _, fun w _ w' hw' => ?_⟩
    obtain rfl := List.mem_singleton.mp hw'
    rintro request' action' q m - ⟨⟩

theorem MembershipInv.of_members {live : LivePlayers} (hs : s.MembershipInv)
    (h : ∀ p, live.members p = s.live.members p) : MembershipInv { s with live := live } where
  ahead p m hm := hs.ahead p m ((h p).symm.trans hm)
  saves := hs.saves
  apart := hs.apart

theorem MembershipInv.issue (hs : s.MembershipInv) (player : PlayerId) (session : SessionId) (action : ClanAction) :
    (s.issue player session action).MembershipInv := by
  rw [ClanWorld.issue.eq_def]
  split
  · exact hs
  · exact hs
  · rename_i p name tag hplayer
    split
    · refine MembershipInv.enqueueCommand (hs.of_members fun q => ?_) _ _
      rw [LivePlayers.members, LivePlayers.members]
      by_cases hq : q = player
      · rw [hq, Function.update_self, hplayer]
        rfl
      · rw [Function.update_of_ne hq]
    · exact hs
  · exact hs.enqueueCommand _ _

theorem members_setMember_self {store : ClanStore} {m : Membership} (h : store.members p = some m) (q : PlayerId) :
    (store.setMember p m.1 m.2).members q = store.members q := by
  rw [ClanStore.members_setMember]
  by_cases hq : q = p
  · rw [hq, h]
    simp only [if_true, Option.map_some]
  · simp only [hq, if_false, Option.map_id']

theorem MembershipInv.execute (hs : s.MembershipInv) {io : ClanIo} (hclear : s.MembershipClear (.execute io)) :
    (s.execute io).MembershipInv := by
  rw [ClanWorld.execute.eq_def]
  cases hqueue : s.queue with
  | nil => exact hs
  | cons work rest =>
      have hapart := hs.apart
      rw [hqueue] at hapart
      obtain ⟨hhead, hrest⟩ := List.pairwise_cons.mp hapart
      have hsaves : ∀ p m, .save p m ∈ rest → s.store.members p = some m := fun p m hp =>
        hs.saves p m (hqueue ▸ List.mem_cons_of_mem work hp)
      cases work with
      | command request action =>
          have hnames := ClanStore.sameNames_clanCommand s.store request io action
          refine ⟨fun p m hm => ?_, fun p m hp => ?_, ?_⟩
          · have hsome : (s.live.members p).isSome = true := Option.isSome_iff_exists.mpr ⟨m, hm⟩
            dsimp only
            rw [ClanStore.members_clanCommand io action (hclear request action rest hqueue p hsome), settle_append,
              hs.ahead p m hm]
            rfl
          · have habout := hhead _ hp request action p m rfl rfl
            dsimp only
            rw [ClanStore.members_of_not_about io habout]
            exact hsaves p m hp
          · refine hrest.imp fun h request' action' p m hw hw' habout => ?_
            exact h request' action' p m hw hw' (habout.congr hnames)
      | save p m =>
          dsimp only
          split
          · have hp : s.store.members p = some m := hs.saves p m (hqueue ▸ List.mem_cons_self)
            have hsame := members_setMember_self hp
            refine ⟨fun q m' hm' => ?_, fun q m' hq => ?_, ?_⟩
            · exact (hsame q).trans (hs.ahead q m' hm')
            · exact (hsame q).trans (hsaves q m' hq)
            · refine hrest.imp fun h request' action' q m' hw hw' habout => ?_
              exact h request' action' q m' hw hw' (habout.congr (ClanStore.sameNames_setMember ..))
          · exact hs

theorem MembershipInv.complete (hs : s.MembershipInv) : s.complete.MembershipInv := by
  rw [ClanWorld.complete.eq_def]
  cases hcompletions : s.completions with
  | nil => exact hs
  | cons c rest =>
      refine ⟨fun p m hm => ?_, hs.saves, hs.apart⟩
      dsimp only at hm ⊢
      rw [members_applyClanCommandCompletion] at hm
      obtain ⟨m', hm', rfl⟩ := Option.map_eq_some_iff.mp hm
      have hahead := hs.ahead p m' hm'
      rw [hcompletions] at hahead
      exact hahead

theorem MembershipInv.flush (hs : s.MembershipInv) (hclear : s.MembershipClear (.flush p)) :
    (s.flush p).MembershipInv := by
  obtain ⟨hqueue, hcompletions⟩ := hclear
  rw [ClanWorld.flush.eq_def]
  cases hm : s.live.members p with
  | none => exact hs
  | some m =>
      have hrow := hs.ahead p m hm
      rw [settle_of_moves hcompletions] at hrow
      refine ⟨hs.ahead, fun q m' hq => ?_, ?_⟩
      · rcases List.mem_append.mp hq with hq | hq
        · exact hs.saves q m' hq
        · cases List.mem_singleton.mp hq
          exact hrow
      · refine List.pairwise_append.mpr ⟨hs.apart, List.pairwise_singleton _ _, fun w hw w' hw' => ?_⟩
        obtain rfl := List.mem_singleton.mp hw'
        rintro request action q m' rfl ⟨⟩
        exact hqueue request action hw

theorem MembershipInv.step (hs : s.MembershipInv) {e : ClanEvent} (hclear : s.MembershipClear e) :
    (s.step e).MembershipInv := by
  cases e with
  | command player session action => exact hs.issue player session action
  | execute io => exact hs.execute hclear
  | complete => exact hs.complete
  | flush player => exact hs.flush hclear

/-- The tables and the game agree before any command. -/
structure Start (s : ClanWorld) : Prop where
  agrees : s.Agrees
  queue : s.queue = []
  completions : s.completions = []

theorem Start.membershipInv (hs : s.Start) : s.MembershipInv where
  ahead p m hm := by
    rw [hs.completions]
    exact hs.agrees p m hm
  saves p m hp := by
    rw [hs.queue] at hp
    cases hp
  apart := by
    rw [hs.queue]
    exact List.Pairwise.nil

theorem Start.run (hs : s.Start) (es : List ClanEvent)
    (hclear : ∀ fs e, fs ++ [e] <+: es → (s.run fs).MembershipClear e) : (s.run es).MembershipInv := by
  induction es using List.reverseRecOn with
  | nil => exact hs.membershipInv
  | append_singleton es e ih =>
      have hbefore := ih fun fs f hfs => hclear fs f (hfs.trans (List.prefix_append es [e]))
      rw [ClanWorld.run, List.foldl_append]
      exact hbefore.step (hclear es e List.prefix_rfl)

/-- In a run whose events all meet their conditions, the game and the tables agree whenever all is settled, and
to save a row changes no membership then. -/
theorem memberships_agree (hs : s.Start) (es : List ClanEvent)
    (hclear : ∀ fs e, fs ++ [e] <+: es → (s.run fs).MembershipClear e) :
    ∀ fs, fs <+: es → (s.run fs).Settled → (s.run fs).Agrees ∧ (s.run fs).FlushKeeps := by
  intro fs hfs hsettled
  have hinv := hs.run fs fun gs e hgs => hclear gs e (hgs.trans hfs)
  have hagrees : (s.run fs).Agrees := by
    intro p m hm
    have hahead := hinv.ahead p m hm
    rw [hsettled.2] at hahead
    exact hahead
  exact ⟨hagrees, fun p m hm q => members_setMember_self (hagrees p m hm) q⟩

def livePlayer (m : Membership) : LivePlayer := ⟨0, 0, fun _ => 0, 0, m.1, m.2, false⟩

theorem threePlayers_ids : ([1, 2, 3] : List PlayerId).Pairwise (· < ·) := by decide

/-- Clan 5 with its leader 1 and its member 2; player 3 is invited. -/
def invitedPlayer : ClanWorld where
  store := {
    players := [⟨1, "leader", some 5, 100⟩, ⟨2, "member", some 5, 10⟩, ⟨3, "guest", none, 0⟩]
    clans := [⟨5, "clan", "CLN", 1⟩]
    requests := ∅
    invites := {(5, 3)}
    playerIds := threePlayers_ids
    clanIds := List.nodup_singleton _ }
  live := fun p =>
    if p = 1 then some (livePlayer (some 5, 100))
    else if p = 2 then some (livePlayer (some 5, 10))
    else if p = 3 then some (livePlayer (none, 0))
    else none
  queue := []
  completions := []

theorem invitedPlayer_start : invitedPlayer.Start where
  agrees p m hm := by
    by_cases h1 : p = 1
    · subst h1
      exact hm
    · by_cases h2 : p = 2
      · subst h2
        exact hm
      · by_cases h3 : p = 3
        · subst h3
          exact hm
        · simp [LivePlayers.members, invitedPlayer, h1, h2, h3] at hm
  queue := rfl
  completions := rfl

/-- A command, with its work and its completion. -/
def throughout (player : PlayerId) (action : ClanAction) : List ClanEvent :=
  [.command player 1 action, .execute ⟨true, true, 0⟩, .complete]

theorem memberships_agree_invite : (invitedPlayer.run (throughout 3 (.acceptInvite 5))).Agrees ∧
    (invitedPlayer.run (throughout 3 (.acceptInvite 5))).FlushKeeps := by
  refine memberships_agree invitedPlayer_start (throughout 3 (.acceptInvite 5)) (fun fs e hprefix => ?_) _
    List.prefix_rfl ⟨fun _ _ hmem => (List.not_mem_nil hmem), rfl⟩
  match fs with
  | [] =>
      obtain rfl := (List.cons_prefix_cons.mp hprefix).1
      trivial
  | [f] =>
      obtain ⟨rfl, hrest⟩ := List.cons_prefix_cons.mp hprefix
      obtain rfl := (List.cons_prefix_cons.mp hrest).1
      intro request action rest hqueue p _
      cases hqueue
      trivial
  | [f, f'] =>
      obtain ⟨-, hrest⟩ := List.cons_prefix_cons.mp hprefix
      obtain ⟨-, hrest'⟩ := List.cons_prefix_cons.mp hrest
      obtain rfl := (List.cons_prefix_cons.mp hrest').1
      trivial
  | _ :: _ :: _ :: _ =>
      have hlength := hprefix.length_le
      simp only [throughout, List.length_append, List.length_cons, List.length_nil] at hlength
      omega

/-- One who leaves is still in the clan in the game, and the next save of his row brings him back. -/
theorem left_stays_live : invitedPlayer.Start ∧ (invitedPlayer.run (throughout 2 .leave)).Settled ∧
    ¬ (invitedPlayer.run (throughout 2 .leave)).Agrees ∧ ¬ (invitedPlayer.run (throughout 2 .leave)).FlushKeeps ∧
    (invitedPlayer.run (throughout 2 .leave ++ [.flush 2, .execute ⟨true, true, 0⟩])).store.members 2 =
      some (some 5, 10) := by
  refine ⟨invitedPlayer_start, ⟨fun _ _ hmem => (List.not_mem_nil hmem), rfl⟩, fun hagrees => ?_, fun hkeeps => ?_,
    by decide⟩
  · have hrow := hagrees 2 (some 5, 10) (by decide)
    revert hrow
    decide
  · have hrow := hkeeps 2 (some 5, 10) (by decide) 2
    revert hrow
    decide

end ClanWorld

end OpenMines
