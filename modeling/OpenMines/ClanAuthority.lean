import OpenMines.ClanStore

namespace OpenMines

namespace ClanStore

/-- The player is an officer or the leader of the clan. -/
def Officer (s : ClanStore) (p : PlayerId) (clanId : Int32) : Prop :=
  ∃ q, s.row p = some q ∧ q.clanId = some clanId ∧ clanRankOfficer ≤ clanRankFromDb q.clanRank

/-- The player is an officer or the leader of the clan of a member of a lower rank. -/
def Outranks (s : ClanStore) (p : PlayerId) (r : MemberRow) : Prop :=
  ∃ q clanId, s.row p = some q ∧ q.clanId = some clanId ∧ clanRankOfficer ≤ clanRankFromDb q.clanRank ∧
    r.clanId = some clanId ∧ clanRankFromDb r.clanRank < clanRankFromDb q.clanRank

/-- What players may do about themselves: leave, join by an invite, and found a clan. -/
def OwnMove (s t : ClanStore) (r r' : MemberRow) : Prop :=
  r'.clanId = none ∨
    (r.clanId = none ∧ ∃ clanId, r'.clanId = some clanId ∧ (clanId, r.id) ∈ s.invites) ∨
    ∃ clan ∈ t.clans, clan ∉ s.clans ∧ clan.ownerId = r.id ∧ r'.clanId = some clan.id

/-- What officers may do about others: admit those who asked, and promote or kick those below them. -/
def OfficerMove (s : ClanStore) (p : PlayerId) (r r' : MemberRow) : Prop :=
  (r.clanId = none ∧ r'.clanRank = clanRankMember ∧
      ∃ clanId, r'.clanId = some clanId ∧ (clanId, r.id) ∈ s.requests ∧ s.Officer p clanId) ∨
    (s.Outranks p r ∧ (r'.clanId = none ∨ r'.clanId = r.clanId))

/-- The tables change only as the rules of the clans let the player change them. -/
structure ByAuthority (s t : ClanStore) (p : PlayerId) : Prop where
  member : ∀ r ∈ s.players, ∀ r' ∈ t.players, r'.id = r.id → r' ≠ r →
    (r.id = p ∧ OwnMove s t r r') ∨ s.OfficerMove p r r'
  kept : t.players.map MemberRow.id = s.players.map MemberRow.id
  clans : ∀ clan ∈ s.clans, clan ∈ t.clans
  founded : ∀ clan ∈ t.clans, clan ∈ s.clans ∨ clan.ownerId = p
  requested : ∀ e ∈ t.requests, e ∈ s.requests ∨ e.2 = p
  answered : ∀ e ∈ s.requests, e ∈ t.requests ∨ e.2 = p ∨ s.Officer p e.1
  invited : ∀ e ∈ t.invites, e ∈ s.invites ∨ s.Officer p e.1
  uninvited : ∀ e ∈ s.invites, e ∈ t.invites ∨ e.2 = p ∨ ∃ clanId, s.Officer p clanId

def MayKick (s : ClanStore) (p : PlayerId) (r : MemberRow) : Prop :=
  (r.clanId = none ∧ r.clanRank = clanRankNone) ∨ r.id = p ∨ s.Outranks p r

/-- The condition on a command: where the id of the player stands for a clan, it is the clan of the
player, and those who are kicked may be kicked. -/
def Rightful (s : ClanStore) (p : PlayerId) : ClanAction → Prop
  | .kick target => ∀ r, s.getPlayerByName target = some r → s.MayKick p r
  | .kickById targetId => ∀ r, s.row targetId = some r → s.MayKick p r
  | .acceptRequest targetId => ∀ r, s.row targetId = some r → r.clanId = none → (p, targetId) ∈ s.requests →
      s.Officer p p ∨ (targetId = p ∧ (p, p) ∈ s.invites)
  | .declineRequest targetId => (p, targetId) ∈ s.requests → targetId = p ∨ s.Officer p p
  | .promote targetId => ∀ r, s.row targetId = some r → r.clanId = some p → r.clanRank ≠ clanRankOfficer →
      s.Outranks p r
  | .invite targetId => (p, targetId) ∉ s.invites → s.Officer p p
  | _ => True

variable {s t : ClanStore} {p q : PlayerId} {clanId : Option Int32} {clanRank : Int32}

theorem ByAuthority.refl (s : ClanStore) (p : PlayerId) : ByAuthority s s p where
  member r hr r' hr' hid hne := by
    have hrow := row_of_mem hr'
    rw [hid, row_of_mem hr] at hrow
    exact absurd (Option.some_inj.mp hrow).symm hne
  kept := rfl
  clans _ h := h
  founded _ h := Or.inl h
  requested _ h := Or.inl h
  answered _ h := Or.inl h
  invited _ h := Or.inl h
  uninvited _ h := Or.inl h

/-! ### Changes of one member -/

def MemberRow.moved (r : MemberRow) (clanId : Option Int32) (clanRank : Int32) : MemberRow := { r with clanId, clanRank }

theorem inClan_of_eq {r : MemberRow} (h : r.id = q) :
    r.inClan q clanId clanRank = MemberRow.moved r clanId clanRank := if_pos h

theorem inClan_of_ne {r : MemberRow} (h : r.id ≠ q) : r.inClan q clanId clanRank = r := if_neg h

theorem ids_setMember (s : ClanStore) (q : PlayerId) (clanId : Option Int32) (clanRank : Int32) :
    (s.setMember q clanId clanRank).players.map MemberRow.id = s.players.map MemberRow.id := by
  rw [setMember, List.map_map]
  exact List.map_congr_left fun r _ => id_inClan r q clanId clanRank

/-- It is enough to look at the row that changes. -/
theorem member_iff (s t : ClanStore) (p q : PlayerId) (clanId : Option Int32) (clanRank : Int32)
    (ht : t.players = (s.setMember q clanId clanRank).players) :
    (∀ r ∈ s.players, ∀ r' ∈ t.players, r'.id = r.id → r' ≠ r → (r.id = p ∧ OwnMove s t r r') ∨ s.OfficerMove p r r') ↔
      ∀ r, s.row q = some r → MemberRow.moved r clanId clanRank ≠ r →
        (r.id = p ∧ OwnMove s t r (MemberRow.moved r clanId clanRank)) ∨
          s.OfficerMove p r (MemberRow.moved r clanId clanRank) := by
  constructor
  · intro h r hr hne
    have hmem : r ∈ s.players := List.mem_of_find?_eq_some hr
    refine h r hmem _ ?_ rfl hne
    rw [ht, setMember, ← inClan_of_eq (row_id hr)]
    exact List.mem_map_of_mem hmem
  · intro h r hr r' hr' hid hne
    rw [ht, setMember] at hr'
    obtain ⟨r₁, hr₁, rfl⟩ := List.mem_map.mp hr'
    rw [id_inClan] at hid
    have hsame : r₁ = r := by
      have hrow := row_of_mem hr₁
      rw [hid, row_of_mem hr] at hrow
      exact (Option.some_inj.mp hrow).symm
    subst hsame
    by_cases hq : r₁.id = q
    · rw [inClan_of_eq hq] at hne ⊢
      exact h r₁ (hq ▸ row_of_mem hr) hne
    · exact absurd (inClan_of_ne hq) hne

theorem leaveClan_byAuthority (h : s.leaveClan q = some t) :
    ByAuthority s t p ↔ ∀ r, s.row q = some r → s.MayKick p r := by
  rw [leaveClan] at h
  split at h
  case isFalse => cases h
  case isTrue =>
    obtain rfl := Option.some_inj.mp h
    have hmember := member_iff s _ p q none clanRankNone rfl
    constructor
    · intro hauth r hr
      by_cases hsame : MemberRow.moved r none clanRankNone = r
      · left
        rw [← hsame]
        exact ⟨rfl, rfl⟩
      · right
        rcases hmember.mp hauth.member r hr hsame with ⟨hown, -⟩ | ⟨-, -, c, hc, -⟩ | ⟨hbelow, -⟩
        · exact Or.inl hown
        · cases hc
        · exact Or.inr hbelow
    · intro hmay
      refine ⟨hmember.mpr fun r hr hne => ?_, ids_setMember .., fun _ h => h, fun _ h => Or.inl h, fun _ h => Or.inl h,
        fun _ h => Or.inl h, fun _ h => Or.inl h, fun _ h => Or.inl h⟩
      rcases hmay r hr with ⟨hclan, hrank⟩ | hown | hbelow
      · refine absurd ?_ hne
        rw [MemberRow.moved, ← hclan, ← hrank]
      · exact Or.inl ⟨hown, Or.inl rfl⟩
      · exact Or.inr (Or.inr ⟨hbelow, Or.inl rfl⟩)

theorem setClanRank_byAuthority (h : s.setClanRank q p clanRankOfficer = some t) :
    ByAuthority s t p ↔ ∀ r, s.row q = some r → r.clanRank ≠ clanRankOfficer → s.Outranks p r := by
  rw [setClanRank] at h
  split at h
  case isFalse => cases h
  case isTrue hclan =>
    obtain rfl := Option.some_inj.mp h
    obtain ⟨r₀, hr₀, hin⟩ := (Option.any_eq_true _ _).mp hclan
    rw [decide_eq_true_eq] at hin
    have hmember := member_iff s _ p q (some p) clanRankOfficer rfl
    constructor
    · intro hauth r hr hrank
      obtain rfl := Option.some_inj.mp (hr₀.symm.trans hr)
      have hne : MemberRow.moved r₀ (some p) clanRankOfficer ≠ r₀ := fun h => hrank (congrArg MemberRow.clanRank h).symm
      rcases hmember.mp hauth.member r₀ hr₀ hne with ⟨-, hnone | ⟨hnone, -⟩ | ⟨clan, hclan, hnew, -⟩⟩ | hofficer
      · cases hnone
      · rw [hin] at hnone
        cases hnone
      · exact absurd hclan hnew
      · rcases hofficer with ⟨hnone, -⟩ | ⟨hbelow, -⟩
        · rw [hin] at hnone
          cases hnone
        · exact hbelow
    · intro hbelow
      refine ⟨hmember.mpr fun r hr hne => ?_, ids_setMember .., fun _ h => h, fun _ h => Or.inl h, fun _ h => Or.inl h,
        fun _ h => Or.inl h, fun _ h => Or.inl h, fun _ h => Or.inl h⟩
      obtain rfl := Option.some_inj.mp (hr₀.symm.trans hr)
      have hrank : r₀.clanRank ≠ clanRankOfficer := by
        intro hrank
        refine hne ?_
        rw [MemberRow.moved, ← hin, ← hrank]
      exact Or.inr (Or.inr ⟨hbelow r₀ hr₀ hrank, Or.inr hin.symm⟩)

theorem acceptClanRequest_byAuthority (h : s.acceptClanRequest p q = some t) :
    ByAuthority s t p ↔ s.Officer p p ∨ (q = p ∧ (p, p) ∈ s.invites) := by
  rw [acceptClanRequest] at h
  split at h
  case isFalse => cases h
  case isTrue hasked =>
    obtain rfl := Option.some_inj.mp h
    obtain ⟨hany, hrequest⟩ := hasked
    obtain ⟨r₀, hr₀, hnone⟩ := (Option.any_eq_true _ _).mp hany
    rw [decide_eq_true_eq] at hnone
    have hid := row_id hr₀
    have hmember := member_iff s { s.setMember q (some p) clanRankMember with
      requests := s.requests.erase (p, q), invites := s.invites.filter (fun e => e.2 ≠ q) } p q (some p)
      clanRankMember rfl
    constructor
    · intro hauth
      have hne : MemberRow.moved r₀ (some p) clanRankMember ≠ r₀ := by
        intro h
        have hsome := congrArg MemberRow.clanId h
        rw [hnone] at hsome
        cases hsome
      rcases hmember.mp hauth.member r₀ hr₀ hne with ⟨hown, hleft | ⟨-, c, hc, hinvite⟩ | ⟨clan, hclan, hnew, -⟩⟩ | hofficer
      · cases hleft
      · obtain rfl := Option.some_inj.mp hc
        rw [hown] at hinvite
        exact Or.inr ⟨hid.symm.trans hown, hinvite⟩
      · exact absurd hclan hnew
      · rcases hofficer with ⟨-, -, c, hc, -, hofficer⟩ | ⟨⟨q', c, -, -, -, hsome, -⟩, -⟩
        · obtain rfl := Option.some_inj.mp hc
          exact Or.inl hofficer
        · rw [hnone] at hsome
          cases hsome
    · intro hright
      refine ⟨hmember.mpr fun r hr _ => ?_, ids_setMember .., fun _ h => h, fun _ h => Or.inl h,
        fun e he => Or.inl (Finset.mem_of_mem_erase he), fun e he => ?_,
        fun e he => Or.inl (Finset.mem_of_mem_filter e he), fun e he => ?_⟩
      · obtain rfl := Option.some_inj.mp (hr₀.symm.trans hr)
        rcases hright with hofficer | ⟨hself, hinvite⟩
        · exact Or.inr (Or.inl ⟨hnone, rfl, p, rfl, hid ▸ hrequest, hofficer⟩)
        · exact Or.inl ⟨hid.trans hself, Or.inr (Or.inl ⟨hnone, p, rfl, (hid.trans hself) ▸ hinvite⟩)⟩
      · by_cases hsame : e = (p, q)
        · rcases hright with hofficer | ⟨hself, -⟩
          · exact Or.inr (Or.inr (hsame ▸ hofficer))
          · exact Or.inr (Or.inl (hsame ▸ hself))
        · exact Or.inl (Finset.mem_erase.mpr ⟨hsame, he⟩)
      · by_cases hsame : e.2 = q
        · rcases hright with hofficer | ⟨hself, -⟩
          · exact Or.inr (Or.inr ⟨p, hofficer⟩)
          · exact Or.inr (Or.inl (hsame.trans hself))
        · exact Or.inl (Finset.mem_filter.mpr ⟨he, hsame⟩)

/-! ### Changes of the requests and the invites -/

/-- A change of the requests and the invites only. -/
theorem byAuthority_edges {requests invites : Finset (Int32 × PlayerId)}
    (hrequested : ∀ e ∈ requests, e ∈ s.requests ∨ e.2 = p)
    (hanswered : ∀ e ∈ s.requests, e ∈ requests ∨ e.2 = p ∨ s.Officer p e.1)
    (hinvited : ∀ e ∈ invites, e ∈ s.invites ∨ s.Officer p e.1)
    (huninvited : ∀ e ∈ s.invites, e ∈ invites ∨ e.2 = p) :
    ByAuthority s { s with requests := requests, invites := invites } p where
  member := (ByAuthority.refl s p).member
  kept := rfl
  clans _ h := h
  founded _ h := Or.inl h
  requested := hrequested
  answered := hanswered
  invited := hinvited
  uninvited e he := (huninvited e he).imp_right Or.inl

theorem declineClanRequest_byAuthority (h : s.declineClanRequest p q = some t) :
    ByAuthority s t p ↔ q = p ∨ s.Officer p p := by
  rw [declineClanRequest] at h
  split at h
  case isFalse => cases h
  case isTrue hrequest =>
    obtain rfl := Option.some_inj.mp h
    constructor
    · intro hauth
      refine (hauth.answered (p, q) hrequest).resolve_left ?_
      exact Finset.notMem_erase (p, q) s.requests
    · intro hright
      refine byAuthority_edges (fun e he => Or.inl (Finset.mem_of_mem_erase he)) (fun e he => ?_)
        (fun _ h => Or.inl h) (fun _ h => Or.inl h)
      by_cases hsame : e = (p, q)
      · rw [hsame]
        exact Or.inr hright
      · exact Or.inl (Finset.mem_erase.mpr ⟨hsame, he⟩)

theorem addClanInvite_byAuthority (h : s.addClanInvite p q = some t) : ByAuthority s t p ↔ s.Officer p p := by
  rw [addClanInvite] at h
  split at h
  case isTrue => cases h
  case isFalse hnew =>
    obtain rfl := Option.some_inj.mp h
    constructor
    · intro hauth
      exact (hauth.invited (p, q) (Finset.mem_insert_self ..)).resolve_left hnew
    · intro hofficer
      refine byAuthority_edges (fun _ h => Or.inl h) (fun _ h => Or.inl h) (fun e he => ?_)
        (fun e he => Or.inl (Finset.mem_insert_of_mem he))
      rcases Finset.mem_insert.mp he with rfl | hold
      · exact Or.inr hofficer
      · exact Or.inl hold

theorem addClanRequest_byAuthority {c : Int32} (h : s.addClanRequest c p = some t) : ByAuthority s t p := by
  rw [addClanRequest] at h
  split at h
  case isTrue => cases h
  case isFalse =>
    obtain rfl := Option.some_inj.mp h
    refine byAuthority_edges (fun e he => ?_) (fun e he => Or.inl (Finset.mem_insert_of_mem he))
      (fun _ h => Or.inl h) (fun _ h => Or.inl h)
    rcases Finset.mem_insert.mp he with rfl | hold
    · exact Or.inr rfl
    · exact Or.inl hold

theorem declineClanInvite_byAuthority {c : Int32} (h : s.declineClanInvite c p = some t) : ByAuthority s t p := by
  rw [declineClanInvite] at h
  split at h
  case isFalse => cases h
  case isTrue =>
    obtain rfl := Option.some_inj.mp h
    refine byAuthority_edges (fun _ h => Or.inl h) (fun _ h => Or.inl h)
      (fun e he => Or.inl (Finset.mem_of_mem_erase he)) (fun e he => ?_)
    by_cases hsame : e = (c, p)
    · rw [hsame]
      exact Or.inr rfl
    · exact Or.inl (Finset.mem_erase.mpr ⟨hsame, he⟩)

/-! ### Joining and founding -/

theorem acceptClanInvite_byAuthority {c : Int32} (h : s.acceptClanInvite c p = some t) : ByAuthority s t p := by
  rw [acceptClanInvite] at h
  split at h
  case isFalse => cases h
  case isTrue hinvited =>
    obtain rfl := Option.some_inj.mp h
    obtain ⟨hany, hinvite⟩ := hinvited
    obtain ⟨r₀, hr₀, hnone⟩ := (Option.any_eq_true _ _).mp hany
    rw [decide_eq_true_eq] at hnone
    refine ⟨(member_iff s _ p p (some c) clanRankMember rfl).mpr fun r hr _ => ?_,
      ids_setMember .., fun _ h => h, fun _ h => Or.inl h, fun e he => Or.inl (Finset.mem_of_mem_filter e he),
      fun e he => ?_, fun e he => Or.inl (Finset.mem_of_mem_erase he), fun e he => ?_⟩
    · obtain rfl := Option.some_inj.mp (hr₀.symm.trans hr)
      exact Or.inl ⟨row_id hr₀, Or.inr (Or.inl ⟨hnone, c, rfl, (row_id hr₀).symm ▸ hinvite⟩)⟩
    · by_cases hsame : e.2 = p
      · exact Or.inr (Or.inl hsame)
      · exact Or.inl (Finset.mem_filter.mpr ⟨he, hsame⟩)
    · by_cases hsame : e = (c, p)
      · rw [hsame]
        exact Or.inr (Or.inl rfl)
      · exact Or.inl (Finset.mem_erase.mpr ⟨hsame, he⟩)

theorem createClan_byAuthority {clan : ClanRow} (howner : clan.ownerId = p) (h : s.createClan clan = some t) :
    ByAuthority s t p := by
  rw [createClan] at h
  split at h
  case isTrue => cases h
  case isFalse hnew =>
    split at h
    · cases h
    · obtain rfl := Option.some_inj.mp h
      have hfresh : clan ∉ s.clans := fun hclan => hnew (List.mem_map_of_mem hclan)
      refine ⟨?_, ids_setMember .., fun _ h => List.mem_append_left _ h, fun e he => ?_, fun _ h => Or.inl h,
        fun _ h => Or.inl h, fun _ h => Or.inl h, fun _ h => Or.inl h⟩
      · refine (member_iff s _ p clan.ownerId (some clan.id) clanRankLeader ?_).mpr fun r hr _ => ?_
        · rfl
        · have hid := row_id hr
          refine Or.inl ⟨hid.trans howner, Or.inr (Or.inr ⟨clan, ?_, hfresh, hid.symm, rfl⟩)⟩
          exact List.mem_append_right _ (List.mem_singleton_self clan)
      · rcases List.mem_append.mp he with hold | hclan
        · exact Or.inl hold
        · obtain rfl := List.mem_singleton.mp hclan
          exact Or.inr howner

/-! ### Commands -/

theorem attempt_byAuthority (s : ClanStore) (p : PlayerId) (io : ClanIo) (changed : Option ClanStore)
    (result : ClanCommandResult) :
    ByAuthority s (s.attempt io changed result).1 p ↔ (io.ok = true → ∀ t, changed = some t → ByAuthority s t p) := by
  cases changed with
  | none => exact iff_of_true (ByAuthority.refl s p) (fun _ t ht => nomatch ht)
  | some t =>
      simp only [attempt]
      split
      · rename_i hok
        constructor
        · intro hauth _ u hu
          obtain rfl := Option.some_inj.mp hu
          exact hauth
        · intro hauth
          exact hauth hok t rfl
      · rename_i hfailed
        exact iff_of_true (ByAuthority.refl s p) (fun hok => absurd hok hfailed)

/-- A command is by authority, however its queries end, just when it is when they succeed. -/
theorem forall_attempt_byAuthority (s : ClanStore) (p : PlayerId) (changed : Option ClanStore)
    (result : ClanCommandResult) : (∀ io, ByAuthority s (s.attempt io changed result).1 p) ↔
      ∀ t, changed = some t → ByAuthority s t p := by
  constructor
  · intro h
    exact (attempt_byAuthority s p ⟨true, true, 0⟩ changed result).mp (h _) rfl
  · intro h io
    exact (attempt_byAuthority s p io changed result).mpr fun _ => h

theorem kick_byAuthority (s : ClanStore) (p q : PlayerId) :
    (∀ t, s.kickFromClan q = some t → ByAuthority s t p) ↔ ∀ r, s.row q = some r → s.MayKick p r := by
  rw [kickFromClan]
  cases hleave : s.leaveClan q with
  | some t =>
      refine Iff.trans ?_ (leaveClan_byAuthority hleave)
      exact ⟨fun h => h t rfl, fun h u hu => Option.some_inj.mp hu ▸ h⟩
  | none =>
      refine iff_of_true (fun t ht => nomatch ht) fun r hr => ?_
      rw [leaveClan, if_pos (by rw [hr]; rfl)] at hleave
      cases hleave

/-- The tables change by the rules of the clans, however the queries of a command end, just when the
command is rightful. -/
theorem byAuthority_iff_rightful (s : ClanStore) (request : ClanCommandRequest) (action : ClanAction) :
    (∀ io, ByAuthority s (s.clanCommand request io action).1 request.playerId) ↔
      s.Rightful request.playerId action := by
  cases action with
  | create name tag =>
      refine iff_of_true (fun io => ?_) trivial
      rw [clanCommand]
      split
      · exact ByAuthority.refl s _
      · exact (attempt_byAuthority ..).mpr fun _ t ht => createClan_byAuthority rfl ht
  | leave =>
      refine iff_of_true (fun io => ?_) trivial
      refine (attempt_byAuthority ..).mpr fun _ t ht => (leaveClan_byAuthority ht).mpr fun r hr => ?_
      exact Or.inr (Or.inl (row_id hr))
  | kick target =>
      constructor
      · intro h r hr
        have hkick := h ⟨true, true, 0⟩
        rw [clanCommand, if_pos rfl, hr] at hkick
        have hmay := (kick_byAuthority s request.playerId r.id).mp ((attempt_byAuthority ..).mp hkick rfl)
        exact hmay r (row_of_mem (getPlayerByName_mem hr))
      · intro h io
        rw [clanCommand]
        split
        · exact ByAuthority.refl s _
        · rename_i r hlookup
          have hr : s.getPlayerByName target = some r := by
            split at hlookup
            · exact hlookup
            · cases hlookup
          refine (attempt_byAuthority ..).mpr fun _ => (kick_byAuthority s request.playerId r.id).mpr fun r' hr' => ?_
          obtain rfl := Option.some_inj.mp ((row_of_mem (getPlayerByName_mem hr)).symm.trans hr')
          exact h _ hr
  | acceptInvite clanId =>
      refine iff_of_true (fun io => ?_) trivial
      exact (attempt_byAuthority ..).mpr fun _ t ht => acceptClanInvite_byAuthority ht
  | declineInvite clanId =>
      refine iff_of_true (fun io => ?_) trivial
      exact (attempt_byAuthority ..).mpr fun _ t ht => declineClanInvite_byAuthority ht
  | acceptRequest targetId =>
      refine (forall_attempt_byAuthority ..).trans ⟨fun h r hr hnone hrequest => ?_, fun h t ht => ?_⟩
      · have hany : (s.row targetId).any (fun r => r.clanId = none) = true := by
          rw [hr, Option.any_some, hnone]
          rfl
        exact (acceptClanRequest_byAuthority (if_pos ⟨hany, hrequest⟩)).mp (h _ (if_pos ⟨hany, hrequest⟩))
      · refine (acceptClanRequest_byAuthority ht).mpr ?_
        rw [acceptClanRequest] at ht
        split at ht
        · rename_i hasked
          obtain ⟨r, hr, hnone⟩ := (Option.any_eq_true _ _).mp hasked.1
          exact h r hr (of_decide_eq_true hnone) hasked.2
        · cases ht
  | declineRequest targetId =>
      refine (forall_attempt_byAuthority ..).trans ⟨fun h hrequest => ?_, fun h t ht => ?_⟩
      · exact (declineClanRequest_byAuthority (if_pos hrequest)).mp (h _ (if_pos hrequest))
      · refine (declineClanRequest_byAuthority ht).mpr (h ?_)
        rw [declineClanRequest] at ht
        split at ht
        · assumption
        · cases ht
  | promote targetId =>
      refine (forall_attempt_byAuthority ..).trans ⟨fun h r hr hclan hrank => ?_, fun h t ht => ?_⟩
      · have hany : (s.row targetId).any (fun r => r.clanId = some request.playerId) = true := by
          rw [hr, Option.any_some, hclan]
          exact decide_eq_true rfl
        exact (setClanRank_byAuthority (if_pos hany)).mp (h _ (if_pos hany)) r hr hrank
      · refine (setClanRank_byAuthority ht).mpr fun r hr hrank => h r hr ?_ hrank
        rw [setClanRank] at ht
        split at ht
        · rename_i hany
          rw [hr, Option.any_some, decide_eq_true_eq] at hany
          exact hany
        · cases ht
  | kickById targetId => exact (forall_attempt_byAuthority ..).trans (kick_byAuthority s request.playerId targetId)
  | invite targetId =>
      refine (forall_attempt_byAuthority ..).trans ⟨fun h hnew => ?_, fun h t ht => ?_⟩
      · exact (addClanInvite_byAuthority (if_neg hnew)).mp (h _ (if_neg hnew))
      · refine (addClanInvite_byAuthority ht).mpr (h ?_)
        rw [addClanInvite] at ht
        split at ht
        · cases ht
        · assumption
  | request clanId =>
      refine iff_of_true (fun io => ?_) trivial
      exact (attempt_byAuthority ..).mpr fun _ t ht => addClanRequest_byAuthority ht
  | invalid message => exact iff_of_true (fun io => ByAuthority.refl s _) trivial

/-- Clan 5 with its leader 1 and its member 2, and player 5, who is in no clan. -/
def oneClan : ClanStore where
  players := [⟨1, "leader", some 5, 100⟩, ⟨2, "member", some 5, 10⟩, ⟨5, "outsider", none, 0⟩]
  clans := [⟨5, "clan", "CLN", 1⟩]
  requests := ∅
  invites := ∅
  playerIds := by decide
  clanIds := by decide

/-- One outside the clan promotes a member of it, invites into it, and kicks its leader. -/
theorem outsider_rules : ¬ oneClan.Officer 5 5 ∧
    ¬ ByAuthority oneClan (oneClan.clanCommand ⟨5, 1, false⟩ ⟨true, true, 0⟩ (.promote 2)).1 5 ∧
    ¬ ByAuthority oneClan (oneClan.clanCommand ⟨5, 1, false⟩ ⟨true, true, 0⟩ (.invite 5)).1 5 ∧
    ¬ ByAuthority oneClan (oneClan.clanCommand ⟨5, 1, false⟩ ⟨true, true, 0⟩ (.kickById 1)).1 5 := by
  have hofficer (c : Int32) : ¬ oneClan.Officer 5 c := by
    rintro ⟨q, hq, hclan, -⟩
    obtain rfl := Option.some_inj.mp hq
    cases hclan
  have hbelow (r : MemberRow) : ¬ oneClan.Outranks 5 r := by
    rintro ⟨q, c, hq, hclan, -⟩
    obtain rfl := Option.some_inj.mp hq
    cases hclan
  refine ⟨hofficer 5, fun hauth => ?_, fun hauth => ?_, fun hauth => ?_⟩
  · refine hbelow ⟨2, "member", some 5, 10⟩ ?_
    exact (setClanRank_byAuthority (q := 2) rfl).mp hauth ⟨2, "member", some 5, 10⟩ rfl (by decide)
  · exact hofficer 5 ((addClanInvite_byAuthority rfl).mp hauth)
  · rcases (leaveClan_byAuthority (q := 1) rfl).mp hauth ⟨1, "leader", some 5, 100⟩ rfl with ⟨hnone, -⟩ | hown | hrank
    · cases hnone
    · revert hown
      decide
    · exact hbelow _ hrank

end ClanStore

end OpenMines
