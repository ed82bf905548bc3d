import OpenMines.GunSalvo

namespace OpenMines.Guns

variable {S : Type} {config : CombatConfig} {rules : GunRules S} {now : Nat}

/-- The same player after some hits. -/
structure Target.Suffered (t t' : Target S) : Prop where
  playerId : t'.playerId = t.playerId
  pos : t'.pos = t.pos
  maxHealth : t'.maxHealth = t.maxHealth
  clanId : t'.clanId = t.clanId
  protectionUntil : t'.protectionUntil = t.protectionUntil
  session : t'.session = t.session
  incarnation : t'.incarnation = t.incarnation
  dirty : t.dirty = true → t'.dirty = true
  health_le : t'.health ≤ t.health
  nonneg : 0 ≤ t.health → 0 ≤ t'.health

/-- The same building after some shots. -/
structure Spent (b b' : BuildingEntity) : Prop where
  same : b' = { b with view := { b.view with charge := b'.view.charge } }
  charge_le : b'.view.charge ≤ b.view.charge
  nonneg : 0 ≤ b.view.charge → 0 ≤ b'.view.charge

theorem Target.Suffered.refl (t : Target S) : t.Suffered t :=
  ⟨rfl, rfl, rfl, rfl, rfl, rfl, rfl, id, Int32.le_refl _, id⟩

theorem Spent.refl (b : BuildingEntity) : Spent b b := ⟨rfl, Int32.le_refl _, id⟩

theorem Target.Suffered.trans {t t' t'' : Target S} (h : t.Suffered t') (h' : t'.Suffered t'') : t.Suffered t'' where
  playerId := h'.playerId.trans h.playerId
  pos := h'.pos.trans h.pos
  maxHealth := h'.maxHealth.trans h.maxHealth
  clanId := h'.clanId.trans h.clanId
  protectionUntil := h'.protectionUntil.trans h.protectionUntil
  session := h'.session.trans h.session
  incarnation := h'.incarnation.trans h.incarnation
  dirty := fun hd => h'.dirty (h.dirty hd)
  health_le := Int32.le_trans h'.health_le h.health_le
  nonneg := fun hn => h'.nonneg (h.nonneg hn)

theorem Spent.trans {b b' b'' : BuildingEntity} (h : Spent b b') (h' : Spent b' b'') : Spent b b'' where
  same := by
    rw [h'.same, h.same]
  charge_le := Int32.le_trans h'.charge_le h.charge_le
  nonneg := fun hn => h'.nonneg (h.nonneg hn)

theorem toInt_sub_of_lt {a b : Int32} (hb : 0 < b) (h : b < a) : (a - b).toInt = a.toInt - b.toInt := by
  rw [Int32.lt_iff_toInt_lt, Int32.toInt_zero] at hb
  rw [Int32.lt_iff_toInt_lt] at h
  have ha := a.toInt_lt
  rw [Int32.toInt_sub, Int.bmod_def]
  omega

theorem sub_bounds {a b : Int32} (hb : 0 < b) (h : b < a) : 0 < a - b ∧ a - b < a := by
  have hsub := toInt_sub_of_lt hb h
  rw [Int32.lt_iff_toInt_lt, Int32.toInt_zero] at hb
  rw [Int32.lt_iff_toInt_lt] at h
  rw [Int32.lt_iff_toInt_lt, Int32.lt_iff_toInt_lt, Int32.toInt_zero, hsub]
  omega

/-- A hit takes health, and never more than there is. -/
theorem Target.suffered_hit {t : Target S} (halive : 0 < t.health) (skills : S) (damage : Int32) :
    t.Suffered ({ t with skills }.hit damage) := by
  rw [Target.hit]
  split
  · rename_i hpos
    refine ⟨rfl, rfl, rfl, rfl, rfl, rfl, rfl, fun _ => rfl, ?_, fun _ => ?_⟩
    · dsimp only
      split
      · rename_i hless
        exact Int32.le_of_lt (sub_bounds hpos hless).2
      · exact Int32.le_of_lt halive
    · dsimp only
      split
      · rename_i hless
        exact Int32.le_of_lt (sub_bounds hpos hless).1
      · exact Int32.le_refl _
  · exact ⟨rfl, rfl, rfl, rfl, rfl, rfl, rfl, id, Int32.le_refl _, id⟩

/-- What a hit does when it does anything: the player is marked, and a player who dies is a player whose health was not
enough. -/
theorem Target.hit_of_ne {t : Target S} {skills : S} {damage : Int32}
    (h : ({ t with skills }.hit damage).health ≠ t.health) :
    0 < damage ∧ ({ t with skills }.hit damage).dirty = true := by
  rw [Target.hit] at h ⊢
  split at h
  · rename_i hpos
    rw [if_pos hpos]
    exact ⟨hpos, rfl⟩
  · exact absurd rfl h

theorem Target.hit_dead {t : Target S} (halive : 0 < t.health) {skills : S} {damage : Int32}
    (h : ¬ 0 < ({ t with skills }.hit damage).health) : 0 < damage ∧ ¬ damage < t.health := by
  rw [Target.hit] at h
  split at h
  · rename_i hpos
    refine ⟨hpos, fun hless => h ?_⟩
    dsimp only
    rw [if_pos hless]
    exact (sub_bounds hpos hless).1
  · exact absurd halive h

theorem mem_pushDeath {deaths : List PlayerId} {player p : PlayerId} :
    p ∈ pushDeath deaths player ↔ p ∈ deaths ∨ p = player := by
  rw [pushDeath]
  split
  · rename_i hmem
    refine (or_iff_left_of_imp ?_).symm
    rintro rfl
    exact hmem
  · rw [List.mem_append, List.mem_singleton]

theorem nodup_pushDeath {deaths : List PlayerId} (h : deaths.Nodup) (player : PlayerId) :
    (pushDeath deaths player).Nodup := by
  rw [pushDeath]
  split
  · exact h
  · rename_i hmem
    rw [← List.concat_eq_append]
    exact h.concat hmem

theorem Target.Suffered.exposed {t t' : Target S} {gun gun' : PackView} (h : t.Suffered t')
    (horigin : gun'.origin = gun.origin) (hclan : gun'.clanId = gun.clanId)
    (hexposed : t'.exposed config now gun' = true) : t.exposed config now gun = true := by
  rw [Target.exposed] at hexposed ⊢
  rw [h.session, h.clanId, h.protectionUntil, h.pos, horigin, hclan] at hexposed
  simp only [Bool.and_eq_true, decide_eq_true_eq] at hexposed ⊢
  obtain ⟨⟨⟨⟨hsession, halive⟩, henemy⟩, hopen⟩, hnear⟩ := hexposed
  exact ⟨⟨⟨⟨hsession, Int32.lt_of_lt_of_le halive h.health_le⟩, henemy⟩, hopen⟩, hnear⟩

theorem Target.alive_of_exposed {t : Target S} {gun : PackView} (h : t.exposed config now gun = true) : 0 < t.health := by
  rw [Target.exposed] at h
  simp only [Bool.and_eq_true, decide_eq_true_eq] at h
  exact h.1.1.1.2

/-- What has become of the players and the guns by some time of a salvo. -/
structure Salvo.Fair (config : CombatConfig) (now : Nat) (s u : Salvo S) : Prop where
  target : ∀ e, Option.Rel Target.Suffered (s.targets e) (u.targets e)
  hurt : ∀ e t t', s.targets e = some t → u.targets e = some t' → t'.health ≠ t.health →
    t'.dirty = true ∧ (e, t.incarnation) ∈ u.dirtyPlayers ∧
      ∃ gun b, s.index.entities gun = some b ∧ Salvo.Loaded b ∧ t.exposed config now b.view = true
  dead : ∀ e t t', s.targets e = some t → u.targets e = some t' → 0 < t.health → ¬ 0 < t'.health →
    t.playerId ∈ u.deaths
  killed : ∀ p ∈ u.deaths, p ∈ s.deaths ∨ ∃ e t t', s.targets e = some t ∧ u.targets e = some t' ∧ t.playerId = p ∧
    0 < t.health ∧ ¬ 0 < t'.health
  deaths : s.deaths ⊆ u.deaths
  nodup : s.deaths.Nodup → u.deaths.Nodup
  building : ∀ g, Option.Rel Spent (s.index.entities g) (u.index.entities g)
  used : ∀ g b b', s.index.entities g = some b → u.index.entities g = some b' → b'.view.charge ≠ b.view.charge →
    Salvo.Loaded b ∧ g ∈ u.dirtyBuildings
  index : u.index = { s.index with entities := u.index.entities }

namespace Salvo

variable {s u : Salvo S} {player gun : EntityId} {t : Target S} {b : BuildingEntity} {view : PackView}

theorem Fair.refl (s : Salvo S) : Fair config now s s where
  target e := by
    cases s.targets e with
    | none => exact .none
    | some t => exact .some (.refl t)
  hurt _ _ _ ht ht' hne := absurd (congrArg Target.health (Option.some.inj (ht'.symm.trans ht))) hne
  dead _ _ _ ht ht' halive hdead := absurd (Option.some.inj (ht'.symm.trans ht) ▸ halive) hdead
  killed _ hp := Or.inl hp
  deaths := List.Subset.refl _
  nodup := id
  building g := by
    cases s.index.entities g with
    | none => exact .none
    | some b => exact .some (.refl b)
  used _ _ _ hb hb' hne := absurd (congrArg (fun b => b.view.charge) (Option.some.inj (hb'.symm.trans hb))) hne
  index := rfl

theorem Fair.suffered (h : Fair config now s u) {e : EntityId} {t' : Target S} (ht' : u.targets e = some t') :
    ∃ t, s.targets e = some t ∧ t.Suffered t' := by
  have hrel := h.target e
  rw [ht'] at hrel
  cases hs : s.targets e with
  | none => rw [hs] at hrel; cases hrel
  | some t =>
      rw [hs] at hrel
      cases hrel with
      | some hsuffered => exact ⟨t, rfl, hsuffered⟩

theorem Fair.spent (h : Fair config now s u) {b' : BuildingEntity} (hb' : u.index.entities gun = some b') :
    ∃ b, s.index.entities gun = some b ∧ Spent b b' := by
  have hrel := h.building gun
  rw [hb'] at hrel
  cases hs : s.index.entities gun with
  | none => rw [hs] at hrel; cases hrel
  | some b =>
      rw [hs] at hrel
      cases hrel with
      | some hspent => exact ⟨b, rfl, hspent⟩

/-- A hit keeps the books. -/
theorem Fair.hit (rules : GunRules S) (h : Fair config now s u) (hgun : s.index.entities gun = some b) (hloaded : Loaded b)
    (horigin : view.origin = b.view.origin) (hclan : view.clanId = b.view.clanId) (ht : u.targets player = some t)
    (hexposed : t.exposed config now view = true) : Fair config now s (u.hit config rules player t) := by
  have halive := Target.alive_of_exposed hexposed
  obtain ⟨t₀, ht₀, hsuffered⟩ := h.suffered ht
  have hexposed₀ := hsuffered.exposed horigin hclan hexposed
  set skills := (rules.train t.skills).1
  set damage := gunDamageAfterSkills config rules skills
  have hhit := Target.suffered_hit halive skills damage
  have hdeaths : u.deaths ⊆ (u.hit config rules player t).deaths := by
    intro p hp
    change p ∈ if 0 < damage ∧ ¬ damage < t.health then pushDeath u.deaths t.playerId else u.deaths
    split
    · exact mem_pushDeath.mpr (Or.inl hp)
    · exact hp
  have hdirty : u.dirtyPlayers ⊆ (u.hit config rules player t).dirtyPlayers := by
    intro x hx
    change x ∈ if 0 < damage then u.dirtyPlayers.insert (player, t.incarnation) else u.dirtyPlayers
    split
    · exact List.mem_insert_of_mem hx
    · exact hx
  have hself : (u.hit config rules player t).targets player = some ({ t with skills }.hit damage) :=
    Function.update_self ..
  have hother (e : EntityId) (he : e ≠ player) : (u.hit config rules player t).targets e = u.targets e :=
    Function.update_of_ne he ..
  refine ⟨fun e => ?_, fun e t₁ t₂ ht₁ ht₂ hne => ?_, fun e t₁ t₂ ht₁ ht₂ hbefore hafter => ?_, fun p hp => ?_,
    List.Subset.trans h.deaths hdeaths, fun hnodup => ?_, h.building, h.used, h.index⟩
  · by_cases he : e = player
    · subst he
      rw [hself, ht₀]
      exact .some (hsuffered.trans hhit)
    · rw [hother e he]
      exact h.target e
  · by_cases he : e = player
    · subst he
      obtain rfl := Option.some.inj (ht₁.symm.trans ht₀)
      obtain rfl := Option.some.inj (hself.symm.trans ht₂)
      by_cases hsame : ({ t with skills }.hit damage).health = t.health
      · obtain ⟨hd, hmem, hex⟩ := h.hurt e t₁ t ht₁ ht (fun heq => hne (hsame.trans heq))
        exact ⟨hhit.dirty hd, hdirty hmem, hex⟩
      · obtain ⟨hpos, hd⟩ := Target.hit_of_ne hsame
        refine ⟨hd, ?_, gun, b, hgun, hloaded, hexposed₀⟩
        change (e, t₁.incarnation) ∈ if 0 < damage then u.dirtyPlayers.insert (e, t.incarnation) else u.dirtyPlayers
        rw [if_pos hpos, hsuffered.incarnation]
        exact List.mem_insert_self
    · rw [hother e he] at ht₂
      obtain ⟨hd, hmem, hex⟩ := h.hurt e t₁ t₂ ht₁ ht₂ hne
      exact ⟨hd, hdirty hmem, hex⟩
  · by_cases he : e = player
    · subst he
      obtain rfl := Option.some.inj (ht₁.symm.trans ht₀)
      obtain rfl := Option.some.inj (hself.symm.trans ht₂)
      obtain ⟨hpos, henough⟩ := Target.hit_dead halive hafter
      change t₁.playerId ∈ if 0 < damage ∧ ¬ damage < t.health then pushDeath u.deaths t.playerId else u.deaths
      rw [if_pos ⟨hpos, henough⟩]
      exact mem_pushDeath.mpr (Or.inr hsuffered.playerId.symm)
    · rw [hother e he] at ht₂
      exact hdeaths (h.dead e t₁ t₂ ht₁ ht₂ hbefore hafter)
  · change p ∈ if 0 < damage ∧ ¬ damage < t.health then pushDeath u.deaths t.playerId else u.deaths at hp
    have hold : p ∈ u.deaths → p ∈ s.deaths ∨ ∃ e t₁ t₂, s.targets e = some t₁ ∧
        (u.hit config rules player t).targets e = some t₂ ∧ t₁.playerId = p ∧ 0 < t₁.health ∧ ¬ 0 < t₂.health := by
      intro hmem
      refine (h.killed p hmem).imp_right ?_
      rintro ⟨e, t₁, t₂, ht₁, ht₂, hid, hbefore, hafter⟩
      have he : e ≠ player := by
        rintro rfl
        exact hafter (Option.some.inj (ht.symm.trans ht₂) ▸ halive)
      exact ⟨e, t₁, t₂, ht₁, (hother e he).trans ht₂, hid, hbefore, hafter⟩
    split at hp
    · rename_i hkill
      rcases mem_pushDeath.mp hp with hmem | hid
      · exact hold hmem
      · refine Or.inr ⟨player, t₀, _, ht₀, hself, hsuffered.playerId.symm.trans hid.symm,
          Target.alive_of_exposed hexposed₀, ?_⟩
        rw [Target.hit, if_pos hkill.1]
        dsimp only
        rw [if_neg hkill.2]
        decide
    · exact hold hp
  · change (if 0 < damage ∧ ¬ damage < t.health then pushDeath u.deaths t.playerId else u.deaths).Nodup
    split
    · exact nodup_pushDeath (h.nodup hnodup) _
    · exact h.nodup hnodup

/-- A gun whose charge is lowered keeps the books. -/
theorem Fair.setCharge (h : Fair config now s u) (hgun : s.index.entities gun = some b) (hloaded : Loaded b)
    {b' : BuildingEntity} (hb' : u.index.entities gun = some b') {charge : Int32} (hle : charge ≤ b'.view.charge)
    (hpos : 0 ≤ charge) (resends : List WorldPos) :
    Fair config now s { u with
      index := u.index.setEntity gun (some { b' with view := { b'.view with charge := charge } })
      dirtyBuildings := u.dirtyBuildings.insert gun
      resends := resends } := by
  have hself : (u.index.setEntity gun (some { b' with view := { b'.view with charge := charge } })).entities gun =
      some { b' with view := { b'.view with charge := charge } } := Function.update_self ..
  have hother (g : EntityId) (hg : g ≠ gun) :
      (u.index.setEntity gun (some { b' with view := { b'.view with charge := charge } })).entities g =
        u.index.entities g := Function.update_of_ne hg ..
  obtain ⟨b₀, hb₀, hspent⟩ := h.spent hb'
  obtain rfl := Option.some.inj (hb₀.symm.trans hgun)
  refine ⟨h.target, h.hurt, h.dead, h.killed, h.deaths, h.nodup, fun g => ?_, fun g b₁ b₂ hb₁ hb₂ hne => ?_, ?_⟩
  · dsimp only
    by_cases hg : g = gun
    · subst hg
      rw [hself, hb₀]
      exact .some (hspent.trans ⟨rfl, hle, fun _ => hpos⟩)
    · rw [hother g hg]
      exact h.building g
  · dsimp only at hb₂ ⊢
    by_cases hg : g = gun
    · subst hg
      exact ⟨Option.some.inj (hb₁.symm.trans hb₀) ▸ hloaded, List.mem_insert_self⟩
    · rw [hother g hg] at hb₂
      obtain ⟨hl, hmem⟩ := h.used g b₁ b₂ hb₁ hb₂ hne
      exact ⟨hl, List.mem_insert_of_mem hmem⟩
  · dsimp only [BuildingIndex.setEntity]
    rw [h.index]

theorem Fair.spend (h : Fair config now s u) (hgun : s.index.entities gun = some b) (hloaded : Loaded b)
    (cost : Int32) : Fair config now s (u.spend gun cost) := by
  rw [Salvo.spend]
  split
  · exact h
  · rename_i b' hb'
    split
    · exact h
    · rename_i hcost
      rw [Int32.not_le] at hcost
      split
      · rename_i hless
        obtain ⟨hpos, hlt⟩ := sub_bounds hcost hless
        exact h.setCharge hgun hloaded hb' (Int32.le_of_lt hlt) (Int32.le_of_lt hpos) u.resends
      · split
        · rename_i hleft
          exact h.setCharge hgun hloaded hb' (Int32.le_of_lt hleft) (Int32.le_refl _) _
        · exact h

theorem Fair.fireAt (h : Fair config now s u) (hgun : s.index.entities gun = some b) (hloaded : Loaded b)
    (horigin : view.origin = b.view.origin) (hclan : view.clanId = b.view.clanId) (player : EntityId) :
    Fair config now s (u.fireAt config rules now gun view player) := by
  rw [Salvo.fireAt]
  split
  · exact h
  · rename_i t ht
    split
    · rename_i hexposed
      have hspent := (h.hit rules hgun hloaded horigin hclan ht hexposed).spend hgun hloaded
        (rules.chargeCost (u.hit config rules player t).rolls (rules.train t.skills).1)
      exact ⟨hspent.target, hspent.hurt, hspent.dead, hspent.killed, hspent.deaths, hspent.nodup, hspent.building,
        hspent.used, hspent.index⟩
    · exact h

theorem Fair.fireGun (h : Fair config now s u) (players : List EntityId) (gun : EntityId) :
    Fair config now s (u.fireGun config rules now players gun) := by
  rw [Salvo.fireGun]
  split
  · exact h
  · rename_i b' hb'
    split
    · rename_i hloaded'
      obtain ⟨b, hb, hspent⟩ := h.spent hb'
      have hview : b'.view.origin = b.view.origin ∧ b'.view.clanId = b.view.clanId ∧ b'.pending = b.pending ∧
          b'.view.packType = b.view.packType := by
        rw [hspent.same]
        exact ⟨rfl, rfl, rfl, rfl⟩
      have hloaded : Loaded b :=
        ⟨hview.2.2.1 ▸ hloaded'.1, hview.2.2.2 ▸ hloaded'.2.1, Int32.lt_of_lt_of_le hloaded'.2.2 hspent.charge_le⟩
      exact List.foldlRecOn (motive := fun v => Fair config now s v) players _ h fun v hv player _ =>
        hv.fireAt hb hloaded hview.1 hview.2.1 player
    · exact h

/-- A salvo is fair: only exposed players lose health and nobody has less than none, the dead are in the queue once, and
only loaded guns lose charge. -/
theorem fair_fireGuns (players guns : List EntityId) (s : Salvo S) :
    Fair config now s (s.fireGuns config rules now players guns) :=
  List.foldlRecOn (motive := fun v => Fair config now s v) guns _ (.refl s) fun _ hv gun _ => hv.fireGun players gun

end Salvo

end OpenMines.Guns
