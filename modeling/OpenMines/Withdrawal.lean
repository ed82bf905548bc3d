import OpenMines.PackAccess

namespace OpenMines

open Lib.Run Lib.Text

/-- Money or crystals leave a storage. -/
def BuildingStorage.Leaves (before after : BuildingStorage) : Prop :=
  after.money < before.money ∨ ∃ i, after.crystals i < before.crystals i

namespace GuiState

variable (cells : BuildingCells) (price : Fin 6 → Int) (s : GuiState)

def Admitted (player : PlayerId) (view : PackView) : Prop :=
  ∃ p ∈ s.players player, ∃ stats ∈ p.stats,
    validatePackAccess cells view p.pos (stats.clanId.getD 0) player = .ok ()

def StandsOn (player : PlayerId) (view : PackView) : Prop :=
  ∃ p ∈ s.players player, ∃ offsets ∈ cells view.packType, view.hasCell offsets p.pos = true

/-- What leaves a storage leaves it for a player who is admitted to the building. -/
def OnlyAdmitted (player : PlayerId) (t : GuiState) : Prop :=
  ∀ c, ∀ b ∈ s.buildings c, ∀ b' ∈ t.buildings c, ∀ storage ∈ b.storage, ∀ storage' ∈ b'.storage,
    storage.Leaves storage' → s.Admitted cells player b.view

def Authorised : GuiEvent → Prop
  | .button player button accepted effect =>
    ∀ t ∈ s.step cells price (.button player button accepted effect), s.OnlyAdmitted cells player t
  | .world _ => True

/-- The owner takes the profit where he stands on the building. -/
def ProfitOnSite (player : PlayerId) (c : WorldPos) (b : Building) : Prop :=
  b.deletePending = false → b.view.ownerId = player → s.withdrawStateReady player c = true →
    ∀ storage ∈ b.storage, 0 < storage.money → s.StandsOn cells player b.view

/-- The buttons that do not check the access are pressed where there is nothing to take, or by a
player who has it. -/
def Guarded : GuiEvent → Prop
  | .button player button accepted _ => accepted = true →
    match guiAction button with
    | .takeMoney coordinates =>
      ∀ c ∈ parseCoordinates coordinates, s.withdrawStateReady player c = true → ∀ b ∈ s.buildings c,
        ∀ storage ∈ b.storage, 0 < storage.money → s.Admitted cells player b.view
    | .takeCrystals coordinates =>
      ∀ c ∈ parseCoordinates coordinates, s.withdrawStateReady player c = true → ∀ b ∈ s.buildings c,
        ∀ storage ∈ b.storage, (∃ i, 0 < storage.crystals i) → s.Admitted cells player b.view
    | .getProfit =>
      ∀ c ∈ s.resolveMarketWindow player, ∀ b ∈ s.buildings c, b.view.packType = .market →
        s.ProfitOnSite cells player c b
    | .respProfit rest =>
      ∀ c ∈ parsePair (splitOn rest ':'), ∀ b ∈ s.buildings c, s.ProfitOnSite cells player c b
    | _ => True
  | .world _ => True

variable {cells price s} {t : GuiState} {player : PlayerId} {c : WorldPos} {b : Building} {storage : BuildingStorage}

section Storages

theorem not_leaves_self : ¬ storage.Leaves storage := by
  rintro (h | ⟨i, h⟩)
  · exact lt_irrefl _ h
  · exact lt_irrefl _ h

theorem leaves_taken_money : storage.Leaves (taken storage false) ↔ 0 < storage.money := by
  simp [BuildingStorage.Leaves, taken]

theorem leaves_taken_crystals : storage.Leaves (taken storage true) ↔ ∃ i, 0 < storage.crystals i := by
  simp [BuildingStorage.Leaves, taken]

/-- Nobody has to be admitted where every storage keeps what it has. -/
theorem onlyAdmitted_of_kept (h : ∀ c, ∀ b ∈ s.buildings c, ∀ b' ∈ t.buildings c, b'.storage = b.storage) :
    s.OnlyAdmitted cells player t := by
  intro c b hb b' hb' storage hstorage storage' hstorage' hleaves
  rw [h c b hb b' hb', hstorage] at hstorage'
  cases hstorage'
  exact absurd hleaves not_leaves_self

theorem onlyAdmitted_self : s.OnlyAdmitted cells player s := by
  refine onlyAdmitted_of_kept fun c b hb b' hb' => ?_
  rw [hb] at hb'
  cases hb'
  rfl

theorem onlyAdmitted_setStorage (hb : s.buildings c = some b) (hstorage : b.storage = some storage)
    (storage' : BuildingStorage) (p : GuiPlayer) :
    s.OnlyAdmitted cells player ((s.setStorage c b storage').setPlayer player p) ↔
      (storage.Leaves storage' → s.Admitted cells player b.view) := by
  constructor
  · intro h hleaves
    exact h c b hb { b with storage := some storage' } (Function.update_self ..) storage hstorage storage' rfl hleaves
  · intro h d b₁ hb₁ b₂ hb₂ storage₁ hstorage₁ storage₂ hstorage₂ hleaves
    by_cases hd : d = c
    · subst hd
      rw [hb] at hb₁
      cases hb₁
      rw [hstorage] at hstorage₁
      cases hstorage₁
      have hafter : ((s.setStorage d b storage').setPlayer player p).buildings d =
          some { b with storage := some storage' } := Function.update_self ..
      rw [hafter] at hb₂
      cases hb₂
      cases hstorage₂
      exact h hleaves
    · have hsame : s.buildings d = some b₂ := (Function.update_of_ne hd ..).symm.trans hb₂
      rw [hb₁] at hsame
      cases hsame
      rw [hstorage₁] at hstorage₂
      cases hstorage₂
      exact absurd hleaves not_leaves_self

end Storages

section Access

theorem validatePackAccess_iff {view : PackView} {pos : WorldPos} {clan : Int32} :
    validatePackAccess cells view pos clan player = .ok () ↔
      (∃ offsets ∈ cells view.packType, view.hasCell offsets pos = true) ∧
        (view.ownerId = player ∨ view.clanId ≠ 0 ∧ view.clanId = clan) := by
  unfold validatePackAccess
  cases hcells : cells view.packType with
  | none => simp
  | some offsets => by_cases hcell : view.hasCell offsets pos = true <;> simp [hcell, or_iff_not_imp_left]

/-- The owner is admitted just where he stands on the building. -/
theorem admitted_owner_iff {view : PackView} (howner : view.ownerId = player) (hready : s.playerReady player = true) :
    s.Admitted cells player view ↔ s.StandsOn cells player view := by
  constructor
  · rintro ⟨p, hp, stats, hstats, haccess⟩
    exact ⟨p, hp, (validatePackAccess_iff.mp haccess).1⟩
  · rintro ⟨p, hp, hcell⟩
    unfold playerReady at hready
    rw [hp, Option.any_some, Bool.and_eq_true] at hready
    obtain ⟨stats, hstats⟩ := Option.isSome_iff_exists.mp hready.1
    exact ⟨p, hp, stats, hstats, validatePackAccess_iff.mpr ⟨hcell, .inl howner⟩⟩

end Access

section Handlers

theorem withdrawStateReady_iff : s.withdrawStateReady player c = true ↔
    (∃ p ∈ s.players player, p.stats.isSome ∧ p.hasFlags = true) ∧
      ∃ b ∈ s.buildings c, b.storage.isSome ∧ b.hasFlags = true := by
  simp [withdrawStateReady, playerReady, Option.any_eq_true]

theorem applyPackWithdrawal_eq_some {coordinates : String} {crystals : Bool} :
    s.applyPackWithdrawal player coordinates crystals = some t ↔
      ∃ c ∈ parseCoordinates coordinates, s.withdrawStateReady player c = true ∧
        ∃ p ∈ s.players player, ∃ b ∈ s.buildings c, ∃ storage ∈ b.storage, ∃ stats ∈ p.stats,
          (s.setStorage c b (taken storage crystals)).setPlayer player
            { p with stats := some (credited stats storage crystals) } = t := by
  simp only [applyPackWithdrawal, Option.bind_eq_bind, Option.bind_eq_some_iff, Option.guard_eq_some', exists_const,
    Option.some.injEq, Option.mem_def]

theorem transfer_eq_some {payload : String} (h : s.transfer cells player payload = some t) :
    ∃ c, ∃ b ∈ s.buildings c, ∃ storage ∈ b.storage, ∃ storage' p, s.Admitted cells player b.view ∧
      (s.setStorage c b storage').setPlayer player p = t := by
  simp only [transfer, Option.bind_eq_bind, Option.bind_eq_some_iff, Option.guard_eq_some', exists_const,
    Option.some.injEq] at h
  obtain ⟨requested, -, c, -, view, hview, -, p, hp, stats, hstats, haccess, -, b, hb, storage, hstorage, -, rfl⟩ := h
  obtain ⟨b', hb', hview⟩ := Option.bind_eq_some_iff.mp hview
  rw [hb] at hb'
  cases hb'
  split at hview
  · cases hview
  · cases hview
    exact ⟨c, b, hb, storage, hstorage, _, _, ⟨p, hp, stats, hstats, haccess⟩, rfl⟩

theorem getPackAt_eq_some {view : PackView} :
    s.getPackAt c = some view ↔ ∃ b ∈ s.buildings c, b.deletePending = false ∧ b.view = view := by
  simp only [getPackAt, Option.bind_eq_some_iff, Option.mem_def]
  refine exists_congr fun b => and_congr_right fun _ => ?_
  cases b.deletePending <;> simp

theorem marketGetProfit_eq_some (h : s.marketGetProfit player c = some t) :
    ∃ b ∈ s.buildings c, ∃ storage ∈ b.storage, ∃ p,
      (b.deletePending = false ∧ b.view.packType = .market ∧ b.view.ownerId = player ∧
        s.withdrawStateReady player c = true) ∧
      (s.setStorage c b (taken storage false)).setPlayer player p = t := by
  simp only [marketGetProfit, Option.bind_eq_bind, Option.bind_eq_some_iff, Option.guard_eq_some', exists_const,
    Option.some.injEq] at h
  obtain ⟨view, hview, ⟨hmarket, howner⟩, hready, b, hb, hflags, storage, hstorage, p, hp, stats, hstats, rfl⟩ := h
  obtain ⟨b', hb', hpending, rfl⟩ := getPackAt_eq_some.mp hview
  rw [Option.mem_def, hb] at hb'
  cases hb'
  refine ⟨b, hb, storage, hstorage, _, ⟨hpending, hmarket, howner, ?_⟩, rfl⟩
  rw [withdrawStateReady, hready, hb]
  simp [hstorage, hflags]

theorem marketGetProfit_isSome (hb : s.buildings c = some b) (hpending : b.deletePending = false)
    (hmarket : b.view.packType = .market) (howner : b.view.ownerId = player)
    (hready : s.withdrawStateReady player c = true) : (s.marketGetProfit player c).isSome := by
  have hplayer : s.playerReady player = true := by
    rw [withdrawStateReady, Bool.and_eq_true] at hready
    exact hready.1
  obtain ⟨⟨p, hp, hstats, -⟩, b', hb', hstorage, hflags⟩ := withdrawStateReady_iff.mp hready
  rw [Option.mem_def, hb] at hb'
  cases hb'
  obtain ⟨stats, hstats⟩ := Option.isSome_iff_exists.mp hstats
  obtain ⟨storage, hstorage⟩ := Option.isSome_iff_exists.mp hstorage
  refine Option.isSome_iff_exists.mpr ⟨(s.setStorage c b (taken storage false)).setPlayer player
    { p with stats := some (credited stats storage false) }, ?_⟩
  simp only [marketGetProfit, Option.bind_eq_bind, Option.bind_eq_some_iff, Option.guard_eq_some', exists_const]
  exact ⟨b.view, getPackAt_eq_some.mpr ⟨b, hb, hpending, rfl⟩, ⟨hmarket, howner⟩, hplayer, b, hb, hflags,
    storage, hstorage, p, hp, stats, hstats, rfl⟩

theorem respProfit_eq_some (h : s.respProfit player c = some t) :
    ∃ b ∈ s.buildings c, ∃ storage ∈ b.storage, ∃ p,
      (b.deletePending = false ∧ b.view.ownerId = player ∧ s.withdrawStateReady player c = true) ∧
      (s.setStorage c b (taken storage false)).setPlayer player p = t := by
  simp only [respProfit, Option.bind_eq_bind, Option.bind_eq_some_iff, Option.guard_eq_some', exists_const,
    Option.some.injEq] at h
  obtain ⟨view, hview, howner, hready, b, hb, storage, hstorage, p, hp, stats, hstats, rfl⟩ := h
  obtain ⟨b', hb', hpending, rfl⟩ := getPackAt_eq_some.mp hview
  rw [Option.mem_def, hb] at hb'
  cases hb'
  exact ⟨b, hb, storage, hstorage, _, ⟨hpending, howner, hready⟩, rfl⟩

theorem respProfit_isSome (hb : s.buildings c = some b) (hpending : b.deletePending = false)
    (howner : b.view.ownerId = player) (hready : s.withdrawStateReady player c = true) :
    (s.respProfit player c).isSome := by
  obtain ⟨⟨p, hp, hstats, -⟩, b', hb', hstorage, -⟩ := withdrawStateReady_iff.mp hready
  rw [Option.mem_def, hb] at hb'
  cases hb'
  obtain ⟨stats, hstats⟩ := Option.isSome_iff_exists.mp hstats
  obtain ⟨storage, hstorage⟩ := Option.isSome_iff_exists.mp hstorage
  refine Option.isSome_iff_exists.mpr ⟨(s.setStorage c b (taken storage false)).setPlayer player
    { p with stats := some { stats with money := saturatingAdd stats.money storage.money } }, ?_⟩
  simp only [respProfit, Option.bind_eq_bind, Option.bind_eq_some_iff, Option.guard_eq_some', exists_const]
  exact ⟨b.view, getPackAt_eq_some.mpr ⟨b, hb, hpending, rfl⟩, howner, hready, b, hb, storage, hstorage, p, hp,
    stats, hstats, rfl⟩

theorem onlyAdmitted_withdrawal {coordinates : String} {crystals : Bool} :
    s.OnlyAdmitted cells player ((s.applyPackWithdrawal player coordinates crystals).getD s) ↔
      ∀ c ∈ parseCoordinates coordinates, s.withdrawStateReady player c = true → ∀ b ∈ s.buildings c,
        ∀ storage ∈ b.storage, storage.Leaves (taken storage crystals) → s.Admitted cells player b.view := by
  constructor
  · intro h c hc hready b hb storage hstorage
    obtain ⟨⟨p, hp, hstats, -⟩, -⟩ := withdrawStateReady_iff.mp hready
    obtain ⟨stats, hstats⟩ := Option.isSome_iff_exists.mp hstats
    rw [applyPackWithdrawal_eq_some.mpr ⟨c, hc, hready, p, hp, b, hb, storage, hstorage, stats, hstats, rfl⟩,
      Option.getD_some, onlyAdmitted_setStorage hb hstorage] at h
    exact h
  · intro h
    cases hstep : s.applyPackWithdrawal player coordinates crystals with
    | none => exact onlyAdmitted_self
    | some t =>
        obtain ⟨c, hc, hready, p, -, b, hb, storage, hstorage, stats, -, rfl⟩ := applyPackWithdrawal_eq_some.mp hstep
        exact (onlyAdmitted_setStorage hb hstorage _ _).mpr (h c hc hready b hb storage hstorage)

/-- What a profit handler does where the owner of a building is the one who presses the button. -/
theorem onlyAdmitted_profit {P : Building → Prop} {result : Option GuiState}
    (hsome : ∀ t, result = some t → ∃ b ∈ s.buildings c, ∃ storage ∈ b.storage, ∃ p,
      (b.deletePending = false ∧ P b ∧ b.view.ownerId = player ∧ s.withdrawStateReady player c = true) ∧
      (s.setStorage c b (taken storage false)).setPlayer player p = t)
    (hdefined : ∀ b ∈ s.buildings c, b.deletePending = false → P b → b.view.ownerId = player →
      s.withdrawStateReady player c = true → result.isSome) :
    s.OnlyAdmitted cells player (result.getD s) ↔ ∀ b ∈ s.buildings c, P b → s.ProfitOnSite cells player c b := by
  constructor
  · intro h b hb hP hpending howner hready storage hstorage hmoney
    obtain ⟨t, ht⟩ := Option.isSome_iff_exists.mp (hdefined b hb hpending hP howner hready)
    obtain ⟨b', hb', storage', hstorage', p, -, rfl⟩ := hsome t ht
    rw [Option.mem_def] at hb hb' hstorage hstorage'
    rw [hb] at hb'
    cases hb'
    rw [hstorage] at hstorage'
    cases hstorage'
    rw [ht, Option.getD_some, onlyAdmitted_setStorage hb hstorage] at h
    rw [withdrawStateReady, Bool.and_eq_true] at hready
    exact (admitted_owner_iff howner hready.1).mp (h (leaves_taken_money.mpr hmoney))
  · intro h
    cases hstep : result with
    | none => exact onlyAdmitted_self
    | some t =>
        obtain ⟨b, hb, storage, hstorage, p, ⟨hpending, hP, howner, hready⟩, rfl⟩ := hsome t hstep
        refine (onlyAdmitted_setStorage hb hstorage _ _).mpr fun hleaves => ?_
        have hon := h b hb hP hpending howner hready storage hstorage (leaves_taken_money.mp hleaves)
        rw [withdrawStateReady, Bool.and_eq_true] at hready
        exact (admitted_owner_iff howner hready.1).mpr hon

theorem onlyAdmitted_addProfit {p : GuiPlayer} {earned : Int} (hearned : 0 < earned) :
    s.OnlyAdmitted cells player ((s.setPlayer player p).addProfit c earned) := by
  unfold addProfit
  split
  · rename_i b hb
    split
    · rename_i storage hstorage
      have hb : s.buildings c = some b := hb
      refine (onlyAdmitted_setStorage hb hstorage _ p).mpr fun hleaves => ?_
      rcases hleaves with hmoney | ⟨i, hcrystals⟩
      · dsimp only at hmoney
        omega
      · exact absurd hcrystals (lt_irrefl _)
    · exact onlyAdmitted_self
  · exact onlyAdmitted_self

theorem sellCrystals_pos {sliders : Crystals} {p : GuiPlayer} {earned : Int}
    (h : s.sellCrystals price player sliders = some (p, earned)) : 0 < earned := by
  simp only [sellCrystals, Option.bind_eq_bind, Option.bind_eq_some_iff, Option.guard_eq_some', exists_const,
    Option.some.injEq, Prod.mk.injEq] at h
  obtain ⟨_, -, -, _, -, hpos, -, rfl⟩ := h
  exact hpos

theorem onlyAdmitted_marketSell {sliders : Crystals} (h : s.marketSell price player sliders c = some t) :
    s.OnlyAdmitted cells player t := by
  simp only [marketSell, Option.bind_eq_bind, Option.bind_eq_some_iff, Option.guard_eq_some', exists_const,
    Option.some.injEq] at h
  obtain ⟨_, -, -, ⟨p, earned⟩, hsell, rfl⟩ := h
  exact onlyAdmitted_addProfit (sellCrystals_pos hsell)

theorem onlyAdmitted_marketSellAll (h : s.marketSellAll price player c = some t) :
    s.OnlyAdmitted cells player t := by
  simp only [marketSellAll, Option.bind_eq_bind, Option.bind_eq_some_iff, Option.some.injEq] at h
  obtain ⟨_, -, _, -, _, -, ⟨p, earned⟩, hsell, rfl⟩ := h
  exact onlyAdmitted_addProfit (sellCrystals_pos hsell)

theorem onlyAdmitted_transfer {payload : String} (h : s.transfer cells player payload = some t) :
    s.OnlyAdmitted cells player t := by
  obtain ⟨c, b, hb, storage, hstorage, storage', p, hadmitted, rfl⟩ := transfer_eq_some h
  exact (onlyAdmitted_setStorage hb hstorage _ _).mpr fun _ => hadmitted

theorem onlyAdmitted_other {effect : OtherEffect} : s.OnlyAdmitted cells player (s.applyOther effect) := by
  refine onlyAdmitted_of_kept fun c b hb b' hb' => ?_
  obtain ⟨b₁, hb₁, rfl⟩ := Option.map_eq_some_iff.mp hb'
  rw [Option.mem_def, hb₁] at hb
  cases hb
  rfl

end Handlers

/-- A handler that changes nothing, or admits the player before. -/
theorem onlyAdmitted_getD {result : Option GuiState} (h : ∀ t, result = some t → s.OnlyAdmitted cells player t) :
    s.OnlyAdmitted cells player (result.getD s) := by
  cases hresult : result with
  | none => exact onlyAdmitted_self
  | some t => exact h t hresult

theorem onlyAdmitted_bind {place : Option WorldPos} {handler : WorldPos → Option GuiState} {Q : WorldPos → Prop}
    (h : ∀ c, s.OnlyAdmitted cells player ((handler c).getD s) ↔ Q c) :
    s.OnlyAdmitted cells player ((place.bind handler).getD s) ↔ ∀ c ∈ place, Q c := by
  cases place with
  | none => exact iff_of_true onlyAdmitted_self (fun c hc => by cases hc)
  | some c => simp [h c]

theorem authorised_iff_guarded (s : GuiState) (e : GuiEvent) :
    s.Authorised cells price e ↔ s.Guarded cells e := by
  cases e with
  | world next => exact Iff.rfl
  | button player button accepted effect =>
      cases accepted with
      | false =>
          refine iff_of_true (fun t ht => ?_) (fun h => by cases h)
          cases ht
          exact onlyAdmitted_self
      | true =>
          have hstep : s.Authorised cells price (.button player button true effect) ↔
              s.OnlyAdmitted cells player ((s.applyGuiButton cells price player button effect).getD s) := by
            simp [Authorised, step]
          rw [hstep]
          simp only [Guarded, applyGuiButton, forall_const]
          cases guiAction button with
          | transfer payload => exact iff_of_true (onlyAdmitted_getD fun t ht => onlyAdmitted_transfer ht) trivial
          | takeMoney coordinates =>
              refine onlyAdmitted_withdrawal.trans ?_
              simp only [leaves_taken_money]
          | takeCrystals coordinates =>
              refine onlyAdmitted_withdrawal.trans ?_
              simp only [leaves_taken_crystals]
          | sell sliders =>
              refine iff_of_true (onlyAdmitted_getD fun t ht => ?_) trivial
              simp only [Option.bind_eq_bind, Option.bind_eq_some_iff] at ht
              obtain ⟨c, -, sliders, -, ht⟩ := ht
              exact onlyAdmitted_marketSell ht
          | sellAll =>
              refine iff_of_true (onlyAdmitted_getD fun t ht => ?_) trivial
              obtain ⟨c, -, ht⟩ := Option.bind_eq_some_iff.mp ht
              exact onlyAdmitted_marketSellAll ht
          | getProfit =>
              refine onlyAdmitted_bind fun c => onlyAdmitted_profit (fun t ht => marketGetProfit_eq_some ht) ?_
              intro b hb hpending hmarket howner hready
              exact marketGetProfit_isSome hb hpending hmarket howner hready
          | respProfit rest =>
              refine onlyAdmitted_bind fun c => ?_
              have hprofit : s.OnlyAdmitted cells player ((s.respProfit player c).getD s) ↔
                  ∀ b ∈ s.buildings c, True → s.ProfitOnSite cells player c b := by
                refine onlyAdmitted_profit (fun t ht => by simpa using respProfit_eq_some ht) ?_
                intro b hb hpending _ howner hready
                exact respProfit_isSome hb hpending howner hready
              simpa using hprofit
          | other => exact iff_of_true onlyAdmitted_other trivial

/-- In every run, every button takes from storages for admitted players just where every button is
guarded. -/
theorem authorised_run_iff (cells : BuildingCells) (price : Fin 6 → Int) (s : GuiState) (es : List GuiEvent) :
    Meets (step cells price) (Authorised cells price) s es ↔ Meets (step cells price) (Guarded cells) s es :=
  meets_congr authorised_iff_guarded s es

def teleportCells : BuildingCells := fun packType =>
  if packType = .teleport then
    some [((0, 0), 37), ((0, 1), 37), ((1, 0), 106), ((1, -1), 106), ((1, 1), 106), ((-1, -1), 106),
      ((-1, 1), 106), ((0, -1), 106), ((-1, 0), 106)]
  else none

/-- A teleport of player 1 with money in it, and two players who are far away. -/
def farAway : GuiState where
  players := fun player =>
    if player = 1 ∨ player = 2 then some ⟨(500, 500), some ⟨0, fun _ => 0, none⟩, true, none⟩ else none
  buildings := fun c =>
    if c = (10, 10) then
      some ⟨⟨5, .teleport, 10, 10, 1, 0, 0, 10000, 1000, 1000⟩, false, some ⟨777, fun _ => 0⟩, true⟩
    else none

theorem not_admitted_farAway (player : PlayerId) (b : Building) (hb : b ∈ farAway.buildings (10, 10)) :
    ¬ farAway.StandsOn teleportCells player b.view := by
  rintro ⟨p, hp, offsets, hoffsets, hcell⟩
  have hpos : p.pos = (500, 500) := by
    simp only [farAway, Option.mem_def] at hp
    split at hp
    · cases hp
      rfl
    · cases hp
  cases hb
  cases hoffsets
  rw [hpos] at hcell
  exact absurd hcell (by decide)

/-- A stranger takes the money, and the owner takes it as profit, from far away. -/
theorem taken_from_farAway :
    ¬ farAway.Authorised teleportCells (fun _ => 10)
        (.button 2 "pack_op:take_money:10:10" true ⟨farAway.players, fun _ b => b⟩) ∧
      ¬ farAway.Authorised teleportCells (fun _ => 10)
        (.button 1 "resp_profit:10:10" true ⟨farAway.players, fun _ b => b⟩) := by
  constructor
  · intro h
    have hguard := (authorised_iff_guarded _ _).mp h rfl
    have haction : guiAction "pack_op:take_money:10:10" = .takeMoney "10:10" := by decide
    rw [haction] at hguard
    obtain ⟨p, hp, stats, hstats, haccess⟩ := hguard (10, 10) (by decide) (by decide) _ rfl _ rfl
      (by decide)
    exact not_admitted_farAway 2 _ rfl ⟨p, hp, (validatePackAccess_iff.mp haccess).1⟩
  · intro h
    have hguard := (authorised_iff_guarded _ _).mp h rfl
    have haction : guiAction "resp_profit:10:10" = .respProfit "10:10" := by decide
    rw [haction] at hguard
    exact not_admitted_farAway 1 _ rfl (hguard (10, 10) (by decide) _ rfl rfl rfl (by decide) _ rfl
      (by decide))

end GuiState

end OpenMines
