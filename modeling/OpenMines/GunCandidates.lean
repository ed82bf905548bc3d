import Mathlib.Algebra.Order.BigOperators.Group.List
import Mathlib.Data.Int.Lemmas
import OpenMines.GunFire

namespace OpenMines.Guns

variable {S : Type} {config : CombatConfig} {rules : GunRules S} {now : Nat}

/-! ### Going through all guns and through the candidates -/

section Folds

variable {A B : Type} {f : B → A → B}

theorem foldl_eq_self {l : List A} {b : B} (h : ∀ a ∈ l, f b a = b) : l.foldl f b = b := by
  induction l with
  | nil => rfl
  | cons a l ih =>
      rw [List.foldl_cons, h a List.mem_cons_self]
      exact ih fun a' ha' => h a' (List.mem_cons_of_mem _ ha')

/-- What changes nothing can be left out. -/
theorem foldl_filter_of_skips {P : B → Prop} {keep : A → Bool} (hstep : ∀ b a, P b → P (f b a))
    {l : List A} (hskip : ∀ b, P b → ∀ a ∈ l, keep a = false → f b a = b) {b : B} (hb : P b) :
    (l.filter keep).foldl f b = l.foldl f b := by
  induction l generalizing b with
  | nil => rfl
  | cons a l ih =>
      have hrest := fun b hb a' ha' => hskip b hb a' (List.mem_cons_of_mem a ha')
      rw [List.filter_cons]
      split
      · exact ih hrest (hstep b a hb)
      · rename_i hkeep
        rw [List.foldl_cons, hskip b hb a List.mem_cons_self (Bool.not_eq_true _ ▸ hkeep)]
        exact ih hrest hb

theorem sort_filter (F : Finset EntityId) (keep : EntityId → Bool) :
    (F.filter fun e => keep e = true).sort (· ≤ ·) = (F.sort (· ≤ ·)).filter keep := by
  refine List.Perm.eq_of_pairwise' (r := (· ≤ ·)) (Finset.pairwise_sort ..)
    ((Finset.pairwise_sort ..).sublist List.filter_sublist) ?_
  refine (List.perm_ext_iff_of_nodup (Finset.sort_nodup ..) ((Finset.sort_nodup ..).filter _)).mpr fun e => ?_
  rw [Finset.mem_sort, Finset.mem_filter, List.mem_filter, Finset.mem_sort]

end Folds

theorem mem_gunCandidateChunks {c c' : ChunkPos} : c' ∈ gunCandidateChunks c ↔
    (c.1 ≤ c'.1 + 1 ∧ c'.1 ≤ c.1 + 1) ∧ c.2 ≤ c'.2 + 1 ∧ c'.2 ≤ c.2 + 1 := by
  simp only [gunCandidateChunks, List.mem_flatMap, List.mem_map, List.mem_range'_1]
  constructor
  · rintro ⟨y, hy, x, hx, rfl⟩
    dsimp only
    omega
  · rintro ⟨⟨hx, hx'⟩, hy, hy'⟩
    exact ⟨c'.2, by omega, c'.1, by omega, rfl⟩

/-- A gun reaches no farther than its radius. -/
theorem near_of_inside {player gun : WorldPos} {radius : Int32} (h : insideGunRadius player gun radius = true) :
    (player.1.toInt - gun.1.toInt).natAbs ≤ radius.toInt.natAbs ∧
      (player.2.toInt - gun.2.toInt).natAbs ≤ radius.toInt.natAbs := by
  rw [insideGunRadius, decide_eq_true_eq, ← sq, ← sq, ← sq] at h
  constructor
  · exact Int.natAbs_le_iff_sq_le.mpr (le_trans (le_add_of_nonneg_right (sq_nonneg _)) h)
  · exact Int.natAbs_le_iff_sq_le.mpr (le_trans (le_add_of_nonneg_left (sq_nonneg _)) h)

/-- The chunk of a gun is beside that of a player whom it reaches. -/
theorem chunk_candidate {player gun : WorldPos} {radius : Int32} (hradius : radius.toInt.natAbs ≤ 32)
    (hgun : 0 ≤ gun.1.toInt ∧ 0 ≤ gun.2.toInt) (h : insideGunRadius player gun radius = true) :
    chunkPos gun ∈ gunCandidateChunks (chunkPos player) := by
  obtain ⟨hx, hy⟩ := near_of_inside h
  rw [mem_gunCandidateChunks]
  simp only [chunkPos, chunkSize_toNat]
  omega

namespace Salvo

variable {s u : Salvo S} {players : List EntityId} {gun : EntityId}

/-- A gun that reaches none of the players does nothing. -/
theorem fireGun_of_far (h : Fair config now s u) (hfar : ∀ b, s.index.entities gun = some b → ∀ player ∈ players,
    ∀ t, s.targets player = some t → insideGunRadius t.pos b.view.origin config.gunRadiusCells = false) :
    u.fireGun config rules now players gun = u := by
  rw [fireGun]
  split
  · rfl
  · rename_i b' hb'
    split
    · obtain ⟨b, hb, hspent⟩ := h.spent hb'
      refine foldl_eq_self fun player hplayer => ?_
      rw [fireAt]
      split
      · rfl
      · rename_i t' ht'
        obtain ⟨t, ht, hsuffered⟩ := h.suffered ht'
        refine if_neg fun hexposed => ?_
        have horigin : b'.view.origin = b.view.origin := by rw [hspent.same]; rfl
        rw [Target.exposed, hsuffered.pos, horigin, hfar b hb player hplayer t ht, Bool.and_false] at hexposed
        cases hexposed
    · rfl

end Salvo

theorem nodup_batch (active : Finset EntityId) (s : Salvo S) :
    (fillGunCandidateBatch active s).guns.Nodup ∧ (fillGunCandidateBatch active s).players.Nodup := by
  dsimp only [fillGunCandidateBatch]
  exact ⟨Finset.sort_nodup _ _, Finset.sort_nodup _ _⟩

/-- With a radius of a chunk at most, the salvo of the candidates is that of all registered guns in the same order. -/
theorem fillGunCandidateBatch_complete {grid : CellGrid} {entities : EntityId → Option BuildingEntity}
    {es : List RegistryEvent} {registry : Registry}
    (h : Lib.Run.run (Registry.step grid) (Registry.start entities) es = some registry) {s : Salvo S}
    (hindex : s.index = registry.index) (hradius : config.gunRadiusCells.toInt.natAbs ≤ 32) (active : Finset EntityId)
    {all : Finset EntityId} (hall : ∀ e, e ∈ all ↔ e ∈ registry.registered) :
    s.fireGuns config rules now (fillGunCandidateBatch active s).players (fillGunCandidateBatch active s).guns =
      s.fireGuns config rules now (fillGunCandidateBatch active s).players (all.sort (· ≤ ·)) := by
  have hsound := Registry.sound_run h
  set players := (fillGunCandidateBatch active s).players with hplayers
  set near := players.flatMap fun e =>
    (s.targets e).elim [] fun t => (gunCandidateChunks (chunkPos t.pos)).flatMap s.index.chunkBuildings with hnear
  have hguns : (fillGunCandidateBatch active s).guns = near.toFinset.sort (· ≤ ·) := by
    rw [hnear]
    refine congrArg (fun l : List EntityId => l.toFinset.sort (· ≤ ·)) (List.flatMap_congr fun e _ => ?_)
    cases s.targets e <;> rfl
  have hsub : ∀ e ∈ near, e ∈ all := by
    intro e he
    obtain ⟨player, -, he⟩ := List.mem_flatMap.mp he
    cases ht : s.targets player with
    | none =>
        rw [ht] at he
        exact absurd he List.not_mem_nil
    | some t =>
        rw [ht] at he
        obtain ⟨c, -, he⟩ := List.mem_flatMap.mp he
        rw [hindex, hsound.chunk] at he
        obtain ⟨b, hb, -⟩ := he
        exact (hall e).mpr hb.1
  have hfilter : near.toFinset = all.filter fun e => decide (e ∈ near) = true := by
    ext e
    rw [List.mem_toFinset, Finset.mem_filter, decide_eq_true_eq]
    exact ⟨fun he => ⟨hsub e he, he⟩, And.right⟩
  rw [hguns, hfilter, sort_filter]
  refine foldl_filter_of_skips (P := fun u => Salvo.Fair config now s u) (fun u gun hu => hu.fireGun players gun) ?_
    (.refl s)
  intro u hu gun hgun hskip
  refine Salvo.fireGun_of_far hu fun b hb player hplayer t ht => ?_
  rw [Bool.eq_false_iff]
  intro hinside
  rw [decide_eq_false_iff_not] at hskip
  refine hskip (List.mem_flatMap.mpr ⟨player, hplayer, ?_⟩)
  rw [ht]
  have hhas : registry.Has gun b := ⟨(hall gun).mp ((Finset.mem_sort _).mp hgun), hindex ▸ hb⟩
  refine List.mem_flatMap.mpr ⟨chunkPos b.view.origin, chunk_candidate hradius (hsound.nonneg hhas) hinside, ?_⟩
  rw [hindex, hsound.chunk]
  exact ⟨b, hhas, rfl⟩

def sampleCombat : CombatConfig := ⟨500, 60, 20⟩

def sampleRules : GunRules Unit := ⟨fun _ skills => (skills, false), fun damage _ => damage, fun _ _ => 1⟩

/-- A player of no clan. -/
def sampleTarget : Target Unit := ⟨9, (45, 40), (), 100, 100, none, none, some 2, false, 0⟩

def sampleSalvo (index : BuildingIndex) : Salvo Unit :=
  ⟨index, fun e => if e = 5 then some sampleTarget else none, [], [], [], [], [], 0, []⟩

/-- The gun of the sample is built, and found beside the player. -/
theorem fillGunCandidateBatch_complete_gun : ∃ registry,
    Lib.Run.run (Registry.step Registry.sampleGrid)
      (Registry.start fun entity => if entity = 0 then some Registry.sampleGun else none) [.register 0] = some registry ∧
    let s := sampleSalvo registry.index
    let batch := fillGunCandidateBatch {5} s
    s.fireGuns sampleCombat sampleRules 0 batch.players batch.guns =
      s.fireGuns sampleCombat sampleRules 0 batch.players [0] := by
  obtain ⟨registry, hrun, hregistered⟩ : ∃ registry, Lib.Run.run (Registry.step Registry.sampleGrid)
      (Registry.start fun entity => if entity = 0 then some Registry.sampleGun else none) [.register 0] = some registry ∧
      ∀ e, e ∈ ({0} : Finset EntityId) ↔ e ∈ registry.registered := by
    refine ⟨_, rfl, fun e => ?_⟩
    simp [Registry.start]
  have hcomplete :
      let s := sampleSalvo registry.index
      let batch := fillGunCandidateBatch {5} s
      s.fireGuns sampleCombat sampleRules 0 batch.players batch.guns =
        s.fireGuns sampleCombat sampleRules 0 batch.players (({0} : Finset EntityId).sort (· ≤ ·)) :=
    fillGunCandidateBatch_complete hrun rfl (by decide) {5} hregistered
  rw [Finset.sort_singleton] at hcomplete
  exact ⟨registry, hrun, hcomplete⟩

/-! ### The cadence -/

section Shots

variable (config rules now)

omit config rules now in
theorem fired_spend (s : Salvo S) (gun : EntityId) (cost : Int32) : (s.spend gun cost).fired = s.fired := by
  rw [Salvo.spend]
  split
  · rfl
  · split
    · rfl
    · split
      · rfl
      · split <;> rfl

theorem fired_fireAt (s : Salvo S) (gun : EntityId) (view : PackView) (player : EntityId) :
    (s.fireAt config rules now gun view player).fired = s.fired ∨
      (s.fireAt config rules now gun view player).fired = s.fired ++ [(gun, player)] := by
  rw [Salvo.fireAt]
  split
  · exact Or.inl rfl
  · split
    · refine Or.inr ?_
      dsimp only
      rw [fired_spend]
      rfl
    · exact Or.inl rfl

/-- A gun shoots at each of the players once at most. -/
theorem fired_fireGun (s : Salvo S) (players : List EntityId) (gun : EntityId) :
    ∃ shots, (s.fireGun config rules now players gun).fired = s.fired ++ shots ∧
      shots.Sublist (players.map (Prod.mk gun)) := by
  have hplayers (view : PackView) (u : Salvo S) :
      ∃ shots, (players.foldl (Salvo.fireAt config rules now gun view) u).fired = u.fired ++ shots ∧
        shots.Sublist (players.map (Prod.mk gun)) := by
    induction players generalizing u with
    | nil => exact ⟨[], (List.append_nil _).symm, List.Sublist.refl _⟩
    | cons player players ih =>
        obtain ⟨shots, hshots, hsub⟩ := ih (u.fireAt config rules now gun view player)
        rw [List.foldl_cons, hshots, List.map_cons]
        rcases fired_fireAt config rules now u gun view player with h | h
        · rw [h]
          exact ⟨shots, rfl, hsub.cons _⟩
        · rw [h, List.append_assoc]
          exact ⟨(gun, player) :: shots, rfl, hsub.cons_cons _⟩
  rw [Salvo.fireGun]
  split
  · exact ⟨[], (List.append_nil _).symm, List.nil_sublist _⟩
  · split
    · exact hplayers _ s
    · exact ⟨[], (List.append_nil _).symm, List.nil_sublist _⟩

theorem fired_fireGuns (players guns : List EntityId) (s : Salvo S) :
    ∃ shots, (s.fireGuns config rules now players guns).fired = s.fired ++ shots ∧
      shots.Sublist (guns.product players) := by
  rw [Salvo.fireGuns]
  induction guns generalizing s with
  | nil => exact ⟨[], (List.append_nil _).symm, List.Sublist.refl _⟩
  | cons gun guns ih =>
      obtain ⟨first, hfirst, hsub⟩ := fired_fireGun config rules now s players gun
      obtain ⟨shots, hshots, hrest⟩ := ih (s.fireGun config rules now players gun)
      rw [List.foldl_cons, hshots, hfirst, List.append_assoc]
      exact ⟨first ++ shots, rfl, hsub.append hrest⟩

end Shots

/-- Moments that are apart are few in a window. -/
theorem length_le_of_spaced {gap : Nat} (hgap : 0 < gap) (times : List Nat) (a span : Nat)
    (hspaced : times.Pairwise fun t u => t + gap ≤ u) (hwindow : ∀ t ∈ times, a ≤ t ∧ t < a + span) :
    times.length ≤ span / gap + 1 := by
  induction times generalizing a span with
  | nil => exact Nat.zero_le _
  | cons t times ih =>
      obtain ⟨hfirst, hrest⟩ := List.pairwise_cons.mp hspaced
      obtain ⟨hlow, hhigh⟩ := hwindow t List.mem_cons_self
      cases times with
      | nil => exact Nat.le_add_left _ _
      | cons u times =>
          have hu := hfirst u List.mem_cons_self
          have hu' := (hwindow u (List.mem_cons_of_mem _ List.mem_cons_self)).2
          have hlength := ih (t + gap) (a + span - (t + gap)) hrest fun v hv =>
            ⟨hfirst v hv, by have := (hwindow v (List.mem_cons_of_mem _ hv)).2; omega⟩
          have hdiv : (a + span - (t + gap)) / gap + 1 ≤ span / gap := by
            rw [← Nat.add_div_right _ hgap]
            exact Nat.div_le_div_right (by omega)
          rw [List.length_cons]
          omega

/-- The salvos of a run, each with its moment and its shots. -/
structure GunRun (S : Type) where
  system : GunSystem S
  clock : Nat
  salvos : List (Nat × List (EntityId × EntityId))

/-- The system runs at a moment and ends at another; between its runs everything else may change. -/
inductive GunEvent (S : Type)
  | fire (now completedAt : Nat)
  | change (salvo : Salvo S) (active : Finset EntityId)

namespace GunRun

def start (salvo : Salvo S) (active : Finset EntityId) (clock : Nat) : GunRun S := ⟨⟨salvo, clock, active⟩, clock, []⟩

def step (config : CombatConfig) (rules : GunRules S) (s : GunRun S) : GunEvent S → Option (GunRun S)
  | .fire now completedAt =>
    if s.clock ≤ now ∧ now ≤ completedAt then
      let system := gunFiringSystem config rules now completedAt
        { s.system with salvo := { s.system.salvo with fired := [] } }
      some
        { system
          clock := completedAt
          salvos :=
            if isDueAt s.system.timer now config.gunFireIntervalMs then s.salvos ++ [(now, system.salvo.fired)]
            else s.salvos }
    else none
  | .change salvo active => some { s with system := { s.system with salvo, active } }

structure Spaced (config : CombatConfig) (s : GunRun S) : Prop where
  apart : s.salvos.Pairwise fun e e' => e.1 + config.gunFireIntervalMs ≤ e'.1
  past : ∀ e ∈ s.salvos, e.1 ≤ s.system.timer
  timer : s.system.timer ≤ s.clock
  once : ∀ e ∈ s.salvos, e.2.Nodup

theorem spaced_step {s u : GunRun S} {event : GunEvent S} (h : s.Spaced config)
    (hstep : s.step config rules event = some u) : u.Spaced config := by
  cases event with
  | change salvo active =>
      obtain rfl := Option.some.inj hstep
      exact ⟨h.apart, h.past, h.timer, h.once⟩
  | fire now completedAt =>
      rw [step] at hstep
      split at hstep
      · rename_i hclock
        obtain rfl := Option.some.inj hstep
        by_cases hdue : isDueAt s.system.timer now config.gunFireIntervalMs = true
        · have hwait : config.gunFireIntervalMs ≤ now - s.system.timer := of_decide_eq_true hdue
          have htimer := h.timer
          obtain ⟨shots, hshots, hsub⟩ := fired_fireGuns config rules now
            (fillGunCandidateBatch s.system.active { s.system.salvo with fired := [] }).players
            (fillGunCandidateBatch s.system.active { s.system.salvo with fired := [] }).guns
            { s.system.salvo with fired := [] }
          obtain ⟨hguns, hplayers⟩ := nodup_batch s.system.active { s.system.salvo with fired := [] }
          have hnodup : shots.Nodup := hsub.nodup (hguns.product hplayers)
          have hfired : (gunFiringSystem config rules now completedAt
              { s.system with salvo := { s.system.salvo with fired := [] } }).salvo.fired = shots := by
            rw [gunFiringSystem, if_pos hdue]
            exact hshots
          have hdone : (gunFiringSystem config rules now completedAt
              { s.system with salvo := { s.system.salvo with fired := [] } }).timer = completedAt := by
            rw [gunFiringSystem, if_pos hdue]
          rw [if_pos hdue, hfired]
          refine ⟨?_, fun e he => ?_, hdone.le, fun e he => ?_⟩
          · refine List.pairwise_append.mpr ⟨h.apart, List.pairwise_singleton _ _, fun e he e' he' => ?_⟩
            rw [List.mem_singleton.mp he']
            have hpast := h.past e he
            dsimp only
            omega
          · dsimp only
            rw [hdone]
            rcases List.mem_append.mp he with he | he
            · have hpast := h.past e he
              omega
            · rw [List.mem_singleton.mp he]
              exact hclock.2
          · rcases List.mem_append.mp he with he | he
            · exact h.once e he
            · rw [List.mem_singleton.mp he]
              exact hnodup
        · have hidle : (gunFiringSystem config rules now completedAt
              { s.system with salvo := { s.system.salvo with fired := [] } }).timer = s.system.timer := by
            rw [gunFiringSystem, if_neg hdue]
          have htimer := h.timer
          rw [if_neg hdue]
          refine ⟨h.apart, fun e he => ?_, ?_, h.once⟩
          · rw [hidle]
            exact h.past e he
          · dsimp only
            rw [hidle]
            omega
      · cases hstep

end GunRun

end OpenMines.Guns
