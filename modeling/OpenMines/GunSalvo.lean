import OpenMines.SpatialLookup
import OpenMines.PlayerRow
import Mathlib.Data.Finset.Sort

namespace OpenMines.Guns

structure CombatConfig where
  gunFireIntervalMs : Nat
  gunDamage : Int32
  gunRadiusCells : Int32

variable {S : Type}

/-- The components of a player that the guns use. -/
structure Target (S : Type) where
  playerId : PlayerId
  pos : WorldPos
  skills : S
  health : Int32
  maxHealth : Int32
  clanId : Option Int32
  protectionUntil : Option Nat
  /-- `PlayerConnection` -/
  session : Option SessionId
  dirty : Bool
  incarnation : Nat

/-- What is reckoned in floating point; a roll has its number. -/
structure GunRules (S : Type) where
  addSkillExp : String → S → S × Bool
  onHurt : Int32 → S → Int32
  chargeCost : Nat → S → Int32

inductive GunEffect (S : Type)
  | skillProgress (session : SessionId) (skills : S)
  | hurt (player : PlayerId) (pos : WorldPos)
  | health (session : SessionId) (health maxHealth : Int32)
  | shot (player : PlayerId) (pos gun : WorldPos)

/-- What a salvo changes; `fired` has the shots. -/
structure Salvo (S : Type) where
  index : BuildingIndex
  targets : EntityId → Option (Target S)
  deaths : List PlayerId
  dirtyPlayers : List (EntityId × Nat)
  dirtyBuildings : List EntityId
  resends : List WorldPos
  effects : List (GunEffect S)
  rolls : Nat
  fired : List (EntityId × EntityId)

def insideGunRadius (player gun : WorldPos) (radiusCells : Int32) : Bool :=
  let dx := player.1.toInt - gun.1.toInt
  let dy := player.2.toInt - gun.2.toInt
  dx * dx + dy * dy ≤ radiusCells.toInt * radiusCells.toInt

def isSameGunClan (playerClanId : Option Int32) (gunClanId : Int32) : Bool := playerClanId.getD 0 = gunClanId

def pushDeath (deaths : List PlayerId) (player : PlayerId) : List PlayerId :=
  if player ∈ deaths then deaths else deaths ++ [player]

variable (config : CombatConfig) (rules : GunRules S) (now : Nat)

def gunDamageAfterSkills (skills : S) : Int32 := max (rules.onHurt config.gunDamage skills) 0

/-- A gun shoots at the player. -/
def Target.exposed (t : Target S) (gun : PackView) : Bool :=
  t.session.isSome && 0 < t.health && !isSameGunClan t.clanId gun.clanId && !t.protectionUntil.any (fun u => now < u) &&
    insideGunRadius t.pos gun.origin config.gunRadiusCells

/-- The experience of a hit, and whether a level is reached. -/
def GunRules.train (skills : S) : S × Bool :=
  let health := rules.addSkillExp "l" skills
  let induction := rules.addSkillExp "*I" health.1
  let antiGun := rules.addSkillExp "u" induction.1
  (antiGun.1, health.2 || induction.2 || antiGun.2)

def Target.hit (t : Target S) (damage : Int32) : Target S :=
  if 0 < damage then { t with health := if damage < t.health then t.health - damage else 0, dirty := true } else t

namespace Salvo

/-- The hit, and what it makes known. -/
def hit (s : Salvo S) (player : EntityId) (t : Target S) : Salvo S :=
  let trained := rules.train t.skills
  let damage := gunDamageAfterSkills config rules trained.1
  let struck := { t with skills := trained.1 }.hit damage
  let session := t.session.getD 0
  let progress := if trained.2 then [GunEffect.skillProgress session trained.1] else []
  let hurt := if 0 < damage ∧ damage < t.health then [GunEffect.hurt t.playerId t.pos] else []
  { s with
    targets := Function.update s.targets player (some struck)
    deaths := if 0 < damage ∧ ¬ damage < t.health then pushDeath s.deaths t.playerId else s.deaths
    dirtyPlayers := if 0 < damage then s.dirtyPlayers.insert (player, t.incarnation) else s.dirtyPlayers
    effects := s.effects ++ progress ++ hurt ++ [GunEffect.health session struck.health struck.maxHealth] }

/-- The charge of the shot; a gun that has used its last is shown again. -/
def spend (s : Salvo S) (gun : EntityId) (cost : Int32) : Salvo S :=
  match s.index.entities gun with
  | none => s
  | some b =>
    if cost ≤ 0 then s
    else if cost < b.view.charge then
      { s with
        index := s.index.setEntity gun (some { b with view := { b.view with charge := b.view.charge - cost } })
        dirtyBuildings := s.dirtyBuildings.insert gun }
    else if 0 < b.view.charge then
      { s with
        index := s.index.setEntity gun (some { b with view := { b.view with charge := 0 } })
        dirtyBuildings := s.dirtyBuildings.insert gun
        resends := s.resends ++ [b.view.origin] }
    else s

def fireAt (gun : EntityId) (view : PackView) (s : Salvo S) (player : EntityId) : Salvo S :=
  match s.targets player with
  | none => s
  | some t =>
    if t.exposed config now view then
      let s := s.hit config rules player t
      let skills := (rules.train t.skills).1
      let s := { s.spend gun (rules.chargeCost s.rolls skills) with rolls := s.rolls + 1 }
      { s with
        effects := s.effects ++ [GunEffect.shot t.playerId t.pos view.origin]
        fired := s.fired ++ [(gun, player)] }
    else s

/-- A gun that is loaded and not about to be deleted. -/
def Loaded (b : BuildingEntity) : Prop := b.pending = none ∧ b.view.packType = .gun ∧ 0 < b.view.charge

instance (b : BuildingEntity) : Decidable (Loaded b) := inferInstanceAs (Decidable (_ ∧ _ ∧ _))

def fireGun (players : List EntityId) (s : Salvo S) (gun : EntityId) : Salvo S :=
  match s.index.entities gun with
  | none => s
  | some b => if Loaded b then players.foldl (fireAt config rules now gun b.view) s else s

def fireGuns (players guns : List EntityId) (s : Salvo S) : Salvo S := guns.foldl (fireGun config rules now players) s

end Salvo

/-! ### The candidates -/

/-- Without the chunks before the first. -/
def gunCandidateChunks (c : ChunkPos) : List ChunkPos :=
  (List.range' (c.2 - 1) (c.2 + 2 - (c.2 - 1))).flatMap fun y =>
    (List.range' (c.1 - 1) (c.1 + 2 - (c.1 - 1))).map fun x => (x, y)

structure GunCandidateBatch where
  guns : List EntityId
  players : List EntityId

/-- Both lists in the order of the entities, each entity once. -/
def fillGunCandidateBatch (active : Finset EntityId) (s : Salvo S) : GunCandidateBatch :=
  let players := (active.filter fun e => (s.targets e).isSome).sort (· ≤ ·)
  let near := players.flatMap fun e =>
    match s.targets e with
    | none => []
    | some t => (gunCandidateChunks (chunkPos t.pos)).flatMap s.index.chunkBuildings
  ⟨near.toFinset.sort (· ≤ ·), players⟩

/-! ### The cadence -/

structure GunSystem (S : Type) where
  salvo : Salvo S
  /-- `GunTickTimer` -/
  timer : Nat
  active : Finset EntityId

def isDueAt (timer now interval : Nat) : Bool := interval ≤ now - timer

/-- A salvo of all candidates; the next is reckoned from its end. -/
def gunFiringSystem (completedAt : Nat) (s : GunSystem S) : GunSystem S :=
  if isDueAt s.timer now config.gunFireIntervalMs then
    let batch := fillGunCandidateBatch s.active s.salvo
    { s with salvo := s.salvo.fireGuns config rules now batch.players batch.guns, timer := completedAt }
  else s

end OpenMines.Guns
