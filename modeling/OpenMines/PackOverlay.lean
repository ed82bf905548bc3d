import OpenMines.Alive
import OpenMines.BuildingIndex
import OpenMines.Crafting
import OpenMines.HubBundle
import OpenMines.Lib.CheckedInt
import OpenMines.Lib.Replica

namespace OpenMines

open Lib

def PackType.code : PackType → UInt8
  | .none => 32
  | .teleport => 84
  | .resp => 82
  | .gun => 71
  | .market => 77
  | .up => 85
  | .storage => 76
  | .craft => 70
  | .vulkan => 81
  | .spot => 79
  | .levi => 87
  | .jobs => 74
  | .zalupa => 89
  | .clans => 68
  | .gate => 32

def PackType.includedInHbOverlay (packType : PackType) : Bool := packType.code ≠ 32

def packOverlayOff (packType : PackType) (charge : Int32) (craft : Option BuildingCrafting) (now : Int64) : UInt8 :=
  if packType ≠ .craft then if 0 < charge then 1 else 0
  else
    match (craft.bind BuildingCrafting.recipeId).bind recipeById with
    | none => 0
    | some recipe =>
      let readyBonus : Int32 := if craft.any fun c => 0 < c.endTs && c.endTs ≤ now then 50 else 0
      UInt8.ofNat (1 + recipe.result.id + readyBonus).toInt.toNat

structure OverlayBuilding where
  pos : WorldPos
  packType : PackType
  clanId : Int32
  charge : Int32
  craft : Option BuildingCrafting

structure HubBot where
  id : Int32
  pos : WorldPos
  dir : Int32
  skin : Int32
  clanId : Int32
  tail : UInt8

def netU16Nonneg (v : Int32) : UInt16 := if v.toInt.toNat < 65536 then UInt16.ofNat v.toInt.toNat else 0

def netU8Clamped (v max : Int32) : UInt8 :=
  let clamped := min v.toInt.toNat max.toInt.toNat
  if clamped < 256 then UInt8.ofNat clamped else 0

def HubBot.packet (bot : HubBot) : HbPacket :=
  .bot (netU16Nonneg bot.id) (netU16Nonneg bot.pos.1) (netU16Nonneg bot.pos.2) (netU8Clamped bot.dir 3)
    (netU8Clamped bot.skin 255) (netU16Nonneg bot.clanId) bot.tail

/-- `bot_id as u16`, which wraps. -/
def HubBot.spotPacket (spot : HubBot) : HbPacket :=
  .bot (UInt16.ofInt spot.id.toInt) (netU16Nonneg spot.pos.1) (netU16Nonneg spot.pos.2) (netU8Clamped spot.dir 3)
    3 (netU16Nonneg spot.clanId) 1

/-- What the synchronisation of a player reads of the world. -/
structure OverlayWorld where
  chunksW : UInt32
  chunksH : UInt32
  chunkCells : ChunkPos → Fin 1024 → UInt8
  playersInChunk : ChunkPos → List PlayerId
  bot : PlayerId → Option HubBot
  botspotsInChunk : ChunkPos → List HubBot
  chunkBuildings : ChunkPos → List OverlayBuilding
  session : PlayerId → Option SessionId

def chunkViewRadius : Nat := 2

def chunkBundleMaxSubpackets : Nat := 192

def chunkBundleMaxBytes : Nat := 128 * 1024

def visibleChunksAround (chunksW chunksH : UInt32) (c : ChunkPos) : List ChunkPos :=
  (List.range (2 * chunkViewRadius + 1)).flatMap fun dy =>
    (List.range (2 * chunkViewRadius + 1)).filterMap fun dx =>
      let ncx : Int := c.1 + dx - chunkViewRadius
      let ncy : Int := c.2 + dy - chunkViewRadius
      if 0 ≤ ncx ∧ ncx < chunksW.toInt32.toInt ∧ 0 ≤ ncy ∧ ncy < chunksH.toInt32.toInt then
        some (ncx.toNat, ncy.toNat)
      else none

/-- `PlayerView`: the visible chunks are those around the last chunk, when there is one. -/
structure PlayerView (chunksW chunksH : UInt32) where
  lastChunk : Option ChunkPos
  visibleChunks : List ChunkPos
  around : ∀ c, lastChunk = some c → visibleChunks = visibleChunksAround chunksW chunksH c

namespace PlayerView

variable {chunksW chunksH : UInt32}

/-- At a login, and after a change of the chunk. -/
def synced (chunksW chunksH : UInt32) (c : ChunkPos) : PlayerView chunksW chunksH where
  lastChunk := some c
  visibleChunks := visibleChunksAround chunksW chunksH c
  around _ h := by rw [Option.some_inj.mp h]

/-- At a death or a teleport of an administrator. -/
def cleared (chunksW chunksH : UInt32) : PlayerView chunksW chunksH where
  lastChunk := none
  visibleChunks := []
  around _ h := by cases h

end PlayerView

/-- The sub-packets that are sent, bundle after bundle, and those that wait for the next bundle. -/
structure SubBatch where
  sent : List (List HbPacket)
  subPackets : List HbPacket
  batchBytes : Nat

namespace SubBatch

def new : SubBatch := ⟨[], [], 0⟩

def push (batch : SubBatch) (p : HbPacket) : SubBatch :=
  { batch with subPackets := batch.subPackets ++ [p], batchBytes := batch.batchBytes + p.bytes.length }

def pushAll (batch : SubBatch) (ps : List HbPacket) : SubBatch := ps.foldl push batch

def flush (batch : SubBatch) : SubBatch :=
  if batch.subPackets = [] then batch else ⟨batch.sent ++ [batch.subPackets], [], 0⟩

def flushIfFull (batch : SubBatch) : SubBatch :=
  if chunkBundleMaxSubpackets ≤ batch.subPackets.length ∨ chunkBundleMaxBytes ≤ batch.batchBytes then batch.flush
  else batch

end SubBatch

structure ChunkFanout where
  recipients : List SessionId
  data : List UInt8

structure ChunkChange (chunksW chunksH : UInt32) where
  bundles : List (List HbPacket)
  fanouts : List ChunkFanout
  view : PlayerView chunksW chunksH

namespace OverlayWorld

variable (s : OverlayWorld) (now : Int64)

def validCoord (x y : Int32) : Bool :=
  decide (0 ≤ x ∧ 0 ≤ y ∧ x.toUInt32 < s.chunksW * chunkSize ∧ y.toUInt32 < s.chunksH * chunkSize)

def blockPosFromCell (x y chunksW : Int32) : Option Int32 :=
  (CheckedInt.i32 (y.toInt / 32 * chunksW.toInt)).bind fun row => CheckedInt.i32 (row.toInt + x.toInt / 32)

def packBlockPos (x y : Int32) : Option Int32 :=
  if s.validCoord x y then blockPosFromCell x y s.chunksW.toInt32 else none

/-- The block of a pack, at the coordinates that the client is told. -/
def block (pack : HbPackItem) : Option Int32 := s.packBlockPos (.ofNat pack.x.toNat) (.ofNat pack.y.toNat)

def packOverlay (b : OverlayBuilding) : Option HbPackItem :=
  if b.packType.includedInHbOverlay then
    some {
      code := b.packType.code
      x := UInt16.ofNat (b.pos.1.toInt % 65536).toNat
      y := UInt16.ofNat (b.pos.2.toInt % 65536).toNat
      clanId := UInt8.ofNat (min b.clanId.toInt.toNat 255)
      off := packOverlayOff b.packType b.charge b.craft now }
  else none

def packsInSingleChunk (c : ChunkPos) : List HbPackItem := (s.chunkBuildings c).filterMap (packOverlay now)

def visiblePacks (chunks : List ChunkPos) : List HbPackItem := chunks.flatMap (s.packsInSingleChunk now)

def enteringPackets (player : PlayerId) (c : ChunkPos) : List HbPacket :=
  [.map (UInt16.ofNat (min (c.1 * 32 % 2 ^ 32) 65535)) (UInt16.ofNat (min (c.2 * 32 % 2 ^ 32) 65535)) 32 32
      (List.ofFn (s.chunkCells c))] ++
    ((s.playersInChunk c).filter (· ≠ player)).filterMap (fun other => (s.bot other).map HubBot.packet) ++
    (s.botspotsInChunk c).map HubBot.spotPacket

def leavingBots (player : PlayerId) (c : ChunkPos) : List HbPacket :=
  ((s.playersInChunk c).filter (· ≠ player)).map (fun other => .botDel (netU16Nonneg other)) ++
    (s.botspotsInChunk c).map (fun spot => .botDel (UInt16.ofInt spot.id.toInt))

/-- The blocks of the packs of a chunk that are not cleared yet. -/
def blocksToClear (cleared : List Int32) (c : ChunkPos) : List Int32 :=
  ((s.packsInSingleChunk now c).filterMap s.block).eraseDups.filter (· ∉ cleared)

def leaveChunk (player : PlayerId) (r : List Int32 × SubBatch) (c : ChunkPos) : List Int32 × SubBatch :=
  let blocks := s.blocksToClear now r.1 c
  (r.1 ++ blocks, (r.2.pushAll (s.leavingBots player c)).pushAll (blocks.map fun b => .packs b []))

def leavingFanout (player : PlayerId) (c : ChunkPos) : ChunkFanout where
  recipients := ((s.playersInChunk c).filter (· ≠ player)).filterMap s.session
  data := bundlePayload [.botDel (netU16Nonneg player)]

/-- `prepare_chunk_changed`; `order` is the one in which the blocks are gone through. -/
def prepareChunkChanged (order : Alive.HashOrder (Int32 × List HbPackItem)) (player : PlayerId) (pos : WorldPos)
    (view : PlayerView s.chunksW s.chunksH) : ChunkChange s.chunksW s.chunksH :=
  if view.lastChunk = some (chunkPos pos) then ⟨[], [], view⟩
  else
    let newVisible := visibleChunksAround s.chunksW s.chunksH (chunkPos pos)
    let leaving := view.visibleChunks.filter (· ∉ newVisible)
    let entered := (newVisible.filter (· ∉ view.visibleChunks)).foldl
      (fun batch c => (batch.pushAll (s.enteringPackets player c)).flushIfFull) SubBatch.new
    let left := (leaving.foldl (s.leaveChunk now player) ([], entered)).2
    let byBlock := order.arrange (Replica.groups s.block (s.visiblePacks now newVisible))
    let sent := byBlock.foldl (fun batch g => (batch.push (.packs g.1 g.2)).flushIfFull) left
    ⟨sent.flush.sent, leaving.map (s.leavingFanout player), .synced s.chunksW s.chunksH (chunkPos pos)⟩

/-- The client, which keeps the packs of the overlay. -/
def receivePacket (held : Set HbPackItem) : HbPacket → Set HbPackItem
  | .packs blockPos packs => Replica.replace s.block held (blockPos, packs)
  | _ => held

def receiveBundle (held : Set HbPackItem) (bundle : List UInt8) : Set HbPackItem :=
  match decodeBundle bundle with
  | none => held
  | some packets => packets.foldl s.receivePacket held

/-- The overlay buildings of the chunks. -/
def overlay (chunks : List ChunkPos) : Set HbPackItem := {p | p ∈ s.visiblePacks now chunks}

end OverlayWorld

end OpenMines
