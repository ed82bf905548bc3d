import OpenMines.Lib.Codec
import OpenMines.Packet

namespace OpenMines

open Lib Lib.LittleEndian

/-- `hb_map`. -/
def hbMap (x y : UInt16) (width height : UInt8) (cells : List UInt8) : List UInt8 :=
  [77, width, height] ++ u16ToBytes x ++ u16ToBytes y ++ cells

def hbBot (id x y : UInt16) (dir skin : UInt8) (clanId : UInt16) (tail : UInt8) : List UInt8 :=
  [88, dir, skin, tail] ++ u16ToBytes id ++ u16ToBytes x ++ u16ToBytes y ++ u16ToBytes clanId

/-- An item of `hb_packs`; the byte after the clan stays zero. -/
structure HbPackItem where
  code : UInt8
  x : UInt16
  y : UInt16
  clanId : UInt8
  off : UInt8
  deriving DecidableEq

def HbPackItem.bytes (item : HbPackItem) : List UInt8 :=
  [item.code] ++ u16ToBytes item.x ++ u16ToBytes item.y ++ [item.clanId, 0, item.off]

/-- `u16::try_from` of a length. -/
def u16Count (n : Nat) : Option UInt16 := if n < 65536 then some (UInt16.ofNat n) else none

def u8Count (n : Nat) : Option UInt8 := if n < 256 then some (UInt8.ofNat n) else none

def hbPacks (blockPos : Int32) (packs : List HbPackItem) : List UInt8 :=
  match u16Count packs.length with
  | none => []
  | some count => [79] ++ i32ToBytes blockPos ++ u16ToBytes count ++ packs.flatMap HbPackItem.bytes

def hbFx (x y : UInt16) (fxType : UInt8) : List UInt8 := [70, fxType] ++ u16ToBytes x ++ u16ToBytes y

def hbBotDel (id : UInt16) : List UInt8 := [76] ++ u16ToBytes id

def hbBotLeaveBlock (id : UInt16) (blockPos : Int32) : List UInt8 := [83] ++ u16ToBytes id ++ i32ToBytes blockPos

def hbDirectedFx (botId x y : UInt16) (fx : UInt8) (dir : UInt16) (color : UInt8) : List UInt8 :=
  [68, fx] ++ u16ToBytes dir ++ [color] ++ u16ToBytes x ++ u16ToBytes y ++ u16ToBytes botId

def textBytes (text : String) : List UInt8 := text.toByteArray.data.toList

def hbChat (botId x y : UInt16) (text : String) : List UInt8 :=
  match u16Count (textBytes text).length with
  | none => []
  | some textLen => [67] ++ u16ToBytes botId ++ u16ToBytes x ++ u16ToBytes y ++ u16ToBytes textLen ++ textBytes text

def hbBotsList (botIds : List UInt16) : List UInt8 :=
  match u16Count botIds.length with
  | none => []
  | some count => [66] ++ u16ToBytes count ++ botIds.flatMap u16ToBytes

def hbGun (x y : UInt16) (color : UInt8) (botIds : List UInt16) : List UInt8 :=
  match u8Count botIds.length with
  | none => []
  | some amount => [90, amount, color] ++ u16ToBytes x ++ u16ToBytes y ++ botIds.flatMap u16ToBytes

/-- A single cell is a map of one. -/
def hbCell (x y : UInt16) (cell : UInt8) : List UInt8 := hbMap x y 1 1 [cell]

/-- `hb_bundle`. -/
def hbBundle (subPackets : List (List UInt8)) : String × List UInt8 := ("HB", subPackets.flatten)

/-- The sub-packets with the arguments that they are built of. -/
inductive HbPacket
  | map (x y : UInt16) (width height : UInt8) (cells : List UInt8)
  | bot (id x y : UInt16) (dir skin : UInt8) (clanId : UInt16) (tail : UInt8)
  | packs (blockPos : Int32) (packs : List HbPackItem)
  | fx (x y : UInt16) (fxType : UInt8)
  | botDel (id : UInt16)
  | botLeaveBlock (id : UInt16) (blockPos : Int32)
  | directedFx (botId x y : UInt16) (fx : UInt8) (dir : UInt16) (color : UInt8)
  | chat (botId x y : UInt16) (text : String)
  | botsList (botIds : List UInt16)
  | gun (x y : UInt16) (color : UInt8) (botIds : List UInt16)
  deriving DecidableEq

namespace HbPacket

def bytes : HbPacket → List UInt8
  | .map x y width height cells => hbMap x y width height cells
  | .bot id x y dir skin clanId tail => hbBot id x y dir skin clanId tail
  | .packs blockPos items => hbPacks blockPos items
  | .fx x y fxType => hbFx x y fxType
  | .botDel id => hbBotDel id
  | .botLeaveBlock id blockPos => hbBotLeaveBlock id blockPos
  | .directedFx botId x y kind dir color => hbDirectedFx botId x y kind dir color
  | .chat botId x y text => hbChat botId x y text
  | .botsList botIds => hbBotsList botIds
  | .gun x y color botIds => hbGun x y color botIds

def cell (x y : UInt16) (cell : UInt8) : HbPacket := .map x y 1 1 [cell]

/-- A map has as many cells as it says. -/
def Whole : HbPacket → Prop
  | .map _ _ width height cells => cells.length = width.toNat * height.toNat
  | _ => True

/-- The constructor does not return the empty vector. -/
def Built (p : HbPacket) : Prop := p.bytes ≠ [] ∧ p.Whole

end HbPacket

section Layouts

open Codec

def pairLayout : Codec (UInt16 × UInt16) := seq u16 fun _ => u16

def mapLayout : Codec ((UInt8 × UInt8) × (UInt16 × UInt16) × List UInt8) :=
  seq (seq u8 fun _ => u8) fun size => seq pairLayout fun _ => times u8 (size.1.toNat * size.2.toNat)

def botLayout : Codec ((UInt8 × UInt8 × UInt8) × UInt16 × (UInt16 × UInt16) × UInt16) :=
  seq (seq u8 fun _ => seq u8 fun _ => u8) fun _ => seq u16 fun _ => seq pairLayout fun _ => u16

def packItemLayout : Codec HbPackItem :=
  via (seq u8 fun _ => seq pairLayout fun _ => seq u8 fun _ => seq u8 fun _ => u8)
    (fun item => (item.code, (item.x, item.y), item.clanId, 0, item.off))
    (fun r => some ⟨r.1, r.2.1.1, r.2.1.2, r.2.2.1, r.2.2.2.2⟩) (fun _ => rfl)

/-- A list behind its length. -/
def counted {α : Type} (c : Codec α) : Codec (UInt16 × List α) := seq u16 fun count => times c count.toNat

def packsLayout : Codec (Int32 × UInt16 × List HbPackItem) := seq i32 fun _ => counted packItemLayout

def fxLayout : Codec (UInt8 × UInt16 × UInt16) := seq u8 fun _ => pairLayout

def botLeaveBlockLayout : Codec (UInt16 × Int32) := seq u16 fun _ => i32

def directedFxLayout : Codec (UInt8 × UInt16 × UInt8 × (UInt16 × UInt16) × UInt16) :=
  seq u8 fun _ => seq u16 fun _ => seq u8 fun _ => seq pairLayout fun _ => u16

def chatLayout : Codec (UInt16 × (UInt16 × UInt16) × UInt16 × List UInt8) :=
  seq u16 fun _ => seq pairLayout fun _ => counted u8

def gunLayout : Codec (UInt8 × UInt8 × (UInt16 × UInt16) × List UInt16) :=
  seq u8 fun amount => seq u8 fun _ => seq pairLayout fun _ => times u16 amount.toNat

end Layouts

namespace HbPacket

/-- Read the arguments of a sub-packet. -/
def read {α : Type} (c : Codec α) (build : α → Option HbPacket) (bs : List UInt8) : Option (HbPacket × List UInt8) :=
  (c.get bs).bind fun r => (build r.1).map fun p => (p, r.2)

/-- A sub-packet at the front of the bytes. -/
def decode : List UInt8 → Option (HbPacket × List UInt8)
  | [] => none
  | tag :: bs =>
    if tag = 77 then read mapLayout (fun r => some (.map r.2.1.1 r.2.1.2 r.1.1 r.1.2 r.2.2)) bs
    else if tag = 88 then
      read botLayout (fun r => some (.bot r.2.1 r.2.2.1.1 r.2.2.1.2 r.1.1 r.1.2.1 r.2.2.2 r.1.2.2)) bs
    else if tag = 79 then read packsLayout (fun r => some (.packs r.1 r.2.2)) bs
    else if tag = 70 then read fxLayout (fun r => some (.fx r.2.1 r.2.2 r.1)) bs
    else if tag = 76 then read Codec.u16 (fun r => some (.botDel r)) bs
    else if tag = 83 then read botLeaveBlockLayout (fun r => some (.botLeaveBlock r.1 r.2)) bs
    else if tag = 68 then
      read directedFxLayout
        (fun r => some (.directedFx r.2.2.2.2 r.2.2.2.1.1 r.2.2.2.1.2 r.1 r.2.1 r.2.2.1)) bs
    else if tag = 67 then
      read chatLayout
        (fun r => (String.fromUTF8? ⟨r.2.2.2.toArray⟩).map fun text => .chat r.1 r.2.1.1 r.2.1.2 text) bs
    else if tag = 66 then read (counted Codec.u16) (fun r => some (.botsList r.2)) bs
    else if tag = 90 then read gunLayout (fun r => some (.gun r.2.2.1.1 r.2.2.1.2 r.2.1 r.2.2.2)) bs
    else none

variable {α : Type} {c : Codec α} {build : α → Option HbPacket}

theorem read_put {a : α} {p : HbPacket} (ha : c.accepts a) (hp : build a = some p) (rest : List UInt8) :
    read c build (c.put a ++ rest) = some (p, rest) := by
  rw [read, c.get_put a rest ha, Option.bind_some, hp, Option.map_some]

theorem u16Count_eq_some {n : Nat} {count : UInt16} (h : u16Count n = some count) : count.toNat = n := by
  rw [u16Count] at h
  split at h
  · rename_i hlt
    rw [← Option.some.inj h]
    exact UInt16.toNat_ofNat_of_lt hlt
  · cases h

theorem u8Count_eq_some {n : Nat} {count : UInt8} (h : u8Count n = some count) : count.toNat = n := by
  rw [u8Count] at h
  split at h
  · rename_i hlt
    rw [← Option.some.inj h]
    exact UInt8.toNat_ofNat_of_lt hlt
  · cases h

theorem fromUTF8?_textBytes (text : String) : String.fromUTF8? ⟨(textBytes text).toArray⟩ = some text := by
  rw [textBytes, Array.toArray_toList, String.fromUTF8?, dif_pos text.isValidUTF8]
  rfl

theorem decode_map (x y : UInt16) (width height : UInt8) (cells rest : List UInt8)
    (h : cells.length = width.toNat * height.toNat) :
    decode (hbMap x y width height cells ++ rest) = some (.map x y width height cells, rest) := by
  have hbytes : hbMap x y width height cells ++ rest = 77 :: (mapLayout.put ((width, height), (x, y), cells) ++ rest) := by
    simp [hbMap, mapLayout, pairLayout, Codec.seq, Codec.u8, Codec.u16, Codec.fixed, Codec.times]
  rw [hbytes, decode]
  simp +decide only [reduceIte]
  refine read_put ?_ ?_ rest
  · exact ⟨⟨trivial, trivial⟩, ⟨trivial, trivial⟩, h, fun _ _ => trivial⟩
  · rfl

theorem decode_bot (id x y : UInt16) (dir skin : UInt8) (clanId : UInt16) (tail : UInt8) (rest : List UInt8) :
    decode (hbBot id x y dir skin clanId tail ++ rest) = some (.bot id x y dir skin clanId tail, rest) := by
  have hbytes : hbBot id x y dir skin clanId tail ++ rest =
      88 :: (botLayout.put ((dir, skin, tail), id, (x, y), clanId) ++ rest) := by
    simp [hbBot, botLayout, pairLayout, Codec.seq, Codec.u8, Codec.u16, Codec.fixed]
  rw [hbytes, decode]
  simp +decide only [reduceIte]
  refine read_put ?_ ?_ rest
  · exact ⟨⟨trivial, trivial, trivial⟩, trivial, ⟨trivial, trivial⟩, trivial⟩
  · rfl

theorem decode_packs {blockPos : Int32} {items : List HbPackItem} (h : hbPacks blockPos items ≠ [])
    (rest : List UInt8) : decode (hbPacks blockPos items ++ rest) = some (.packs blockPos items, rest) := by
  rw [hbPacks] at h ⊢
  cases hcount : u16Count items.length with
  | none => exact absurd (by rw [hcount]) h
  | some count =>
      have hitems : packItemLayout.put = HbPackItem.bytes := by
        funext item
        simp [packItemLayout, pairLayout, HbPackItem.bytes, Codec.via, Codec.seq, Codec.u8, Codec.u16, Codec.fixed]
      have hbytes : [79] ++ i32ToBytes blockPos ++ u16ToBytes count ++ items.flatMap HbPackItem.bytes ++ rest =
          79 :: (packsLayout.put (blockPos, count, items) ++ rest) := by
        rw [← hitems]
        simp [packsLayout, counted, Codec.seq, Codec.u16, Codec.i32, Codec.fixed, Codec.times]
      dsimp only
      rw [hbytes, decode]
      simp +decide only [reduceIte]
      refine read_put ?_ ?_ rest
      · exact ⟨trivial, trivial, (u16Count_eq_some hcount).symm, fun _ _ => ⟨trivial, ⟨trivial, trivial⟩, trivial, trivial, trivial⟩⟩
      · rfl

theorem decode_fx (x y : UInt16) (fxType : UInt8) (rest : List UInt8) :
    decode (hbFx x y fxType ++ rest) = some (.fx x y fxType, rest) := by
  have hbytes : hbFx x y fxType ++ rest = 70 :: (fxLayout.put (fxType, x, y) ++ rest) := by
    simp [hbFx, fxLayout, pairLayout, Codec.seq, Codec.u8, Codec.u16, Codec.fixed]
  rw [hbytes, decode]
  simp +decide only [reduceIte]
  refine read_put ?_ ?_ rest
  · exact ⟨trivial, trivial, trivial⟩
  · rfl

theorem decode_botDel (id : UInt16) (rest : List UInt8) : decode (hbBotDel id ++ rest) = some (.botDel id, rest) := by
  rw [hbBotDel, List.singleton_append, List.cons_append, decode]
  simp +decide only [reduceIte]
  refine read_put ?_ ?_ rest
  · exact trivial
  · rfl

theorem decode_botLeaveBlock (id : UInt16) (blockPos : Int32) (rest : List UInt8) :
    decode (hbBotLeaveBlock id blockPos ++ rest) = some (.botLeaveBlock id blockPos, rest) := by
  have hbytes : hbBotLeaveBlock id blockPos ++ rest = 83 :: (botLeaveBlockLayout.put (id, blockPos) ++ rest) := by
    simp [hbBotLeaveBlock, botLeaveBlockLayout, Codec.seq, Codec.u16, Codec.i32, Codec.fixed]
  rw [hbytes, decode]
  simp +decide only [reduceIte]
  refine read_put ?_ ?_ rest
  · exact ⟨trivial, trivial⟩
  · rfl

theorem decode_directedFx (botId x y : UInt16) (fx : UInt8) (dir : UInt16) (color : UInt8) (rest : List UInt8) :
    decode (hbDirectedFx botId x y fx dir color ++ rest) = some (.directedFx botId x y fx dir color, rest) := by
  have hbytes : hbDirectedFx botId x y fx dir color ++ rest =
      68 :: (directedFxLayout.put (fx, dir, color, (x, y), botId) ++ rest) := by
    simp [hbDirectedFx, directedFxLayout, pairLayout, Codec.seq, Codec.u8, Codec.u16, Codec.fixed]
  rw [hbytes, decode]
  simp +decide only [reduceIte]
  refine read_put ?_ ?_ rest
  · exact ⟨trivial, trivial, trivial, ⟨trivial, trivial⟩, trivial⟩
  · rfl

theorem decode_chat {botId x y : UInt16} {text : String} (h : hbChat botId x y text ≠ []) (rest : List UInt8) :
    decode (hbChat botId x y text ++ rest) = some (.chat botId x y text, rest) := by
  rw [hbChat] at h ⊢
  cases hcount : u16Count (textBytes text).length with
  | none => exact absurd (by rw [hcount]) h
  | some textLen =>
      have hbytes : [67] ++ u16ToBytes botId ++ u16ToBytes x ++ u16ToBytes y ++ u16ToBytes textLen ++ textBytes text ++
          rest = 67 :: (chatLayout.put (botId, (x, y), textLen, textBytes text) ++ rest) := by
        simp [chatLayout, pairLayout, counted, Codec.seq, Codec.u8, Codec.u16, Codec.fixed, Codec.times]
      have hbuild : (String.fromUTF8? ⟨(textBytes text).toArray⟩).map (fun text => HbPacket.chat botId x y text) =
          some (.chat botId x y text) := by
        rw [fromUTF8?_textBytes, Option.map_some]
      dsimp only
      rw [hbytes, decode]
      simp +decide only [reduceIte]
      refine read_put ?_ ?_ rest
      · exact ⟨trivial, ⟨trivial, trivial⟩, trivial, (u16Count_eq_some hcount).symm, fun _ _ => trivial⟩
      · exact hbuild

theorem decode_botsList {botIds : List UInt16} (h : hbBotsList botIds ≠ []) (rest : List UInt8) :
    decode (hbBotsList botIds ++ rest) = some (.botsList botIds, rest) := by
  rw [hbBotsList] at h ⊢
  cases hcount : u16Count botIds.length with
  | none => exact absurd (by rw [hcount]) h
  | some count =>
      have hbytes : [66] ++ u16ToBytes count ++ botIds.flatMap u16ToBytes ++ rest =
          66 :: ((counted Codec.u16).put (count, botIds) ++ rest) := by
        simp [counted, Codec.seq, Codec.u16, Codec.fixed, Codec.times]
      dsimp only
      rw [hbytes, decode]
      simp +decide only [reduceIte]
      refine read_put ?_ ?_ rest
      · exact ⟨trivial, (u16Count_eq_some hcount).symm, fun _ _ => trivial⟩
      · rfl

theorem decode_gun {x y : UInt16} {color : UInt8} {botIds : List UInt16} (h : hbGun x y color botIds ≠ [])
    (rest : List UInt8) : decode (hbGun x y color botIds ++ rest) = some (.gun x y color botIds, rest) := by
  rw [hbGun] at h ⊢
  cases hcount : u8Count botIds.length with
  | none => exact absurd (by rw [hcount]) h
  | some amount =>
      have hbytes : [90, amount, color] ++ u16ToBytes x ++ u16ToBytes y ++ botIds.flatMap u16ToBytes ++ rest =
          90 :: (gunLayout.put (amount, color, (x, y), botIds) ++ rest) := by
        simp [gunLayout, pairLayout, Codec.seq, Codec.u8, Codec.u16, Codec.fixed, Codec.times]
      dsimp only
      rw [hbytes, decode]
      simp +decide only [reduceIte]
      refine read_put ?_ ?_ rest
      · exact ⟨trivial, trivial, ⟨trivial, trivial⟩, (u8Count_eq_some hcount).symm, fun _ _ => trivial⟩
      · rfl

/-- A sub-packet is found with its arguments, whatever follows it. -/
theorem decode_bytes (p : HbPacket) (rest : List UInt8) (h : p.Built) : decode (p.bytes ++ rest) = some (p, rest) := by
  cases p with
  | map x y width height cells => exact decode_map x y width height cells rest h.2
  | bot id x y dir skin clanId tail => exact decode_bot id x y dir skin clanId tail rest
  | packs blockPos items => exact decode_packs h.1 rest
  | fx x y fxType => exact decode_fx x y fxType rest
  | botDel id => exact decode_botDel id rest
  | botLeaveBlock id blockPos => exact decode_botLeaveBlock id blockPos rest
  | directedFx botId x y fx dir color => exact decode_directedFx botId x y fx dir color rest
  | chat botId x y text => exact decode_chat h.1 rest
  | botsList botIds => exact decode_botsList h.1 rest
  | gun x y color botIds => exact decode_gun h.1 rest

def layout : Codec HbPacket where
  accepts := Built
  put := bytes
  get := decode
  get_put := decode_bytes

end HbPacket

/-- The sub-packets of a bundle. -/
def decodeBundle (bs : List UInt8) : Option (List HbPacket) := HbPacket.layout.getAll bs.length bs

/-- The payload of a bundle of sub-packets. -/
def bundlePayload (ps : List HbPacket) : List UInt8 := (hbBundle (ps.map HbPacket.bytes)).2

theorem decodeBundle_bundlePayload {ps : List HbPacket} (h : ∀ p ∈ ps, p.Built) :
    decodeBundle (bundlePayload ps) = some ps := by
  have hflat : bundlePayload ps = ps.flatMap HbPacket.bytes := rfl
  rw [decodeBundle, hflat]
  exact Codec.getAll_flatMap (c := HbPacket.layout) (fun _ hp => hp.1) h (Nat.le_refl _)

theorem bundlePayload_append (ps qs : List HbPacket) : bundlePayload (ps ++ qs) = bundlePayload ps ++ bundlePayload qs := by
  rw [bundlePayload, hbBundle, List.map_append, List.flatten_append]
  rfl

theorem bytes_cell (x y : UInt16) (cell : UInt8) : (HbPacket.cell x y cell).bytes = hbCell x y cell := rfl

theorem built_cell (x y : UInt16) (cell : UInt8) : (HbPacket.cell x y cell).Built :=
  ⟨List.cons_ne_nil _ _, rfl⟩

section Batches

def makeBPacketBytes (event : UInt8 × UInt8) (payload : List UInt8) : Except String (List UInt8) :=
  (Packet.mk 66 event payload).encode []

def encodeHbBundle (payload : List UInt8) : Except String (List UInt8) := makeBPacketBytes (72, 66) payload

def hbFrameHeaderLen : Nat := 7

/-- `hb_payload`, which looks into an encoded packet. -/
def hbPayload (data : List UInt8) : Option (List UInt8) :=
  if hbFrameHeaderLen ≤ data.length ∧ data.getD 4 0 = 66 ∧ (data.drop 5).take 2 = [72, 66] then
    some (data.drop hbFrameHeaderLen)
  else none

/-- What a session is sent: the payloads of the packets for it, one after the other. -/
def extendBatch (batch data : List UInt8) : List UInt8 := batch ++ (hbPayload data).getD []

theorem hbPayload_encodeHbBundle {payload data : List UInt8} (h : encodeHbBundle payload = .ok data) :
    hbPayload data = some payload := by
  obtain ⟨-, rfl⟩ := Packet.encode_eq_ok.mp h
  obtain ⟨a, b, c, d, hprefix⟩ := exists_of_length_four
    (length_i32ToBytes (Int32.ofNat (Packet.mk 66 (72, 66) payload).wireLen))
  rw [Packet.frame, hprefix, List.nil_append]
  have hheader : hbFrameHeaderLen ≤ ([a, b, c, d] ++ (66 :: 72 :: 66 :: payload : List UInt8)).length := by
    rw [List.length_append, hbFrameHeaderLen]
    simp only [List.length_cons, List.length_nil]
    omega
  exact if_pos ⟨hheader, rfl, rfl⟩

theorem foldl_extendBatch {pss : List (List HbPacket)} {datas : List (List UInt8)}
    (h : List.Forall₂ (fun ps data => encodeHbBundle (bundlePayload ps) = .ok data) pss datas) (batch : List UInt8) :
    datas.foldl extendBatch batch = batch ++ bundlePayload pss.flatten := by
  induction h generalizing batch with
  | nil => exact (List.append_nil batch).symm
  | @cons ps data pss datas hdata _ ih =>
      rw [List.foldl_cons, ih, extendBatch, hbPayload_encodeHbBundle hdata, Option.getD_some, List.flatten_cons,
        bundlePayload_append, List.append_assoc]

end Batches

/-- A bundle is read as the sub-packets that it was made of, and so are bundles in one batch. -/
theorem bundle_decodes {ps qs : List HbPacket} (hps : ∀ p ∈ ps, p.Built) (hqs : ∀ q ∈ qs, q.Built) :
    decodeBundle (bundlePayload ps) = some ps ∧
      (bundlePayload ps = bundlePayload qs → ps = qs) ∧
      decodeBundle (bundlePayload ps ++ bundlePayload qs) = some (ps ++ qs) ∧
      ∀ pss datas, (∀ rs ∈ pss, ∀ r ∈ rs, r.Built) →
        List.Forall₂ (fun rs data => encodeHbBundle (bundlePayload rs) = .ok data) pss datas →
        decodeBundle (datas.foldl extendBatch []) = some pss.flatten := by
  refine ⟨decodeBundle_bundlePayload hps, fun hsame => ?_, ?_, fun pss datas hpss hdatas => ?_⟩
  · have hdecode := decodeBundle_bundlePayload hps
    rw [hsame, decodeBundle_bundlePayload hqs] at hdecode
    exact (Option.some.inj hdecode).symm
  · rw [← bundlePayload_append]
    exact decodeBundle_bundlePayload fun p hp => (List.mem_append.mp hp).elim (hps p) (hqs p)
  · rw [foldl_extendBatch hdatas, List.nil_append]
    refine decodeBundle_bundlePayload fun p hp => ?_
    obtain ⟨rs, hrs, hp⟩ := List.mem_flatten.mp hp
    exact hpss rs hrs p hp

theorem bundle_decodes_shot_and_cell :
    decodeBundle (bundlePayload [.gun 3 4 1 [7, 8], .cell 3 5 32] ++ bundlePayload [.chat 7 3 4 "hi"]) =
      some [.gun 3 4 1 [7, 8], .cell 3 5 32, .chat 7 3 4 "hi"] := by
  have hgun : (HbPacket.gun 3 4 1 [7, 8]).Built := ⟨by decide, trivial⟩
  have hchat : (HbPacket.chat 7 3 4 "hi").Built := ⟨by decide, trivial⟩
  exact (bundle_decodes (List.forall_mem_cons.mpr ⟨hgun, List.forall_mem_singleton.mpr (built_cell 3 5 32)⟩)
    (List.forall_mem_singleton.mpr hchat)).2.2.1

end OpenMines
