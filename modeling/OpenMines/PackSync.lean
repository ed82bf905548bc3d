import OpenMines.PackOverlay

namespace OpenMines

open Lib

namespace SubBatch

variable {batch : SubBatch} {ps : List HbPacket}

/-- The sub-packets in the order in which they were pushed. -/
def all (batch : SubBatch) : List HbPacket := batch.sent.flatten ++ batch.subPackets

@[simp] theorem all_push (p : HbPacket) : (batch.push p).all = batch.all ++ [p] := by
  simp [all, push]

@[simp] theorem all_pushAll (batch : SubBatch) (ps : List HbPacket) : (batch.pushAll ps).all = batch.all ++ ps := by
  induction ps generalizing batch with
  | nil => exact (List.append_nil _).symm
  | cons p ps ih =>
      refine (ih (batch.push p)).trans ?_
      rw [all_push, List.append_assoc, List.singleton_append]

theorem flatten_sent_flush : batch.flush.sent.flatten = batch.all := by
  rw [flush]
  split
  · rename_i hempty
    rw [all, hempty, List.append_nil]
  · simp [all]

@[simp] theorem all_flush : batch.flush.all = batch.all := by
  rw [flush]
  split
  · rfl
  · simp [all]

@[simp] theorem all_flushIfFull : batch.flushIfFull.all = batch.all := by
  rw [flushIfFull]
  split
  · exact all_flush
  · rfl

/-- Where the bundles end does not change what is sent. -/
theorem all_foldl_flushIfFull {α : Type} (batch : SubBatch) (f : α → List HbPacket) (xs : List α) :
    (xs.foldl (fun batch x => (batch.pushAll (f x)).flushIfFull) batch).all = batch.all ++ xs.flatMap f := by
  induction xs generalizing batch with
  | nil => exact (List.append_nil _).symm
  | cons x xs ih =>
      rw [List.foldl_cons, ih, all_flushIfFull, all_pushAll, List.flatMap_cons, List.append_assoc]

end SubBatch

/-- What a sub-packet says of the packs; a list that is too long is not sent. -/
def HbPacket.message : HbPacket → Option (Int32 × List HbPackItem)
  | .packs blockPos items => if items.length < 65536 then some (blockPos, items) else none
  | _ => none

def packMessages (ps : List HbPacket) : List (Int32 × List HbPackItem) := ps.filterMap HbPacket.message

theorem packMessages_cons (q : HbPacket) (ps : List HbPacket) :
    packMessages (q :: ps) = q.message.toList ++ packMessages ps := by
  cases h : q.message <;> simp [packMessages, h]

theorem packMessages_append (ps qs : List HbPacket) : packMessages (ps ++ qs) = packMessages ps ++ packMessages qs :=
  List.filterMap_append

theorem packMessages_nil {ps : List HbPacket} (h : ∀ p ∈ ps, p.message = none) : packMessages ps = [] :=
  List.filterMap_eq_nil_iff.mpr h

theorem bytes_packs_eq_nil {blockPos : Int32} {items : List HbPackItem} :
    (HbPacket.packs blockPos items).bytes = [] ↔ ¬ items.length < 65536 := by
  show hbPacks blockPos items = [] ↔ _
  rw [hbPacks, u16Count]
  by_cases h : items.length < 65536
  · simp [h]
  · simp [h]

namespace OverlayWorld

variable {s : OverlayWorld} {now : Int64} {player : PlayerId} {held : Set HbPackItem} {p : HbPackItem} {b : Int32}

section Client

theorem message_of_bytes_eq_nil {q : HbPacket} (h : q.bytes = []) : q.message = none := by
  cases q with
  | packs blockPos items => exact if_neg (bytes_packs_eq_nil.mp h)
  | _ => rfl

theorem receivePacket_eq {q : HbPacket} (h : q.bytes ≠ []) :
    s.receivePacket held q = Replica.receive s.block held q.message.toList := by
  cases q with
  | packs blockPos items =>
      have hmessage : (HbPacket.packs blockPos items).message = some (blockPos, items) :=
        if_pos (not_not.mp (mt bytes_packs_eq_nil.mpr h))
      rw [hmessage]
      rfl
  | _ => rfl

theorem bundlePayload_filter (ps : List HbPacket) :
    bundlePayload (ps.filter fun q => q.bytes ≠ []) = bundlePayload ps := by
  induction ps with
  | nil => rfl
  | cons q ps ih =>
      have happend : bundlePayload (q :: ps) = q.bytes ++ bundlePayload ps := rfl
      by_cases hq : q.bytes = []
      · rw [List.filter_cons_of_neg (by simpa using hq), ih, happend, hq, List.nil_append]
      · rw [List.filter_cons_of_pos (by simpa using hq), happend, ← ih]
        rfl

/-- A bundle tells the client what its sub-packets say. -/
theorem receiveBundle_bundlePayload {ps : List HbPacket} (hwhole : ∀ q ∈ ps, q.Whole) :
    s.receiveBundle held (bundlePayload ps) = Replica.receive s.block held (packMessages ps) := by
  have hbuilt : ∀ q ∈ ps.filter (fun q => q.bytes ≠ []), q.Built := by
    intro q hq
    obtain ⟨hmem, hne⟩ := List.mem_filter.mp hq
    exact ⟨of_decide_eq_true hne, hwhole q hmem⟩
  rw [receiveBundle, ← bundlePayload_filter, decodeBundle_bundlePayload hbuilt]
  clear hbuilt hwhole
  dsimp only
  induction ps generalizing held with
  | nil => rfl
  | cons q ps ih =>
      by_cases hq : q.bytes = []
      · rw [List.filter_cons_of_neg (by simpa using hq), packMessages_cons, message_of_bytes_eq_nil hq]
        exact ih
      · rw [List.filter_cons_of_pos (by simpa using hq), List.foldl_cons, receivePacket_eq hq, ih, packMessages_cons,
          Replica.receive_append]

theorem receiveBundles {pss : List (List HbPacket)} (hwhole : ∀ q ∈ pss.flatten, q.Whole) :
    (pss.map bundlePayload).foldl s.receiveBundle held = Replica.receive s.block held (packMessages pss.flatten) := by
  induction pss generalizing held with
  | nil => rfl
  | cons ps pss ih =>
      have hfirst : ∀ q ∈ ps, q.Whole := fun q hq => hwhole q (List.mem_append_left _ hq)
      have hrest : ∀ q ∈ pss.flatten, q.Whole := fun q hq => hwhole q (List.mem_append_right _ hq)
      rw [List.map_cons, List.foldl_cons, receiveBundle_bundlePayload hfirst, ih hrest, List.flatten_cons,
        packMessages_append, Replica.receive_append]

end Client

section Sender

theorem whole_enteringPackets {c : ChunkPos} {q : HbPacket} (hq : q ∈ s.enteringPackets player c) :
    q.Whole ∧ q.message = none := by
  simp only [enteringPackets, List.mem_append, List.mem_singleton, List.mem_filterMap, List.mem_map,
    Option.map_eq_some_iff] at hq
  rcases hq with (rfl | ⟨other, -, bot, -, rfl⟩) | ⟨spot, -, rfl⟩
  · exact ⟨List.length_ofFn, rfl⟩
  · exact ⟨trivial, rfl⟩
  · exact ⟨trivial, rfl⟩

theorem whole_leavingBots {c : ChunkPos} {q : HbPacket} (hq : q ∈ s.leavingBots player c) :
    q.Whole ∧ q.message = none := by
  simp only [leavingBots, List.mem_append, List.mem_map] at hq
  rcases hq with ⟨other, -, rfl⟩ | ⟨spot, -, rfl⟩
  · exact ⟨trivial, rfl⟩
  · exact ⟨trivial, rfl⟩

theorem packMessages_clears (bs : List Int32) : packMessages (bs.map fun b => .packs b []) = bs.map fun b => (b, []) := by
  induction bs with
  | nil => rfl
  | cons b bs ih =>
      rw [List.map_cons, packMessages_cons, ih]
      rfl

/-- What a step of the loop over the chunks that are left keeps: the blocks so far are those that it has cleared. -/
structure Leaves (s : OverlayWorld) (now : Int64) (before : SubBatch) (chunks : List ChunkPos)
    (r : List Int32 × SubBatch) : Prop where
  whole : ∀ q ∈ r.2.all, q ∈ before.all ∨ q.Whole
  tells : packMessages r.2.all = packMessages before.all ++ r.1.map fun b => (b, [])
  clears : ∀ b, b ∈ r.1 ↔ ∃ q ∈ s.visiblePacks now chunks, s.block q = some b

theorem mem_blocksToClear {cleared : List Int32} {c : ChunkPos} :
    b ∈ s.blocksToClear now cleared c ↔ (∃ q ∈ s.packsInSingleChunk now c, s.block q = some b) ∧ b ∉ cleared := by
  simp only [blocksToClear, List.mem_filter, List.mem_eraseDups, List.mem_filterMap, decide_eq_true_eq]

theorem Leaves.step {before : SubBatch} {chunks : List ChunkPos} {r : List Int32 × SubBatch}
    (h : Leaves s now before chunks r) (c : ChunkPos) :
    Leaves s now before (chunks ++ [c]) (s.leaveChunk now player r c) := by
  have hall : (s.leaveChunk now player r c).2.all = r.2.all ++ s.leavingBots player c ++
      (s.blocksToClear now r.1 c).map fun b => .packs b [] := by
    simp [leaveChunk]
  constructor
  case whole =>
    intro q hq
    simp only [hall, List.mem_append, List.mem_map] at hq
    rcases hq with (hq | hq) | ⟨b, -, rfl⟩
    · exact h.whole q hq
    · exact .inr (whole_leavingBots hq).1
    · exact .inr trivial
  case tells =>
    rw [hall, packMessages_append, packMessages_append, h.tells, packMessages_nil fun q hq => (whole_leavingBots hq).2,
      List.append_nil, packMessages_clears, List.append_assoc]
    exact congrArg _ List.map_append.symm
  case clears =>
    intro b
    have hmem : b ∈ (s.leaveChunk now player r c).1 ↔ b ∈ r.1 ∨ b ∈ s.blocksToClear now r.1 c := List.mem_append
    have hseen (q : HbPackItem) : q ∈ s.visiblePacks now (chunks ++ [c]) ↔
        q ∈ s.visiblePacks now chunks ∨ q ∈ s.packsInSingleChunk now c := by
      simp [visiblePacks]
    rw [hmem, mem_blocksToClear]
    simp only [hseen, or_and_right, exists_or, ← h.clears]
    by_cases hb : b ∈ r.1
    · simp [hb]
    · simp [hb]

variable (s now player) in
theorem leaves_foldl (before : SubBatch) (leaving : List ChunkPos) :
    Leaves s now before leaving (leaving.foldl (s.leaveChunk now player) ([], before)) := by
  induction leaving using List.reverseRecOn with
  | nil =>
      refine ⟨fun q hq => .inl hq, (List.append_nil _).symm, fun b => ?_⟩
      simp [visiblePacks]
  | append_singleton leaving c ih =>
      rw [List.foldl_append]
      exact ih.step c

variable (now player) in
/-- The packs that say something, in the order in which they are sent: the cleared blocks, then the visible ones. -/
theorem exists_messages (order : Alive.HashOrder (Int32 × List HbPackItem)) (pos : WorldPos)
    (view : PlayerView s.chunksW s.chunksH) (hmoved : view.lastChunk ≠ some (chunkPos pos)) :
    ∃ clears : List Int32, (∀ b, b ∈ clears ↔ ∃ q ∈ s.visiblePacks now (view.visibleChunks.filter
          (· ∉ visibleChunksAround s.chunksW s.chunksH (chunkPos pos))), s.block q = some b) ∧
      (∀ q ∈ (s.prepareChunkChanged now order player pos view).bundles.flatten, q.Whole) ∧
      packMessages (s.prepareChunkChanged now order player pos view).bundles.flatten =
        clears.map (fun b => (b, [])) ++
          (order.arrange (Replica.groups s.block (s.visiblePacks now
            (visibleChunksAround s.chunksW s.chunksH (chunkPos pos))))).filter fun m => m.2.length < 65536 := by
  have hentered := SubBatch.all_foldl_flushIfFull .new (s.enteringPackets player)
    ((visibleChunksAround s.chunksW s.chunksH (chunkPos pos)).filter (· ∉ view.visibleChunks))
  generalize hbefore : ((visibleChunksAround s.chunksW s.chunksH (chunkPos pos)).filter
    (· ∉ view.visibleChunks)).foldl (fun batch c => (batch.pushAll (s.enteringPackets player c)).flushIfFull)
      SubBatch.new = before at hentered
  have hbeforeAll : ∀ q ∈ before.all, q.Whole ∧ q.message = none := by
    intro q hq
    rw [hentered] at hq
    obtain ⟨c, -, hq⟩ := List.mem_flatMap.mp ((List.mem_append.mp hq).resolve_left List.not_mem_nil)
    exact whole_enteringPackets hq
  have hleaves := leaves_foldl s now player before
    (view.visibleChunks.filter (· ∉ visibleChunksAround s.chunksW s.chunksH (chunkPos pos)))
  generalize hr : (view.visibleChunks.filter (· ∉ visibleChunksAround s.chunksW s.chunksH (chunkPos pos))).foldl
    (s.leaveChunk now player) ([], before) = r at hleaves
  have hsent := SubBatch.all_foldl_flushIfFull r.2
    (fun g : Int32 × List HbPackItem => [HbPacket.packs g.1 g.2])
    (order.arrange (Replica.groups s.block (s.visiblePacks now
      (visibleChunksAround s.chunksW s.chunksH (chunkPos pos)))))
  have hflatten : (s.prepareChunkChanged now order player pos view).bundles.flatten = r.2.all ++
      (order.arrange (Replica.groups s.block (s.visiblePacks now
        (visibleChunksAround s.chunksW s.chunksH (chunkPos pos))))).flatMap fun g => [HbPacket.packs g.1 g.2] := by
    rw [prepareChunkChanged, if_neg hmoved]
    dsimp only
    rw [hbefore, hr, SubBatch.flatten_sent_flush]
    exact hsent
  refine ⟨r.1, hleaves.clears, fun q hq => ?_, ?_⟩
  · rw [hflatten, List.mem_append, List.mem_flatMap] at hq
    rcases hq with hq | ⟨g, -, hq⟩
    · exact (hleaves.whole q hq).elim (fun hq => (hbeforeAll q hq).1) id
    · obtain rfl := List.mem_singleton.mp hq
      trivial
  · rw [hflatten, packMessages_append, hleaves.tells, packMessages_nil fun q hq => (hbeforeAll q hq).2, List.nil_append]
    refine congrArg _ ?_
    generalize order.arrange _ = gs
    induction gs with
    | nil => rfl
    | cons g gs ih =>
        rw [List.flatMap_cons, List.singleton_append, packMessages_cons, ih]
        by_cases hlength : g.2.length < 65536
        · rw [List.filter_cons_of_pos (by simpa using hlength), HbPacket.message, if_pos hlength]
          rfl
        · rw [List.filter_cons_of_neg (by simpa using hlength), HbPacket.message, if_neg hlength]
          rfl

end Sender

section Sync

variable {order : Alive.HashOrder (Int32 × List HbPackItem)} {pos : WorldPos} {view : PlayerView s.chunksW s.chunksH}
  {pss : List (List HbPacket)}

theorem mem_groups_sent {packs : List HbPackItem} {m : Int32 × List HbPackItem}
    (hm : m ∈ (order.arrange (Replica.groups s.block packs)).filter fun m => m.2.length < 65536) :
    (∃ q ∈ packs, s.block q = some m.1) ∧ m.2 = packs.filter fun q => s.block q = some m.1 :=
  Replica.mem_groups.mp ((order.perm _).mem_iff.mp (List.mem_filter.mp hm).1)

theorem mem_sends {packs : List HbPackItem} : p ∈ Replica.receive s.block held
      ((order.arrange (Replica.groups s.block packs)).filter fun m => m.2.length < 65536) ↔
    (∃ m ∈ (order.arrange (Replica.groups s.block packs)).filter (fun m => m.2.length < 65536), p ∈ m.2) ∨
      p ∈ held ∧ ∀ m ∈ (order.arrange (Replica.groups s.block packs)).filter (fun m => m.2.length < 65536),
        s.block p ≠ some m.1 := by
  refine Replica.mem_receive_of_nodup ?_ fun m hm q hq => ?_
  · have hnodup := ((order.perm (Replica.groups s.block packs)).map Prod.fst).nodup_iff.mpr
      (Replica.nodup_groups packs)
    exact hnodup.sublist (List.filter_sublist.map Prod.fst)
  · rw [(mem_groups_sent hm).2, List.mem_filter] at hq
    exact of_decide_eq_true hq.2

theorem mem_overlay {chunks : List ChunkPos} :
    p ∈ s.overlay now chunks ↔ ∃ c ∈ chunks, p ∈ s.packsInSingleChunk now c := List.mem_flatMap

/-- A player that stays in its chunk is sent nothing. -/
theorem receive_stays (hstays : view.lastChunk = some (chunkPos pos))
    (hsplit : pss.flatten = (s.prepareChunkChanged now order player pos view).bundles.flatten) :
    (pss.map bundlePayload).foldl s.receiveBundle held = held := by
  rw [prepareChunkChanged, if_pos hstays] at hsplit
  have hwhole : ∀ q ∈ pss.flatten, q.Whole := by
    rw [hsplit]
    exact List.forall_mem_nil _
  rw [receiveBundles hwhole, hsplit]
  rfl

theorem visibleChunks_prepareChunkChanged (s : OverlayWorld) (now : Int64)
    (order : Alive.HashOrder (Int32 × List HbPackItem)) (player : PlayerId) (pos : WorldPos)
    (view : PlayerView s.chunksW s.chunksH) : (s.prepareChunkChanged now order player pos view).view.visibleChunks =
      visibleChunksAround s.chunksW s.chunksH (chunkPos pos) := by
  rw [prepareChunkChanged]
  split
  · rename_i hstays
    exact view.around _ hstays
  · rfl

/-- A pack without a block is neither sent nor cleared. -/
theorem mem_synced_of_none (hp : s.block p = none)
    (hsplit : pss.flatten = (s.prepareChunkChanged now order player pos view).bundles.flatten) :
    p ∈ (pss.map bundlePayload).foldl s.receiveBundle held ↔ p ∈ held := by
  by_cases hmoved : view.lastChunk = some (chunkPos pos)
  · rw [receive_stays hmoved hsplit]
  · obtain ⟨clears, -, hwhole, hmessages⟩ := exists_messages now player order pos view hmoved
    rw [receiveBundles fun q hq => hwhole q (hsplit ▸ hq), hsplit, hmessages, Replica.receive_append, mem_sends,
      Replica.mem_receive_clears]
    constructor
    · rintro (⟨m, hm, hpm⟩ | ⟨⟨hin, -⟩, -⟩)
      · rw [(mem_groups_sent hm).2, List.mem_filter] at hpm
        rw [hp] at hpm
        exact absurd (of_decide_eq_true hpm.2) (Option.some_ne_none _).symm
      · exact hin
    · intro hin
      rw [hp]
      exact .inr ⟨⟨hin, fun _ _ => (Option.some_ne_none _).symm⟩, fun _ _ => (Option.some_ne_none _).symm⟩

/-- A block that fits a packet is as it is in the chunks that are now visible. -/
theorem mem_synced_of_some (hp : s.block p = some b) (hheld : held = s.overlay now view.visibleChunks)
    (hfits : ((s.visiblePacks now (visibleChunksAround s.chunksW s.chunksH (chunkPos pos))).filter
      fun q => s.block q = some b).length ≤ 65535)
    (hsplit : pss.flatten = (s.prepareChunkChanged now order player pos view).bundles.flatten) :
    p ∈ (pss.map bundlePayload).foldl s.receiveBundle held ↔
      p ∈ s.overlay now (visibleChunksAround s.chunksW s.chunksH (chunkPos pos)) := by
  by_cases hmoved : view.lastChunk = some (chunkPos pos)
  · rw [receive_stays hmoved hsplit, hheld, view.around _ hmoved]
  · obtain ⟨clears, hclears, hwhole, hmessages⟩ := exists_messages now player order pos view hmoved
    rw [receiveBundles fun q hq => hwhole q (hsplit ▸ hq), hsplit, hmessages, Replica.receive_append, mem_sends,
      Replica.mem_receive_clears]
    constructor
    · rintro (⟨m, hm, hpm⟩ | ⟨⟨hin, hkept⟩, -⟩)
      · rw [(mem_groups_sent hm).2] at hpm
        exact (List.mem_filter.mp hpm).1
      · -- A pack that was visible in a chunk that is left has its block cleared.
        rw [hheld, mem_overlay] at hin
        obtain ⟨c, hc, hpc⟩ := hin
        by_contra hout
        have hleft : c ∉ visibleChunksAround s.chunksW s.chunksH (chunkPos pos) := fun hvisible =>
          hout (mem_overlay.mpr ⟨c, hvisible, hpc⟩)
        refine hkept b ((hclears b).mpr ⟨p, mem_overlay.mpr ⟨c, List.mem_filter.mpr ⟨hc, ?_⟩, hpc⟩, hp⟩) hp
        simpa using hleft
    · intro hvisible
      refine .inl ⟨(b, (s.visiblePacks now (visibleChunksAround s.chunksW s.chunksH (chunkPos pos))).filter
        fun q => s.block q = some b), ?_, List.mem_filter.mpr ⟨hvisible, by simpa using hp⟩⟩
      rw [List.mem_filter, (order.perm _).mem_iff, Replica.mem_groups]
      exact ⟨⟨⟨p, hvisible, hp⟩, rfl⟩, by simpa [Nat.lt_succ_iff] using hfits⟩

end Sync

/-- The packets of a chunk change leave the client with the packs of the chunks that are now visible, block by block,
however they are split into bundles. -/
theorem overlay_synced (s : OverlayWorld) (now : Int64) (order : Alive.HashOrder (Int32 × List HbPackItem))
    (player : PlayerId) (pos : WorldPos) (view : PlayerView s.chunksW s.chunksH) (held : Set HbPackItem)
    (hheld : held = s.overlay now view.visibleChunks) (pss : List (List HbPacket))
    (hsplit : pss.flatten = (s.prepareChunkChanged now order player pos view).bundles.flatten) :
    (s.prepareChunkChanged now order player pos view).view.visibleChunks =
        visibleChunksAround s.chunksW s.chunksH (chunkPos pos) ∧
      (∀ b, ((s.visiblePacks now (visibleChunksAround s.chunksW s.chunksH (chunkPos pos))).filter
          fun q => s.block q = some b).length ≤ 65535 → ∀ p, s.block p = some b →
        (p ∈ (pss.map bundlePayload).foldl s.receiveBundle held ↔
          p ∈ s.overlay now (visibleChunksAround s.chunksW s.chunksH (chunkPos pos)))) ∧
      ∀ p, s.block p = none → (p ∈ (pss.map bundlePayload).foldl s.receiveBundle held ↔ p ∈ held) :=
  ⟨s.visibleChunks_prepareChunkChanged now order player pos view,
    fun _ hfits _ hp => mem_synced_of_some hp hheld hfits hsplit, fun _ hp => mem_synced_of_none hp hsplit⟩

/-- A world of chunks with one teleport. -/
def oneStation (chunksW : UInt32) (pos : WorldPos) : OverlayWorld where
  chunksW := chunksW
  chunksH := 2048
  chunkCells _ _ := 32
  playersInChunk _ := []
  bot _ := none
  botspotsInChunk _ := []
  chunkBuildings c := if c = chunkPos pos then [⟨pos, .teleport, 0, 1, none⟩] else []
  session _ := none

def inOrder : Alive.HashOrder (Int32 × List HbPackItem) := ⟨id, fun _ => .refl _⟩

theorem overlay_synced_oneStation :
    ((oneStation 64 (100, 100)).prepareChunkChanged 0 inOrder 1 (100, 100) (.cleared 64 2048)).view.visibleChunks =
        visibleChunksAround 64 2048 (3, 3) ∧
      ((⟨84, 100, 100, 0, 1⟩ : HbPackItem) ∈ (((oneStation 64 (100, 100)).prepareChunkChanged 0 inOrder 1 (100, 100)
        (.cleared 64 2048)).bundles.map bundlePayload).foldl (oneStation 64 (100, 100)).receiveBundle ∅ ↔
          (⟨84, 100, 100, 0, 1⟩ : HbPackItem) ∈ (oneStation 64 (100, 100)).overlay 0 (visibleChunksAround 64 2048 (3, 3))) := by
  obtain ⟨hview, hblocks, -⟩ := overlay_synced (oneStation 64 (100, 100)) 0 inOrder 1 (100, 100) (.cleared 64 2048) ∅
    (Set.eq_empty_of_forall_notMem fun _ => List.not_mem_nil).symm _ rfl
  exact ⟨hview, hblocks 195 (by decide) ⟨84, 100, 100, 0, 1⟩ (by decide)⟩

/-- In the last rows of a wide world the number of a block does not fit, and a teleport there is never shown. -/
theorem unsent_wideWorld :
    ¬ ∀ (s : OverlayWorld) (now : Int64) (order : Alive.HashOrder (Int32 × List HbPackItem)) (player : PlayerId)
        (pos : WorldPos) (view : PlayerView s.chunksW s.chunksH) (held : Set HbPackItem),
      held = s.overlay now view.visibleChunks →
        ((s.prepareChunkChanged now order player pos view).bundles.map bundlePayload).foldl s.receiveBundle held =
          s.overlay now (s.prepareChunkChanged now order player pos view).view.visibleChunks := by
  intro h
  have hall := h (oneStation 2000000 (100, 65535)) 0 inOrder 1 (100, 65535) (.cleared _ _) ∅
    (Set.eq_empty_of_forall_notMem fun _ => List.not_mem_nil).symm
  rw [visibleChunks_prepareChunkChanged] at hall
  have hvisible : (⟨84, 100, 65535, 0, 1⟩ : HbPackItem) ∈
      (oneStation 2000000 (100, 65535)).overlay 0 (visibleChunksAround 2000000 2048 (chunkPos (100, 65535))) :=
    mem_overlay.mpr ⟨(3, 2047), by decide, by decide⟩
  exact (mem_synced_of_none (by decide) rfl).mp (hall ▸ hvisible)

end OverlayWorld

end OpenMines
