import OpenMines.StoreFrames

namespace OpenMines.Persistence

open Lib.Statements Lib.Statements.Prog Lib.Run Database

def Database.programsOf (d : Database) (player : PlayerId) : List ProgramRow :=
  d.programs.filter fun p => p.playerId = player

/-- A selected program that exists belongs to the player, and no program to come gets its number. -/
structure Database.Owned (d : Database) : Prop where
  ids : (d.programs.map ProgramRow.id).Nodup
  bound : ∀ p ∈ d.programs, p.id.toInt ≤ d.lastProgram.toInt
  selected : ∀ r ∈ d.players, ∀ p ∈ d.programs, r.selectedProgramId = some p.id → p.playerId = r.id
  selected_le : ∀ r ∈ d.players, ∀ id, r.selectedProgramId = some id → id.toInt ≤ d.lastProgram.toInt

/-- The programs of all but one player are the old ones. -/
structure Guard (who : Option PlayerId) (old : Database) (n : Int) (d : Database) : Prop where
  owned : d.Owned
  room : d.lastProgram.toInt ≤ n
  others : ∀ q, who ≠ some q → d.programsOf q = old.programsOf q

/-- A program is shown to its player only. -/
def Disclosed : SaveCommand → StoreResult → Prop
  | .programOpen p _, .programOpened row => row.playerId = p
  | .programRename p _ _, .programRenamed row => row.playerId = p
  | _, _ => True

variable {d d' old : Database} {who : Option PlayerId} {player : PlayerId} {n : Int} {I : Database → Prop}
  {raise : Int → Int}

theorem Database.Owned.same (h : d.Owned) (hsame : Same d d') : d'.Owned where
  ids := hsame.programs ▸ h.ids
  bound p hp := hsame.lastProgram ▸ h.bound p (hsame.programs ▸ hp)
  selected r' hr' p hp hselected := by
    obtain ⟨r, hr, hid, hprogram⟩ := hsame.selections r' hr'
    rw [hid]
    exact h.selected r hr p (hsame.programs ▸ hp) (hprogram ▸ hselected)
  selected_le r' hr' id hselected := by
    obtain ⟨r, hr, -, hprogram⟩ := hsame.selections r' hr'
    rw [hsame.lastProgram]
    exact h.selected_le r hr id (hprogram ▸ hselected)

theorem blind_guard : Blind (Guard who old n) := fun d d' hsame h =>
  ⟨h.owned.same hsame, hsame.lastProgram ▸ h.room, fun q hq => by
    rw [← h.others q hq, programsOf, programsOf, hsame.programs]⟩

theorem keeps_addChatMessage (message : ChatAppendRequest) : Preserves (Guard who old n) (addChatMessage message) := by
  refine keeps_statement fun d a d' hd hf => ?_
  split at hf
  · cases hf
  · obtain ⟨-, rfl⟩ := Prod.mk.inj (Option.some.inj hf)
    exact ⟨⟨hd.owned.ids, hd.owned.bound, hd.owned.selected, hd.owned.selected_le⟩, hd.room, hd.others⟩

/-! ### The statements about programs -/

section Programs

/-- The programs of a player after an update of those of another one. -/
theorem programsOf_map {f : ProgramRow → ProgramRow} {q : PlayerId} (hplayer : ∀ p, (f p).playerId = p.playerId)
    (hother : ∀ p ∈ d.programs, p.playerId = q → f p = p) :
    { d with programs := d.programs.map f }.programsOf q = d.programsOf q := by
  rw [programsOf, programsOf, List.filter_map]
  have hfilter : d.programs.filter ((fun p => decide (p.playerId = q)) ∘ f) =
      d.programs.filter fun p => decide (p.playerId = q) :=
    List.filter_congr fun p _ => by rw [Function.comp_apply, hplayer]
  rw [hfilter]
  refine (List.map_congr_left fun p hp => ?_).trans (List.map_id _)
  obtain ⟨hmem, hq⟩ := List.mem_filter.mp hp
  exact hother p hmem (of_decide_eq_true hq)

/-- An update of the text or the name of programs. -/
theorem Guard.map {f : ProgramRow → ProgramRow} (h : Guard who old n d)
    (hf : ∀ p, (f p).id = p.id ∧ (f p).playerId = p.playerId)
    (hown : ∀ p ∈ d.programs, f p ≠ p → who = some p.playerId) :
    Guard who old n { d with programs := d.programs.map f } where
  owned := by
    refine ⟨?_, List.forall_mem_map.mpr fun p hp => (hf p).1 ▸ h.owned.bound p hp, fun r hr => ?_, h.owned.selected_le⟩
    · have hids : (d.programs.map f).map ProgramRow.id = d.programs.map ProgramRow.id := by
        rw [List.map_map]
        exact List.map_congr_left fun p _ => (hf p).1
      exact hids ▸ h.owned.ids
    · refine List.forall_mem_map.mpr fun p hp hselected => ?_
      rw [(hf p).1] at hselected
      rw [(hf p).2]
      exact h.owned.selected r hr p hp hselected
  room := h.room
  others q hq := by
    rw [← h.others q hq]
    refine programsOf_map (fun p => (hf p).2) fun p hp hplayer => ?_
    by_contra hne
    exact hq (hplayer ▸ hown p hp hne)

theorem Guard.select {selection : Option Int32} (h : Guard who old n d)
    (hown : ∀ p ∈ d.programs, selection = some p.id → p.playerId = player)
    (hle : ∀ id, selection = some id → id.toInt ≤ d.lastProgram.toInt) :
    Guard who old n (d.selectProgram player selection) where
  owned := by
    refine ⟨h.owned.ids, h.owned.bound, List.forall_mem_map.mpr fun r hr p hp => ?_,
      List.forall_mem_map.mpr fun r hr id => ?_⟩
    · split
      · rename_i hid
        exact fun hselected => (hown p hp hselected).trans hid.symm
      · exact h.owned.selected r hr p hp
    · split
      · exact hle id
      · exact h.owned.selected_le r hr id
  room := h.room
  others := h.others

theorem Guard.delete {program : Int32} (h : Guard (some player) old n d) : Guard (some player) old n
    { d with programs := d.programs.filter fun p => ¬ (p.id = program ∧ p.playerId = player) } where
  owned := by
    refine ⟨h.owned.ids.sublist (List.filter_sublist.map _), fun p hp => h.owned.bound p (List.mem_of_mem_filter hp),
      fun r hr p hp => h.owned.selected r hr p (List.mem_of_mem_filter hp), h.owned.selected_le⟩
  room := h.room
  others q hq := by
    rw [← h.others q hq, programsOf, programsOf, List.filter_filter]
    refine List.filter_congr fun p _ => ?_
    by_cases hp : p.playerId = q
    · have hne : q ≠ player := fun heq => hq (congrArg some heq.symm)
      simp [hp, hne]
    · simp [hp]

theorem toInt_next {a : Int32} (h : a.toInt < 2147483647) : (a + 1).toInt = a.toInt + 1 := by
  have hlow := a.le_toInt
  have hone : (1 : Int32).toInt = 1 := rfl
  rw [Int32.toInt_add, hone, Int.bmod_def]
  omega

theorem Guard.insert {name code : String} (h : Guard (some player) old n d) (hroom : n < 2147483647) :
    Guard (some player) old (n + 1)
      { d with
        programs := d.programs ++ [⟨d.lastProgram + 1, player, name, code⟩]
        lastProgram := d.lastProgram + 1 } where
  owned := by
    have hnext := toInt_next (Int.lt_of_le_of_lt h.room hroom)
    have hnew : ∀ id : Int32, id.toInt ≤ d.lastProgram.toInt → id ≠ d.lastProgram + 1 := by
      rintro id hid rfl
      omega
    refine ⟨?_, fun p hp => ?_, fun r hr p hp hselected => ?_, fun r hr id hselected => ?_⟩
    · rw [List.map_append]
      refine List.nodup_append.mpr ⟨h.owned.ids, List.nodup_singleton _, fun i hi j hj => ?_⟩
      obtain ⟨p, hp, rfl⟩ := List.mem_map.mp hi
      rw [List.mem_singleton.mp hj]
      exact hnew p.id (h.owned.bound p hp)
    · dsimp only
      rw [hnext]
      rcases List.mem_append.mp hp with hp | hp
      · have hbound := h.owned.bound p hp
        omega
      · rw [List.mem_singleton.mp hp, hnext]
    · rcases List.mem_append.mp hp with hp | hp
      · exact h.owned.selected r hr p hp hselected
      · rw [List.mem_singleton.mp hp] at hselected
        exact absurd rfl (hnew _ (h.owned.selected_le r hr _ hselected))
    · have hbound := h.owned.selected_le r hr id hselected
      dsimp only
      rw [hnext]
      omega
  room := by
    rw [toInt_next (Int.lt_of_le_of_lt h.room hroom)]
    exact Int.add_le_add_right h.room 1
  others q hq := by
    rw [← h.others q hq, programsOf, programsOf, List.filter_append]
    have hne : player ≠ q := fun heq => hq (congrArg some heq)
    simp [hne]

theorem Database.Owned.unique (h : d.Owned) {p p' : ProgramRow} (hp : p ∈ d.programs) (hp' : p' ∈ d.programs)
    (hid : p.id = p'.id) : p = p' := List.inj_on_of_nodup_map h.ids hp hp' hid

theorem getProgram_eq_some {program : Int32} {row : ProgramRow} (h : d.getProgram program = some row) :
    row ∈ d.programs ∧ row.id = program := by
  have hid := List.find?_some h
  rw [decide_eq_true_eq] at hid
  exact ⟨List.mem_of_find?_eq_some h, hid⟩

theorem Guard.mono {m : Int} (h : Guard who old n d) (hle : n ≤ m) : Guard who old m d :=
  ⟨h.owned, h.room.trans hle, h.others⟩

/-- The selection of an own program. -/
theorem Guard.selectOwn {row : ProgramRow} (h : Guard who old n d) (hrow : row ∈ d.programs) :
    Guard who old n (d.selectProgram row.playerId (some row.id)) :=
  h.select (fun _ hp hid => (congrArg ProgramRow.playerId (h.owned.unique hp hrow (Option.some.inj hid).symm)))
    fun _ hid => Option.some.inj hid ▸ h.owned.bound row hrow

theorem keeps_saveProgram (program : Int32) (source : String) :
    Preserves (Guard (some player) old n) (saveProgram player program source) := by
  have hselect : Preserves (Guard (some player) old n) (saveSelectProgram player program source) := by
    refine triple_transaction (fun d₀ hd₀ => ?_) fun _ hd => hd
    refine Triple.bind (M := fun updated d => Guard (some player) old n d ∧
      (updated = true → ∃ row ∈ d.programs, row.playerId = player ∧ row.id = program)) ?_ fun updated => ?_
    · refine triple_statement (fun d a d' hd hf => ?_) fun _ _ => trivial
      obtain ⟨rfl, rfl⟩ := Prod.mk.inj (Option.some.inj hf)
      subst hd
      refine ⟨hd₀.map (fun p => ?_) fun p hp hne => ?_, fun hupdated => ?_⟩
      · split <;> exact ⟨rfl, rfl⟩
      · split at hne
        · rename_i hown
          rw [hown.2]
        · exact absurd rfl hne
      · obtain ⟨row, hrow, hown⟩ := List.any_eq_true.mp hupdated
        rw [decide_eq_true_eq] at hown
        exact ⟨_, List.mem_map_of_mem hrow, by rw [if_pos hown]; exact hown.2, by rw [if_pos hown]; exact hown.1⟩
    · split
      · rename_i hupdated
        refine Triple.bind (M := fun _ d => Guard (some player) old n d) ?_ fun selected => ?_
        · refine triple_statement (fun d a d' hd hf => ?_) fun _ _ => trivial
          obtain ⟨-, rfl⟩ := Prod.mk.inj (Option.some.inj hf)
          obtain ⟨row, hrow, rfl, rfl⟩ := hd.2 hupdated
          exact hd.1.selectOwn hrow
        · split
          · refine Triple.bind (M := fun _ d => Guard (some player) old n d) ?_ fun row => triple_ret fun d hd => hd
            refine triple_statement (fun d a d' hd hf => ?_) fun _ _ => trivial
            obtain ⟨row, -, hrow⟩ := Option.map_eq_some_iff.mp hf
            obtain ⟨-, rfl⟩ := Prod.mk.inj hrow
            exact hd
          · exact triple_ret fun d _ => hd₀
      · exact triple_ret fun d _ => hd₀
  refine hselect.bind fun r => ?_
  cases r with
  | saved row => exact keeps_ret _
  | programUnavailable => exact keeps_ret _
  | playerUnavailable => exact keeps_fail _

/-- A program that is inserted is the player's, and has a number of its own. -/
theorem triple_insertProgram (hroom : n < 2147483647) (name code : String) :
    Triple (Guard (some player) old n) (insertProgram player name code)
      (fun id d => Guard (some player) old (n + 1) d ∧ ∃ row ∈ d.programs, row.playerId = player ∧ row.id = id)
      (Guard (some player) old (n + 1)) := by
  refine triple_statement (fun d a d' hd hf => ?_) fun d hd => hd.mono (Int.le_add_one (le_refl n))
  split at hf
  · obtain ⟨rfl, rfl⟩ := Prod.mk.inj (Option.some.inj hf)
    exact ⟨hd.insert hroom, _, List.mem_append_right _ (List.mem_singleton.mpr rfl), rfl, rfl⟩
  · cases hf

theorem triple_createProgram (hroom : n < 2147483647) (name : String) :
    Triple (Guard (some player) old n) (createProgram player name) (fun _ => Guard (some player) old (n + 1))
      (Guard (some player) old (n + 1)) := by
  refine (triple_insertProgram hroom name "").bind fun id => ?_
  refine Triple.bind (M := fun _ => Guard (some player) old (n + 1)) ?_ fun _ => triple_ret fun _ hd => hd
  refine Triple.swallow (Q := fun _ => Guard (some player) old (n + 1)) (R := Guard (some player) old (n + 1)) ?_
    (fun _ _ hd => hd) fun _ _ hd => hd
  refine triple_statement (fun d a d' hd hf => ?_) fun _ hd => hd.1
  obtain ⟨-, rfl⟩ := Prod.mk.inj (Option.some.inj hf)
  obtain ⟨hguard, row, hrow, rfl, rfl⟩ := hd
  exact hguard.selectOwn hrow

theorem triple_programOpen (program : Int32) :
    Triple (Guard (some player) old n) (programOpen player program)
      (fun r d => Guard (some player) old n d ∧ Disclosed (.programOpen player program) r)
      (Guard (some player) old n) := by
  refine Triple.bind (M := fun found d => Guard (some player) old n d ∧ d.getProgram program = found)
    (triple_read (fun d hd => ⟨hd, rfl⟩) fun _ hd => hd) fun found => ?_
  cases found with
  | none => exact triple_ret fun d hd => ⟨hd.1, trivial⟩
  | some row =>
      dsimp only
      split
      · exact triple_ret fun d hd => ⟨hd.1, trivial⟩
      · rename_i hown
        obtain rfl := not_not.mp hown
        refine Triple.bind (M := fun _ => Guard (some row.playerId) old n) ?_ fun _ => triple_ret fun d hd => ⟨hd, rfl⟩
        refine triple_statement (fun d a d' hd hf => ?_) fun _ hd => hd.1
        obtain ⟨-, rfl⟩ := Prod.mk.inj (Option.some.inj hf)
        exact hd.1.selectOwn (getProgram_eq_some hd.2).1

theorem triple_programRename (program : Int32) (name : String) :
    Triple (Guard (some player) old n) (programRename player program name)
      (fun r d => Guard (some player) old n d ∧ Disclosed (.programRename player program name) r)
      (Guard (some player) old n) := by
  refine Triple.bind (M := fun found d => Guard (some player) old n d ∧ d.getProgram program = found)
    (triple_read (fun d hd => ⟨hd, rfl⟩) fun _ hd => hd) fun found => ?_
  cases found with
  | none => exact triple_ret fun d hd => ⟨hd.1, trivial⟩
  | some row =>
      dsimp only
      split
      · exact triple_ret fun d hd => ⟨hd.1, trivial⟩
      · rename_i hown
        obtain rfl := not_not.mp hown
        refine Triple.bind (M := fun _ => Guard (some row.playerId) old n) ?_ fun _ => triple_ret fun d hd => ⟨hd, rfl⟩
        refine triple_statement (fun d a d' hd hf => ?_) fun _ hd => hd.1
        split at hf
        · obtain ⟨-, rfl⟩ := Prod.mk.inj (Option.some.inj hf)
          obtain ⟨hrow, rfl⟩ := getProgram_eq_some hd.2
          refine hd.1.map (fun p => ?_) fun p hp hne => ?_
          · split <;> exact ⟨rfl, rfl⟩
          · split at hne
            · rename_i hid
              rw [hd.1.owned.unique hp hrow hid]
            · exact absurd rfl hne
        · cases hf

theorem keeps_programDelete (program : Int32) (clearSelected : Bool) :
    Preserves (Guard (some player) old n) (programDelete player program clearSelected) := by
  refine (keeps_statement fun d a d' hd hf => ?_).bind fun deleted => ?_
  · obtain ⟨-, rfl⟩ := Prod.mk.inj (Option.some.inj hf)
    exact hd.delete
  · split
    · split
      · refine (Preserves.swallow (keeps_statement fun d a d' hd hf => ?_)).bind fun _ => keeps_ret _
        obtain ⟨-, rfl⟩ := Prod.mk.inj (Option.some.inj hf)
        exact hd.select (fun _ _ h => by cases h) fun _ h => by cases h
      · exact keeps_ret _
    · exact keeps_ret _

theorem triple_copyProgram (hroom : n < 2147483647) (program : Int32) :
    Triple (Guard (some player) old n) (copyProgram player program) (fun _ => Guard (some player) old (n + 1))
      (Guard (some player) old (n + 1)) := by
  have hmono : ∀ d, Guard (some player) old n d → Guard (some player) old (n + 1) d :=
    fun d hd => hd.mono (Int.le_add_one (le_refl n))
  refine Triple.bind (M := fun _ => Guard (some player) old n) (triple_read (fun _ hd => hd) hmono) fun found => ?_
  cases found with
  | none => exact triple_ret hmono
  | some row =>
      dsimp only
      split
      · exact triple_ret hmono
      · refine Triple.bind (M := fun _ => Guard (some player) old (n + 1)) ?_ fun r => ?_
        · exact (triple_insertProgram hroom _ _).swallow (fun _ _ hd => hd.1) fun _ _ hd => hd
        · split <;> exact triple_ret fun _ hd => hd

end Programs

end OpenMines.Persistence
