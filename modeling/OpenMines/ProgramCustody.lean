import OpenMines.PersistenceOnce
import OpenMines.ProgramOwners

namespace OpenMines.Persistence

open Lib.Statements Lib.Statements.Prog Lib.Run Database

variable {old : Database} {n : Int} {raise : Int → Int}

/-- A call of the store changes and shows the programs of one player only. -/
theorem triple_perform (hroom : n < 2147483647) (inputs : Inputs) (cmd : SaveCommand) (cmds : List SaveCommand) :
    Triple (Guard cmd.programmer old n) (perform raise inputs cmd cmds)
      (fun r d => Guard cmd.programmer old (n + 1) d ∧ Disclosed cmd r) (Guard cmd.programmer old (n + 1)) := by
  have hle : n ≤ n + 1 := Int.le_add_one (le_refl n)
  have hkeeps : ∀ {m : Sql StoreResult}, (∀ r, Disclosed cmd r) → Preserves (Guard cmd.programmer old n) m →
      Triple (Guard cmd.programmer old n) m (fun r d => Guard cmd.programmer old (n + 1) d ∧ Disclosed cmd r)
        (Guard cmd.programmer old (n + 1)) :=
    fun hshown h => h.weaken (fun _ hd => hd) (fun r d hd => ⟨hd.mono hle, hshown r⟩) fun d hd => hd.mono hle
  cases cmd with
  | program p program source => exact hkeeps (fun _ => trivial) (keeps_saveProgram program source)
  | programCreate p name =>
      exact (triple_createProgram hroom name).weaken (fun _ hd => hd) (fun _ _ hd => ⟨hd, trivial⟩) fun _ hd => hd
  | programOpen p program =>
      exact (triple_programOpen program).weaken (fun _ hd => hd) (fun _ _ hd => ⟨hd.1.mono hle, hd.2⟩)
        fun _ hd => hd.mono hle
  | programRename p program name =>
      exact (triple_programRename program name).weaken (fun _ hd => hd) (fun _ _ hd => ⟨hd.1.mono hle, hd.2⟩)
        fun _ hd => hd.mono hle
  | programDelete p program clearSelected =>
      exact hkeeps (fun _ => trivial) (keeps_programDelete program clearSelected)
  | programCopy p program =>
      exact (triple_copyProgram hroom program).weaken (fun _ hd => hd) (fun _ _ hd => ⟨hd, trivial⟩) fun _ hd => hd
  | chatAppend request =>
      have hmessages : Preserves (Guard none old n) (saveChatMessagesBatch (cmds.filterMap SaveCommand.chatMessage)) :=
        keeps_forEach fun message _ => keeps_addChatMessage message
      exact hkeeps (fun _ => trivial) (hmessages.andThen fun _ => keeps_ret _)
  | _ => exact hkeeps (fun _ => trivial) (keeps_perform blind_guard rfl (fun h => by cases h) inputs cmds)

namespace Worker

variable {s t : Worker} {base : Database}

/-- What the worker has done of the programs, and for whom. -/
structure Custody (base : Database) (n : Int) (s : Worker) : Prop where
  owned : s.db.Owned
  room : s.db.lastProgram.toInt ≤ n
  waiting : ∀ cmd ∈ s.batch ++ s.queue, cmd ∈ s.admitted
  others : ∀ q, (∀ cmd ∈ s.admitted, cmd.programmer ≠ some q) → s.db.programsOf q = base.programsOf q
  disclosed : ∀ c ∈ s.completions, Disclosed c.1 c.2

theorem Custody.attempt {fails : Nat → Bool} {inputs : Inputs} {cmd : SaveCommand} {rest : List SaveCommand}
    (h : s.Custody base n) (hroom : n < 2147483647) (hbatch : s.batch = cmd :: rest) :
    (s.attempt raise fails inputs cmd).Custody base (n + 1) := by
  have htriple : Triple (Guard cmd.programmer s.db n) (perform raise inputs cmd (group s.batch))
      (fun r d => Guard cmd.programmer s.db (n + 1) d ∧ Disclosed cmd r) (Guard cmd.programmer s.db (n + 1)) :=
    triple_perform hroom inputs cmd (group s.batch)
  have hguard : Guard cmd.programmer s.db n s.db := ⟨h.owned, h.room, fun _ _ => rfl⟩
  let answer := perform raise inputs cmd (group s.batch) fails s.db
  have hafter : Guard cmd.programmer s.db (n + 1) answer.data :=
    htriple.data (fun _ _ hd => hd.1) (fun _ hd => hd) hguard
  have hshown : ∀ r, answer.result = .ok r → Disclosed cmd r := fun r hr => ((htriple fails s.db hguard).1 r hr).2
  have hadmitted : cmd ∈ s.admitted := h.waiting cmd (by rw [hbatch]; exact List.mem_cons_self)
  have hothers : ∀ q, (∀ c ∈ s.admitted, c.programmer ≠ some q) → answer.data.programsOf q = base.programsOf q :=
    fun q hq => (hafter.others q (hq cmd hadmitted)).trans (h.others q hq)
  have hfinish : ∀ completion, (∀ c ∈ completion, Disclosed c.1 c.2) →
      (s.finish (group s.batch) inputs answer.data completion).Custody base (n + 1) := by
    intro completion hcompletion
    refine ⟨hafter.owned, hafter.room, fun c hc => ?_, hothers, fun c hc => ?_⟩
    · refine h.waiting c ?_
      rcases List.mem_append.mp hc with hc | hc
      · exact List.mem_append_left _ (List.mem_of_mem_drop hc)
      · exact List.mem_append_right _ hc
    · rcases List.mem_append.mp hc with hc | hc
      · exact h.disclosed c hc
      · exact hcompletion c hc
  have hagain : ({ s with db := answer.data, attempts := s.attempts + 1 } : Worker).Custody base (n + 1) :=
    ⟨hafter.owned, hafter.room, h.waiting, hothers, h.disclosed⟩
  have hfailed : Disclosed cmd .permanentFailure := by
    cases cmd <;> exact trivial
  rw [Worker.attempt]
  split
  · split
    · exact hfinish [] (List.forall_mem_nil _)
    · exact hagain
  · split
    · rename_i result hresult
      exact hfinish _ (List.forall_mem_singleton.mpr (hshown result hresult))
    · exact hfinish _ (List.forall_mem_singleton.mpr hfailed)
    · split
      · exact hfinish _ (List.forall_mem_singleton.mpr hfailed)
      · exact hagain

theorem Custody.step {event : WorkerEvent} (h : s.Custody base n) (hroom : n < 2147483647)
    (hstep : s.step raise event = some t) : t.Custody base (n + 1) := by
  have hle : n ≤ n + 1 := Int.le_add_one (le_refl n)
  cases event with
  | accept cmd =>
      obtain rfl := Option.some.inj hstep
      refine ⟨h.owned, h.room.trans hle, fun c hc => ?_, fun q hq => ?_, h.disclosed⟩
      · dsimp only at hc ⊢
        rw [← List.append_assoc] at hc
        rcases List.mem_append.mp hc with hc | hc
        · exact List.mem_append_left _ (h.waiting c hc)
        · exact List.mem_append_right _ hc
      · exact h.others q fun c hc => hq c (List.mem_append_left _ hc)
  | receive more =>
      rw [Worker.step] at hstep
      split at hstep
      · rename_i first rest hbatch hqueue
        obtain rfl := Option.some.inj hstep
        refine ⟨h.owned, h.room.trans hle, fun c hc => h.waiting c ?_, h.others, h.disclosed⟩
        rw [hbatch, hqueue]
        dsimp only at hc
        rwa [List.cons_append, List.take_append_drop] at hc
      · cases hstep
  | attempt fails inputs =>
      rw [Worker.step] at hstep
      split at hstep
      · cases hstep
      · rename_i cmd rest hbatch
        exact Option.some.inj hstep ▸ h.attempt hroom hbatch
  | wait =>
      obtain rfl := Option.some.inj hstep
      exact ⟨h.owned, h.room.trans hle, h.waiting, h.others, h.disclosed⟩

theorem Custody.run {es : List WorkerEvent} (h : s.Custody base n) (hroom : n + es.length ≤ 2147483647)
    (hrun : Lib.Run.run (Worker.step raise) s es = some t) : t.Custody base (n + es.length) := by
  induction es generalizing s n with
  | nil =>
      cases hrun
      simpa using h
  | cons e es ih =>
      obtain ⟨u, hu, hrest⟩ := run_cons_eq_some.mp hrun
      rw [List.length_cons] at hroom ⊢
      have hnext := ih (n := n + 1) (h.step (by omega) hu) (by omega) hrest
      have hsum : n + 1 + (es.length : Int) = n + ((es.length + 1 : Nat) : Int) := by omega
      exact hsum ▸ hnext

/-- The worker that starts on a database. -/
def fresh (db : Database) : Worker := ⟨db, [], [], 0, [], [], []⟩

/-- Whatever commands the players send, and wherever in a command a statement fails: a selected program is the
player's own, a program is opened and renamed for its player only, and who sends no command about programs keeps the
own ones as they were. -/
theorem programs_owned {db : Database} {es : List WorkerEvent} (howned : db.Owned)
    (hroom : db.lastProgram.toInt + es.length ≤ 2147483647)
    (hrun : Lib.Run.run (Worker.step raise) (fresh db) es = some s) :
    s.db.Owned ∧ (∀ c ∈ s.completions, Disclosed c.1 c.2) ∧
      ∀ q, (∀ cmd ∈ s.admitted, cmd.programmer ≠ some q) → s.db.programsOf q = db.programsOf q := by
  have hstart : (fresh db).Custody db db.lastProgram.toInt :=
    ⟨howned, le_refl _, List.forall_mem_nil _, fun _ _ => rfl, List.forall_mem_nil _⟩
  have hcustody := hstart.run hroom hrun
  exact ⟨hcustody.owned, hcustody.disclosed, hcustody.others⟩

def oneProgram : Database := { emptyDatabase with programs := [⟨1, 7, "dig", ""⟩], lastProgram := 1 }

theorem owned_oneProgram : oneProgram.Owned where
  ids := List.nodup_singleton _
  bound := List.forall_mem_singleton.mpr (le_refl _)
  selected := List.forall_mem_nil _
  selected_le := List.forall_mem_nil _

/-- Another player opens the program, and then deletes it. -/
theorem programs_owned_dig : ∃ s, Lib.Run.run (Worker.step id) (fresh oneProgram)
      [.accept (.programOpen 8 1), .accept (.programDelete 8 1 true), .receive 1, .attempt (fun _ => false) ⟨0, 0⟩,
        .attempt (fun _ => false) ⟨0, 0⟩] = some s ∧ s.batch = [] ∧ s.db.programsOf 7 = [⟨1, 7, "dig", ""⟩] := by
  obtain ⟨s, hrun, hbatch, hadmitted⟩ : ∃ s, Lib.Run.run (Worker.step id) (fresh oneProgram)
      [.accept (.programOpen 8 1), .accept (.programDelete 8 1 true), .receive 1, .attempt (fun _ => false) ⟨0, 0⟩,
        .attempt (fun _ => false) ⟨0, 0⟩] = some s ∧ s.batch = [] ∧
      s.admitted = [.programOpen 8 1, .programDelete 8 1 true] := ⟨_, rfl, rfl, rfl⟩
  obtain ⟨-, -, hothers⟩ := programs_owned owned_oneProgram (by decide) hrun
  refine ⟨s, hrun, hbatch, (hothers 7 fun cmd hcmd => ?_).trans rfl⟩
  rw [hadmitted] at hcmd
  rcases List.mem_pair.mp hcmd with rfl | rfl <;> decide

end Worker

end OpenMines.Persistence
