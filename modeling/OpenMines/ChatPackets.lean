import OpenMines.Gui

namespace OpenMines.ChatPackets

open Lib Lib.JsonText

def chatHistoryLimit : Nat := 50

structure ChatMessage where
  id : Int64
  time : Int64
  clanId : Int32
  userId : Int32
  nickname : String
  text : String
  color : Int32

/-- Two letters fewer than the compact writer has; the signs are written by their numbers. -/
def chatEscapes : Escapes where
  short c :=
    match c with
    | '"' => some '"'
    | '\\' => some '\\'
    | '\n' => some 'n'
    | '\r' => some 'r'
    | '\t' => some 't'
    | _ => none
  sound c e h := by
    split at h <;> cases h <;> rfl
  quote := rfl
  backslash := rfl

def jsonEscape (s : String) : List Char := s.toList.flatMap (writeChar chatEscapes)

def fieldSign : Char := '±'

def ChatMessage.quoted (m : ChatMessage) : List Char :=
  '"' :: (Text.decimal m.id.toInt ++ fieldSign :: (Text.decimal m.color.toInt ++ fieldSign ::
    (Text.decimal m.clanId.toInt ++ fieldSign :: (Text.decimal m.time.toInt ++ fieldSign ::
      (jsonEscape m.nickname ++ fieldSign :: (jsonEscape m.text ++ fieldSign ::
        (Text.decimal m.userId.toInt ++ ['"']))))))) 

/-- The last messages, as many as the client keeps. -/
def recent (messages : List ChatMessage) : List ChatMessage := messages.drop (messages.length - chatHistoryLimit)

def chatMessages (tag : String) (messages : List ChatMessage) : List UInt8 :=
  Utf8.toUtf8 ('{' :: ("\"ch\":\"".toList ++ (tag.toList ++ ("\",\"h\":[".toList ++
    ([','].intercalate ((recent messages).map ChatMessage.quoted) ++ [']', '}'])))))

/-! ### The client -/

def readId (cs : List Char) : Option Int64 := (Text.parseI64 (String.ofList cs)).map Int64.ofInt

def readI32 (cs : List Char) : Option Int32 := Text.parseI32 (String.ofList cs)

/-- A message has seven fields. -/
def readMessage (s : String) : Option ChatMessage :=
  match s.toList.splitOn fieldSign with
  | [id, color, clanId, time, nickname, text, userId] => do
    let id ← readId id
    let color ← readI32 color
    let clanId ← readI32 clanId
    let time ← readId time
    let userId ← readI32 userId
    some ⟨id, time, clanId, userId, String.ofList nickname, String.ofList text, color⟩
  | _ => none

def readItem : Document → Option ChatMessage
  | .str s => readMessage s
  | _ => none

def readHistory : Document → Option (String × List ChatMessage)
  | .obj [("ch", .str tag), ("h", .arr items)] => (items.mapM readItem).map fun messages => (tag, messages)
  | _ => none

def readChat (bytes : List UInt8) : Option (String × List ChatMessage) :=
  (Utf8.fromUtf8 bytes).bind fun cs => (read cs).bind readHistory

/-! ### The bytes are those of a writer -/

/-- The fields before they are quoted. -/
def ChatMessage.fields (m : ChatMessage) : List (List Char) :=
  [Text.decimal m.id.toInt, Text.decimal m.color.toInt, Text.decimal m.clanId.toInt, Text.decimal m.time.toInt,
    m.nickname.toList, m.text.toList, Text.decimal m.userId.toInt]

def ChatMessage.joined (m : ChatMessage) : String := String.ofList ([fieldSign].intercalate m.fields)

/-- The character is written as it is. -/
def Plain (c : Char) : Prop := c ≠ '"' ∧ c ≠ '\\' ∧ 32 ≤ c.toNat

instance (c : Char) : Decidable (Plain c) := inferInstanceAs (Decidable (_ ∧ _ ∧ _))

theorem writeChar_plain {c : Char} (h : Plain c) : writeChar chatEscapes c = [c] := by
  obtain ⟨hquote, hslash, hcontrol⟩ := h
  have hne (d : Char) (hd : d.toNat < 32) : c ≠ d := by
    rintro rfl
    omega
  have hshort : chatEscapes.short c = none := by
    simp [chatEscapes, hne '\n' (by decide), hne '\r' (by decide), hne '\t' (by decide)]
  rw [writeChar, hshort]
  exact if_neg (by omega)

theorem flatMap_plain {cs : List Char} (h : ∀ c ∈ cs, Plain c) : cs.flatMap (writeChar chatEscapes) = cs := by
  induction cs with
  | nil => rfl
  | cons c cs ih =>
      rw [List.flatMap_cons, writeChar_plain (h c List.mem_cons_self), ih fun d hd => h d (List.mem_cons_of_mem _ hd)]
      rfl

theorem plain_decimal (n : Int) : ∀ c ∈ Text.decimal n, Plain c := by
  intro c hc
  rcases Text.isDigit_of_decimal hc with rfl | hdigit
  · unfold Plain
    decide
  · have hrange : 48 ≤ c.toNat ∧ c.toNat ≤ 57 := by
      simp only [Char.isDigit, Bool.and_eq_true, decide_eq_true_eq] at hdigit
      exact hdigit
    refine ⟨?_, ?_, by omega⟩
    · rintro rfl
      exact absurd hdigit (by decide)
    · rintro rfl
      exact absurd hdigit (by decide)

theorem plain_fieldSign : Plain fieldSign := by
  unfold Plain
  decide

theorem quoted_eq (m : ChatMessage) : m.quoted = writeText chatEscapes m.joined.toList := by
  have hsign : writeChar chatEscapes fieldSign = [fieldSign] := writeChar_plain plain_fieldSign
  have hnumber (n : Int) : (Text.decimal n).flatMap (writeChar chatEscapes) = Text.decimal n :=
    flatMap_plain (plain_decimal n)
  rw [ChatMessage.quoted, writeText, ChatMessage.joined, String.toList_ofList, ChatMessage.fields]
  simp [List.intercalate, hsign, hnumber, jsonEscape]

theorem writeItems_eq (messages : List ChatMessage) :
    [','].intercalate (messages.map ChatMessage.quoted) ++ [']'] =
      writeItems chatEscapes (messages.map fun m => .str m.joined) := by
  induction messages with
  | nil => rfl
  | cons m messages ih =>
      cases messages with
      | nil =>
          rw [List.map_singleton, List.map_singleton, writeItems, write, quoted_eq]
          simp [List.intercalate]
      | cons n messages =>
          change [','].intercalate (m.quoted :: (n :: messages).map ChatMessage.quoted) ++ [']'] =
            write chatEscapes (.str m.joined) ++ ',' :: writeItems chatEscapes ((n :: messages).map fun m => .str m.joined)
          rw [← ih, write, ← quoted_eq]
          simp [List.intercalate]

def history (tag : String) (messages : List ChatMessage) : Document :=
  .obj [("ch", .str tag), ("h", .arr ((recent messages).map fun m => .str m.joined))]

theorem chatMessages_eq {tag : String} (htag : ∀ c ∈ tag.toList, Plain c) (messages : List ChatMessage) :
    chatMessages tag messages = Utf8.toUtf8 (write chatEscapes (history tag messages)) := by
  have hitems := writeItems_eq (recent messages)
  have hc : writeChar chatEscapes 'c' = ['c'] := rfl
  have hh : writeChar chatEscapes 'h' = ['h'] := rfl
  rw [chatMessages, history, write, writeMembers, writeMembers, write, write, ← hitems]
  simp [writeText, flatMap_plain htag, hc, hh]

/-! ### What the client reads -/

theorem count_splitOn (cs : List Char) (sign : Char) : (cs.splitOn sign).length = cs.count sign + 1 := by
  induction cs with
  | nil => rfl
  | cons c cs ih =>
      rw [List.splitOn_cons_eq_if_modifyHead, List.count_cons]
      split
      · rw [List.length_cons, ih]
      · rw [List.length_modifyHead, ih]

theorem fieldSign_notMem_decimal (n : Int) : fieldSign ∉ Text.decimal n := by
  intro h
  rcases Text.isDigit_of_decimal h with h | h
  · exact absurd h (by decide)
  · exact absurd h (by decide)

/-- No field holds the sign between the fields. -/
def ChatMessage.Separable (m : ChatMessage) : Prop := fieldSign ∉ m.nickname.toList ∧ fieldSign ∉ m.text.toList

instance (m : ChatMessage) : Decidable m.Separable := inferInstanceAs (Decidable (_ ∧ _))

theorem notMem_fields {m : ChatMessage} (h : m.Separable) : ∀ f ∈ m.fields, fieldSign ∉ f := by
  intro f hf
  rw [ChatMessage.fields] at hf
  simp only [List.mem_cons, List.not_mem_nil, or_false] at hf
  rcases hf with rfl | rfl | rfl | rfl | rfl | rfl | rfl
  · exact fieldSign_notMem_decimal _
  · exact fieldSign_notMem_decimal _
  · exact fieldSign_notMem_decimal _
  · exact fieldSign_notMem_decimal _
  · exact h.1
  · exact h.2
  · exact fieldSign_notMem_decimal _

theorem readId_decimal (n : Int64) : readId (Text.decimal n.toInt) = some n := by
  have hlow : -9223372036854775808 ≤ n.toInt := n.le_toInt
  have hhigh : n.toInt ≤ 9223372036854775807 := Int.le_of_lt_add_one n.toInt_lt
  rw [readId, Text.parseI64, Text.parseInt_decimal hlow hhigh, Option.map_some, Int64.ofInt_toInt]

theorem readMessage_joined {m : ChatMessage} (h : m.Separable) : readMessage m.joined = some m := by
  have hnumber (n : Int32) : readI32 (Text.decimal n.toInt) = some n := Text.parseI32_decimal n
  rw [readMessage, ChatMessage.joined, String.toList_ofList,
    List.splitOn_intercalate fieldSign (notMem_fields h) (List.cons_ne_nil _ _), ChatMessage.fields]
  dsimp only
  rw [readId_decimal, readId_decimal, hnumber, hnumber, hnumber, String.ofList_toList, String.ofList_toList]
  rfl

theorem count_fields (m : ChatMessage) :
    m.joined.toList.count fieldSign = 6 + m.nickname.toList.count fieldSign + m.text.toList.count fieldSign := by
  have hnumber (n : Int) : (Text.decimal n).count fieldSign = 0 := List.count_eq_zero.mpr (fieldSign_notMem_decimal n)
  rw [ChatMessage.joined, String.toList_ofList, ChatMessage.fields]
  simp [List.intercalate, List.count_append, hnumber]
  omega

/-- A message with such a sign has too many fields. -/
theorem separable_of_readMessage {m m' : ChatMessage} (h : readMessage m.joined = some m') : m.Separable := by
  rw [readMessage] at h
  split at h
  · rename_i heq
    have hlength := count_splitOn m.joined.toList fieldSign
    rw [heq, count_fields] at hlength
    simp only [List.length_cons, List.length_nil] at hlength
    exact ⟨List.count_eq_zero.mp (by omega), List.count_eq_zero.mp (by omega)⟩
  · cases h

theorem readMessage_iff (m : ChatMessage) : readMessage m.joined = some m ↔ m.Separable :=
  ⟨separable_of_readMessage, readMessage_joined⟩

theorem mapM_readItem_iff (messages : List ChatMessage) :
    (messages.map fun m => Document.str m.joined).mapM readItem = some messages ↔ ∀ m ∈ messages, m.Separable := by
  induction messages with
  | nil => exact iff_of_true rfl fun m hm => absurd hm List.not_mem_nil
  | cons m messages ih =>
      have hcons : ((m :: messages).map fun m => Document.str m.joined).mapM readItem = some (m :: messages) ↔
          readMessage m.joined = some m ∧
            (messages.map fun m => Document.str m.joined).mapM readItem = some messages := by
        rw [List.map_cons, List.mapM_cons, readItem]
        cases readMessage m.joined with
        | none => exact iff_of_false nofun fun h => nomatch h.1
        | some m' =>
            cases (messages.map fun m => Document.str m.joined).mapM readItem with
            | none => exact iff_of_false nofun fun h => nomatch h.2
            | some messages' =>
                change some (m' :: messages') = some (m :: messages) ↔ _
                rw [Option.some.injEq, List.cons.injEq, Option.some.injEq, Option.some.injEq]
      rw [hcons, readMessage_iff, ih, List.forall_mem_cons]

/-- The client reads the last messages of the channel, each with its fields, just when no name and no text among them
holds the sign between the fields. -/
theorem readChat_chatMessages_iff {tag : String} (htag : ∀ c ∈ tag.toList, Plain c) (messages : List ChatMessage) :
    readChat (chatMessages tag messages) = some (tag, recent messages) ↔ ∀ m ∈ recent messages, m.Separable := by
  rw [chatMessages_eq htag, readChat, Utf8.fromUtf8_toUtf8, Option.bind_some, read_write, Option.bind_some, history,
    readHistory, ← mapM_readItem_iff]
  constructor
  · intro h
    obtain ⟨read, hread, hpair⟩ := Option.map_eq_some_iff.mp h
    rw [hread, (Prod.mk.inj hpair).2]
  · intro h
    rw [h, Option.map_some]

def greeting : ChatMessage := ⟨7, 1035593280, 3, 42, "ev\\il", "\"hi\"\n", 5⟩

theorem readChat_greeting : readChat (chatMessages "FED" [greeting]) = some ("FED", recent [greeting]) :=
  (readChat_chatMessages_iff (by simp [Plain]) [greeting]).mpr (List.forall_mem_singleton.mpr ⟨by decide, by decide⟩)

end OpenMines.ChatPackets
