import OpenMines.Gui

namespace OpenMines.Gui

open Lib Lib.JsonText

/-! ### The client -/

structure Crystals where
  left : String
  right : String
  lines : List String
  buy : Bool

/-- What a player sees of a window. -/
structure Window where
  title : String
  text : String
  admin : Bool
  css : String
  card : String
  inventory : String
  inputPlaceholder : String
  inputConsole : Bool
  canvas : List CanvasElement
  buttons : List Button
  tabs : List Tab
  list : List ListRow
  richList : List RichRow
  crystals : Option Crystals

section Rows

variable {R T : Type} (readOne : List T → Option (R × List T))

def readAll : Nat → List T → Option (List R)
  | _, [] => some []
  | 0, _ :: _ => none
  | n + 1, t :: ts => (readOne (t :: ts)).bind fun r => (readAll n r.2).map fun rows => r.1 :: rows

/-- The rows of a flat list. -/
def readRows (texts : List T) : Option (List R) := readAll readOne texts.length texts

variable {readOne} {flat : R → List T}

theorem readRows_flatMap (hone : ∀ r rest, readOne (flat r ++ rest) = some (r, rest)) (hne : ∀ r, flat r ≠ [])
    (rows : List R) : readRows readOne (rows.flatMap flat) = some rows := by
  have hall : ∀ n, rows.length ≤ n → readAll readOne n (rows.flatMap flat) = some rows := by
    induction rows with
    | nil => exact fun n _ => by cases n <;> rfl
    | cons r rows ih =>
        intro n hn
        obtain ⟨n, rfl⟩ := Nat.exists_eq_succ_of_ne_zero (Nat.ne_zero_of_lt hn)
        have hr := hone r (rows.flatMap flat)
        obtain ⟨t, ts, ht⟩ := List.exists_cons_of_ne_nil (hne r)
        rw [List.flatMap_cons]
        rw [ht, List.cons_append] at hr ⊢
        rw [readAll, hr, Option.bind_some, ih n (Nat.le_of_succ_le_succ hn)]
        rfl
  refine hall _ ?_
  clear hall
  induction rows with
  | nil => exact Nat.zero_le _
  | cons r rows ih =>
      have hr := List.length_pos_of_ne_nil (hne r)
      rw [List.flatMap_cons, List.length_append, List.length_cons]
      omega

end Rows

def Button.read : List String → Option (Button × List String)
  | label :: action :: rest => some (⟨label, action⟩, rest)
  | _ => none

def Tab.read : List String → Option (Tab × List String)
  | label :: action :: rest => some (⟨label, action⟩, rest)
  | _ => none

def ListRow.read : List String → Option (ListRow × List String)
  | title :: subtitle :: action :: rest => some (⟨title, subtitle, action⟩, rest)
  | _ => none

def RichRow.read : List String → Option (RichRow × List String)
  | label :: kind :: values :: action :: value :: rest => some (⟨label, kind, values, action, value⟩, rest)
  | _ => none

/-- A number and the sign behind it. -/
def readNumber (sign : Char) (s : String) : Option (Int32 × String) :=
  (Text.splitOnce s sign).bind fun p => (Text.parseI32 p.1).map fun n => (n, p.2)

/-- A point has its action behind it; a rectangle says its size and its colour. -/
def CanvasElement.read : List String → Option (CanvasElement × List String)
  | [] => none
  | s :: rest =>
    (readNumber 'X' s).bind fun x =>
      (readNumber 'Y' x.2).bind fun y =>
        if y.2 = "=t" then
          match rest with
          | action :: rest => some (.teleportPoint x.1 y.1 action, rest)
          | [] => none
        else
          (readNumber 'w' y.2).bind fun width =>
            (readNumber 'h' width.2).bind fun height =>
              (Text.stripPrefix height.2 "=R#").map fun color => (.rect x.1 y.1 width.1 height.1 color, rest)

def memberText (object : List (String × Document)) (k : String) : Option String :=
  match object.lookup k with
  | none => some ""
  | some (.str s) => some s
  | some _ => none

def memberFlag (object : List (String × Document)) (k : String) : Option Bool :=
  match object.lookup k with
  | none => some false
  | some (.bool b) => some b
  | some _ => none

def readString : Document → Option String
  | .str s => some s
  | _ => none

def memberStrings (object : List (String × Document)) (k : String) : Option (List String) :=
  match object.lookup k with
  | none => some []
  | some (.arr items) => items.mapM readString
  | some _ => none

def readCrystals (object : List (String × Document)) : Option (Option Crystals) :=
  if (object.lookup "crys_lines").isNone then some none
  else do
    let left ← memberText object "crys_left"
    let right ← memberText object "crys_right"
    let lines ← memberStrings object "crys_lines"
    let buy ← memberFlag object "crys_buy"
    some (some ⟨left, right, lines, buy⟩)

def readWindow (object : List (String × Document)) : Option Window := do
  let title ← memberText object "title"
  let text ← memberText object "text"
  let admin ← memberFlag object "admin"
  let css ← memberText object "css"
  let card ← memberText object "card"
  let inventory ← memberText object "inv"
  let inputPlaceholder ← memberText object "input_place"
  let inputConsole ← memberFlag object "input_console"
  let canvas ← (memberStrings object "canvas").bind (readRows CanvasElement.read)
  let buttons ← (memberStrings object "buttons").bind (readRows Button.read)
  let tabs ← (memberStrings object "tabs").bind (readRows Tab.read)
  let list ← (memberStrings object "list").bind (readRows ListRow.read)
  let richList ← (memberStrings object "richList").bind (readRows RichRow.read)
  let crystals ← readCrystals object
  some ⟨title, text, admin, css, card, inventory, inputPlaceholder, inputConsole, canvas, buttons, tabs, list, richList,
    crystals⟩

/-- What comes with the event of a window. -/
def readPayload (bytes : List UInt8) : Option Window :=
  (Utf8.fromUtf8 bytes).bind fun cs =>
    (Text.stripPrefix (String.ofList cs) "horb:").bind fun json =>
      match read json.toList with
      | some (.obj object) => readWindow object
      | _ => none

/-! ### The window that is meant -/

def Horb.shownButtons (h : Horb) : List Button :=
  if h.buttons = [] then []
  else if h.buttons.getLast?.map Button.action = some "exit" then h.buttons
  else h.buttons ++ [exitButton]

def Horb.window (h : Horb) : Window where
  title := h.title
  text := h.text
  admin := h.admin
  css := h.css
  card := h.card
  inventory := h.inventory
  inputPlaceholder := h.inputPlaceholder
  inputConsole := h.inputConsole
  canvas := h.canvas
  buttons := h.shownButtons
  tabs := h.tabs
  list := h.list
  richList := h.richList
  crystals := if h.crystalLines = [] then none else some ⟨h.crystalLeft, h.crystalRight, h.crystalLines, h.crystalBuy⟩

/-! ### What is shown is what is meant -/

@[simp] theorem lookup_insertIf (p : Prop) [Decidable p] (k k' : String) (v : Document)
    (object : List (String × Document)) :
    (insertIf p k v object).lookup k' = if p ∧ k' = k then some v else object.lookup k' := by
  rw [insertIf]
  split
  · rename_i hp
    rw [lookup_insertMember]
    exact if_congr (and_iff_right hp).symm rfl rfl
  · rename_i hp
    exact (if_neg fun h => hp h.1).symm

theorem mapM_readString (texts : List String) : (texts.map Document.str).mapM readString = some texts := by
  induction texts with
  | nil => rfl
  | cons t texts ih =>
      rw [List.map_cons, List.mapM_cons, ih]
      rfl

theorem readNumber_number (n : Int32) {sign : Char} (hsign : sign ≠ '-') (hdigit : sign.isDigit = false)
    (rest : List Char) :
    readNumber sign (String.ofList (number n ++ sign :: rest)) = some (n, String.ofList rest) := by
  have hnot : sign ∉ number n := fun h => by
    rcases Text.isDigit_of_decimal h with h | h
    · exact hsign h
    · rw [hdigit] at h
      cases h
  rw [readNumber, Text.splitOnce_append hnot, Option.bind_some, number, Text.parseI32_decimal, Option.map_some]

theorem CanvasElement.read_flattened (element : CanvasElement) (rest : List String) :
    CanvasElement.read (element.flattened ++ rest) = some (element, rest) := by
  cases element with
  | rect x y width height color =>
      have hform : String.ofList (number width ++ 'w' :: (number height ++ 'h' :: ("=R#".toList ++ color.toList))) ≠ "=t" := by
        intro h
        obtain ⟨d, ds, hd, hnumber⟩ := number_head width.toInt
        have hlist := congrArg String.toList h
        rw [String.toList_ofList, number, hd, List.cons_append] at hlist
        have hfirst : d = '=' := (List.cons.inj hlist).1
        subst hfirst
        exact absurd hnumber (by decide)
      rw [flattened, List.singleton_append, CanvasElement.read, readNumber_number x (by decide) (by decide),
        Option.bind_some, readNumber_number y (by decide) (by decide), Option.bind_some, if_neg hform,
        readNumber_number width (by decide) (by decide), Option.bind_some,
        readNumber_number height (by decide) (by decide), Option.bind_some, Text.stripPrefix_ofList_append,
        Option.map_some, String.ofList_toList]
  | teleportPoint x y action =>
      have hform : String.ofList "=t".toList = "=t" := String.ofList_toList
      rw [flattened, List.cons_append, List.singleton_append, CanvasElement.read,
        readNumber_number x (by decide) (by decide), Option.bind_some, readNumber_number y (by decide) (by decide),
        Option.bind_some, if_pos hform]

theorem getLast?_buttons (buttons : List Button) :
    (buttons.flatMap Button.flattened).getLast? = buttons.getLast?.map Button.action := by
  induction buttons with
  | nil => rfl
  | cons b buttons ih =>
      cases buttons with
      | nil => rfl
      | cons c buttons =>
          rw [List.flatMap_cons, List.getLast?_append, ih, List.getLast?_cons_cons]
          rw [List.getLast?_eq_some_getLast (List.cons_ne_nil c buttons)]
          rfl

theorem buttonTexts_eq (h : Horb) (hne : h.buttons ≠ []) :
    h.buttonTexts = h.shownButtons.flatMap Button.flattened := by
  rw [Horb.buttonTexts, Horb.shownButtons, if_neg hne, getLast?_buttons]
  split
  · rfl
  · rw [List.flatMap_append]
    rfl

section Members

variable {object : List (String × Document)} {k : String}

theorem memberText_of_nonEmpty {value : String} (h : object.lookup k = if value ≠ "" then some (.str value) else none) :
    memberText object k = some value := by
  rw [memberText, h]
  split_ifs with hvalue
  · rfl
  · exact congrArg some (of_not_not hvalue).symm

theorem memberFlag_of_true {b : Bool} (h : object.lookup k = if b = true then some (.bool true) else none) :
    memberFlag object k = some b := by
  rw [memberFlag, h]
  cases b <;> rfl

theorem memberStrings_of_nonEmpty {p : Prop} [Decidable p] {texts : List String}
    (h : object.lookup k = if p then some (strings texts) else none) (hempty : ¬ p → texts = []) :
    memberStrings object k = some texts := by
  rw [memberStrings, h]
  split_ifs with hp
  · exact mapM_readString texts
  · exact congrArg some (hempty hp).symm

/-- The rows of a list that stands there when it has any. -/
theorem readRows_member {R : Type} {readOne : List String → Option (R × List String)} (flat : R → List String)
    {rows : List R} {p : Prop} [Decidable p] (hone : ∀ r rest, readOne (flat r ++ rest) = some (r, rest))
    (hne : ∀ r, flat r ≠ []) (h : object.lookup k = if p then some (strings (rows.flatMap flat)) else none)
    (hempty : ¬ p → rows = []) : (memberStrings object k).bind (readRows readOne) = some rows := by
  rw [memberStrings_of_nonEmpty h fun hp => by rw [hempty hp]; rfl]
  exact readRows_flatMap hone hne rows

end Members

theorem readCrystals_toJson (h : Horb) : readCrystals h.toJson = some h.window.crystals := by
  have hlines : h.toJson.lookup "crys_lines" = if h.crystalLines ≠ [] then some (strings h.crystalLines) else none := by
    simp [Horb.toJson, insertNonEmpty, lookup_insertMember]
  rw [readCrystals]
  by_cases hempty : h.crystalLines = []
  · rw [hlines, if_neg (not_not.mpr hempty), Horb.window]
    simp [hempty]
  · have hleft : memberText h.toJson "crys_left" = some h.crystalLeft := by
      simp [memberText, Horb.toJson, insertNonEmpty, hempty]
    have hright : memberText h.toJson "crys_right" = some h.crystalRight := by
      simp [memberText, Horb.toJson, insertNonEmpty, hempty]
    have hbuy : memberFlag h.toJson "crys_buy" = some h.crystalBuy := by
      refine memberFlag_of_true ?_
      simp [Horb.toJson, insertNonEmpty, lookup_insertMember, hempty]
    have hread := memberStrings_of_nonEmpty hlines fun hp => absurd hempty hp
    rw [hlines, if_pos hempty, hleft, hright, hread, hbuy, Horb.window]
    simp [hempty]

/-- Each window can be read from its members. -/
theorem readWindow_toJson (h : Horb) : readWindow h.toJson = some h.window := by
  have htitle : memberText h.toJson "title" = some h.title := by
    simp [memberText, Horb.toJson, insertNonEmpty, lookup_insertMember]
  have htext : memberText h.toJson "text" = some h.text := by
    simp [memberText, Horb.toJson, insertNonEmpty, lookup_insertMember]
  have hadmin : memberFlag h.toJson "admin" = some h.admin := by
    simp [memberFlag, Horb.toJson, insertNonEmpty, lookup_insertMember]
  have hcss : memberText h.toJson "css" = some h.css := memberText_of_nonEmpty (by
    simp [Horb.toJson, insertNonEmpty, lookup_insertMember])
  have hcard : memberText h.toJson "card" = some h.card := memberText_of_nonEmpty (by
    simp [Horb.toJson, insertNonEmpty, lookup_insertMember])
  have hinv : memberText h.toJson "inv" = some h.inventory := memberText_of_nonEmpty (by
    simp [Horb.toJson, insertNonEmpty, lookup_insertMember])
  have hplace : memberText h.toJson "input_place" = some h.inputPlaceholder := memberText_of_nonEmpty (by
    simp [Horb.toJson, insertNonEmpty, lookup_insertMember])
  have hconsole : memberFlag h.toJson "input_console" = some h.inputConsole := memberFlag_of_true (by
    simp [Horb.toJson, insertNonEmpty, lookup_insertMember])
  have hcanvas : (memberStrings h.toJson "canvas").bind (readRows CanvasElement.read) = some h.canvas :=
    readRows_member CanvasElement.flattened (p := h.canvas ≠ []) CanvasElement.read_flattened
      (fun r => by cases r <;> exact List.cons_ne_nil _ _)
      (by simp [Horb.toJson, insertNonEmpty, lookup_insertMember]) of_not_not
  have hbuttons : (memberStrings h.toJson "buttons").bind (readRows Button.read) = some h.shownButtons := by
    refine readRows_member Button.flattened (p := h.buttons ≠ []) (fun _ _ => rfl) (fun _ => List.cons_ne_nil _ _) ?_ fun hnone => if_pos (of_not_not hnone)
    by_cases hnone : h.buttons = []
    · simp [Horb.toJson, insertNonEmpty, lookup_insertMember, hnone]
    · rw [← buttonTexts_eq h hnone]
      simp [Horb.toJson, insertNonEmpty, hnone]
  have htabs : (memberStrings h.toJson "tabs").bind (readRows Tab.read) = some h.tabs :=
    readRows_member Tab.flattened (p := h.tabs ≠ []) (fun _ _ => rfl) (fun _ => List.cons_ne_nil _ _)
      (by simp [Horb.toJson, insertNonEmpty, lookup_insertMember]) of_not_not
  have hlist : (memberStrings h.toJson "list").bind (readRows ListRow.read) = some h.list :=
    readRows_member ListRow.flattened (p := h.list ≠ []) (fun _ _ => rfl) (fun _ => List.cons_ne_nil _ _)
      (by simp [Horb.toJson, insertNonEmpty, lookup_insertMember]) of_not_not
  have hrich : (memberStrings h.toJson "richList").bind (readRows RichRow.read) = some h.richList :=
    readRows_member RichRow.flattened (p := h.richList ≠ []) (fun _ _ => rfl) (fun _ => List.cons_ne_nil _ _)
      (by simp [Horb.toJson, insertNonEmpty, lookup_insertMember]) of_not_not
  rw [readWindow, htitle, htext, hadmin, hcss, hcard, hinv, hplace, hconsole, hcanvas, hbuttons, htabs, hlist, hrich,
    readCrystals_toJson]
  rfl

def readObject (bytes : List UInt8) : Option (List (String × Document)) :=
  (Utf8.fromUtf8 bytes).bind fun cs =>
    match read cs with
    | some (.obj object) => some object
    | _ => none

theorem readObject_botInfo (name : String) (x y id : Int32) :
    readObject (botInfo name x y id) =
      some [("id", .int id.toInt), ("name", .str name), ("x", .int x.toInt), ("y", .int y.toInt)] := by
  rw [readObject, botInfo, Utf8.fromUtf8_toUtf8, Option.bind_some, read_write]
  simp [insertMember, before]

/-- The editor has the source as it was saved. -/
theorem readObject_openProgrammator (id : Int32) (title source : String) :
    readObject (openProgrammator id title source) =
      some [("id", .int id.toInt), ("source", .str source), ("title", .str title)] := by
  rw [readObject, openProgrammator, Utf8.fromUtf8_toUtf8, Option.bind_some, read_write]
  simp [insertMember, before]

end OpenMines.Gui
