import OpenMines.Lib.JsonText
import OpenMines.Lib.Utf8

namespace OpenMines.Gui

open Lib Lib.JsonText

structure Button where
  label : String
  action : String

def Button.flattened (b : Button) : List String := [b.label, b.action]

structure Tab where
  label : String
  action : String

def Tab.flattened (t : Tab) : List String := [t.label, t.action]

structure ListRow where
  title : String
  subtitle : String
  action : String

def ListRow.flattened (r : ListRow) : List String := [r.title, r.subtitle, r.action]

structure RichRow where
  label : String
  kind : String
  values : String
  action : String
  value : String

def RichRow.flattened (r : RichRow) : List String := [r.label, r.kind, r.values, r.action, r.value]

inductive CanvasElement
  | rect (x y width height : Int32) (color : String)
  | teleportPoint (x y : Int32) (action : String)

structure Horb where
  title : String
  text : String := ""
  buttons : List Button := []
  tabs : List Tab := []
  list : List ListRow := []
  richList : List RichRow := []
  admin : Bool := false
  crystalLines : List String := []
  crystalLeft : String := ""
  crystalRight : String := ""
  crystalBuy : Bool := false
  canvas : List CanvasElement := []
  css : String := ""
  card : String := ""
  inventory : String := ""
  inputPlaceholder : String := ""
  inputConsole : Bool := false

def number (n : Int32) : List Char := Text.decimal n.toInt

def CanvasElement.flattened : CanvasElement → List String
  | .rect x y width height color =>
    [String.ofList (number x ++ 'X' :: (number y ++ 'Y' :: (number width ++ 'w' :: (number height ++ 'h' ::
      ("=R#".toList ++ color.toList)))))]
  | .teleportPoint x y action => [String.ofList (number x ++ 'X' :: (number y ++ 'Y' :: "=t".toList)), action]

def strings (texts : List String) : Document := .arr (texts.map .str)

/-- A member that stands there in some cases only. -/
def insertIf (p : Prop) [Decidable p] (k : String) (v : Document) (object : List (String × Document)) :
    List (String × Document) :=
  if p then insertMember k v object else object

def insertNonEmpty (k value : String) (object : List (String × Document)) : List (String × Document) :=
  insertIf (value ≠ "") k (.str value) object

def exitButton : Button := ⟨"ВЫЙТИ", "exit"⟩

/-- The exit comes last, and once. -/
def Horb.buttonTexts (h : Horb) : List String :=
  let buttons := h.buttons.flatMap Button.flattened
  if buttons.getLast? = some "exit" then buttons else buttons ++ ["ВЫЙТИ", "exit"]

def Horb.toJson (h : Horb) : List (String × Document) :=
  let object := insertMember "title" (.str h.title) []
  let object := insertMember "text" (.str h.text) object
  let object := insertMember "back" (.bool false) object
  let object := insertMember "admin" (.bool h.admin) object
  let object := insertNonEmpty "css" h.css object
  let object := insertNonEmpty "card" h.card object
  let object := insertNonEmpty "inv" h.inventory object
  let object := insertNonEmpty "input_place" h.inputPlaceholder object
  let object := insertIf (h.inputConsole = true) "input_console" (.bool true) object
  let object := insertIf (h.canvas ≠ []) "canvas" (strings (h.canvas.flatMap CanvasElement.flattened)) object
  let object := insertIf (h.buttons ≠ []) "buttons" (strings h.buttonTexts) object
  let object := insertIf (h.tabs ≠ []) "tabs" (strings (h.tabs.flatMap Tab.flattened)) object
  let object := insertIf (h.crystalLines ≠ []) "crys_left" (.str h.crystalLeft) object
  let object := insertIf (h.crystalLines ≠ []) "crys_right" (.str h.crystalRight) object
  let object := insertIf (h.crystalLines ≠ []) "crys_lines" (strings h.crystalLines) object
  let object := insertIf (h.crystalLines ≠ [] ∧ h.crystalBuy = true) "crys_buy" (.bool true) object
  let object := insertIf (h.list ≠ []) "list" (strings (h.list.flatMap ListRow.flattened)) object
  insertIf (h.richList ≠ []) "richList" (strings (h.richList.flatMap RichRow.flattened)) object

/-- The letters of the compact writer. -/
def serdeEscapes : Escapes where
  short c :=
    match c with
    | '"' => some '"'
    | '\\' => some '\\'
    | '\x08' => some 'b'
    | '\x0c' => some 'f'
    | '\n' => some 'n'
    | '\r' => some 'r'
    | '\t' => some 't'
    | _ => none
  sound c e h := by
    split at h <;> cases h <;> rfl
  quote := rfl
  backslash := rfl

def Horb.payload (h : Horb) : List UInt8 :=
  Utf8.toUtf8 ("horb:".toList ++ write serdeEscapes (.obj h.toJson))

/-! ### The other texts of this kind -/

def botInfo (name : String) (x y id : Int32) : List UInt8 :=
  let object := insertMember "x" (.int x.toInt) []
  let object := insertMember "y" (.int y.toInt) object
  let object := insertMember "id" (.int id.toInt) object
  let object := insertMember "name" (.str name) object
  Utf8.toUtf8 (write serdeEscapes (.obj object))

def openProgrammator (id : Int32) (title source : String) : List UInt8 :=
  let object := insertMember "id" (.int id.toInt) []
  let object := insertMember "title" (.str title) object
  let object := insertMember "source" (.str source) object
  Utf8.toUtf8 (write serdeEscapes (.obj object))

end OpenMines.Gui
