import OpenMines.Lib.LastWins
import OpenMines.Lib.Text

namespace OpenMines.Lib

/-- The values that tables of numbers and texts are written as. -/
inductive Json
  | null
  | num (text : String)
  | str (text : String)
  | obj (fields : List (String × Json))

namespace Json

/-- The field of a record, which may stand there once only. -/
def field (name : String) : Json → Option Json
  | obj fields =>
    match fields.filter fun e => e.1 = name with
    | [e] => some e.2
    | _ => none
  | _ => none

def ofI32 (n : Int32) : String := String.ofList (Text.decimal n.toInt)

/-- An integer has no sign `+` and no zeros before it. -/
def readI32 (text : String) : Option Int32 := (Text.parseI32 text).filter fun n => ofI32 n = text

def toI32 : Json → Option Int32
  | num text => readI32 text
  | _ => none

def toText : Json → Option String
  | str text => some text
  | _ => none

variable {K V : Type}

/-- The entries of a map, in their order. -/
def toEntries (readKey : String → Option K) (read : Json → Option V) : Json → Option (List (K × V))
  | obj fields => fields.mapM fun e => (readKey e.1).bind fun k => (read e.2).map fun v => (k, v)
  | _ => none

/-- A key that comes twice has its last value. -/
def toMap [DecidableEq K] (readKey : String → Option K) (read : Json → Option V) (json : Json) : Option (List (K × V)) :=
  (json.toEntries readKey read).map (LastWins.lastWins Prod.fst)

def ofEntries (writeKey : K → String) (write : V → Json) (entries : List (K × V)) : Json :=
  obj (entries.map fun e => (writeKey e.1, write e.2))

@[simp] theorem readI32_ofI32 (n : Int32) : readI32 (ofI32 n) = some n := by
  have hparse : Text.parseI32 (ofI32 n) = some n := Text.parseI32_decimal n
  rw [readI32, hparse, Option.filter_some, if_pos (decide_eq_true rfl)]

theorem mem_of_field {name : String} {fields : List (String × Json)} {json : Json}
    (h : (obj fields).field name = some json) : (name, json) ∈ fields := by
  rw [field] at h
  split at h
  · rename_i e hfields
    have hmem : e ∈ fields.filter fun e => e.1 = name := hfields ▸ List.mem_singleton_self e
    obtain ⟨he, hname⟩ := List.mem_filter.mp hmem
    rw [← Option.some.inj h, ← of_decide_eq_true hname]
    exact he
  · cases h

section Maps

variable {readKey : String → Option K} {read : Json → Option V} {writeKey : K → String} {write : V → Json}
  {entries : List (K × V)}

theorem toEntries_ofEntries (hkey : ∀ k, readKey (writeKey k) = some k) (h : ∀ e ∈ entries, read (write e.2) = some e.2) :
    (ofEntries writeKey write entries).toEntries readKey read = some entries := by
  rw [ofEntries, toEntries]
  induction entries with
  | nil => rfl
  | cons e entries ih =>
      rw [List.map_cons, List.mapM_cons, hkey, h e List.mem_cons_self, ih fun e he => h e (List.mem_cons_of_mem _ he)]
      rfl

theorem isSome_of_toEntries {fields : List (String × Json)} {vs : List (K × V)}
    (h : (obj fields).toEntries readKey read = some vs) : ∀ e ∈ fields, (read e.2).isSome := by
  rw [toEntries] at h
  induction fields generalizing vs with
  | nil => exact fun e he => absurd he List.not_mem_nil
  | cons e fields ih =>
      rw [List.mapM_cons] at h
      obtain ⟨v, hv, h⟩ := Option.bind_eq_some_iff.mp h
      obtain ⟨rest, hrest, -⟩ := Option.bind_eq_some_iff.mp h
      obtain ⟨k, -, hv⟩ := Option.bind_eq_some_iff.mp hv
      obtain ⟨w, hw, -⟩ := Option.map_eq_some_iff.mp hv
      intro f hf
      cases List.mem_cons.mp hf with
      | inl heq => exact heq ▸ Option.isSome_iff_exists.mpr ⟨w, hw⟩
      | inr hmem => exact ih hrest f hmem

variable [DecidableEq K]

/-- A map that is written is read back. -/
theorem toMap_ofEntries (hkey : ∀ k, readKey (writeKey k) = some k) (h : ∀ e ∈ entries, read (write e.2) = some e.2)
    (hnodup : (entries.map Prod.fst).Nodup) : (ofEntries writeKey write entries).toMap readKey read = some entries := by
  rw [toMap, toEntries_ofEntries hkey h, Option.map_some, LastWins.lastWins_of_nodup hnodup]

end Maps

end Json

end OpenMines.Lib
