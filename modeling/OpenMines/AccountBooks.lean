import OpenMines.Accounts

namespace OpenMines

open Lib.Text Lib.Run Persistence

variable {cfg : AuthConfig} {p q hash stored : String} {old : Nat} {secret : String} {a : Account}

/-! ### Passwords -/

theorem startsWith_hashPassword (cfg : AuthConfig) (p hash : String) :
    startsWith (hashPassword cfg p hash) shaPrefix = true := startsWith_append _ _

theorem stripPrefix_hashPassword (cfg : AuthConfig) (p hash : String) :
    stripPrefix (hashPassword cfg p hash) shaPrefix = some (cfg.sha256Hex (hash ++ ":" ++ p)) :=
  stripPrefix_eq_some.mpr rfl

theorem verifyPassword_hashed : verifyPassword cfg p (hashPassword cfg q hash) hash = true ↔
    cfg.sha256Hex (hash ++ ":" ++ p) = cfg.sha256Hex (hash ++ ":" ++ q) := by
  rw [verifyPassword, stripPrefix_hashPassword, stripPrefix_hashPassword]
  exact beq_iff_eq

theorem verifyPassword_plain (h : startsWith stored shaPrefix = false) :
    verifyPassword cfg p stored hash = true ↔ stored = p := by
  have hnone : stripPrefix stored shaPrefix = none := by
    rw [Option.eq_none_iff_forall_ne_some]
    intro rest hrest
    rw [startsWith_of_stripPrefix hrest] at h
    cases h
  rw [verifyPassword, hnone]
  exact beq_iff_eq

/-- The stored password is the digest of the owner's, or the owner's itself in an account from before. -/
def Account.Genuine (cfg : AuthConfig) (old : Nat) (secret : String) (a : Account) : Prop :=
  a.passwd = hashPassword cfg secret a.hash ∨
    a.id.toInt ≤ old ∧ a.passwd = secret ∧ startsWith a.passwd shaPrefix = false

theorem Account.Genuine.verify (h : a.Genuine cfg old secret) : verifyPassword cfg secret a.passwd a.hash = true := by
  rcases h with hpasswd | ⟨-, hpasswd, hplain⟩
  · rw [hpasswd, verifyPassword_hashed]
  · exact (verifyPassword_plain hplain).mpr hpasswd

theorem Account.Genuine.of_verify (h : a.Genuine cfg old secret)
    (hverify : verifyPassword cfg p a.passwd a.hash = true) :
    cfg.sha256Hex (a.hash ++ ":" ++ p) = cfg.sha256Hex (a.hash ++ ":" ++ secret) := by
  rcases h with hpasswd | ⟨-, hpasswd, hplain⟩
  · rwa [hpasswd, verifyPassword_hashed] at hverify
  · rw [← (verifyPassword_plain hplain).mp hverify, hpasswd]

/-! ### The table -/

structure Books (cfg : AuthConfig) (old : Nat) (accounts : List Account) (last : Nat) (secret : PlayerId → String) :
    Prop where
  ids : (accounts.map Account.id).Nodup
  names : (accounts.map Account.name).Nodup
  bound : ∀ a ∈ accounts, a.id.toInt ≤ last
  old_le : old ≤ last
  last_le : last ≤ 2147483647
  genuine : ∀ a ∈ accounts, a.Genuine cfg old (secret a.id)
  fresh : ∀ a ∈ accounts, (old : Int) < a.id.toInt → a.name ≠ "" ∧ secret a.id ≠ ""

/-- The same accounts with some other passwords stored. -/
def rekey (id : PlayerId) (passwd : String) (a : Account) : Account := if a.id = id then { a with passwd } else a

theorem rekey_id (id : PlayerId) (passwd : String) (a : Account) : (rekey id passwd a).id = a.id := by
  rw [rekey]
  split <;> rfl

theorem rekey_name (id : PlayerId) (passwd : String) (a : Account) : (rekey id passwd a).name = a.name := by
  rw [rekey]
  split <;> rfl

theorem rekey_hash (id : PlayerId) (passwd : String) (a : Account) : (rekey id passwd a).hash = a.hash := by
  rw [rekey]
  split <;> rfl

variable {accounts : List Account} {last : Nat} {secrets : PlayerId → String} {id : PlayerId} {passwd name : String}

theorem Books.rekey (h : Books cfg old accounts last secrets)
    (hgenuine : ∀ a ∈ accounts, a.id = id → { a with passwd }.Genuine cfg old (secrets id)) :
    Books cfg old (accounts.map (rekey id passwd)) last secrets where
  ids := by
    have hids : (accounts.map (OpenMines.rekey id passwd)).map Account.id = accounts.map Account.id := by
      rw [List.map_map]
      exact List.map_congr_left fun a _ => rekey_id id passwd a
    rw [hids]
    exact h.ids
  names := by
    have hnames : (accounts.map (OpenMines.rekey id passwd)).map Account.name = accounts.map Account.name := by
      rw [List.map_map]
      exact List.map_congr_left fun a _ => rekey_name id passwd a
    rw [hnames]
    exact h.names
  bound := List.forall_mem_map.mpr fun a ha => rekey_id id passwd a ▸ h.bound a ha
  old_le := h.old_le
  last_le := h.last_le
  genuine := by
    refine List.forall_mem_map.mpr fun a ha => ?_
    rw [OpenMines.rekey]
    split
    · rename_i hid
      exact hid ▸ hgenuine a ha hid
    · exact h.genuine a ha
  fresh := by
    refine List.forall_mem_map.mpr fun a ha hnew => ?_
    rw [rekey_id] at hnew
    rw [rekey_id, rekey_name]
    exact h.fresh a ha hnew

theorem toInt_nextPlayer (h : last < 2147483647) : (Int32.ofNat (last + 1)).toInt = last + 1 :=
  Int32.toInt_ofNat_of_lt (by omega)

theorem Books.insert (h : Books cfg old accounts last secrets) (hlast : last < 2147483647)
    (hname : name ∉ accounts.map Account.name) (hnonempty : name ≠ "") (hgiven : p ≠ "") :
    Books cfg old (accounts ++ [⟨Int32.ofNat (last + 1), name, hashPassword cfg p hash, hash⟩]) (last + 1)
      (Function.update secrets (Int32.ofNat (last + 1)) p) := by
  have hnext := toInt_nextPlayer hlast
  have hother : ∀ a ∈ accounts, a.id ≠ Int32.ofNat (last + 1) := by
    intro a ha hid
    have hbound := h.bound a ha
    rw [hid, hnext] at hbound
    omega
  refine ⟨?_, ?_, ?_, Nat.le_succ_of_le h.old_le, hlast, ?_, ?_⟩
  · rw [List.map_append]
    refine List.nodup_append.mpr ⟨h.ids, List.nodup_singleton _, fun i hi j hj => ?_⟩
    obtain ⟨a, ha, rfl⟩ := List.mem_map.mp hi
    rw [List.mem_singleton.mp hj]
    exact hother a ha
  · rw [List.map_append]
    refine List.nodup_append.mpr ⟨h.names, List.nodup_singleton _, fun i hi j hj => ?_⟩
    rw [List.mem_singleton.mp hj]
    rintro rfl
    exact hname hi
  · intro a ha
    rcases List.mem_append.mp ha with ha | ha
    · have hbound := h.bound a ha
      omega
    · rw [List.mem_singleton.mp ha]
      exact hnext.le
  · intro a ha
    rcases List.mem_append.mp ha with ha | ha
    · rw [Function.update_of_ne (hother a ha)]
      exact h.genuine a ha
    · rw [List.mem_singleton.mp ha, Function.update_self]
      exact Or.inl rfl
  · intro a ha hnew
    rcases List.mem_append.mp ha with ha | ha
    · rw [Function.update_of_ne (hother a ha)]
      exact h.fresh a ha hnew
    · rw [List.mem_singleton.mp ha, Function.update_self]
      exact ⟨hnonempty, hgiven⟩

end OpenMines
