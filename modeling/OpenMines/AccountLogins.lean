import OpenMines.AccountBooks
import OpenMines.PersistenceOnce

namespace OpenMines

open Lib.Text Lib.Run Persistence

variable {cfg : AuthConfig} {p passwd hash : String} {old last : Nat} {secrets : PlayerId → String} {id : PlayerId}

/-- A login of the flow is one with a password that is accepted, or a new account. -/
theorem login_of_handleGuiAuthFlow {db : DbAnswers} {button : String} {step : GuiAuthStep} {row : PlayerRow}
    (h : handleGuiAuthFlow cfg db button step = .login row) :
    ∃ nick passwd, stripPrefix button "passwd:" = some passwd ∧
      (step = .loginPassword nick ∧ db.getPlayerByName = .ok (some row) ∧
          verifyPassword cfg passwd row.passwd row.hash = true ∧
          (startsWith row.passwd shaPrefix = true ∨ db.updatePlayerPasswd = .ok ()) ∨
        step = .registerPassword nick ∧ passwd ≠ "" ∧ db.createPlayer = .ok row) := by
  unfold handleGuiAuthFlow at h
  split at h
  · cases h
  · cases step with
    | mainMenu =>
        simp only [handleMainMenu, handleFindByNick] at h
        repeat' split at h
        all_goals cases h
    | registerNick =>
        simp only [handleRegisterNick] at h
        repeat' split at h
        all_goals cases h
    | loginPassword nick =>
        dsimp only [handleLoginPassword] at h
        split at h
        · cases h
        · rename_i passwd hpasswd
          split at h
          · cases h
          · cases h
          · rename_i player hplayer
            split at h
            · rename_i hverify
              split at h
              · rename_i hsha
                obtain rfl := AuthOutcome.login.inj h
                exact ⟨nick, passwd, hpasswd, Or.inl ⟨rfl, hplayer, hverify, Or.inl hsha⟩⟩
              · split at h
                · cases h
                · rename_i hupdate
                  obtain rfl := AuthOutcome.login.inj h
                  exact ⟨nick, passwd, hpasswd, Or.inl ⟨rfl, hplayer, hverify, Or.inr hupdate⟩⟩
            · cases h
    | registerPassword nick =>
        dsimp only [handleRegisterPassword] at h
        split at h
        · cases h
        · rename_i passwd hpasswd
          split at h
          · cases h
          · rename_i hgiven
            split at h
            · cases h
            · rename_i player hplayer
              obtain rfl := AuthOutcome.login.inj h
              exact ⟨nick, passwd, hpasswd, Or.inr ⟨rfl, hgiven, hplayer⟩⟩

/-- A token opens the account whose hash it is made of. -/
theorem login_of_handleAuth {db : DbAnswers} {au : AuAuthType} {sid : String} {row : PlayerRow}
    (h : handleAuth cfg db au sid = .login row) :
    ∃ userId token player, au = .regular userId token ∧ db.getPlayerById = .ok (some player) ∧
      cfg.tokenMatchesLegacyAuth token player.hash sid = true ∧ row.account = player.account := by
  unfold handleAuth at h
  split at h
  · cases h
  · rename_i userId token
    split at h
    · rename_i player hplayer
      split at h
      · rename_i hmatches
        refine ⟨userId, token, player, rfl, hplayer, hmatches, ?_⟩
        rw [← AuthOutcome.login.inj h, grantAdminOnLogin]
        split
        · rfl
        · split <;> rfl
      · cases h
    · cases h

namespace Accounts

variable {s t u : Accounts} {session : SessionId} {row : PlayerRow}

/-- No account is lost, renamed or given to somebody else. -/
def Extends (s t : Accounts) : Prop :=
  ∀ a ∈ s.accounts, t.secret a.id = s.secret a.id ∧
    ∃ b ∈ t.accounts, b.id = a.id ∧ b.name = a.name ∧ b.hash = a.hash

theorem Extends.refl (s : Accounts) : s.Extends s := fun a ha => ⟨rfl, a, ha, rfl, rfl, rfl⟩

theorem Extends.trans (h : s.Extends t) (h' : t.Extends u) : s.Extends u := by
  intro a ha
  obtain ⟨hsecret, b, hb, hid, hname, hhash⟩ := h a ha
  obtain ⟨hsecret', c, hc, hid', hname', hhash'⟩ := h' b hb
  exact ⟨(hid ▸ hsecret').trans hsecret, c, hc, hid'.trans hid, hname'.trans hname, hhash'.trans hhash⟩

/-- A row that was once read of an account. -/
def Known (cfg : AuthConfig) (old : Nat) (s : Accounts) (row : PlayerRow) : Prop :=
  row.account.Genuine cfg old (s.secret row.id) ∧ ∃ a ∈ s.accounts, a.id = row.id ∧ a.hash = row.hash

theorem Known.mono (h : Known cfg old s row) (hext : s.Extends t) : Known cfg old t row := by
  obtain ⟨hgenuine, a, ha, hid, hhash⟩ := h
  obtain ⟨hsecret, b, hb, hid', -, hhash'⟩ := hext a ha
  rw [hid] at hsecret
  exact ⟨hsecret ▸ hgenuine, b, hb, hid'.trans hid, hhash'.trans hhash⟩

structure Sound (cfg : AuthConfig) (old : Nat) (s : Accounts) : Prop where
  books : Books cfg old s.accounts s.lastPlayer s.secret
  held : ∀ row ∈ s.held, Known cfg old s row
  asked : ∀ session a row, s.asked session = some a → a.byName = some row → Known cfg old s row

theorem sound_start {db : Database} (h : Books cfg old (db.players.map PlayerRow.account) last secrets) :
    (start db last secrets).Sound cfg old :=
  ⟨h, fun _ hrow => absurd hrow List.not_mem_nil, fun _ _ _ ha => by cases ha⟩

theorem Sound.next (h : s.Sound cfg old) (hbooks : Books cfg old t.accounts t.lastPlayer t.secret) (hext : s.Extends t)
    (hheld : ∀ row ∈ t.held, row ∈ s.held ∨ Known cfg old t row)
    (hasked : ∀ session a, t.asked session = some a → s.asked session = some a) : t.Sound cfg old where
  books := hbooks
  held row hrow := (hheld row hrow).elim (fun hold => (h.held row hold).mono hext) id
  asked session a row ha hrow := (h.asked session a row (hasked session a ha) hrow).mono hext

theorem known_of_mem (h : s.Sound cfg old) (hrow : row ∈ s.db.players) : Known cfg old s row :=
  ⟨h.books.genuine _ (List.mem_map_of_mem hrow), _, List.mem_map_of_mem hrow, rfl, rfl⟩

theorem known_of_getPlayerByName (h : s.Sound cfg old) {name : String} (hrow : s.getPlayerByName name = some row) :
    Known cfg old s row := by
  rw [getPlayerByName] at hrow
  split at hrow
  · cases hrow
  · exact known_of_mem h (List.mem_of_find?_eq_some hrow)

/-! ### The statements -/

theorem accounts_setPasswd (s : Accounts) (id : PlayerId) (passwd : String) :
    { s with db := s.setPasswd id passwd }.accounts = s.accounts.map (rekey id passwd) := by
  rw [accounts, accounts, setPasswd, List.map_map, List.map_map]
  refine List.map_congr_left fun r _ => ?_
  by_cases hid : r.id = id <;> simp [rekey, PlayerRow.account, hid]

theorem accounts_setPlayer (s : Accounts) (row : PlayerRow) :
    { s with db := s.db.setPlayer row }.accounts = s.accounts.map (rekey row.id row.passwd) := by
  rw [accounts, accounts, Database.setPlayer, List.map_map, List.map_map]
  refine List.map_congr_left fun r _ => ?_
  by_cases hid : r.id = row.id <;> simp [rekey, PlayerRow.account, hid]

theorem accounts_setRole (s : Accounts) (id : PlayerId) (role : Int32) :
    { s with db := s.db.setRole id role }.accounts = s.accounts := by
  rw [accounts, accounts, Database.setRole, List.map_map]
  refine List.map_congr_left fun r _ => ?_
  by_cases hid : r.id = id <;> simp [PlayerRow.account, hid]

theorem extends_of_accounts (h : t.accounts = s.accounts) (hsecret : t.secret = s.secret) : s.Extends t :=
  fun a ha => ⟨by rw [hsecret], a, h ▸ ha, rfl, rfl, rfl⟩

theorem extends_of_rekey (h : t.accounts = s.accounts.map (rekey id passwd)) (hsecret : t.secret = s.secret) :
    s.Extends t :=
  fun a ha => ⟨by rw [hsecret], rekey id passwd a, h ▸ List.mem_map_of_mem ha, rekey_id id passwd a,
    rekey_name id passwd a, rekey_hash id passwd a⟩

/-- A password is stored that was stored for the same account before, or its digest. -/
theorem Sound.rekey (h : s.Sound cfg old) (haccounts : t.accounts = s.accounts.map (rekey id passwd))
    (hlast : t.lastPlayer = s.lastPlayer) (hsecret : t.secret = s.secret)
    (hgenuine : ∀ a ∈ s.accounts, a.id = id → { a with passwd }.Genuine cfg old (s.secret id)) :
    Books cfg old t.accounts t.lastPlayer t.secret ∧ s.Extends t := by
  refine ⟨?_, extends_of_rekey haccounts hsecret⟩
  rw [haccounts, hlast, hsecret]
  exact h.books.rekey hgenuine

/-- All that a row read of an account says of its password holds of the account. -/
theorem Known.genuine (h : Known cfg old s row) (hs : s.Sound cfg old) :
    ∀ a ∈ s.accounts, a.id = row.id →
      a.hash = row.hash ∧ { a with passwd := row.passwd }.Genuine cfg old (s.secret row.id) := by
  intro a ha hid
  obtain ⟨hgenuine, b, hb, hbid, hbhash⟩ := h
  obtain rfl : a = b := List.inj_on_of_nodup_map hs.books.ids ha hb (hid.trans hbid.symm)
  refine ⟨hbhash, ?_⟩
  rw [Account.Genuine] at hgenuine ⊢
  rwa [hid, hbhash]

theorem createPlayer_eq_some {name passwd hash : String} (h : s.createPlayer name passwd hash = some row) :
    s.lastPlayer < 2147483647 ∧ trim name ≠ "" ∧ trim name ∉ s.accounts.map Account.name ∧
      row = newPlayer (Int32.ofNat (s.lastPlayer + 1)) (trim name) passwd hash := by
  rw [createPlayer] at h
  split at h
  · cases h
  · rename_i hfree
    push Not at hfree
    refine ⟨hfree.2.2, hfree.1, ?_, (Option.some.inj h).symm⟩
    rw [accounts, List.map_map]
    exact hfree.2.1

/-- What an answered button that logs in was answered for. -/
theorem login_of_answer {a : Asked} {step : GuiAuthStep} {hash : String} {readFault writeFault : Bool}
    (h : handleGuiAuthFlow cfg (answers cfg s a step hash readFault writeFault) a.button step = .login row) :
    (∃ nick, step = .loginPassword nick ∧ a.byName = some row ∧
        verifyPassword cfg (givenPasswd a.button) row.passwd row.hash = true) ∨
      ∃ nick, step = .registerPassword nick ∧ givenPasswd a.button ≠ "" ∧
        s.createPlayer nick (hashPassword cfg (givenPasswd a.button) hash) hash = some row := by
  obtain ⟨nick, passwd, hpasswd, hcases⟩ := login_of_handleGuiAuthFlow h
  have hgiven : givenPasswd a.button = passwd := by rw [givenPasswd, hpasswd, Option.getD_some]
  rw [hgiven]
  rcases hcases with ⟨rfl, hrow, hverify, -⟩ | ⟨rfl, hnonempty, hrow⟩
  · refine Or.inl ⟨nick, rfl, ?_, hverify⟩
    dsimp only [answers] at hrow
    split at hrow
    · cases hrow
    · exact Except.ok.inj hrow
  · refine Or.inr ⟨nick, rfl, hnonempty, ?_⟩
    dsimp only [answers] at hrow
    rw [hgiven] at hrow
    split at hrow
    · rename_i created hcreated
      split at hrow
      · cases hrow
      · rw [hcreated, Except.ok.inj hrow]
    · cases hrow

theorem mem_leave_asked {a : Asked} {auth : AuthState} {other : SessionId}
    (h : (s.setAuth session auth).asked other = some a) : s.asked other = some a := by
  dsimp only [setAuth] at h
  by_cases hother : other = session
  · rw [hother, Function.update_self] at h
    cases h
  · rwa [Function.update_of_ne hother] at h

/-- Only the table, the secrets and the rows held matter to the books. -/
theorem Sound.setAuth (h : s.Sound cfg old) (session : SessionId) (auth : AuthState) :
    (s.setAuth session auth).Sound cfg old :=
  h.next h.books (.refl s) (fun _ hrow => Or.inl hrow) fun _ _ ha => mem_leave_asked ha

theorem Sound.hold (h : s.Sound cfg old) (hrow : Known cfg old s row) : (s.hold row).Sound cfg old :=
  h.next h.books (.refl s) (fun _ hmem => (List.mem_cons.mp hmem).elim (fun heq => Or.inr (heq ▸ hrow)) Or.inl)
    fun _ _ ha => ha

/-- Storing the digest of an old password that was given right. -/
theorem Sound.migrate (h : s.Sound cfg old) (hrow : Known cfg old s row)
    (hverify : verifyPassword cfg p row.passwd row.hash = true) (hplain : startsWith row.passwd shaPrefix = false) :
    { s with db := s.setPasswd row.id (hashPassword cfg p row.hash) }.Sound cfg old ∧
      s.Extends { s with db := s.setPasswd row.id (hashPassword cfg p row.hash) } := by
  have hsecret : s.secret row.id = p := by
    rcases hrow.1 with hhashed | ⟨-, hpasswd, -⟩
    · change row.passwd = _ at hhashed
      rw [hhashed, startsWith_hashPassword] at hplain
      cases hplain
    · exact hpasswd.symm.trans ((verifyPassword_plain hplain).mp hverify)
  have hkept := h.rekey (t := { s with db := s.setPasswd row.id (hashPassword cfg p row.hash) })
    (accounts_setPasswd s row.id _) rfl rfl fun a ha hid => Or.inl (by rw [hsecret, (hrow.genuine h a ha hid).1])
  exact ⟨h.next hkept.1 hkept.2 (fun _ hmem => Or.inl hmem) (fun _ _ ha => ha), hkept.2⟩

/-- A new account. -/
theorem Sound.register {nick passwd hash : String} (h : s.Sound cfg old) (hgiven : passwd ≠ "")
    (hcreate : s.createPlayer nick (hashPassword cfg passwd hash) hash = some row) :
    let t := login cfg s (.registerPassword nick) passwd row
    t.Sound cfg old ∧ s.Extends t ∧ Known cfg old t row := by
  obtain ⟨hlast, hnonempty, hfree, rfl⟩ := createPlayer_eq_some hcreate
  dsimp only
  set row := newPlayer (Int32.ofNat (s.lastPlayer + 1)) (trim nick) (hashPassword cfg passwd hash) hash with hrow
  set t := login cfg s (.registerPassword nick) passwd row with ht
  have haccounts : t.accounts = s.accounts ++ [row.account] := by
    rw [accounts, ht, login, List.map_append]
    rfl
  have hbooks : Books cfg old t.accounts t.lastPlayer t.secret := by
    rw [haccounts]
    exact h.books.insert hlast hfree hnonempty hgiven
  have hext : s.Extends t := by
    intro a ha
    have hbound := h.books.bound a ha
    have hother : a.id ≠ row.id := by
      intro hid
      rw [hid, hrow, newPlayer, toInt_nextPlayer hlast] at hbound
      omega
    exact ⟨Function.update_of_ne hother _ _, a, haccounts ▸ List.mem_append_left _ ha, rfl, rfl, rfl⟩
  have hknown : Known cfg old t row := by
    refine ⟨Or.inl ?_, row.account, haccounts ▸ List.mem_append_right _ (List.mem_singleton.mpr rfl), rfl, rfl⟩
    have hsecret : t.secret row.id = passwd := Function.update_self ..
    rw [hsecret]
    rfl
  exact ⟨h.next hbooks hext (fun _ hmem => Or.inl hmem) (fun _ _ ha => ha), hext, hknown⟩

theorem Sound.login {a : Asked} {step : GuiAuthStep} {hash : String} {readFault writeFault : Bool} (h : s.Sound cfg old)
    (ha : s.asked session = some a)
    (hlogin : handleGuiAuthFlow cfg (answers cfg s a step hash readFault writeFault) a.button step = .login row) :
    ((login cfg s step (givenPasswd a.button) row).hold row).Sound cfg old ∧
      s.Extends ((login cfg s step (givenPasswd a.button) row).hold row) := by
  rcases login_of_answer hlogin with ⟨nick, rfl, hrow, hverify⟩ | ⟨nick, rfl, hgiven, hcreate⟩
  · have hknown := h.asked session a row ha hrow
    dsimp only [Accounts.login]
    split
    · exact ⟨h.hold hknown, .refl s⟩
    · rename_i hplain
      obtain ⟨hsound, hext⟩ := h.migrate hknown hverify (Bool.not_eq_true _ ▸ hplain)
      exact ⟨hsound.hold (hknown.mono hext), hext⟩
  · obtain ⟨hsound, hext, hknown⟩ := h.register hgiven hcreate
    exact ⟨hsound.hold hknown, hext⟩

theorem Sound.step {event : AccountEvent} (h : s.Sound cfg old) (hstep : s.step cfg event = some t) :
    t.Sound cfg old ∧ s.Extends t := by
  cases event with
  | token session au sid fault =>
      rw [Accounts.step] at hstep
      split at hstep
      · split at hstep
        · exact Option.some.inj hstep ▸ ⟨h.setAuth _ _, .refl s⟩
        · rename_i row hlogin
          obtain ⟨userId, token, player, rfl, hplayer, -, haccount⟩ := login_of_handleAuth hlogin
          have hmem : player ∈ s.db.players := by
            dsimp only [tokenAnswers] at hplayer
            split at hplayer
            · cases hplayer
            · exact List.mem_of_find?_eq_some (Except.ok.inj hplayer)
          have hknown : Known cfg old s row := by
            have hplayer := known_of_mem h hmem
            have hid : row.id = player.id := congrArg Account.id haccount
            have hhash : row.hash = player.hash := congrArg Account.hash haccount
            rwa [Known, haccount, hid, hhash]
          have hext : s.Extends { s with db := s.db.setRole row.id row.role } :=
            extends_of_accounts (accounts_setRole s row.id row.role) rfl
          have hsound : Sound cfg old { s with db := s.db.setRole row.id row.role } :=
            h.next ((accounts_setRole s row.id row.role).symm ▸ h.books) hext (fun _ hmem => Or.inl hmem)
              fun _ _ ha => ha
          exact Option.some.inj hstep ▸ ⟨(hsound.hold (hknown.mono hext)).setAuth _ _, hext⟩
        · exact Option.some.inj hstep ▸ ⟨h.setAuth _ _, .refl s⟩
      · cases hstep
  | ask session button =>
      rw [Accounts.step] at hstep
      split at hstep
      · obtain rfl := Option.some.inj hstep
        refine ⟨⟨h.books, h.held, fun other a row ha hrow => ?_⟩, .refl s⟩
        dsimp only at ha
        by_cases hother : other = session
        · rw [hother, Function.update_self] at ha
          obtain rfl := Option.some.inj ha
          have hknown : Known cfg old s row := known_of_getPlayerByName h hrow
          exact hknown.mono (extends_of_accounts rfl rfl)
        · rw [Function.update_of_ne hother] at ha
          exact (h.asked other a row ha hrow).mono (extends_of_accounts rfl rfl)
      · cases hstep
  | answer session hash readFault writeFault =>
      rw [Accounts.step] at hstep
      split at hstep
      · rename_i step a _ ha
        split at hstep
        · exact Option.some.inj hstep ▸ ⟨h.setAuth _ _, .refl s⟩
        · rename_i row hlogin
          obtain ⟨hsound, hext⟩ := h.login ha hlogin
          exact Option.some.inj hstep ▸ ⟨hsound.setAuth _ _, hext⟩
        · exact Option.some.inj hstep ▸ ⟨h.setAuth _ _, .refl s⟩
      · cases hstep
  | save row =>
      rw [Accounts.step] at hstep
      split at hstep
      · rename_i hheld
        obtain rfl := Option.some.inj hstep
        obtain ⟨held, hmem, hsame⟩ := List.any_eq_true.mp hheld.2
        obtain ⟨hid, hpasswd⟩ := of_decide_eq_true hsame
        have hkept := h.rekey (t := { s with db := s.db.setPlayer row }) (accounts_setPlayer s row) rfl rfl
          fun a ha haid => hid ▸ hpasswd ▸ ((h.held held hmem).genuine h a ha (haid.trans hid.symm)).2
        exact ⟨h.next hkept.1 hkept.2 (fun _ hmem => Or.inl hmem) (fun _ _ ha => ha), hkept.2⟩
      · cases hstep
  | change db =>
      rw [Accounts.step] at hstep
      split at hstep
      · rename_i hsame
        obtain rfl := Option.some.inj hstep
        have hext : s.Extends { s with db } := extends_of_accounts hsame rfl
        have hbooks : Books cfg old (db.players.map PlayerRow.account) s.lastPlayer s.secret := hsame.symm ▸ h.books
        exact ⟨h.next hbooks hext (fun _ hmem => Or.inl hmem) (fun _ _ ha => ha), hext⟩
      · cases hstep
  | leave session => exact Option.some.inj hstep ▸ ⟨h.setAuth _ _, .refl s⟩

/-- What entitles a session to an account. -/
inductive Entitled (cfg : AuthConfig) (s : Accounts) (session : SessionId) (id : PlayerId) : AccountEvent → Prop
  | token {token sid : String} {fault : Bool} {a : Account} (ha : a ∈ s.accounts) (hid : a.id = id)
      (hmatches : cfg.tokenMatchesLegacyAuth token a.hash sid = true) :
      Entitled cfg s session id (.token session (.regular id token) sid fault)
  | passwd {nick given hash : String} {asked : Asked} {readFault writeFault : Bool} {a : Account}
      (hstep : s.auth session = .guiAuth (.loginPassword nick)) (hasked : s.asked session = some asked)
      (hgiven : givenPasswd asked.button = given) (ha : a ∈ s.accounts) (hid : a.id = id)
      (hsame : cfg.sha256Hex (a.hash ++ ":" ++ given) = cfg.sha256Hex (a.hash ++ ":" ++ s.secret id)) :
      Entitled cfg s session id (.answer session hash readFault writeFault)
  | new {nick given hash : String} {asked : Asked} {readFault writeFault : Bool}
      (hstep : s.auth session = .guiAuth (.registerPassword nick)) (hasked : s.asked session = some asked)
      (hgiven : givenPasswd asked.button = given) (hnonempty : given ≠ "") (hid : ∀ a ∈ s.accounts, a.id ≠ id) :
      Entitled cfg s session id (.answer session hash readFault writeFault)

/-- A session changes its state by its own events only. -/
theorem auth_setAuth {auth : AuthState} {other : SessionId} (h : (s.setAuth session auth).auth other ≠ s.auth other) :
    other = session ∧ (s.setAuth session auth).auth other = auth := by
  dsimp only [setAuth] at h ⊢
  by_cases hother : other = session
  · rw [hother, Function.update_self]
    exact ⟨rfl, rfl⟩
  · exact absurd (Function.update_of_ne hother ..) h

theorem auth_login (s : Accounts) (step : GuiAuthStep) (passwd : String) (row : PlayerRow) :
    ((Accounts.login cfg s step passwd row).hold row).auth = s.auth := by
  cases step with
  | registerPassword nick => rfl
  | mainMenu | loginPassword nick | registerNick =>
      dsimp only [Accounts.login, hold]
      split <;> rfl

theorem Sound.entitled {event : AccountEvent} (h : s.Sound cfg old) (hstep : s.step cfg event = some t)
    (hauth : t.auth session = .authenticated id) (hbefore : s.auth session ≠ .authenticated id) :
    Entitled cfg s session id event := by
  have hchanged : t.auth session ≠ s.auth session := hauth ▸ hbefore.symm
  cases event with
  | token own au sid fault =>
      rw [Accounts.step] at hstep
      split at hstep
      · split at hstep
        · rename_i auth hgo
          obtain rfl := Option.some.inj hstep
          obtain ⟨-, hself⟩ := auth_setAuth hchanged
          have hnone := playerId_of_handleAuth hgo
          rw [← hself, hauth] at hnone
          cases hnone
        · rename_i row hlogin
          obtain rfl := Option.some.inj hstep
          obtain ⟨rfl, hself⟩ := auth_setAuth hchanged
          obtain ⟨userId, token, player, rfl, hplayer, hmatches, haccount⟩ := login_of_handleAuth hlogin
          dsimp only [tokenAnswers] at hplayer
          split at hplayer
          · cases hplayer
          · have hfound := Except.ok.inj hplayer
            have hmem := List.mem_map_of_mem (f := PlayerRow.account) (List.mem_of_find?_eq_some hfound)
            have hplayerId : player.id = userId := by
              have hsome := List.find?_some hfound
              rwa [decide_eq_true_eq] at hsome
            obtain rfl : id = userId :=
              (AuthState.authenticated.inj (hauth.symm.trans hself)).trans
                ((congrArg Account.id haccount).trans hplayerId)
            exact .token hmem hplayerId hmatches
        · obtain rfl := Option.some.inj hstep
          obtain ⟨-, hself⟩ := auth_setAuth hchanged
          exact absurd (hauth.symm.trans hself) nofun
      · cases hstep
  | ask own button =>
      rw [Accounts.step] at hstep
      split at hstep
      · obtain rfl := Option.some.inj hstep
        exact absurd hauth hbefore
      · cases hstep
  | answer own hash readFault writeFault =>
      rw [Accounts.step] at hstep
      split at hstep
      · rename_i step a hguiAuth ha
        split at hstep
        · rename_i auth hgo
          obtain rfl := Option.some.inj hstep
          obtain ⟨-, hself⟩ := auth_setAuth hchanged
          have hnone := playerId_of_handleGuiAuthFlow hgo
          rw [← hself, hauth] at hnone
          cases hnone
        · rename_i row hlogin
          obtain rfl := Option.some.inj hstep
          rw [← auth_login s step (givenPasswd a.button) row] at hchanged
          obtain ⟨rfl, hself⟩ := auth_setAuth hchanged
          obtain rfl : id = row.id := AuthState.authenticated.inj (hauth.symm.trans hself)
          rcases login_of_answer hlogin with ⟨nick, rfl, hrow, hverify⟩ | ⟨nick, rfl, hgiven, hcreate⟩
          · obtain ⟨hgenuine, b, hb, hid, hhash⟩ := h.asked _ a row ha hrow
            exact .passwd hguiAuth ha rfl hb hid (hhash ▸ hgenuine.of_verify hverify)
          · obtain ⟨hlast, -, -, rfl⟩ := createPlayer_eq_some hcreate
            refine .new hguiAuth ha rfl hgiven fun b hb hid => ?_
            have hbound := h.books.bound b hb
            rw [hid, newPlayer, toInt_nextPlayer hlast] at hbound
            omega
        · obtain rfl := Option.some.inj hstep
          obtain ⟨-, hself⟩ := auth_setAuth hchanged
          exact absurd (hauth.symm.trans hself) nofun
      · cases hstep
  | save row =>
      rw [Accounts.step] at hstep
      split at hstep
      · obtain rfl := Option.some.inj hstep
        exact absurd hauth hbefore
      · cases hstep
  | change db =>
      rw [Accounts.step] at hstep
      split at hstep
      · obtain rfl := Option.some.inj hstep
        exact absurd hauth hbefore
      · cases hstep
  | leave own =>
      obtain rfl := Option.some.inj hstep
      obtain ⟨-, hself⟩ := auth_setAuth hchanged
      exact absurd (hauth.symm.trans hself) nofun

/-- The owner's password opens the account, whatever is stored of it. -/
theorem Sound.owner_enters {nick : String} {exist : Bool} (h : s.Sound cfg old)
    (hstep : s.auth session = .guiAuth (.loginPassword nick))
    (hasked : s.asked session = some ⟨"passwd:" ++ s.secret row.id, some row, exist⟩) (hash : String) :
    ∃ t, s.step cfg (.answer session hash false false) = some t ∧ t.auth session = .authenticated row.id := by
  obtain ⟨hgenuine, a, ha, hid, -⟩ := h.asked session _ row hasked rfl
  have hverify : verifyPassword cfg (s.secret row.id) row.passwd row.hash = true := hgenuine.verify
  have hmem : row.id ∈ s.db.playerIds := by
    obtain ⟨r, hr, rfl⟩ := List.mem_map.mp ha
    exact List.mem_map.mpr ⟨r, hr, hid⟩
  have hexit : startsWith ("passwd:" ++ s.secret row.id) "exit" = false :=
    startsWith_of_clash (startsWith_append _ _) (by decide)
  have hlogin : handleGuiAuthFlow cfg
      (answers cfg s ⟨"passwd:" ++ s.secret row.id, some row, exist⟩ (.loginPassword nick) hash false false)
      ("passwd:" ++ s.secret row.id) (.loginPassword nick) = .login row := by
    rw [handleGuiAuthFlow, hexit]
    dsimp only [handleLoginPassword, answers]
    rw [stripPrefix_eq_some.mpr rfl]
    simp [hverify, hmem]
  let u := (Accounts.login cfg s (.loginPassword nick) (givenPasswd ("passwd:" ++ s.secret row.id)) row).hold row
  refine ⟨u.setAuth session (.authenticated row.id), ?_, Function.update_self ..⟩
  rw [Accounts.step, hstep, hasked]
  dsimp only
  rw [hlogin]

theorem sound_run {db : Database} {es : List AccountEvent}
    (hbooks : Books cfg last (db.players.map PlayerRow.account) last secrets)
    (h : run (step cfg) (start db last secrets) es = some s) : s.Sound cfg last ∧ (start db last secrets).Extends s :=
  run_preserves (P := fun u => u.Sound cfg last ∧ (start db last secrets).Extends u) ⟨sound_start hbooks, .refl _⟩
    (fun _ _ _ _ hu hstep => ⟨(hu.1.step hstep).1, hu.2.trans (hu.1.step hstep).2⟩) h

/-- Whatever the sessions, the saves of the game and the rest of the server do: each owner's password is accepted, and
what is accepted has its digest; no account is lost, and a new one has a name and a digest. -/
theorem accounts_kept {db : Database} {es : List AccountEvent}
    (hbooks : Books cfg last (db.players.map PlayerRow.account) last secrets)
    (h : run (step cfg) (start db last secrets) es = some s) :
    (∀ a ∈ s.accounts, verifyPassword cfg (s.secret a.id) a.passwd a.hash = true ∧
      ∀ given, verifyPassword cfg given a.passwd a.hash = true →
        cfg.sha256Hex (a.hash ++ ":" ++ given) = cfg.sha256Hex (a.hash ++ ":" ++ s.secret a.id)) ∧
      (s.accounts.map Account.id).Nodup ∧ (s.accounts.map Account.name).Nodup ∧ (start db last secrets).Extends s ∧
      ∀ a ∈ s.accounts, (last : Int) < a.id.toInt →
        startsWith a.passwd shaPrefix = true ∧ a.name ≠ "" ∧ s.secret a.id ≠ "" := by
  obtain ⟨hsound, hext⟩ := sound_run hbooks h
  refine ⟨fun a ha => ⟨(hsound.books.genuine a ha).verify, fun given => (hsound.books.genuine a ha).of_verify⟩,
    hsound.books.ids, hsound.books.names, hext, fun a ha hnew => ⟨?_, hsound.books.fresh a ha hnew⟩⟩
  rcases hsound.books.genuine a ha with hhashed | ⟨hold, -, -⟩
  · rw [hhashed]
    exact startsWith_hashPassword cfg _ _
  · omega

/-- A session comes to an account only when it is entitled to it, and with the owner's password it does, whatever has
been stored since the database was asked. -/
theorem logins_entitled {db : Database} {es : List AccountEvent}
    (hbooks : Books cfg last (db.players.map PlayerRow.account) last secrets)
    (h : run (step cfg) (start db last secrets) es = some s) (session : SessionId) :
    (∀ id event t, s.step cfg event = some t → t.auth session = .authenticated id →
        s.auth session ≠ .authenticated id → Entitled cfg s session id event) ∧
      ∀ nick row exist hash, s.auth session = .guiAuth (.loginPassword nick) →
        s.asked session = some ⟨"passwd:" ++ s.secret row.id, some row, exist⟩ →
        ∃ t, s.step cfg (.answer session hash false false) = some t ∧ t.auth session = .authenticated row.id := by
  obtain ⟨hsound, -⟩ := sound_run hbooks h
  exact ⟨fun id event t hstep hauth hbefore => hsound.entitled hstep hauth hbefore,
    fun nick row exist hash hstep hasked => hsound.owner_enters hstep hasked hash⟩

def sampleAuth : AuthConfig := ⟨fun text => text, fun _ _ _ => false, none⟩

/-- An account from before digests were stored. -/
def sampleTable : Database := { emptyDatabase with players := [newPlayer 7 "bob" "pw" "HASH"] }

theorem books_sampleTable :
    Books sampleAuth 7 (sampleTable.players.map PlayerRow.account) 7 fun _ => "pw" where
  ids := List.nodup_singleton _
  names := List.nodup_singleton _
  bound := List.forall_mem_singleton.mpr (by decide)
  old_le := Nat.le_refl _
  last_le := by decide
  genuine := List.forall_mem_singleton.mpr (Or.inr ⟨by decide, rfl, by decide⟩)
  fresh := List.forall_mem_singleton.mpr fun hnew => absurd hnew (by decide)

/-- The old password is given, its digest stored, and the row that the game was given saved over it. -/
theorem accounts_kept_bob : ∃ s, run (step sampleAuth) (start sampleTable 7 fun _ => "pw")
      [.token 1 .noAuth "" false, .ask 1 "nick:bob", .answer 1 "" false false, .ask 1 "passwd:pw",
        .answer 1 "" false false, .save (newPlayer 7 "bob" "pw" "HASH")] = some s ∧
    ∀ a ∈ s.accounts, verifyPassword sampleAuth (s.secret a.id) a.passwd a.hash = true := by
  obtain ⟨s, hrun⟩ : ∃ s, run (step sampleAuth) (start sampleTable 7 fun _ => "pw")
      [.token 1 .noAuth "" false, .ask 1 "nick:bob", .answer 1 "" false false, .ask 1 "passwd:pw",
        .answer 1 "" false false, .save (newPlayer 7 "bob" "pw" "HASH")] = some s := ⟨_, rfl⟩
  exact ⟨s, hrun, fun a ha => ((accounts_kept books_sampleTable hrun).1 a ha).1⟩

theorem logins_entitled_bob : ∃ s t, run (step sampleAuth) (start sampleTable 7 fun _ => "pw")
      [.token 1 .noAuth "" false, .ask 1 "nick:bob", .answer 1 "" false false, .ask 1 "passwd:pw"] = some s ∧
    s.step sampleAuth (.answer 1 "" false false) = some t ∧ t.auth 1 = .authenticated 7 := by
  obtain ⟨s, hrun, hstep, hasked⟩ : ∃ s, run (step sampleAuth) (start sampleTable 7 fun _ => "pw")
      [.token 1 .noAuth "" false, .ask 1 "nick:bob", .answer 1 "" false false, .ask 1 "passwd:pw"] = some s ∧
      s.auth 1 = .guiAuth (.loginPassword "bob") ∧
      s.asked 1 = some ⟨"passwd:" ++ s.secret 7, some (newPlayer 7 "bob" "pw" "HASH"), true⟩ := by
    refine ⟨_, rfl, ?_, ?_⟩
    · decide
    · rfl
  obtain ⟨t, ht, hauth⟩ := (logins_entitled books_sampleTable hrun 1).2 "bob" (newPlayer 7 "bob" "pw" "HASH") true ""
    hstep hasked
  exact ⟨s, t, hrun, ht, hauth⟩

end Accounts

end OpenMines
