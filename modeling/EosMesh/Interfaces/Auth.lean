import EosMesh.Interfaces.Mesh
import EosMesh.Lib.Notices

/-!
# The Auth interface

`interfaces/auth.cpp`: any supported credentials log in the one account of this process, and who
registered is told on the next frame when that changed.

* `Auth` is the interface, with `Auth.login`, `Auth.logout` and `Auth.cbRunFrame`.  The credentials
  are checked for their form only (`credentialsAreValid`): what a type needs has to be there, and
  what it does not use must not be.
* `Auth.step` lets a game call in any order, also from inside a notification.  A frame is
  `cbRunFrame`, which takes what is due, and then one `advance` for each listener that is told;
  between two of them the game may log in or out, register or leave.  What it may not do is tick the
  platform in there (`ticksOutside`).
* `OneAccount` is the invariant: nobody but the one account is ever logged in.  So a status is told
  by whether somebody is, and `announces` says that every change of it is queued once.
* `auth_listener_keeps_up`: no listener misses a change, and none hears of one that was not.  Who is
  owed what is the bookkeeping of `Lib.Notices`.
* `selected_account_id_of_run` says what a user is to the interface after any run: one that was
  never logged in is unknown, and that is another answer than for one that is logged out.
-/

set_option autoImplicit false

namespace EosMesh

open Lib

/-! ## Credentials -/

/-- A result that only this interface reports. -/
def ResultCode.invalidAuth : ResultCode := 4

/-- The versions of the options that we know. -/
def authLoginApiLatest : Int32 := 3
def authCredentialsApiLatest : Int32 := 4
def authLogoutApiLatest : Int32 := 1

/-- `EOS_ELoginStatus`. -/
inductive LoginStatus
  | notLoggedIn | usingLocalProfile | loggedIn
  deriving DecidableEq, Repr

/-- `EOS_ELoginCredentialType`. -/
inductive CredentialType
  | password | exchangeCode | persistentAuth | deviceCode | developer | refreshToken | accountPortal
  | externalAuth
  deriving DecidableEq, Repr

/-- A credential type the SDK knows. -/
def CredentialType.ofInt (type : Int32) : Option CredentialType :=
  if type = 0 then some .password
  else if type = 1 then some .exchangeCode
  else if type = 2 then some .persistentAuth
  else if type = 3 then some .deviceCode
  else if type = 4 then some .developer
  else if type = 5 then some .refreshToken
  else if type = 6 then some .accountPortal
  else if type = 7 then some .externalAuth
  else none

/-- The credentials of a login; a null text is `none`. -/
structure AuthCredentials where
  apiVersion : Int32
  id : Option Bytes
  token : Option Bytes
  type : Int32
  deriving DecidableEq, Repr

/-- The options to log in with. -/
structure AuthLoginOptions where
  apiVersion : Int32
  credentials : Option AuthCredentials
  deriving DecidableEq, Repr

/-- The options to log out with. -/
structure AuthLogoutOptions where
  apiVersion : Int32
  localUserId : Option Bytes
  deriving DecidableEq, Repr

/-- The values are not checked, only whether what the type needs is there and the rest is not. -/
def credentialsAreValid (credentials : AuthCredentials) : Bool :=
  let hasId := credentials.id.isSome
  let hasToken := credentials.token.isSome
  match CredentialType.ofInt credentials.type with
  | some .password => hasId && hasToken
  | some .exchangeCode => hasToken && !hasId
  | some .persistentAuth => true
  | some .developer => hasId && hasToken
  | some .refreshToken => hasToken
  | some .accountPortal => !hasId && !hasToken
  | some .externalAuth => hasToken
  | some .deviceCode | none => false

/-- Every part of the options is there and of a version we know; what the credentials say is not
looked at. -/
def authLoginOptionsAreValid (options : Option AuthLoginOptions) : Bool :=
  options.any fun options ↦
    options.credentials.any fun credentials ↦
      versionOk options.apiVersion authLoginApiLatest &&
        versionOk credentials.apiVersion authCredentialsApiLatest &&
        credentialsAreValid credentials

/-! ## The interface -/

/-- What a login is answered with. -/
structure AuthLoginInfo where
  resultCode : ResultCode
  localUserId : Option Bytes
  selectedAccountId : Option Bytes
  deriving DecidableEq, Repr

/-- What a logout is answered with. -/
structure AuthLogoutInfo where
  resultCode : ResultCode
  localUserId : Option Bytes
  deriving DecidableEq, Repr

/-- Who it is by `settings_`, who is logged in, who ever was, and what the listeners are owed. -/
structure Auth where
  epicAccountId : Bytes
  accounts : List Bytes := []
  knownAccounts : List Bytes := []
  notices : Notices Unit (Change Bytes LoginStatus) := {}

namespace Auth

variable (s : Auth)

/-- The one notification of this interface is told every change. -/
def heed : Unit → Change Bytes LoginStatus → Bool := fun _ _ ↦ true

/-- Somebody is logged in. -/
def isLoggedIn : Bool := s.accounts ≠ []

/-- The account that is logged in. -/
def localAccount : Option Bytes := s.accounts.head?

/-- `EOS_Auth_Login`: there is one account, and it logs in once. -/
def login (options : Option AuthLoginOptions) : AuthLoginInfo × Auth :=
  if ¬ authLoginOptionsAreValid options then (⟨.invalidParameters, none, none⟩, s)
  else if s.isLoggedIn then (⟨.limitExceeded, s.localAccount, s.localAccount⟩, s)
  else
    (⟨.success, some s.epicAccountId, some s.epicAccountId⟩,
      { s with
        accounts := s.accounts ++ [s.epicAccountId]
        knownAccounts := s.knownAccounts.insert s.epicAccountId
        notices := s.notices.push ⟨s.epicAccountId, .notLoggedIn, .loggedIn⟩ })

/-- `EOS_Auth_Logout`, of the account that is logged in. -/
def logout (options : Option AuthLogoutOptions) : AuthLogoutInfo × Auth :=
  let validOptions := options.any fun options ↦ versionOk options.apiVersion authLogoutApiLatest
  let user := options.bind (·.localUserId)
  if ¬ validOptions then (⟨.invalidParameters, user⟩, s)
  else
    match user with
    | none => (⟨.invalidUser, none⟩, s)
    | some id =>
      if s.isLoggedIn ∧ s.localAccount = some id then
        (⟨.success, some id⟩,
          { s with accounts := [], notices := s.notices.push ⟨id, .loggedIn, .notLoggedIn⟩ })
      else (⟨.invalidUser, some id⟩, s)

/-- Whether a user is the one that is logged in. -/
def loginStatus (user : Bytes) : LoginStatus :=
  if s.isLoggedIn ∧ s.localAccount = some user then .loggedIn else .notLoggedIn

/-- A user never seen is another case than one that is not logged in right now. -/
def selectedAccountId (user : Bytes) : ResultCode × Option Bytes :=
  if user ∉ s.knownAccounts then (.invalidUser, none)
  else if ¬ s.isLoggedIn ∨ s.localAccount ≠ some user then (.invalidAuth, none)
  else (.success, s.localAccount)

/-- A listener is registered. -/
def addNotifyLoginStatusChanged : Auth := { s with notices := s.notices.add () }

/-- A listener is taken back. -/
def removeNotifyLoginStatusChanged (id : Nat) : Auth := { s with notices := s.notices.remove id }

/-- A frame starts with what is due by then; `advance` goes on with it, one notification at a
time. -/
def cbRunFrame : Auth := { s with notices := s.notices.frame heed }

/-- The next listener of the frame is told. -/
def advance : Option Auth := (s.notices.advance heed).map fun notices ↦
    { s with notices := notices }

/-- What may happen to the interface; a call without a delegate does nothing. -/
inductive Input
  | login (options : Option AuthLoginOptions) (hasDelegate : Bool)
  | logout (options : Option AuthLogoutOptions) (hasDelegate : Bool)
  | addNotify (hasDelegate : Bool)
  | removeNotify (id : Nat)
  | otherNotify
  | frame
  | advance
  deriving DecidableEq, Repr

/-- One thing that happens; a call without a delegate does nothing. -/
def step : Input → Option Auth
  | .login options hasDelegate => some (if hasDelegate then (s.login options).2 else s)
  | .logout options hasDelegate => some (if hasDelegate then (s.logout options).2 else s)
  | .addNotify hasDelegate => some (if hasDelegate then s.addNotifyLoginStatusChanged else s)
  | .removeNotify id => some (s.removeNotifyLoginStatusChanged id)
  | .otherNotify => some { s with notices := s.notices.skip }
  | .frame => some s.cbRunFrame
  | .advance => s.advance

/-- A game does not tick the platform from inside a notification of this interface. -/
def ticksOutside (s : Auth) (i : Input) : Prop := i = .frame → s.notices.rounds = []

instance (s : Auth) (i : Input) : Decidable (s.ticksOutside i) :=
  inferInstanceAs (Decidable (_ → _))

/-- The interface before anyone logged in. -/
def fresh (epicAccountId : Bytes) : Auth where
  epicAccountId := epicAccountId

/-! ## Runs -/

variable {s} {s' : Auth}

/-- Nobody but the one account is ever logged in. -/
structure OneAccount (epicAccountId : Bytes) (s : Auth) : Prop where
  self : s.epicAccountId = epicAccountId
  accounts : s.accounts = [] ∨ s.accounts = [epicAccountId]

theorem login_cases (s : Auth) (options : Option AuthLoginOptions) :
    s.login options = (⟨.invalidParameters, none, none⟩, s) ∨
    s.login options = (⟨.limitExceeded, s.localAccount, s.localAccount⟩, s) ∨
    s.accounts = [] ∧ s.login options =
      (⟨.success, some s.epicAccountId, some s.epicAccountId⟩,
        { s with
          accounts := [s.epicAccountId]
          knownAccounts := s.knownAccounts.insert s.epicAccountId
          notices := s.notices.push ⟨s.epicAccountId, .notLoggedIn, .loggedIn⟩ }) := by
  rw [login]
  split
  · exact .inl rfl
  · split
    · exact .inr (.inl rfl)
    · rename_i hout
      have hnobody : s.accounts = [] := by simpa [isLoggedIn] using hout
      refine .inr (.inr ⟨hnobody, ?_⟩)
      rw [hnobody]
      rfl

theorem logout_cases (s : Auth) (options : Option AuthLogoutOptions) :
    (s.logout options).2 = s ∨
    ∃ id, s.localAccount = some id ∧ (s.logout options).2 =
      { s with accounts := [], notices := s.notices.push ⟨id, .loggedIn, .notLoggedIn⟩ } := by
  simp only [logout]
  split
  · exact .inl rfl
  · split
    · exact .inl rfl
    · split
      · rename_i id _ hself
        exact .inr ⟨id, hself.2, rfl⟩
      · exact .inl rfl

theorem OneAccount.localAccount {epic user : Bytes} (h : s.OneAccount epic)
    (huser : s.localAccount = some user) : s.accounts = [epic] ∧ user = epic := by
  rcases h.accounts with hnone | hone
  · rw [Auth.localAccount, hnone] at huser
    cases huser
  · rw [Auth.localAccount, hone] at huser
    cases huser
    exact ⟨hone, rfl⟩

theorem loginStatus_nobody (h : s.accounts = []) : s.loginStatus = fun _ ↦ .notLoggedIn := by
  funext user
  simp [loginStatus, isLoggedIn, h]

theorem loginStatus_one {epic : Bytes} (h : s.accounts = [epic]) :
    s.loginStatus = Function.update (fun _ ↦ .notLoggedIn) epic .loggedIn := by
  funext user
  rw [loginStatus, isLoggedIn, Auth.localAccount, h, Function.update_apply]
  by_cases huser : user = epic
  · simp [huser]
  · simp [huser, Ne.symm huser]

theorem OneAccount.step {epic : Bytes} (h : s.OneAccount epic) {i : Input}
    (hstep : s.step i = some s') : s'.OneAccount epic := by
  cases i with
  | login options hasDelegate =>
    cases hstep
    cases hasDelegate with
    | false => exact h
    | true =>
      rcases login_cases s options with heq | heq | ⟨-, heq⟩ <;> rw [if_pos rfl, heq]
      · exact h
      · exact h
      · exact ⟨h.self, .inr (by rw [h.self])⟩
  | logout options hasDelegate =>
    cases hstep
    cases hasDelegate with
    | false => exact h
    | true =>
      rcases logout_cases s options with heq | ⟨id, -, heq⟩ <;> rw [if_pos rfl, heq]
      · exact h
      · exact ⟨h.self, .inl rfl⟩
  | addNotify hasDelegate =>
    cases hstep
    cases hasDelegate <;> exact ⟨h.self, h.accounts⟩
  | removeNotify | otherNotify | frame =>
    cases hstep
    exact ⟨h.self, h.accounts⟩
  | advance =>
    obtain ⟨notices, -, rfl⟩ := Option.map_eq_some_iff.1 hstep
    exact ⟨h.self, h.accounts⟩

/-- **Every change is said**, and nothing else is. -/
theorem announces (epic : Bytes) :
    Notices.Announces step ticksOutside (OneAccount epic) heed notices loginStatus where
  keeps _ _ _ h _ hstep := h.step hstep
  tells s i s' h hguard hstep := by
    cases i with
    | login options hasDelegate =>
      cases hstep
      cases hasDelegate with
      | false => exact ⟨[], .still, rfl⟩
      | true =>
        rcases login_cases s options with heq | heq | ⟨hnobody, heq⟩ <;> rw [if_pos rfl, heq]
        · exact ⟨[], .still, rfl⟩
        · exact ⟨[], .still, rfl⟩
        · refine ⟨[_], .pushed _, ?_⟩
          rw [loginStatus_nobody hnobody, loginStatus_one rfl]
          exact ⟨rfl, by simp, rfl⟩
    | logout options hasDelegate =>
      cases hstep
      cases hasDelegate with
      | false => exact ⟨[], .still, rfl⟩
      | true =>
        rcases logout_cases s options with heq | ⟨id, hself, heq⟩ <;> rw [if_pos rfl, heq]
        · exact ⟨[], .still, rfl⟩
        · obtain ⟨hone, rfl⟩ := h.localAccount hself
          refine ⟨[_], .pushed _, ?_⟩
          rw [loginStatus_one hone, loginStatus_nobody rfl]
          refine ⟨Function.update_self .., by simp, ?_⟩
          rw [Leads, Function.update_idem]
          exact Function.update_eq_self id _
    | addNotify hasDelegate =>
      cases hstep
      cases hasDelegate with
      | false => exact ⟨[], .still, rfl⟩
      | true => exact ⟨[], .added (), rfl⟩
    | removeNotify id =>
      cases hstep
      exact ⟨[], .removed id, rfl⟩
    | otherNotify =>
      cases hstep
      exact ⟨[], .skipped, rfl⟩
    | frame =>
      cases hstep
      exact ⟨[], .framed (hguard rfl), rfl⟩
    | advance =>
      obtain ⟨notices, hadvance, rfl⟩ := Option.map_eq_some_iff.1 hstep
      exact ⟨[], .advanced hadvance, rfl⟩

theorem oneAccount_fresh (epic : Bytes) : (fresh epic).OneAccount epic := ⟨rfl, .inl rfl⟩

/-- **No listener misses a login or a logout, and none hears of one that was not**: from any moment
at which nothing is owed, what it is told and what is still due are the changes since then, each
with the status there was before it. -/
theorem auth_listener_keeps_up {epic : Bytes} (h : Reaches step ticksOutside (fresh epic) s)
    (hidle : s.notices.Idle) {id : Nat} (hlisted : (id, ()) ∈ s.notices.listeners)
    (hrun : Reaches step ticksOutside s s') (hlisted' : (id, ()) ∈ s'.notices.listeners) :
    ∃ new, s'.notices.heardBy id = s.notices.heardBy id ++ new ∧
      Leads s.loginStatus (new ++ s'.notices.owed heed id ()) s'.loginStatus := by
  obtain ⟨hI, htidy⟩ := (announces epic).reached (oneAccount_fresh epic) Notices.tidy_start h
  exact (announces epic).keeps_up hI htidy hidle (fun _ ↦ rfl) hlisted hrun hlisted'

/-- Any credentials that need nothing. -/
def persistentLogin : AuthLoginOptions where
  apiVersion := 1
  credentials := some { apiVersion := 1, id := none, token := none, type := 2 }

/-- The user logs in, and out again while the first listener is told of it. -/
def turnabout : List Input :=
  [.login (some persistentLogin) true, .frame, .advance,
    .logout (some { apiVersion := 1, localUserId := some [7] }) true]

/-- It hears of the login, and is owed the logout. -/
theorem auth_listener_keeps_up_turnabout : ∃ s s' new,
    Reaches step ticksOutside (fresh [7]) s ∧ Reaches step ticksOutside s s' ∧
    new = [⟨[7], .notLoggedIn, .loggedIn⟩] ∧
    s'.notices.heardBy 1 = s.notices.heardBy 1 ++ new ∧
    Leads s.loginStatus (new ++ s'.notices.owed heed 1 ()) s'.loginStatus := by
  obtain ⟨s, h, hidle, hlisted, hsilent, hgoes, hmeets⟩ :=
    exists_reaches step ticksOutside (fresh [7])
    (fun s ↦ s.notices.Idle ∧ (1, ()) ∈ s.notices.listeners ∧ s.notices.heardBy 1 = [] ∧
      (runInputs step s turnabout).any (fun s' ↦ decide ((1, ()) ∈ s'.notices.listeners ∧
        s'.notices.heardBy 1 = [⟨[7], .notLoggedIn, .loggedIn⟩])) = true ∧
      meets step ticksOutside s turnabout)
    [.addNotify true] (by decide) (by decide)
  obtain ⟨s', hrun, hlisted', htold⟩ := exists_reaches step ticksOutside s _ turnabout hgoes hmeets
  obtain ⟨new, hheard, hleads⟩ := auth_listener_keeps_up h hidle hlisted hrun hlisted'
  have hnew : new = [⟨[7], .notLoggedIn, .loggedIn⟩] := by
    rw [← htold, hheard, hsilent, List.nil_append]
  exact ⟨s, s', new, h, hrun, hnew, hheard, hleads⟩

/-! ## Who a user is -/

/-- The call logs the user in. -/
def logsIn (user : Bytes) (s : Auth) : Input → Bool
  | .login options true => (s.login options).1.resultCode = .success ∧ user = s.epicAccountId
  | _ => false

/-- Whoever is logged in has been seen. -/
structure Seen (epicAccountId : Bytes) (s : Auth) : Prop where
  one : s.OneAccount epicAccountId
  known : ∀ user ∈ s.accounts, user ∈ s.knownAccounts

/-- A step makes known whom it logs in, and forgets nobody. -/
theorem Seen.step {epic : Bytes} (h : s.Seen epic) {i : Input} (hstep : s.step i = some s')
    (user : Bytes) : s'.Seen epic ∧
      (user ∈ s'.knownAccounts ↔ user ∈ s.knownAccounts ∨ s.logsIn user i = true) := by
  have hone := h.one.step hstep
  have hsame {s' : Auth} (hno : s.logsIn user i = false)
      (hknown : s'.knownAccounts = s.knownAccounts) :
      user ∈ s'.knownAccounts ↔ user ∈ s.knownAccounts ∨ s.logsIn user i = true := by
    rw [hknown, hno]
    exact (or_iff_left (by decide)).symm
  cases i with
  | login options hasDelegate =>
    cases hstep
    cases hasDelegate with
    | false => exact ⟨⟨hone, h.known⟩, hsame rfl rfl⟩
    | true =>
      have hrefused (hcode : (s.login options).1.resultCode ≠ .success) :
          s.logsIn user (.login options true) = false := by
        simp [logsIn, hcode]
      rcases login_cases s options with heq | heq | ⟨-, heq⟩ <;> rw [if_pos rfl, heq] at hone ⊢
      · exact ⟨⟨hone, h.known⟩, hsame (hrefused (by rw [heq]; exact of_decide_eq_false rfl)) rfl⟩
      · exact ⟨⟨hone, h.known⟩, hsame (hrefused (by rw [heq]; exact of_decide_eq_false rfl)) rfl⟩
      · refine ⟨⟨hone, fun user huser ↦ ?_⟩, ?_⟩
        · rw [List.mem_singleton.1 huser]
          exact List.mem_insert_self
        · simp [logsIn, heq, List.mem_insert_iff, or_comm]
  | logout options hasDelegate =>
    cases hstep
    cases hasDelegate with
    | false => exact ⟨⟨hone, h.known⟩, hsame rfl rfl⟩
    | true =>
      rcases logout_cases s options with heq | ⟨id, -, heq⟩ <;> rw [if_pos rfl, heq] at hone ⊢
      · exact ⟨⟨hone, h.known⟩, hsame rfl rfl⟩
      · exact ⟨⟨hone, by simp⟩, hsame rfl rfl⟩
  | addNotify hasDelegate =>
    cases hstep
    cases hasDelegate <;> exact ⟨⟨hone, h.known⟩, hsame rfl rfl⟩
  | removeNotify | otherNotify | frame =>
    cases hstep
    exact ⟨⟨hone, h.known⟩, hsame rfl rfl⟩
  | advance =>
    obtain ⟨notices, -, rfl⟩ := Option.map_eq_some_iff.1 hstep
    exact ⟨⟨hone, h.known⟩, hsame rfl rfl⟩

/-- **What a user is to the interface**: selected while logged in, refused as not logged in once it
ever was, and unknown otherwise. -/
theorem selected_account_id_of_run {epic : Bytes} {inputs : List Input}
    (h : runInputs step (fresh epic) inputs = some s) (user : Bytes) :
    (s.selectedAccountId user).1 =
      if s.loginStatus user = .loggedIn then .success
      else if happens step (fun s i ↦ s.logsIn user i = true) (fresh epic) inputs then .invalidAuth
      else .invalidUser := by
  have hseen : (fresh epic).Seen epic := ⟨oneAccount_fresh epic, fun user huser ↦ by cases huser⟩
  have hend : s.Seen epic :=
    (reaches_of_runInputs h (meets_always _ _)).invariant hseen
      fun _ _ _ hseen _ hstep ↦ (hseen.step hstep user).1
  have hknown := holds_iff_happens (I := Seen epic) (Q := fun s ↦ user ∈ s.knownAccounts)
    (fun s i s' hI _ hstep ↦ Seen.step hI hstep user) hseen h (meets_always _ _)
  rw [or_iff_right (by simp [fresh])] at hknown
  rw [selectedAccountId, loginStatus]
  by_cases hin : s.isLoggedIn ∧ s.localAccount = some user
  · have hmember : user ∈ s.knownAccounts :=
      hend.known user (List.mem_of_head? hin.2)
    simp [hin, hmember]
  · by_cases hmember : user ∈ s.knownAccounts
    · have hout : ¬ s.isLoggedIn ∨ s.localAccount ≠ some user := not_and_or.1 hin
      rw [if_neg (not_not.2 hmember), if_pos hout]
      simp [hin, hmember, ← hknown]
    · simp [hin, hmember, ← hknown]

end Auth
end EosMesh
