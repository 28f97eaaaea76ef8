import EosMesh.Interfaces.Auth

/-!
# The integrated platform interface

`interfaces/integratedplatform.cpp`: a game that manages the identities of another platform itself
says who is logged in there, and who registered is told on the next frame.

* `IntegratedPlatformContainer.add` collects the platforms, each once.  The container is filled
  before the platform is created, and `IntegratedPlatform.created` is the interface with what was in
  it.
* `IntegratedPlatform.setUserLoginStatus` keeps what the game said last of each user, and refuses
  what is said of a platform that was not added, or that the game does not manage.
* `IntegratedPlatform.Input` lets a game call in any order, also from inside a notification: a frame
  is not one step, but `frame` and then `advance` for each listener that is told.
* `Registered` is the invariant, that the platforms stay what the game registered and that only
  users of those it manages are ever told of.

`platform_listener_keeps_up` is the result.  The bookkeeping of who is owed what is the one of
`Lib.Notices`, which the Auth, Connect and Friends interfaces share; what is proved here is that
every change of a status is said there and nothing else is (`announces`).  The pre-logout handler is
kept, and never runs: no platform of the emulator tells of a logout.
-/

set_option autoImplicit false

namespace EosMesh

open Lib

/-- The results that only this interface reports. -/
def ResultCode.notConfigured : ResultCode := 14
def ResultCode.alreadyConfigured : ResultCode := 15
def ResultCode.duplicateNotAllowed : ResultCode := 24
def ResultCode.invalidState : ResultCode := 38

/-- The version of every options struct of this interface. -/
def integratedPlatformApiLatest : Int32 := 1

/-- A login status the SDK knows. -/
def LoginStatus.ofInt (status : Int32) : Option LoginStatus :=
  if status = 0 then some .notLoggedIn
  else if status = 1 then some .usingLocalProfile
  else if status = 2 then some .loggedIn
  else none

/-- `EOS_IPMF_ApplicationManagedIdentityLogin`. -/
def applicationManagedIdentityLogin : UInt32 := 0x80

/-- The game says itself who is logged in there, and may be heard on it. -/
def applicationManagesIdentity (flags : UInt32) : Bool :=
  flags &&& applicationManagedIdentityLogin ≠ 0

/-- A null text counts as an empty one. -/
def textOrEmpty (value : Option Bytes) : Bytes := value.getD []

/-! ## The container -/

/-- A platform, and how its logins are managed. -/
structure IntegratedPlatformEntry where
  type : Bytes
  flags : UInt32
  deriving DecidableEq, Repr

/-- `EOS_IntegratedPlatform_Options`, and the options of the call that adds them. -/
structure IntegratedPlatformOptions where
  apiVersion : Int32
  type : Option Bytes
  flags : UInt32
  deriving DecidableEq, Repr

/-- The options to add a platform with. -/
structure ContainerAddOptions where
  apiVersion : Int32
  options : Option IntegratedPlatformOptions
  deriving DecidableEq, Repr

/-- One entry for each platform: a second one would be another answer to the same question. -/
structure IntegratedPlatformContainer where
  entries : List IntegratedPlatformEntry := []
  once : (entries.map (·.type)).Nodup := by decide

namespace IntegratedPlatformContainer

theorem once_add {entries : List IntegratedPlatformEntry} (h : (entries.map (·.type)).Nodup)
    {entry : IntegratedPlatformEntry} (hnew : entry.type ∉ entries.map (·.type)) :
    ((entries ++ [entry]).map (·.type)).Nodup := by
  rw [List.map_append, List.nodup_append']
  refine ⟨h, List.nodup_singleton _, fun type htype hsame ↦ hnew ?_⟩
  rw [List.mem_singleton.1 hsame] at htype
  exact htype

/-- `EOS_IntegratedPlatformOptionsContainer_Add`: a platform is added once. -/
def add (container : IntegratedPlatformContainer) (options : Option ContainerAddOptions) :
    ResultCode × IntegratedPlatformContainer :=
  match options with
  | none => (.invalidParameters, container)
  | some o =>
    if ¬ versionOk o.apiVersion integratedPlatformApiLatest then (.invalidParameters, container)
    else
      match o.options with
      | none => (.invalidParameters, container)
      | some platform =>
        if ¬ versionOk platform.apiVersion integratedPlatformApiLatest then
          (.invalidParameters, container)
        else
          let entry : IntegratedPlatformEntry := ⟨textOrEmpty platform.type, platform.flags⟩
          if entry.type = [] then (.invalidParameters, container)
          else if hnew : entry.type ∈ container.entries.map (·.type) then
            (.duplicateNotAllowed, container)
          else (.success, ⟨container.entries ++ [entry], once_add container.once hnew⟩)

end IntegratedPlatformContainer

/-! ## The interface -/

/-- A user of a platform. -/
structure PlatformUser where
  type : Bytes
  platformUser : Bytes
  deriving DecidableEq, Repr

/-- What the game said last of a user. -/
structure PlatformStatus where
  user : PlatformUser
  current : LoginStatus
  deriving DecidableEq, Repr

/-- The options to say with who is logged in; a null text is `none`. -/
structure SetUserLoginStatusOptions where
  apiVersion : Int32
  platformType : Option Bytes
  localPlatformUserId : Option Bytes
  currentLoginStatus : Int32
  deriving DecidableEq, Repr

/-- The interface: the platforms, what was said last of each user, and who is told. -/
structure IntegratedPlatform where
  entries : List IntegratedPlatformEntry := []
  statuses : List PlatformStatus := []
  notices : Notices Unit (Change PlatformUser LoginStatus) := {}
  preLogoutBound : Bool := false

/-- The first record of a user is brought up to date; the loop ends there. -/
def updateStatus (user : PlatformUser) (current : LoginStatus) :
    List PlatformStatus → List PlatformStatus
  | [] => []
  | status :: rest =>
    if status.user = user then { status with current := current } :: rest
    else status :: updateStatus user current rest

/-- What the list says of a user; one never heard of was not logged in as far as we knew. -/
def statusIn (statuses : List PlatformStatus) (user : PlatformUser) : LoginStatus :=
  ((statuses.find? (·.user = user)).map (·.current)).getD .notLoggedIn

namespace IntegratedPlatform

variable (s : IntegratedPlatform)

/-- Every listener heeds every change. -/
def heed : Unit → Change PlatformUser LoginStatus → Bool := fun _ _ ↦ true

/-- What the game registered in the container it created the platform with. -/
def configure (container : IntegratedPlatformContainer) : IntegratedPlatform :=
  { s with entries := container.entries }

/-- The platform of this type, if it was added. -/
def findEntry (type : Bytes) : Option IntegratedPlatformEntry := s.entries.find? (·.type = type)

/-- What was said last of a user; one that nothing was said of is not logged in. -/
def statusOf : PlatformUser → LoginStatus := statusIn s.statuses

/-- The status of a user changes, and is queued for the listeners if it is another one. -/
def setUserLoginStatus (options : Option SetUserLoginStatusOptions) :
    ResultCode × IntegratedPlatform :=
  match options with
  | none => (.invalidParameters, s)
  | some o =>
    if ¬ versionOk o.apiVersion integratedPlatformApiLatest then (.invalidParameters, s)
    else
      let type := textOrEmpty o.platformType
      match LoginStatus.ofInt o.currentLoginStatus with
      | none => (.invalidParameters, s)
      | some current =>
        if type = [] then (.invalidParameters, s)
        else
          match s.findEntry type with
          | none => (.notConfigured, s)
          | some entry =>
            if ¬ applicationManagesIdentity entry.flags then (.invalidState, s)
            else if textOrEmpty o.localPlatformUserId = [] then (.invalidUser, s)
            else
              let user : PlatformUser := ⟨type, textOrEmpty o.localPlatformUserId⟩
              match s.statuses.find? (·.user = user) with
              | some status =>
                -- An unchanged status does nothing, succeeds and is told nobody.
                if status.current = current then (.success, s)
                else
                  (.success, { s with
                    statuses := updateStatus user current s.statuses
                    notices := s.notices.push ⟨user, status.current, current⟩ })
              | none =>
                let notices :=
                  if current ≠ .notLoggedIn then s.notices.push ⟨user, .notLoggedIn, current⟩
                  else s.notices
                (.success,
                  { s with statuses := s.statuses ++ [⟨user, current⟩], notices := notices })

/-- A second handler is refused; neither ever runs, since no platform tells us of a logout. -/
def setUserPreLogoutCallback (apiVersion : Int32) (hasDelegate : Bool) :
    ResultCode × IntegratedPlatform :=
  if ¬ hasDelegate ∨ ¬ versionOk apiVersion integratedPlatformApiLatest then (.invalidParameters, s)
  else if s.preLogoutBound then (.alreadyConfigured, s)
  else (.success, { s with preLogoutBound := true })

/-- The callback before a logout is taken back. -/
def clearUserPreLogoutCallback (apiVersion : Int32) : IntegratedPlatform :=
  if versionOk apiVersion integratedPlatformApiLatest then { s with preLogoutBound := false } else s

/-- A listener is registered.  One without a delegate, or of a version we do not know, is not. -/
def addNotifyUserLoginStatusChanged (apiVersion : Int32) (hasDelegate : Bool) :
    IntegratedPlatform :=
  if hasDelegate ∧ versionOk apiVersion integratedPlatformApiLatest then
    { s with notices := s.notices.add () }
  else s

/-- A frame: what was queued is told from now on. -/
def cbRunFrame : IntegratedPlatform := { s with notices := s.notices.frame heed }

/-- The next listener of the frame is told. -/
def advance : Option IntegratedPlatform :=
  (s.notices.advance heed).map fun notices ↦ { s with notices := notices }

/-- What may happen to the interface, one thing at a time. -/
inductive Input
  | setUserLoginStatus (options : Option SetUserLoginStatusOptions)
  | setUserPreLogoutCallback (apiVersion : Int32) (hasDelegate : Bool)
  | clearUserPreLogoutCallback (apiVersion : Int32)
  | addNotify (apiVersion : Int32) (hasDelegate : Bool)
  | removeNotify (id : Nat)
  | otherNotify
  | frame
  | advance
  deriving DecidableEq, Repr

/-- One thing that happens; `advance` only while somebody is left to be told. -/
def step : Input → Option IntegratedPlatform
  | .setUserLoginStatus options => some (s.setUserLoginStatus options).2
  | .setUserPreLogoutCallback apiVersion hasDelegate =>
    some (s.setUserPreLogoutCallback apiVersion hasDelegate).2
  | .clearUserPreLogoutCallback apiVersion => some (s.clearUserPreLogoutCallback apiVersion)
  | .addNotify apiVersion hasDelegate =>
    some (s.addNotifyUserLoginStatusChanged apiVersion hasDelegate)
  | .removeNotify id => some { s with notices := s.notices.remove id }
  | .otherNotify => some { s with notices := s.notices.skip }
  | .frame => some s.cbRunFrame
  | .advance => s.advance

/-- A game does not tick the platform from inside a notification of this interface. -/
def ticksOutside (s : IntegratedPlatform) (i : Input) : Prop := i = .frame → s.notices.rounds = []

instance (s : IntegratedPlatform) (i : Input) : Decidable (s.ticksOutside i) :=
  inferInstanceAs (Decidable (_ → _))

/-- The interface as a platform is created with it. -/
def created (container : IntegratedPlatformContainer) : IntegratedPlatform :=
  configure {} container

/-! ## Runs -/

/-- The game registered the platform, and manages who is logged in there. -/
def manages (container : IntegratedPlatformContainer) (type : Bytes) : Prop :=
  ∃ entry ∈ container.entries, entry.type = type ∧ applicationManagesIdentity entry.flags = true

variable {s} {s' : IntegratedPlatform} {container : IntegratedPlatformContainer}

theorem statusIn_updateStatus {statuses : List PlatformStatus} {user : PlatformUser}
    {status : PlatformStatus} (h : statuses.find? (·.user = user) = some status)
    (current : LoginStatus) : statusIn (updateStatus user current statuses) =
      Function.update (statusIn statuses) user current := by
  induction statuses with
  | nil => cases h
  | cons first rest ih =>
    funext other
    rw [updateStatus, Function.update_apply]
    by_cases hfirst : first.user = user
    · rw [if_pos hfirst]
      by_cases hother : other = user
      · simp [statusIn, hfirst, hother]
      · have hne : first.user ≠ other := fun hsame ↦ hother (hsame.symm.trans hfirst)
        simp [statusIn, hother, hne]
    · rw [if_neg hfirst]
      rw [List.find?_cons_of_neg (by simpa using hfirst)] at h
      have hrest := congrFun (ih h) other
      rw [Function.update_apply] at hrest
      by_cases hother : first.user = other
      · have hne : other ≠ user := fun hsame ↦ hfirst (hother.trans hsame)
        simp [statusIn, hother, hne]
      · simpa [statusIn, hother] using hrest

theorem statusIn_append {statuses : List PlatformStatus} {user : PlatformUser}
    (h : statuses.find? (·.user = user) = none) (current : LoginStatus) :
    statusIn (statuses ++ [⟨user, current⟩]) =
    Function.update (statusIn statuses) user current := by
  funext other
  rw [statusIn, List.find?_append, Function.update_apply]
  by_cases hother : other = user
  · subst hother
    simp [h]
  · rw [statusIn]
    cases statuses.find? (·.user = other) <;> simp [hother, Ne.symm hother]

/-- A change of a user's status, as it is kept and told. -/
theorem setUserLoginStatus_cases (s : IntegratedPlatform)
    (options : Option SetUserLoginStatusOptions) :
    (s.setUserLoginStatus options).2 = s ∨
    ∃ user current entry, s.findEntry user.type = some entry ∧
      applicationManagesIdentity entry.flags = true ∧
      ((∃ status, s.statuses.find? (·.user = user) = some status ∧ status.current ≠ current ∧
        (s.setUserLoginStatus options).2 = { s with
          statuses := updateStatus user current s.statuses
          notices := s.notices.push ⟨user, status.current, current⟩ }) ∨
      s.statuses.find? (·.user = user) = none ∧
        (s.setUserLoginStatus options).2 = { s with
          statuses := s.statuses ++ [⟨user, current⟩]
          notices := if current ≠ .notLoggedIn then s.notices.push ⟨user, .notLoggedIn, current⟩
            else s.notices }) := by
  rw [setUserLoginStatus.eq_def]
  split
  · exact .inl rfl
  · rename_i o
    split
    · exact .inl rfl
    · dsimp only
      split
      · exact .inl rfl
      · rename_i current _
        split
        · exact .inl rfl
        · split
          · exact .inl rfl
          · rename_i entry hentry
            split
            · exact .inl rfl
            · rename_i hmanaged
              split
              · exact .inl rfl
              · split
                · rename_i status hstatus
                  split
                  · exact .inl rfl
                  · rename_i hchanged
                    exact .inr ⟨_, current, entry, hentry, by simpa using hmanaged,
                      .inl ⟨status, hstatus, hchanged, rfl⟩⟩
                · rename_i hnone
                  exact .inr ⟨_, current, entry, hentry, by simpa using hmanaged,
                    .inr ⟨hnone, rfl⟩⟩

/-- The platforms stay what the game registered, and only those it manages are told of. -/
structure Registered (container : IntegratedPlatformContainer) (s : IntegratedPlatform) : Prop where
  entries : s.entries = container.entries
  told : s.notices.All fun change ↦ manages container change.key.type

theorem Registered.manages (h : Registered container s) {type : Bytes}
    {entry : IntegratedPlatformEntry} (hentry : s.findEntry type = some entry)
    (hmanaged : applicationManagesIdentity entry.flags = true) :
    IntegratedPlatform.manages container type := by
  rw [findEntry, h.entries] at hentry
  exact ⟨entry, List.mem_of_find?_eq_some hentry, by simpa using List.find?_some hentry, hmanaged⟩

/-- What a step does to the status, and what falls due by it. -/
theorem step_tells (h : Registered container s) {i : Input} (hguard : s.ticksOutside i)
    (hstep : s.step i = some s') : s'.entries = s.entries ∧
      ∃ said, s.notices.Move heed said s'.notices ∧ Leads s.statusOf said s'.statusOf ∧
        ∀ change ∈ said, manages container change.key.type := by
  have hnothing : ∀ change ∈ ([] : List (Change PlatformUser LoginStatus)),
      manages container change.key.type := by simp
  cases i with
  | setUserLoginStatus options =>
    cases hstep
    rcases setUserLoginStatus_cases s options with heq | ⟨user, current, entry, hentry,
      hmanaged, hset⟩
    · rw [heq]
      exact ⟨rfl, [], .still, rfl, hnothing⟩
    · have hmanages := h.manages hentry hmanaged
      rcases hset with ⟨status, hstatus, hchanged, heq⟩ | ⟨hnone, heq⟩
      · have hbefore : s.statusOf user = status.current := by
          rw [statusOf, statusIn, hstatus]
          rfl
        rw [heq]
        refine ⟨rfl, [_], .pushed _, ⟨hbefore, hchanged, ?_⟩, by simpa using hmanages⟩
        exact (statusIn_updateStatus hstatus current).symm
      · have hbefore : s.statusOf user = .notLoggedIn := by
          rw [statusOf, statusIn, hnone]
          rfl
        have hafter := statusIn_append hnone current
        rw [heq]
        by_cases hout : current = .notLoggedIn
        · -- A user that was never logged in is recorded, and nothing changed.
          refine ⟨rfl, [], ?_, ?_, hnothing⟩
          · rw [if_neg (not_not.2 hout)]
            exact .still
          · show s.statusOf = statusIn _
            rw [hafter, hout, ← hbefore]
            exact (Function.update_eq_self user _).symm
        · refine ⟨rfl, [⟨user, .notLoggedIn, current⟩], ?_, ⟨hbefore, Ne.symm hout, hafter.symm⟩,
            by simpa using hmanages⟩
          rw [if_pos hout]
          exact .pushed _
  | setUserPreLogoutCallback apiVersion hasDelegate =>
    cases hstep
    rw [setUserPreLogoutCallback]
    split
    · exact ⟨rfl, [], .still, rfl, hnothing⟩
    · split <;> exact ⟨rfl, [], .still, rfl, hnothing⟩
  | clearUserPreLogoutCallback apiVersion =>
    cases hstep
    rw [clearUserPreLogoutCallback]
    split <;> exact ⟨rfl, [], .still, rfl, hnothing⟩
  | addNotify apiVersion hasDelegate =>
    cases hstep
    rw [addNotifyUserLoginStatusChanged]
    split
    · exact ⟨rfl, [], .added (), rfl, hnothing⟩
    · exact ⟨rfl, [], .still, rfl, hnothing⟩
  | removeNotify id =>
    cases hstep
    exact ⟨rfl, [], .removed id, rfl, hnothing⟩
  | otherNotify =>
    cases hstep
    exact ⟨rfl, [], .skipped, rfl, hnothing⟩
  | frame =>
    cases hstep
    exact ⟨rfl, [], .framed (hguard rfl), rfl, hnothing⟩
  | advance =>
    obtain ⟨notices, hadvance, rfl⟩ := Option.map_eq_some_iff.1 hstep
    exact ⟨rfl, [], .advanced hadvance, rfl, hnothing⟩

/-- **Every change is said**, and nothing else is. -/
theorem announces (container : IntegratedPlatformContainer) :
    Notices.Announces step ticksOutside (Registered container) heed notices statusOf where
  keeps s i s' h hguard hstep := by
    obtain ⟨hentries, said, hmove, -, hmanaged⟩ := step_tells h hguard hstep
    exact ⟨hentries.trans h.entries, h.told.step hmove hmanaged⟩
  tells s i s' h hguard hstep := by
    obtain ⟨-, said, hmove, hleads, -⟩ := step_tells h hguard hstep
    exact ⟨said, hmove, hleads⟩

/-- **No listener misses what the game says of a user**: from any moment at which nothing is owed,
what it is told and what is still due are the changes since then, each with the status there was
before it, and all of users of platforms the game registered as its own to manage. -/
theorem platform_listener_keeps_up (h : Reaches step ticksOutside (created container) s)
    (hidle : s.notices.Idle) {id : Nat} (hlisted : (id, ()) ∈ s.notices.listeners)
    (hrun : Reaches step ticksOutside s s') (hlisted' : (id, ()) ∈ s'.notices.listeners) :
    ∃ new, s'.notices.heardBy id = s.notices.heardBy id ++ new ∧
      Leads s.statusOf (new ++ s'.notices.owed heed id ()) s'.statusOf ∧
      ∀ change ∈ new, manages container change.key.type := by
  have hstart : Registered container (created container) := ⟨rfl, Notices.all_start _⟩
  obtain ⟨hI, htidy⟩ := (announces container).reached hstart Notices.tidy_start h
  obtain ⟨hI', -⟩ := (announces container).reached hI htidy hrun
  obtain ⟨new, hheard, hleads⟩ :=
    (announces container).keeps_up hI htidy hidle (fun _ ↦ rfl) hlisted hrun hlisted'
  refine ⟨new, hheard, hleads, fun change hchange ↦ ?_⟩
  have htold : change ∈ s'.notices.heardBy id := by
    rw [hheard]
    exact List.mem_append_right _ hchange
  exact hI'.told.heardBy htold

/-- One platform, the identities of which the game manages. -/
def oneManaged : IntegratedPlatformContainer where
  entries := [⟨[1], applicationManagedIdentityLogin⟩]

/-- A user comes online there, and is said to use a local profile while a listener is told of it. -/
def comesOnline : List Input :=
  let report (status : Int32) : Input := .setUserLoginStatus (some
    { apiVersion := 1, platformType := some [1], localPlatformUserId := some [2],
      currentLoginStatus := status })
  [report 2, .frame, .advance, report 1]

theorem platform_listener_keeps_up_online : ∃ s s' new,
    Reaches step ticksOutside (created oneManaged) s ∧ Reaches step ticksOutside s s' ∧
    new = [⟨⟨[1], [2]⟩, .notLoggedIn, .loggedIn⟩] ∧
    s'.notices.heardBy 1 = s.notices.heardBy 1 ++ new ∧
    Leads s.statusOf (new ++ s'.notices.owed heed 1 ()) s'.statusOf ∧
    ∀ change ∈ new, manages oneManaged change.key.type := by
  obtain ⟨s, h, hidle, hlisted, hsilent, hgoes, hmeets⟩ := exists_reaches step ticksOutside
    (created oneManaged)
    (fun s ↦ s.notices.Idle ∧ (1, ()) ∈ s.notices.listeners ∧ s.notices.heardBy 1 = [] ∧
      (runInputs step s comesOnline).any (fun s' ↦ decide ((1, ()) ∈ s'.notices.listeners ∧
        s'.notices.heardBy 1 = [⟨⟨[1], [2]⟩, .notLoggedIn, .loggedIn⟩])) = true ∧
      meets step ticksOutside s comesOnline)
    [.addNotify 1 true] (by decide) (by decide)
  obtain ⟨s', hrun, hlisted', htold⟩ := exists_reaches step ticksOutside s _
    comesOnline hgoes hmeets
  obtain ⟨new, hheard, hleads, hmanaged⟩ := platform_listener_keeps_up h hidle hlisted hrun hlisted'
  have hnew : new = [⟨⟨[1], [2]⟩, .notLoggedIn, .loggedIn⟩] := by
    rw [← htold, hheard, hsilent, List.nil_append]
  exact ⟨s, s', new, h, hrun, hnew, hheard, hleads, hmanaged⟩

end IntegratedPlatform
end EosMesh
