import EosMesh.Interfaces.Auth
import EosMesh.Interfaces.Connect
import EosMesh.Interfaces.PeerViews

/-!
# What Connect and Friends tell their listeners

`interfaces/connect.cpp` tells who registered when the local user logs in or out, and
`interfaces/friends.cpp` when a peer becomes a friend or is none any more.  Both hold another
notification beside, which is registered and never fires.  What has changed is told on the next
frame, so a listener hears of it later, and maybe when it has changed again.

* `Lib.Notices` has the listeners under their ids, the changes that are due, and the frame that goes
  through them; while it does, a listener may be registered or taken back.
* `ConnectUsers` is the first interface with its notifications, `FriendsList` the second.  Their
  states are those of the interface, with what is owed beside it.
* `step_tells` and `receive_tells` say what a step does to the status of each user or account, and
  what falls due by it: exactly the changes, in order.
* `OneUser` and `Listed` are what each interface keeps for that: one user at most, and nobody on the
  list twice.

`connect_listener_keeps_up` and `friends_listener_keeps_up`: no listener misses a change, and none
hears of one that was not.  What it heard, with what is still owed to it, leads from the status it
was registered at to the one there is.  That of the friends asks nothing of the messages that come
in.
-/

set_option autoImplicit false

namespace EosMesh

open Lib
open Std (TreeMap)

/-! ## Connect -/

/-- The two notifications of the interface; the second never fires, since no login expires. -/
inductive ConnectNotification
  | loginStatusChanged | authExpiration
  deriving DecidableEq, Repr

/-- The interface with what its listeners are owed. -/
structure ConnectUsers where
  connect : Connect
  notices : Notices ConnectNotification (Change Bytes LoginStatus) := {}

namespace ConnectUsers

variable (s : ConnectUsers)

/-- Only one of the two notifications is of a status. -/
def heed (kind : ConnectNotification) : Change Bytes LoginStatus → Bool :=
  fun _ ↦ kind = .loginStatusChanged

/-- The user that is logged in. -/
def localUser : Option Bytes := s.connect.localUsers.head?

/-- A second login succeeds like the first, and changes nothing. -/
def login (options : ConnectLoginOptions) : ResultCode × ConnectUsers :=
  let answer := s.connect.login options
  let notices :=
    if answer.1 = .success ∧ ¬ s.connect.isLoggedIn then
      s.notices.push ⟨s.connect.productUserId, .notLoggedIn, .loggedIn⟩
    else s.notices
  (answer.1, { connect := answer.2, notices := notices })

/-- The user named is the one that is logged in, or nobody is logged out. -/
def logout (user : Option Bytes) : ResultCode × ConnectUsers :=
  match user with
  | none => (.invalidUser, s)
  | some id =>
    if s.connect.isLoggedIn ∧ s.localUser = some id then
      (.success, {
        connect := { s.connect with localUsers := [] }
        notices := s.notices.push ⟨id, .loggedIn, .notLoggedIn⟩ })
    else (.invalidUser, s)

/-- Whether a user is the one that is logged in. -/
def loginStatus (user : Bytes) : LoginStatus :=
  if s.connect.isLoggedIn ∧ s.localUser = some user then .loggedIn else .notLoggedIn

/-- What may happen to the interface, one thing at a time. -/
inductive Input
  | login (options : ConnectLoginOptions) (hasDelegate : Bool)
  | logout (user : Option Bytes) (hasDelegate : Bool)
  | receive (message : NetEnvelope)
  | addNotify (kind : ConnectNotification) (hasDelegate : Bool)
  | removeNotify (id : Nat)
  | otherNotify
  | frame
  | advance
  deriving DecidableEq, Repr

/-- One thing that happens; a call without a delegate does nothing. -/
def step : Input → Option ConnectUsers
  | .login options hasDelegate => some (if hasDelegate then (s.login options).2 else s)
  | .logout user hasDelegate => some (if hasDelegate then (s.logout user).2 else s)
  | .receive message => some { s with connect := s.connect.onNetworkMessage message }
  | .addNotify kind hasDelegate =>
    some (if hasDelegate then { s with notices := s.notices.add kind } else s)
  | .removeNotify id => some { s with notices := s.notices.remove id }
  | .otherNotify => some { s with notices := s.notices.skip }
  | .frame => some { s with notices := s.notices.frame heed }
  | .advance => (s.notices.advance heed).map fun notices ↦ { s with notices := notices }

/-- A game does not tick the platform from inside a notification of this interface. -/
def ticksOutside (s : ConnectUsers) (i : Input) : Prop := i = .frame → s.notices.rounds = []

instance (s : ConnectUsers) (i : Input) : Decidable (s.ticksOutside i) :=
  inferInstanceAs (Decidable (_ → _))

/-- The interface before anyone logged in. -/
def fresh (productUserId productId username : Bytes) : ConnectUsers where
  connect := { productUserId := productUserId, productId := productId, username := username }

variable {s} {s' : ConnectUsers}

/-- Nobody but the one user is ever logged in. -/
structure OneUser (productUserId : Bytes) (s : ConnectUsers) : Prop where
  self : s.connect.productUserId = productUserId
  users : s.connect.localUsers = [] ∨ s.connect.localUsers = [productUserId]

theorem login_cases (s : ConnectUsers) (options : ConnectLoginOptions) :
    (s.login options).2 = s ∨
    s.connect.localUsers = [] ∧ (s.login options).2 =
      { connect := { s.connect with localUsers := [s.connect.productUserId] }
        notices := s.notices.push ⟨s.connect.productUserId, .notLoggedIn, .loggedIn⟩ } := by
  have hrefused : ResultCode.invalidParameters ≠ .success := by decide
  by_cases hvalid : Connect.loginOptionsAreValid options = true
  · by_cases hin : s.connect.isLoggedIn = true
    · exact .inl (by simp [login, Connect.login, hvalid, hin])
    · have hnobody : s.connect.localUsers = [] := by simpa [Connect.isLoggedIn] using hin
      exact .inr ⟨hnobody, by simp [login, Connect.login, hvalid, hin, hnobody]⟩
  · exact .inl (by simp [login, Connect.login, hvalid, hrefused])

theorem logout_cases (s : ConnectUsers) (user : Option Bytes) :
    (s.logout user).2 = s ∨
    ∃ id, s.localUser = some id ∧ (s.logout user).2 =
      { connect := { s.connect with localUsers := [] }
        notices := s.notices.push ⟨id, .loggedIn, .notLoggedIn⟩ } := by
  rw [logout.eq_def]
  split
  · exact .inl rfl
  · split
    · rename_i id hself
      exact .inr ⟨id, hself.2, rfl⟩
    · exact .inl rfl

theorem localUsers_onNetworkMessage (c : Connect) (message : NetEnvelope) :
    (c.onNetworkMessage message).localUsers = c.localUsers ∧
      (c.onNetworkMessage message).productUserId = c.productUserId := by
  have hrecord : (c.record message).localUsers = c.localUsers ∧
      (c.record message).productUserId = c.productUserId := by
    rw [Connect.record]
    split
    · exact ⟨rfl, rfl⟩
    · split <;> exact ⟨rfl, rfl⟩
  rw [Connect.onNetworkMessage]
  split
  · exact ⟨rfl, rfl⟩
  · split
    · split <;> exact ⟨rfl, rfl⟩
    · split
      · exact ⟨rfl, rfl⟩
      · split
        · dsimp only
          split <;> exact hrecord
        · split
          · exact hrecord
          · exact ⟨rfl, rfl⟩

theorem loginStatus_nobody (h : s.connect.localUsers = []) :
    s.loginStatus = fun _ ↦ .notLoggedIn := by
  funext user
  simp [loginStatus, Connect.isLoggedIn, h]

theorem loginStatus_one {id : Bytes} (h : s.connect.localUsers = [id]) :
    s.loginStatus = Function.update (fun _ ↦ .notLoggedIn) id .loggedIn := by
  funext user
  rw [loginStatus, Connect.isLoggedIn, localUser, h, Function.update_apply]
  by_cases huser : user = id
  · simp [huser]
  · simp [huser, Ne.symm huser]

theorem loginStatus_congr (h : s'.connect.localUsers = s.connect.localUsers) :
    s'.loginStatus = s.loginStatus := by
  funext user
  rw [loginStatus, loginStatus, Connect.isLoggedIn, Connect.isLoggedIn, localUser, localUser, h]

theorem OneUser.localUser {self id : Bytes} (h : s.OneUser self) (hid : s.localUser = some id) :
    s.connect.localUsers = [self] ∧ id = self := by
  rcases h.users with hnone | hone
  · rw [ConnectUsers.localUser, hnone] at hid
    cases hid
  · rw [ConnectUsers.localUser, hone] at hid
    cases hid
    exact ⟨hone, rfl⟩

/-- What a step does to who is logged in, and what falls due by it. -/
theorem step_tells {self : Bytes} (h : s.OneUser self) {i : Input} (hguard : s.ticksOutside i)
    (hstep : s.step i = some s') : s'.OneUser self ∧
      ∃ said, s.notices.Move heed said s'.notices ∧ Leads s.loginStatus said s'.loginStatus := by
  cases i with
  | login options hasDelegate =>
    cases hstep
    cases hasDelegate with
    | false => exact ⟨h, [], .still, rfl⟩
    | true =>
      rcases login_cases s options with heq | ⟨hnobody, heq⟩ <;> rw [if_pos rfl, heq]
      · exact ⟨h, [], .still, rfl⟩
      · refine ⟨⟨h.self, .inr (by rw [h.self])⟩, [_], .pushed _, ?_⟩
        rw [loginStatus_nobody hnobody, loginStatus_one rfl]
        exact ⟨rfl, by simp, rfl⟩
  | logout user hasDelegate =>
    cases hstep
    cases hasDelegate with
    | false => exact ⟨h, [], .still, rfl⟩
    | true =>
      rcases logout_cases s user with heq | ⟨id, hself, heq⟩ <;> rw [if_pos rfl, heq]
      · exact ⟨h, [], .still, rfl⟩
      · obtain ⟨hone, rfl⟩ := h.localUser hself
        refine ⟨⟨h.self, .inl rfl⟩, [_], .pushed _, ?_⟩
        rw [loginStatus_one hone, loginStatus_nobody rfl]
        refine ⟨Function.update_self .., by simp, ?_⟩
        rw [Leads, Function.update_idem]
        exact Function.update_eq_self id _
  | receive message =>
    cases hstep
    obtain ⟨husers, hself⟩ := localUsers_onNetworkMessage s.connect message
    refine ⟨⟨hself.trans h.self, ?_⟩, [], .still, (loginStatus_congr husers).symm⟩
    rw [husers]
    exact h.users
  | addNotify kind hasDelegate =>
    cases hstep
    cases hasDelegate with
    | false => exact ⟨h, [], .still, rfl⟩
    | true => exact ⟨⟨h.self, h.users⟩, [], .added kind, rfl⟩
  | removeNotify id =>
    cases hstep
    exact ⟨⟨h.self, h.users⟩, [], .removed id, rfl⟩
  | otherNotify =>
    cases hstep
    exact ⟨⟨h.self, h.users⟩, [], .skipped, rfl⟩
  | frame =>
    cases hstep
    exact ⟨⟨h.self, h.users⟩, [], .framed (hguard rfl), rfl⟩
  | advance =>
    obtain ⟨notices, hadvance, rfl⟩ := Option.map_eq_some_iff.1 hstep
    exact ⟨⟨h.self, h.users⟩, [], .advanced hadvance, rfl⟩

theorem announces (self : Bytes) :
    Notices.Announces step ticksOutside (OneUser self) heed notices loginStatus where
  keeps _ _ _ h hguard hstep := (step_tells h hguard hstep).1
  tells _ _ _ h hguard hstep := (step_tells h hguard hstep).2

/-- **No listener misses a login or a logout**, whatever comes in from peers meanwhile. -/
theorem connect_listener_keeps_up {self productId username : Bytes}
    (h : Reaches step ticksOutside (fresh self productId username) s) (hidle : s.notices.Idle)
    {id : Nat} (hlisted : (id, .loginStatusChanged) ∈ s.notices.listeners)
    (hrun : Reaches step ticksOutside s s')
    (hlisted' : (id, .loginStatusChanged) ∈ s'.notices.listeners) :
    ∃ new, s'.notices.heardBy id = s.notices.heardBy id ++ new ∧
      Leads s.loginStatus (new ++ s'.notices.owed heed id .loginStatusChanged) s'.loginStatus := by
  have hstart : (fresh self productId username).OneUser self := ⟨rfl, .inl rfl⟩
  obtain ⟨hI, htidy⟩ := (announces self).reached hstart Notices.tidy_start h
  exact (announces self).keeps_up hI htidy hidle (fun _ ↦ rfl) hlisted hrun hlisted'

/-- The user logs in, and the second listener is told. -/
def greeting : List Input := [.login ConnectPair.anyLogin true, .frame, .advance]

/-- The first one waits for a login to expire, and is passed over. -/
theorem connect_listener_keeps_up_greeting : ∃ s s' new,
    Reaches step ticksOutside (fresh [7] [9] []) s ∧ Reaches step ticksOutside s s' ∧
    new = [⟨[7], .notLoggedIn, .loggedIn⟩] ∧
    s'.notices.heardBy 2 = s.notices.heardBy 2 ++ new ∧
    Leads s.loginStatus (new ++ s'.notices.owed heed 2 .loginStatusChanged) s'.loginStatus := by
  obtain ⟨s, h, hidle, hlisted, hsilent, hgoes, hmeets⟩ := exists_reaches step ticksOutside
    (fresh [7] [9] [])
    (fun s ↦ s.notices.Idle ∧ (2, .loginStatusChanged) ∈ s.notices.listeners ∧
      s.notices.heardBy 2 = [] ∧
      (runInputs step s greeting).any (fun s' ↦
        decide ((2, .loginStatusChanged) ∈ s'.notices.listeners ∧
          s'.notices.heardBy 2 = [⟨[7], .notLoggedIn, .loggedIn⟩])) = true ∧
      meets step ticksOutside s greeting)
    [.addNotify .authExpiration true, .addNotify .loginStatusChanged true] (by decide) (by decide)
  obtain ⟨s', hrun, hlisted', htold⟩ := exists_reaches step ticksOutside s _ greeting hgoes hmeets
  obtain ⟨new, hheard, hleads⟩ := connect_listener_keeps_up h hidle hlisted hrun hlisted'
  have hnew : new = [⟨[7], .notLoggedIn, .loggedIn⟩] := by
    rw [← htold, hheard, hsilent, List.nil_append]
  exact ⟨s, s', new, h, hrun, hnew, hheard, hleads⟩

end ConnectUsers

/-! ## Friends -/

/-- The two notifications of the interface; nobody can be blocked, so the second never fires. -/
inductive FriendsNotification
  | friendsUpdate | blockedUsersUpdate
  deriving DecidableEq, Repr

/-- An update as the change it tells of. -/
def FriendsUpdate.change (update : FriendsUpdate) : Change Bytes FriendsStatus :=
  ⟨update.targetEpic, update.previous, update.current⟩

/-- The interface with what its listeners are owed. -/
structure FriendsList where
  friends : Friends
  notices : Notices FriendsNotification (Change Bytes FriendsStatus) := {}

namespace FriendsList

variable (s : FriendsList)

/-- Only one of the notifications is of a status. -/
def heed (kind : FriendsNotification) : Change Bytes FriendsStatus → Bool :=
  fun _ ↦ kind = .friendsUpdate

/-- What an account is to us. -/
def getStatus (epicId : Bytes) : FriendsStatus :=
  if s.friends.isFriend epicId then .friends else .notFriends

/-- What a message changes goes to the updates the frames take from. -/
def receive (message : NetEnvelope) : FriendsList :=
  let friends := s.friends.onNetworkMessage message
  { friends := { friends with pendingUpdates := [] }
    notices := friends.pendingUpdates.foldl (fun notices update ↦ notices.push update.change)
      s.notices }

/-- What may happen to the interface, one thing at a time. -/
inductive Input
  | receive (message : NetEnvelope)
  | addNotify (kind : FriendsNotification)
  | removeNotify (id : Nat)
  | otherNotify
  | frame
  | advance
  deriving DecidableEq, Repr

/-- One thing that happens. -/
def step : Input → Option FriendsList
  | .receive message => some (s.receive message)
  | .addNotify kind => some { s with notices := s.notices.add kind }
  | .removeNotify id => some { s with notices := s.notices.remove id }
  | .otherNotify => some { s with notices := s.notices.skip }
  | .frame => some { s with notices := s.notices.frame heed }
  | .advance => (s.notices.advance heed).map fun notices ↦ { s with notices := notices }

/-- A game does not tick the platform from inside a notification of this interface. -/
def ticksOutside (s : FriendsList) (i : Input) : Prop := i = .frame → s.notices.rounds = []

instance (s : FriendsList) (i : Input) : Decidable (s.ticksOutside i) :=
  inferInstanceAs (Decidable (_ → _))

/-- The interface before anyone came. -/
def fresh (epicAccountId productUserId : Bytes) : FriendsList where
  friends := { epicAccountId := epicAccountId, productUserId := productUserId }

variable {s} {s' : FriendsList} {message : NetEnvelope}

/-- Nobody is listed twice, and every peer recorded stands for a friend of its own. -/
structure Listed (s : FriendsList) : Prop where
  nodup : s.friends.friends.Nodup
  found : ∀ {peer epic : Bytes}, s.friends.friendByPeer[peer]? = some epic →
    epic ∈ s.friends.friends
  once : ∀ {peer peer' epic : Bytes}, s.friends.friendByPeer[peer]? = some epic →
    s.friends.friendByPeer[peer']? = some epic → peer = peer'
  settled : s.friends.pendingUpdates = []

/-- A new friend. -/
theorem getStatus_insert {epic : Bytes} (h : s'.friends.friends = s.friends.friends ++ [epic]) :
    s'.getStatus = Function.update s.getStatus epic .friends := by
  funext other
  rw [Function.update_apply]
  by_cases hother : other = epic <;> simp [getStatus, Friends.isFriend, h, hother]

/-- A friend less. -/
theorem getStatus_erase {epic : Bytes} (hnodup : s.friends.friends.Nodup)
    (h : s'.friends.friends = s.friends.friends.erase epic) :
    s'.getStatus = Function.update s.getStatus epic .notFriends := by
  funext other
  rw [Function.update_apply]
  by_cases hother : other = epic <;>
    simp [getStatus, Friends.isFriend, h, hother, hnodup.mem_erase_iff]

/-- A message makes a friend, takes one away, or does neither. -/
theorem receive_cases (h : s.Listed) (message : NetEnvelope) :
    s.receive message = s ∨
    (∃ epic, epic ∉ s.friends.friends ∧ s.receive message =
      { friends := { s.friends with
          friends := s.friends.friends ++ [epic]
          friendByPeer := s.friends.friendByPeer.insert message.sourceId epic }
        notices := s.notices.push ⟨epic, .notFriends, .friends⟩ }) ∨
    ∃ epic, s.friends.friendByPeer[message.sourceId]? = some epic ∧ s.receive message =
      { friends := { s.friends with
          friends := s.friends.friends.erase epic
          friendByPeer := s.friends.friendByPeer.erase message.sourceId }
        notices := s.notices.push ⟨epic, .friends, .notFriends⟩ } := by
  have hsettled := h.settled
  have hself : ({ s.friends with pendingUpdates := [] } : Friends) = s.friends := by
    rw [← hsettled]
  have hstill (hno : s.friends.onNetworkMessage message = s.friends) : s.receive message = s := by
    rw [receive, hno, hsettled, hself]
    rfl
  by_cases hforeign : message.sourceId = [] ∨ message.sourceId = s.friends.productUserId
  · exact .inl (hstill (by rw [Friends.onNetworkMessage, if_pos hforeign]))
  · by_cases hcame : message.typeTag = MessageType.peerConnected.tag
    · by_cases hknown : message.payload = [] ∨ message.payload = s.friends.epicAccountId ∨
          s.friends.isFriend message.payload
      · refine .inl (hstill ?_)
        rw [Friends.onNetworkMessage, if_neg hforeign, if_pos hcame, Friends.onPeerConnected,
          if_pos hknown]
      · refine .inr (.inl ⟨message.payload, ?_, ?_⟩)
        · rw [not_or, not_or, Friends.isFriend, decide_eq_true_eq] at hknown
          exact hknown.2.2
        · rw [receive, Friends.onNetworkMessage, if_neg hforeign, if_pos hcame,
            Friends.onPeerConnected, if_neg hknown]
          simp [hsettled, FriendsUpdate.change]
    · by_cases hwent : message.typeTag = MessageType.peerDisconnected.tag
      · have heq : s.friends.onNetworkMessage message =
            s.friends.onPeerDisconnected message.sourceId := by
          rw [Friends.onNetworkMessage, if_neg hforeign, if_neg hcame, if_pos hwent]
        cases hlookup : s.friends.friendByPeer[message.sourceId]? with
        | none =>
          refine .inl (hstill ?_)
          rw [heq, Friends.onPeerDisconnected, hlookup]
        | some epic =>
          refine .inr (.inr ⟨epic, rfl, ?_⟩)
          rw [receive, heq, Friends.onPeerDisconnected, hlookup]
          simp [hsettled, FriendsUpdate.change]
      · refine .inl (hstill ?_)
        rw [Friends.onNetworkMessage, if_neg hforeign, if_neg hcame, if_neg hwent]

/-- What a message does to the list, and what falls due by it. -/
theorem receive_tells (h : s.Listed) (message : NetEnvelope) : (s.receive message).Listed ∧
    ∃ said, s.notices.Move heed said (s.receive message).notices ∧
      Leads s.getStatus said (s.receive message).getStatus := by
  rcases receive_cases h message with heq | ⟨epic, hnew, heq⟩ | ⟨epic, hpeer, heq⟩
  · rw [heq]
    exact ⟨h, [], .still, rfl⟩
  · have hbefore : s.getStatus epic = .notFriends := by simp [getStatus, Friends.isFriend, hnew]
    rw [heq]
    refine ⟨⟨?_, fun hfound ↦ ?_, fun hfound hfound' ↦ ?_, h.settled⟩, [_], .pushed _, hbefore,
      by simp, (getStatus_insert rfl).symm⟩
    · exact List.nodup_append'.2 ⟨h.nodup, List.nodup_singleton _, by simpa using hnew⟩
    · rw [lookup_insert] at hfound
      split at hfound
      · cases hfound
        exact List.mem_append_right _ List.mem_cons_self
      · exact List.mem_append_left _ (h.found hfound)
    · rw [lookup_insert] at hfound hfound'
      split at hfound <;> split at hfound'
      · rename_i hpeer hpeer'
        exact hpeer.symm.trans hpeer'
      · cases hfound
        exact absurd (h.found hfound') hnew
      · cases hfound'
        exact absurd (h.found hfound) hnew
      · exact h.once hfound hfound'
  · have hfriend := h.found hpeer
    have hbefore : s.getStatus epic = .friends := by simp [getStatus, Friends.isFriend, hfriend]
    rw [heq]
    refine ⟨⟨h.nodup.erase _, fun hfound ↦ ?_, fun hfound hfound' ↦ ?_, h.settled⟩, [_], .pushed _,
      hbefore, by simp, (getStatus_erase h.nodup rfl).symm⟩
    · rw [lookup_erase] at hfound
      split at hfound
      · cases hfound
      · rename_i hother
        refine (h.nodup.mem_erase_iff).2 ⟨fun hsame ↦ hother ?_, h.found hfound⟩
        exact h.once hpeer (hsame ▸ hfound)
    · rw [lookup_erase] at hfound hfound'
      split at hfound
      · cases hfound
      · split at hfound'
        · cases hfound'
        · exact h.once hfound hfound'

theorem announces : Notices.Announces step ticksOutside Listed heed notices getStatus where
  keeps s i s' h _ hstep := by
    cases i with
    | receive message =>
      cases hstep
      exact (receive_tells h message).1
    | addNotify | removeNotify | otherNotify | frame =>
      cases hstep
      exact ⟨h.nodup, h.found, h.once, h.settled⟩
    | advance =>
      obtain ⟨notices, -, rfl⟩ := Option.map_eq_some_iff.1 hstep
      exact ⟨h.nodup, h.found, h.once, h.settled⟩
  tells s i s' h hguard hstep := by
    cases i with
    | receive message =>
      cases hstep
      exact (receive_tells h message).2
    | addNotify kind =>
      cases hstep
      exact ⟨[], .added kind, rfl⟩
    | removeNotify id =>
      cases hstep
      exact ⟨[], .removed id, rfl⟩
    | otherNotify =>
      cases hstep
      exact ⟨[], .skipped, rfl⟩
    | frame =>
      cases hstep
      exact ⟨[], .framed (hguard rfl), rfl⟩
    | advance =>
      obtain ⟨notices, hadvance, rfl⟩ := Option.map_eq_some_iff.1 hstep
      exact ⟨[], .advanced hadvance, rfl⟩

theorem listed_fresh (epicAccountId productUserId : Bytes) :
    (fresh epicAccountId productUserId).Listed where
  nodup := List.nodup_nil
  found hfound := by
    rw [fresh, TreeMap.getElem?_emptyc] at hfound
    cases hfound
  once hfound := by
    rw [fresh, TreeMap.getElem?_emptyc] at hfound
    cases hfound
  settled := rfl

/-- **No listener misses a friend that came or went**, whatever messages come in, and nobody is
listed twice: from any moment at which nothing is owed, what it is told and what is still due take
the list then to the list now. -/
theorem friends_listener_keeps_up {epicAccountId productUserId : Bytes}
    (h : Reaches step ticksOutside (fresh epicAccountId productUserId) s) (hidle : s.notices.Idle)
    {id : Nat} (hlisted : (id, .friendsUpdate) ∈ s.notices.listeners)
    (hrun : Reaches step ticksOutside s s')
    (hlisted' : (id, .friendsUpdate) ∈ s'.notices.listeners) :
    s'.friends.friends.Nodup ∧ ∃ new, s'.notices.heardBy id = s.notices.heardBy id ++ new ∧
      Leads s.getStatus (new ++ s'.notices.owed heed id .friendsUpdate) s'.getStatus := by
  obtain ⟨hI, htidy⟩ := announces.reached (listed_fresh epicAccountId productUserId)
    Notices.tidy_start h
  obtain ⟨hI', -⟩ := announces.reached hI htidy hrun
  exact ⟨hI'.nodup, announces.keeps_up hI htidy hidle (fun _ ↦ rfl) hlisted hrun hlisted'⟩

/-- What the router raises of one peer. -/
def lifecycle (type : MessageType) (payload : Bytes) : NetEnvelope where
  typeTag := type.tag
  sourceId := [2]
  destId := []
  gameId := []
  payload := payload

/-- A peer comes under two accounts, one after the other, and goes. -/
def twoAccounts : List Input :=
  [.receive (lifecycle .peerConnected [21]), .receive (lifecycle .peerConnected [22]), .frame,
    .advance, .receive (lifecycle .peerDisconnected [])]

/-- The first one stays a friend; of the second the listener is still to hear all there was. -/
theorem friends_listener_keeps_up_accounts : ∃ s s' new,
    Reaches step ticksOutside (fresh [7] [1]) s ∧ Reaches step ticksOutside s s' ∧
    s'.friends.friends = [[21]] ∧ new = [⟨[21], .notFriends, .friends⟩] ∧
    s'.notices.heardBy 1 = s.notices.heardBy 1 ++ new ∧
    Leads s.getStatus (new ++ s'.notices.owed heed 1 .friendsUpdate) s'.getStatus := by
  obtain ⟨s, h, hidle, hlisted, hsilent, hgoes, hmeets⟩ := exists_reaches step ticksOutside
    (fresh [7] [1])
    (fun s ↦ s.notices.Idle ∧ (1, .friendsUpdate) ∈ s.notices.listeners ∧
      s.notices.heardBy 1 = [] ∧
      (runInputs step s twoAccounts).any (fun s' ↦
        decide ((1, .friendsUpdate) ∈ s'.notices.listeners ∧ s'.friends.friends = [[21]] ∧
          s'.notices.heardBy 1 = [⟨[21], .notFriends, .friends⟩])) = true ∧
      meets step ticksOutside s twoAccounts)
    [.addNotify .friendsUpdate] (by decide) (by decide)
  obtain ⟨s', hrun, hlisted', hone, htold⟩ :=
    exists_reaches step ticksOutside s _ twoAccounts hgoes hmeets
  obtain ⟨-, new, hheard, hleads⟩ := friends_listener_keeps_up h hidle hlisted hrun hlisted'
  have hnew : new = [⟨[21], .notFriends, .friends⟩] := by
    rw [← htold, hheard, hsilent, List.nil_append]
  exact ⟨s, s', new, h, hrun, hone, hnew, hheard, hleads⟩

end FriendsList
end EosMesh
