import EosMesh.Interfaces.Lobby.Drafts
import EosMesh.Interfaces.Sessions.Drafts

/-!
# Updates that are lost

A game may hold several modification handles of one session or lobby, and others may change it
meanwhile.  A commit should change what the handle's own setters touched, and leave the rest as it
is by then.  What both interfaces do is write back the copy the handle was drawn from, so that
whatever has changed since is undone.

* `commits_keep_updates` says along which runs nothing is: those in which every commit is up
  to date.
* `update_reverted` is a run of each interface in which the second commit undoes the first.
-/

set_option autoImplicit false

namespace EosMesh

open Lib

/-- **No update is lost exactly along the runs in which every commit is up to date.** -/
theorem commits_keep_updates (self product : Bytes) :
    (∀ inputs, meets Sessions.Drafters.next Sessions.MergesDraft
        (Sessions.Drafters.start (Sessions.fresh self product)) inputs ↔
      meets Sessions.Drafters.next Sessions.commitsUpToDate
        (Sessions.Drafters.start (Sessions.fresh self product)) inputs) ∧
    ∀ inputs, meets Lobbies.Drafters.next Lobbies.MergesDraft
        (Lobbies.Drafters.start (Lobbies.fresh self product)) inputs ↔
      meets Lobbies.Drafters.next Lobbies.commitsUpToDate
        (Lobbies.Drafters.start (Lobbies.fresh self product)) inputs :=
  ⟨Sessions.meets_mergesDraft_iff self product, Lobbies.meets_mergesDraft_iff self product⟩

/-! ## Two handles of one session -/

namespace Sessions

/-- The bucket is up to date where a commit writes it. -/
def bucketUpToDate (w : Drafters) (i : Input) : Prop :=
  (committing w.state i).all (fun c ↦ (w.drafts c.1).all fun d ↦
    .bucketId ∈ d.touched ∨ c.2.2.infos.bucketId = d.base.bucketId) = true

theorem bucketUpToDate_of_commitsUpToDate {w : Drafters} {i : Input} (h : commitsUpToDate w i) :
    bucketUpToDate w i := by
  rw [bucketUpToDate, Option.all_eq_true]
  rintro ⟨handle, object, entry⟩ hcommit
  rw [Option.all_eq_true]
  intro d hd
  by_cases htouched : .bucketId ∈ d.touched
  · simp [htouched]
  · have hbucket : entry.infos.bucketId = d.base.bucketId :=
      FieldValue.text.inj (h handle object entry d hcommit hd .bucketId htouched rfl)
    simp [htouched, hbucket]

/-- The host draws two handles, commits another bucket by the second, and more players by the
first. -/
def drawnTwice : List Input :=
  [.call (.createSessionModification { apiVersion := 5, sessionName := some [5]
                                       bucketId := some [6], maxPlayers := 4
                                       localUserId := some [1]
                                       sessionId := some (List.replicate 16 3)
                                       bSanctionsEnabled := 0 }),
    .call (.updateSession { apiVersion := 1, sessionModificationHandle := 1 } none),
    .call (.updateSessionModification { apiVersion := 1, sessionName := some [5] }),
    .call (.updateSessionModification { apiVersion := 1, sessionName := some [5] }),
    .call (.modificationSetBucketId 3 { apiVersion := 1, value := some [7] }),
    .call (.updateSession { apiVersion := 1, sessionModificationHandle := 3 } none),
    .call (.modificationSetMaxPlayers 2 { apiVersion := 1, value := 8 }),
    .call (.updateSession { apiVersion := 1, sessionModificationHandle := 2 } none)]

end Sessions

/-! ## Two handles of one lobby -/

namespace Lobbies

/-- The bucket is up to date where a commit writes it. -/
def bucketUpToDate (w : Drafters) (i : Input) : Prop :=
  (committing w.state i).all (fun c ↦ (w.drafts c.1).all fun d ↦
    .bucketId ∈ d.touched ∨ ¬ c.2.2.ownedBy w.state.productUserId ∨
      c.2.2.infos.bucketId = d.base.infos.bucketId) = true

theorem bucketUpToDate_of_commitsUpToDate {w : Drafters} {i : Input} (h : commitsUpToDate w i) :
    bucketUpToDate w i := by
  rw [bucketUpToDate, Option.all_eq_true]
  rintro ⟨handle, object, entry⟩ hcommit
  rw [Option.all_eq_true]
  intro d hd
  by_cases htouched : .bucketId ∈ d.touched
  · simp [htouched]
  · by_cases howner : entry.ownedBy w.state.productUserId = true
    · have hbucket : entry.infos.bucketId = d.base.infos.bucketId :=
        FieldValue.text.inj (h handle object entry d hcommit hd .bucketId htouched howner)
      simp [htouched, hbucket]
    · simp [howner]

/-- The host draws two handles, commits another bucket by the second, and more members by the
first. -/
def drawnTwice : List Input :=
  [.call (.createLobby { apiVersion := 10, localUserId := some [1], maxLobbyMembers := 4
                         permissionLevel := 0, bAllowInvites := 1, bucketId := some [6]
                         bDisableHostMigration := 0, bEnableRTCRoom := 0, lobbyId := some [5]
                         bEnableJoinById := 1 } none),
    .call (.updateLobbyModification { lobbyId := some [5], localUserId := some [1] }),
    .call (.updateLobbyModification { lobbyId := some [5], localUserId := some [1] }),
    .call (.modificationSetBucketId 2 (some [7])),
    .call (.updateLobby { apiVersion := 1, lobbyModificationHandle := 2 }),
    .call (.modificationSetMaxMembers 1 8),
    .call (.updateLobby { apiVersion := 1, lobbyModificationHandle := 1 })]

end Lobbies

instance (w : Sessions.Drafters) (i : Sessions.Input) : Decidable (Sessions.bucketUpToDate w i) :=
  inferInstanceAs (Decidable (_ = true))

instance (w : Lobbies.Drafters) (i : Lobbies.Input) : Decidable (Lobbies.bucketUpToDate w i) :=
  inferInstanceAs (Decidable (_ = true))

/-- The second commit puts the bucket back to what it was before the first. -/
theorem update_reverted :
    ¬ meets Sessions.Drafters.next Sessions.MergesDraft
        (Sessions.Drafters.start (Sessions.fresh [1] [9])) Sessions.drawnTwice ∧
      ¬ meets Lobbies.Drafters.next Lobbies.MergesDraft
        (Lobbies.Drafters.start (Lobbies.fresh [1] [9])) Lobbies.drawnTwice := by
  constructor
  · intro hmeets
    have hbucket := ((Sessions.meets_mergesDraft_iff _ _ _).1 hmeets).mono
      fun _ _ ↦ Sessions.bucketUpToDate_of_commitsUpToDate
    revert hbucket
    decide +kernel
  · intro hmeets
    have hbucket := ((Lobbies.meets_mergesDraft_iff _ _ _).1 hmeets).mono
      fun _ _ ↦ Lobbies.bucketUpToDate_of_commitsUpToDate
    revert hbucket
    decide +kernel

end EosMesh
