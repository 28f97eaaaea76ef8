import EosMesh.Interfaces.Presence.Announcers

/-!
# The limits of a presence, at both ends

The setters check the length of each text, `SetPresence` the number of records, and a receiver all
of them and the status.  Nothing on the sending side looks at the status.  A presence that a
receiver refuses is lost on it, and it goes on showing the one before.

* `PresenceInfo.Storable` is everything that a receiver looks at but the status, and
  `Presence.Receivable` what its decoder and its check make of a presence as it is sent.
  `receivable_iff` says that what is stored can be received exactly when its status is one of the
  enumeration.
* `Presence.Fitting` is what holds of our own presence at all times, whatever its status: there is
  one, unless there is no account it could be of, and its texts and records fit.  What is staged
  carries its own bounds, so a commit has nothing to check but the number of records.
* `setPresence_of_some` is a commit that goes through, and `setPresence_of_none` one that does not:
  it changes nothing, and reports a success only when there is no account to store a presence for.

`presence_limits_agree` says that exactly when every commit leaves a status of the enumeration,
every commit can be received, and that one which reports a failure has done nothing.
-/

set_option autoImplicit false

namespace EosMesh

open Lib
open Std (TreeMap)

/-! ## Texts and records -/

/-- Everything a receiver looks at, but for the status. -/
structure PresenceInfo.Storable (info : PresenceInfo) : Prop where
  epicId : Short info.epicId
  productId : Short info.productId
  productVersion : Short info.productVersion
  platform : Short info.platform
  productName : Short info.productName
  integratedPlatform : Short info.integratedPlatform
  richText : info.richText.length ≤ maxRichTextLength
  joinInfo : info.joinInfo.length ≤ maxJoinInfoLength
  recordCount : info.records.length ≤ maxDataKeys
  records : ∀ record ∈ info.records, recordWithinCaps record = true

theorem recordWithinCaps_iff {record : PresenceDataRecord} : recordWithinCaps record = true ↔
    record.key.length ≤ maxKeyLength ∧ record.value.length ≤ maxValueLength := by
  rw [recordWithinCaps, decide_eq_true_eq, not_or, Nat.not_lt, Nat.not_lt]

theorem PresenceInfo.Storable.withinCaps {info : PresenceInfo} (h : info.Storable) :
    info.WithinCaps where
  epicId := h.epicId
  productId := h.productId
  productVersion := h.productVersion
  platform := h.platform
  richText := lt_of_le_of_lt h.richText (by decide)
  productName := h.productName
  integratedPlatform := h.integratedPlatform
  joinInfo := lt_of_le_of_lt h.joinInfo (by decide)
  recordCount := h.recordCount
  records := fun record hrecord ↦ by
    obtain ⟨hkey, hvalue⟩ := recordWithinCaps_iff.1 (h.records record hrecord)
    exact ⟨lt_of_le_of_lt hkey (by decide), lt_of_le_of_lt hvalue (by decide)⟩

/-- Setting a record keeps the length of every key and value within the caps. -/
theorem setRecord_withinCaps {record : PresenceDataRecord} (h : recordWithinCaps record = true)
    {records : List PresenceDataRecord} (hall : ∀ r ∈ records, recordWithinCaps r = true) :
    ∀ r ∈ setRecord record records, recordWithinCaps r = true := by
  induction records with
  | nil =>
    rw [setRecord]
    exact List.forall_mem_singleton.2 h
  | cons first records ih =>
    obtain ⟨hfirst, hrest⟩ := List.forall_mem_cons.1 hall
    rw [setRecord]
    split
    · refine List.forall_mem_cons.2 ⟨?_, hrest⟩
      exact recordWithinCaps_iff.2 ⟨(recordWithinCaps_iff.1 hfirst).1, (recordWithinCaps_iff.1 h).2⟩
    · exact List.forall_mem_cons.2 ⟨hfirst, ih hrest⟩

namespace PresenceModificationObject

theorem merge_withinCaps (staged : PresenceModificationObject) {records : List PresenceDataRecord}
    (h : ∀ r ∈ records, recordWithinCaps r = true) :
    ∀ r ∈ staged.merge records, recordWithinCaps r = true := by
  have hdeleted (keys : List Bytes) (records : List PresenceDataRecord)
      (h : ∀ r ∈ records, recordWithinCaps r = true) :
      ∀ r ∈ keys.foldl (fun records key ↦ records.filter (·.key ≠ key)) records,
        recordWithinCaps r = true := by
    induction keys generalizing records with
    | nil => exact h
    | cons key keys ih => exact ih _ fun r hr ↦ h r (List.mem_of_mem_filter hr)
  have hset (added records : List PresenceDataRecord)
      (hadded : ∀ r ∈ added, recordWithinCaps r = true)
      (h : ∀ r ∈ records, recordWithinCaps r = true) :
      ∀ r ∈ added.foldl (fun records record ↦ setRecord record records) records,
        recordWithinCaps r = true := by
    induction added generalizing records with
    | nil => exact h
    | cons record added ih =>
      obtain ⟨hrecord, hrest⟩ := List.forall_mem_cons.1 hadded
      exact ih _ hrest (setRecord_withinCaps hrecord h)
  exact hset _ _ staged.dataSetFits (hdeleted _ _ h)

/-- A commit within the cap on records leaves a presence whose texts and records fit. -/
theorem storable_applyTo (staged : PresenceModificationObject) {self : PresenceInfo}
    (h : self.Storable) (hcount : (staged.merge self.records).length ≤ maxDataKeys) :
    (staged.applyTo self).Storable where
  epicId := h.epicId
  productId := h.productId
  productVersion := h.productVersion
  platform := h.platform
  productName := h.productName
  integratedPlatform := h.integratedPlatform
  richText := by
    rw [applyTo]
    dsimp only
    split
    · exact staged.richTextFits
    · exact h.richText
  joinInfo := by
    rw [applyTo]
    dsimp only
    split
    · exact staged.joinInfoFits
    · exact h.joinInfo
  recordCount := hcount
  records := staged.merge_withinCaps h.records

end PresenceModificationObject

namespace Presence

variable {s s' : Presence}

/-- A receiver reads the presence as it is, and takes it for one a peer could have sent. -/
def Receivable (info : PresenceInfo) : Prop :=
  PresenceInfo.deserialize.run info.serialize = some (info, []) ∧ presenceWithinCaps info = true

instance (info : PresenceInfo) : Decidable (Receivable info) :=
  inferInstanceAs (Decidable (_ ∧ _))

/-- What is stored can be received exactly when its status is one of the enumeration. -/
theorem receivable_iff {info : PresenceInfo} (h : info.Storable) :
    Receivable info ↔ statusInRange info.status = true := by
  rw [Receivable, presenceWithinCaps_iff]
  refine ⟨fun hreceived ↦ hreceived.2.1, fun hstatus ↦ ?_⟩
  exact ⟨(PresenceInfo.decodes h.withinCaps).run_eq, hstatus, h.richText, h.joinInfo,
    h.recordCount, h.records⟩

/-! ## What a commit does -/

/-- What a `SetPresence` that goes through commits, and what to. -/
def committing (s : Presence) (o : SetPresenceOptions) :
    Option (PresenceModificationObject × PresenceInfo) :=
  if versionOk o.apiVersion presenceApiLatest ∧ o.localUserId = some s.epicAccountId then
    match s.modifications.find o.presenceModificationHandle, s.findPresence s.epicAccountId with
    | some staged, some self =>
      if (staged.merge self.records).length > maxDataKeys then none else some (staged, self)
    | _, _ => none
  else none

/-- The state a commit broadcasts from. -/
def committed (s : Presence) (self : PresenceInfo) : Presence :=
  { s with presences := s.presences.insert s.epicAccountId self }

theorem findPresence_committed (self : PresenceInfo) :
    (s.committed self).findPresence s.epicAccountId = some self := by
  rw [findPresence, committed, lookup_insert, if_pos rfl]

/-- What holds of our own presence at all times: there is one, unless there is no account it could
be of, and its texts and records fit. -/
structure Fitting (s : Presence) : Prop where
  linked : s.Linked
  there : s.epicAccountId ≠ [] → (s.findPresence s.epicAccountId).isSome = true
  storable : ∀ self, s.findPresence s.epicAccountId = some self → self.Storable

theorem Fitting.withSelf (h : s.Fitting) : s.withSelf s.epicAccountId = s := by
  rw [Presence.withSelf]
  split
  · rfl
  · rename_i hnone
    rw [seedMyself, if_pos (by_contra fun hne ↦ hnone (h.there hne))]

/-- What a commit does to the presence it is for. -/
theorem setPresence_of_some (h : s.Fitting) {o : SetPresenceOptions}
    {staged : PresenceModificationObject} {self : PresenceInfo}
    (hcommit : s.committing o = some (staged, self)) :
    s.setPresence o =
      (.success, (s.committed (staged.applyTo self)).broadcastMyPresence []) := by
  rw [committing] at hcommit
  split at hcommit
  · rename_i hcall
    obtain ⟨hversion, huser⟩ := hcall
    split at hcommit
    · rename_i staged' self' hstaged hself
      split at hcommit
      · cases hcommit
      · rename_i hcount
        cases hcommit
        rw [setPresence, huser]
        dsimp only
        rw [if_neg (not_not.2 hversion), if_neg (not_not.2 rfl), hstaged]
        dsimp only
        rw [h.withSelf, hself]
        dsimp only
        rw [if_neg hcount]
        rfl
    · cases hcommit
  · cases hcommit

/-- One that does not go through changes nothing; it reports a success only when there is no account
to store a presence under. -/
theorem setPresence_of_none (h : s.Fitting) {o : SetPresenceOptions}
    (hcommit : s.committing o = none) :
    (s.setPresence o).2 = s ∧
      ((s.setPresence o).1 = .success → s.findPresence s.epicAccountId = none) := by
  have hrefused (code : ResultCode) (hcode : code ≠ .success) (P : Prop) :
      ((code, s) : ResultCode × Presence).2 = s ∧ (code = .success → P) :=
    ⟨rfl, fun heq ↦ absurd heq hcode⟩
  rw [committing] at hcommit
  rw [setPresence]
  cases huser : o.localUserId with
  | none => exact hrefused .invalidParameters (by decide) _
  | some user =>
    dsimp only
    split
    · exact hrefused .invalidParameters (by decide) _
    rename_i hversion
    split
    · exact hrefused .invalidUser (by decide) _
    rename_i hown
    rw [not_not] at hversion hown
    rw [if_pos ⟨hversion, by rw [huser, hown]⟩] at hcommit
    cases hstaged : s.modifications.find o.presenceModificationHandle with
    | none => exact hrefused .invalidParameters (by decide) _
    | some staged =>
      dsimp only
      rw [hown, h.withSelf]
      cases hself : s.findPresence s.epicAccountId with
      | none => exact ⟨rfl, fun _ ↦ rfl⟩
      | some self =>
        rw [hstaged, hself] at hcommit
        dsimp only at hcommit ⊢
        split at hcommit
        · rename_i hcount
          rw [if_pos hcount]
          exact hrefused .limitExceeded (by decide) _
        · cases hcommit

/-! ## The invariant -/

/-- While our own presence is as it was, it fits. -/
theorem Fitting.of_ownEntry (h : s.Fitting) (hlinked : s'.Linked)
    (hown : s'.epicAccountId = s.epicAccountId)
    (hentry : s'.presences[s.epicAccountId]? = s.presences[s.epicAccountId]?) : s'.Fitting where
  linked := hlinked
  there := by
    rw [hown, findPresence, hentry]
    exact h.there
  storable := by
    rw [hown, findPresence, hentry]
    exact h.storable

theorem Fitting.later (h : s.Fitting) {message : PresenceMessage} (hlinked : s'.Linked)
    (hlater : Later message s s') : s'.Fitting :=
  h.of_ownEntry hlinked hlater.own hlater.ownEntry

theorem Fitting.committed (h : s.Fitting) {self : PresenceInfo} (hself : self.Storable) :
    (s.committed self).Fitting where
  linked := h.linked.withOwn rfl self
  there := fun _ ↦ by
    rw [show (s.committed self).epicAccountId = s.epicAccountId from rfl, findPresence_committed]
    rfl
  storable := fun self' hself' ↦ by
    rw [show (s.committed self).epicAccountId = s.epicAccountId from rfl,
      findPresence_committed] at hself'
    cases hself'
    exact hself

/-- A commit within the cap writes its presence, and sends just that. -/
theorem commit_spec (h : s.Fitting) {o : SetPresenceOptions} {staged : PresenceModificationObject}
    {self : PresenceInfo} (hcommit : s.committing o = some (staged, self)) :
    (s.setPresence o).1 = .success ∧ (staged.applyTo self).Storable ∧
      (s.setPresence o).2.Linked ∧
        Later (.info (staged.applyTo self)) (s.committed (staged.applyTo self))
          (s.setPresence o).2 := by
  have hcount : (staged.merge self.records).length ≤ maxDataKeys ∧
      s.findPresence s.epicAccountId = some self := by
    rw [committing] at hcommit
    split at hcommit
    · split at hcommit
      · rename_i hself
        split at hcommit
        · cases hcommit
        · rename_i hcount
          cases hcommit
          exact ⟨Nat.le_of_not_lt hcount, hself⟩
      · cases hcommit
    · cases hcommit
  have hstorable := staged.storable_applyTo (h.storable self hcount.2) hcount.1
  have hfitting := h.committed hstorable
  have heq := setPresence_of_some h hcommit
  have hsent := hfitting.linked.foldl_sendTo (.info (staged.applyTo self))
    (if ([] : Bytes) ≠ [] then [[]] else (s.committed (staged.applyTo self)).mesh.peers)
  rw [← broadcastMyPresence_of_some (s := s.committed _) (findPresence_committed _)] at hsent
  rw [heq]
  exact ⟨rfl, hstorable, hsent⟩

theorem Fitting.setPresence (h : s.Fitting) (o : SetPresenceOptions) :
    (s.setPresence o).2.Fitting := by
  cases hcommit : s.committing o with
  | none =>
    rw [(setPresence_of_none h hcommit).1]
    exact h
  | some commit =>
    obtain ⟨-, hstorable, hlinked, hlater⟩ := commit_spec h hcommit
    exact (h.committed hstorable).later hlinked hlater

/-- The calls but `SetPresence` leave our own presence. -/
theorem ownEntry_call (h : s.Linked) {c : Call} (hc : ∀ o, c ≠ .setPresence o) :
    (s.call c).epicAccountId = s.epicAccountId ∧
      (s.call c).presences[s.epicAccountId]? = s.presences[s.epicAccountId]? := by
  have hmodify (handle : GameHandle) (version : Int32)
      (edit : PresenceModificationObject → Except ResultCode PresenceModificationObject) :
      (s.modify handle version edit).2.epicAccountId = s.epicAccountId ∧
        (s.modify handle version edit).2.presences[s.epicAccountId]? =
          s.presences[s.epicAccountId]? := by
    rw [modify]
    split
    · exact ⟨rfl, rfl⟩
    · split
      · exact ⟨rfl, rfl⟩
      · split <;> exact ⟨rfl, rfl⟩
  cases c with
  | queryPresence o now address =>
    change (s.queryPresence o now address).2.epicAccountId = _ ∧
      (s.queryPresence o now address).2.presences[s.epicAccountId]? = _
    rw [queryPresence]
    split
    · split
      · exact ⟨rfl, rfl⟩
      · split
        · exact ⟨rfl, rfl⟩
        · split
          · exact ⟨rfl, rfl⟩
          · obtain ⟨-, hlater⟩ := (h.withQueries _).foldl_sendTo _ _
            exact ⟨hlater.own, hlater.ownEntry⟩
    · exact ⟨rfl, rfl⟩
  | createPresenceModification version user =>
    change (s.createPresenceModification version user).2.2.epicAccountId = _ ∧
      (s.createPresenceModification version user).2.2.presences[s.epicAccountId]? = _
    unfold createPresenceModification
    split
    · exact ⟨rfl, rfl⟩
    · split
      · exact ⟨rfl, rfl⟩
      · split <;> exact ⟨rfl, rfl⟩
  | setPresence o => exact absurd rfl (hc o)
  | modificationSetStatus handle o => exact hmodify _ _ _
  | modificationSetRawRichText handle o => exact hmodify _ _ _
  | modificationSetData handle o => exact hmodify _ _ _
  | modificationDeleteData handle o => exact hmodify _ _ _
  | modificationSetJoinInfo handle o => exact hmodify _ _ _
  | modificationSetTemplate handle o => exact hmodify _ _ _
  | modificationRelease handle => exact ⟨rfl, rfl⟩

/-- **The step rule.** -/
theorem Fitting.step (h : s.Fitting) {i : Input} (hstep : s.step i = some s') : s'.Fitting := by
  obtain ⟨hlinked, hspares⟩ := h.linked.step hstep
  cases hsource : i.source with
  | some peer =>
    exact h.of_ownEntry hlinked (hspares peer hsource).own (hspares peer hsource).ownEntry
  | none =>
    cases i with
    | connect peer epic gameId => cases hsource
    | disconnect peer => cases hsource
    | receive message => cases hsource
    | collect address now =>
      cases hstep
      refine h.of_ownEntry hlinked ?_ ?_
      all_goals
        rw [collect]
        split
        · rfl
        · split <;> rfl
    | call c =>
      cases hstep
      by_cases hc : ∃ o, c = .setPresence o
      · obtain ⟨o, rfl⟩ := hc
        exact h.setPresence o
      · obtain ⟨hown, hentry⟩ := ownEntry_call h.linked fun o heq ↦ hc ⟨o, heq⟩
        exact h.of_ownEntry hlinked hown hentry

theorem storable_seed (hepic : Short s.epicAccountId) (hproduct : Short s.productId) :
    s.seed.Storable := by
  have hempty : Short [] := by decide
  have hversion : Short productVersion := by decide
  have hplatform : Short platformName := by decide
  exact
    { epicId := hepic
      productId := hproduct
      productVersion := hversion
      platform := hplatform
      productName := hproduct
      integratedPlatform := hempty
      richText := Nat.zero_le _
      joinInfo := Nat.zero_le _
      recordCount := Nat.zero_le _
      records := fun record hrecord ↦ by cases hrecord }

theorem fitting_start {epic product : Bytes} (hepic : Short epic) (hproduct : Short product)
    (user : Bytes) (losses : List (List Bytes)) : (start epic user product losses).Fitting := by
  refine ⟨linked_start epic user product losses, ?_, ?_⟩
  all_goals
    rw [start, seedMyself]
    split
  · rename_i hempty
    exact fun hne ↦ absurd hempty hne
  · intro _
    rw [findPresence, lookup_insert, if_pos rfl]
    rfl
  · intro self hself
    rw [findPresence, TreeMap.getElem?_emptyc] at hself
    cases hself
  · intro self hself
    rw [findPresence, lookup_insert, if_pos rfl, Option.some.injEq] at hself
    subst hself
    exact storable_seed hepic hproduct

/-! ## The result -/

/-- What a `SetPresence` should do: what it stores can be received and is all that is broadcast, and
one that reports a failure has done nothing. -/
structure LimitsAgree (s : Presence) (o : SetPresenceOptions) : Prop where
  accepted : (s.setPresence o).1 = .success → ∀ self,
    (s.setPresence o).2.findPresence s.epicAccountId = some self → Receivable self
  broadcast : ∃ list : List (Bytes × PresenceMessage),
    (s.setPresence o).2.mesh.sent = s.mesh.sent ++ list ∧ ∀ p ∈ list, ∃ self,
      p.2 = .info self ∧ (s.setPresence o).2.findPresence s.epicAccountId = some self
  failed : (s.setPresence o).1 ≠ .success → (s.setPresence o).2 = s

/-- The status a commit leaves is one of the enumeration. -/
def StatusFits (s : Presence) (o : SetPresenceOptions) : Prop :=
  (s.committing o).all (fun commit ↦ statusInRange (commit.1.statusOver commit.2.status)) = true

instance (s : Presence) (o : SetPresenceOptions) : Decidable (s.StatusFits o) :=
  inferInstanceAs (Decidable (_ = true))

/-- A condition on the calls of `SetPresence`, on every input. -/
def onSetPresence (P : Presence → SetPresenceOptions → Prop) (s : Presence) : Input → Prop
  | .call (.setPresence o) => P s o
  | _ => True

instance (P : Presence → SetPresenceOptions → Prop) [∀ s o, Decidable (P s o)] (s : Presence) :
    ∀ i, Decidable (onSetPresence P s i)
  | .call (.setPresence o) => inferInstanceAs (Decidable (P s o))
  | .call (.queryPresence ..) | .call (.createPresenceModification ..)
  | .call (.modificationSetStatus ..) | .call (.modificationSetRawRichText ..)
  | .call (.modificationSetData ..) | .call (.modificationDeleteData ..)
  | .call (.modificationSetJoinInfo ..) | .call (.modificationSetTemplate ..)
  | .call (.modificationRelease _) | .connect .. | .disconnect _ | .receive _ | .collect .. =>
    isTrue trivial

theorem onSetPresence_mono {P Q : Presence → SetPresenceOptions → Prop} (h : ∀ s o, P s o → Q s o)
    (s : Presence) (i : Input) (hi : onSetPresence P s i) : onSetPresence Q s i := by
  cases i with
  | call c =>
    cases c with
    | setPresence o => exact h s o hi
    | _ => trivial
  | _ => trivial

theorem limitsAgree_iff (h : s.Fitting) (o : SetPresenceOptions) :
    s.LimitsAgree o ↔ s.StatusFits o := by
  cases hcommit : s.committing o with
  | none =>
    obtain ⟨hsame, hcode⟩ := setPresence_of_none h hcommit
    refine ⟨fun _ ↦ by rw [StatusFits, hcommit]; rfl, fun _ ↦ ⟨fun hsuccess self hself ↦ ?_,
      ⟨[], ?_, by simp⟩, fun _ ↦ hsame⟩⟩
    · rw [hsame, hcode hsuccess] at hself
      cases hself
    · rw [hsame, List.append_nil]
  | some commit =>
    obtain ⟨staged, self⟩ := commit
    obtain ⟨hcode, hstorable, -, hlater⟩ := commit_spec h hcommit
    have hfound : (s.setPresence o).2.findPresence s.epicAccountId =
      some (staged.applyTo self) := by
      rw [findPresence]
      exact hlater.ownEntry.trans (findPresence_committed _)
    rw [StatusFits, hcommit, Option.all_some]
    constructor
    · intro hagree
      exact (receivable_iff hstorable).1 (hagree.accepted hcode _ hfound)
    · intro hstatus
      obtain ⟨list, hsent, hlist⟩ := hlater.posted
      refine ⟨fun _ self' hself' ↦ ?_, ⟨list, hsent, fun p hp ↦ ⟨_, hlist p hp, hfound⟩⟩,
        fun hfailed ↦ absurd hcode hfailed⟩
      rw [hfound] at hself'
      cases hself'
      exact (receivable_iff hstorable).2 hstatus

/-- **The two ends agree exactly along the runs in which every commit leaves a status of the
enumeration.** -/
theorem presence_limits_agree {epic product : Bytes} (hepic : Short epic) (hproduct : Short product)
    (user : Bytes) (losses : List (List Bytes)) (inputs : List Input) :
    meets step (onSetPresence LimitsAgree) (start epic user product losses) inputs ↔
      meets step (onSetPresence StatusFits) (start epic user product losses) inputs := by
  refine meets_congr (fitting_start hepic hproduct user losses)
    (fun _ _ _ h hstep ↦ h.step hstep) (fun s i h ↦ ?_) inputs
  cases i with
  | call c =>
    cases c with
    | setPresence o => exact limitsAgree_iff h o
    | _ => exact Iff.rfl
  | _ => exact Iff.rfl

/-- A status, set and committed. -/
def settingStatus (status : Int32) : List Input :=
  [.connect [2] [102] [9], .call (.createPresenceModification 1 (some [101])),
    .call (.modificationSetStatus 1 ⟨1, status⟩), .call (.setPresence ⟨1, some [101], 1⟩)]

/-- With a status of the enumeration the two ends agree. -/
theorem limits_agree_away :
    meets step (onSetPresence LimitsAgree) (start [101] [1] [9] []) (settingStatus 2) :=
  (presence_limits_agree (by decide) (by decide) [1] [] (settingStatus 2)).2 (by decide +kernel)

/-- What is stored can be received. -/
def storesReceivable (s : Presence) (o : SetPresenceOptions) : Prop :=
  (s.setPresence o).1 = .success →
    ((s.setPresence o).2.findPresence s.epicAccountId).all
      (fun self ↦ decide (Receivable self)) = true

instance (s : Presence) (o : SetPresenceOptions) : Decidable (s.storesReceivable o) :=
  inferInstanceAs (Decidable (_ → _))

/-- A status past the last one is stored and broadcast, and no receiver takes it. -/
theorem limits_disagree :
    ¬ meets step (onSetPresence LimitsAgree) (start [101] [1] [9] []) (settingStatus 7) := by
  intro hmeets
  have hstores : ∀ s o, LimitsAgree s o → s.storesReceivable o := fun s o h hcode ↦ by
    rw [Option.all_eq_true]
    exact fun self hself ↦ decide_eq_true (h.accepted hcode self hself)
  have hreceived := hmeets.mono (onSetPresence_mono hstores)
  revert hreceived
  decide +kernel

end Presence
end EosMesh
