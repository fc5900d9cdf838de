import ApiTruth.Orchestration.Promotion

/-!
# Convergence of branch checkpoints

Events move the checkpoint of a branch in the order of their sequences, whatever the order of their
delivery: an older one is ignored, a repeated one changes nothing, and one that repeats a sequence
under another reference is refused as a whole.  After any delivery every configured service that the
events name has the state of its greatest sequence.  Of the other operations only the activation of
a configuration and an authoritative reconciliation move a checkpoint besides the events.

## Main definitions

* `deliveredEvents` : the events of a branch in a list of operations.
* `IsDelivery` : one provider, canonical sequences, and what equal sequences have in common.
* `IsLatest` : an event with the greatest sequence for a service.
* `Database.Follows` : every checkpoint stems from an event and undercuts none that named it.

## Main results

* `Database.follows_of_run` : what a delivery has reached.
* `Database.branchEvents_converge` : the final checkpoint and its jobs.
* `Database.not_branchEvents_converge` : one sequence under two references, for different services.
-/

namespace ApiTruth.Orchestration

open Catalog Checked Ir TransitionSystem List Decimal

/-! ### Deliveries -/

/-- The services of the event are configured; an event that names another service is refused. -/
def BranchEvent.Configured (event : BranchEvent) (document : InstallationConfig) : Prop :=
  ∀ serviceId ∈ event.serviceIds, ∃ target, document.targetConfig serviceId = some target

/-- The events of the branch among the operations, for configured services. -/
def deliveredEvents (document : InstallationConfig) (branch : String) (actions : List Action) :
    Set BranchEvent :=
  {event | .branchEvent event ∈ actions ∧ event.branch = branch ∧ event.Configured document}

/-- The operation moves no checkpoint, unless it is an event. -/
def Action.MovesByEvents : Action → Prop
  | .activateInitialConfiguration _ => False
  | .activateConfiguration _ _ _ => False
  | .reconcile _ _ _ _ => False
  | _ => True

/-- Events of one provider with canonical sequences.  Events with the same sequence carry the same
state, and repeat the reference unless they name the same services. -/
structure IsDelivery (provider : String) (events : Set BranchEvent) : Prop where
  provider_eq : ∀ event ∈ events, event.evidence.provider = provider
  sequence : ∀ event ∈ events, ∃ value, event.evidence.HasSequence value
  desired_eq : ∀ a ∈ events, ∀ b ∈ events, a.evidence.SameSequence b.evidence →
    a.desired = b.desired
  reference : ∀ a ∈ events, ∀ b ∈ events, a.evidence.SameSequence b.evidence →
    a.evidence.providerReference = b.evidence.providerReference ∨
      ∀ serviceId, serviceId ∈ a.serviceIds ↔ serviceId ∈ b.serviceIds

/-- The event names the service and no other that does has a greater sequence. -/
structure IsLatest (events : Set BranchEvent) (serviceId : String) (last : BranchEvent) : Prop where
  mem : last ∈ events
  names : serviceId ∈ last.serviceIds
  greatest : ∀ event ∈ events, serviceId ∈ event.serviceIds → ¬ last.evidence.Before event.evidence

variable {a b : ProviderReference}

/-- Of two pieces of evidence of a provider that are not ordered, the sequences are the same. -/
theorem sameSequence_of_not_before (hprovider : a.provider = b.provider)
    {x y : String} (hx : a.HasSequence x) (hy : b.HasSequence y) (hab : ¬ a.Before b)
    (hba : ¬ b.Before a) : a.SameSequence b := by
  rcases precedes_trichotomy x y with hlt | rfl | hlt
  · exact absurd ⟨hprovider, x, y, hx, hy, hlt⟩ hab
  · exact ⟨hprovider, x, hx, hy⟩
  · exact absurd ⟨hprovider.symm, y, x, hy, hx, hlt⟩ hba

theorem order_eq_of_sameSequence (h : a.SameSequence b) :
    a.order = b.order := by
  obtain ⟨-, x, hx, hy⟩ := h
  rw [hx.1, hy.1]

namespace Database

variable {parses : ContractSnapshot → Bool} {start db db' : Database}
  {issued : JobIdentity → LeaseHolder → Prop} {active : ActiveConfiguration}
  {configuration : SchedulingConfiguration} {branch provider : String}
  {origins reached : Set BranchEvent} {event : BranchEvent}

/-! ### What the events have reached -/

/-- The checkpoint of the branch is there and does not undercut the event. -/
def Reaches (db : Database) (branch : String) (event : BranchEvent) (target : TargetConfig) :
    Prop :=
  ∃ checkpoint, db.branches (target.key branch) = some checkpoint ∧
    ¬ checkpoint.evidence.Before event.evidence

/-- The checkpoints of the branch stem from some events, and have reached some events for every
service that these name. -/
structure Follows (active : ActiveConfiguration) (configuration : SchedulingConfiguration)
    (branch : String) (origins reached : Set BranchEvent) (db : Database) : Prop where
  coherent : db.Coherent
  readActive : db.readActive = .ok (active, configuration)
  origin : ∀ key checkpoint, key.branch = branch → db.branches key = some checkpoint →
    ∃ event ∈ origins, key.serviceId ∈ event.serviceIds ∧
      checkpoint.evidence = event.evidence ∧ checkpoint.desired = event.desired
  reaches : ∀ event ∈ reached, ∀ serviceId ∈ event.serviceIds, ∀ target,
    configuration.document.targetConfig serviceId = some target →
    branch ∈ target.service.intendedBranches → db.Reaches branch event target

namespace Follows

theorem origins_mono {origins' : Set BranchEvent}
    (h : Follows active configuration branch origins reached db) (hsub : origins ⊆ origins') :
    Follows active configuration branch origins' reached db :=
  { h with
    origin := fun key checkpoint hkey hcheckpoint => by
      obtain ⟨event, hevent, hrest⟩ := h.origin key checkpoint hkey hcheckpoint
      exact ⟨event, hsub hevent, hrest⟩ }

theorem of_sameTarget (h : Follows active configuration branch origins reached db)
    (hc : db'.Coherent) (hread : db'.readActive = .ok (active, configuration))
    (hbranches : ∀ key, key.branch = branch →
      Option.Rel SameTarget (db.branches key) (db'.branches key)) :
    Follows active configuration branch origins reached db' where
  coherent := hc
  readActive := hread
  origin key checkpoint' hkey hcheckpoint' := by
    have hrel := hbranches key hkey
    rw [hcheckpoint'] at hrel
    cases hcheckpoint : db.branches key with
    | none => simp [hcheckpoint] at hrel
    | some checkpoint =>
      have htarget : SameTarget checkpoint checkpoint' := by simpa [hcheckpoint] using hrel
      obtain ⟨event, hevent, hnames, hevidence, hdesired⟩ := h.origin key checkpoint hkey hcheckpoint
      exact ⟨event, hevent, hnames, htarget.evidence.trans hevidence,
        htarget.desired.trans hdesired⟩
  reaches event hevent serviceId hservice target htarget hbranch := by
    obtain ⟨checkpoint, hcheckpoint, hnot⟩ := h.reaches event hevent serviceId hservice target htarget hbranch
    have hrel := hbranches (target.key branch) rfl
    rw [hcheckpoint] at hrel
    cases hcheckpoint' : db'.branches (target.key branch) with
    | none => simp [hcheckpoint'] at hrel
    | some checkpoint' =>
      have hsame : SameTarget checkpoint checkpoint' := by simpa [hcheckpoint'] using hrel
      exact ⟨checkpoint', hcheckpoint', hsame.evidence ▸ hnot⟩

theorem keepsBranches (h : Follows active configuration branch origins reached db)
    (hkeeps : KeepsBranches issued db db') :
    Follows active configuration branch origins reached db' :=
  h.of_sameTarget (h.coherent.keepsBranches hkeeps) (hkeeps.readActive h.readActive)
    fun key _ => hkeeps.branches key

variable {checkpoint : BranchCheckpoint} {target : TargetConfig}

variable {evidence : ProviderReference} {desired : DesiredState} {forceRepair : Bool}
  {branch' : String}

theorem readActive_of_replacesCheckpoint (hread : db.readActive = .ok (active, configuration))
    (hreplaces : ReplacesCheckpoint issued configuration target branch' desired evidence forceRepair
      db db' checkpoint) : db'.readActive = .ok (active, configuration) := by
  simpa only [Database.readActive, hreplaces.active, hreplaces.configurations] using hread

theorem replacesCheckpoint_of_ne
    (h : Follows active configuration branch origins reached db) (hne : branch' ≠ branch)
    (hreplaces : ReplacesCheckpoint issued configuration target branch' desired evidence forceRepair
      db db' checkpoint) : Follows active configuration branch origins reached db' := by
  refine h.of_sameTarget (h.coherent.replacesCheckpoint hreplaces)
    (readActive_of_replacesCheckpoint h.readActive hreplaces) fun key hkey => ?_
  have hother : key ≠ target.key branch' := by
    rintro rfl
    exact hne hkey
  rw [hreplaces.branches_of_ne hother]
  exact (KeepsBranches.refl db : KeepsBranches Nobody db db).branches key

theorem replacesCheckpoint
    (h : Follows active configuration branch origins reached db) (hevent : event ∈ origins)
    (hnames : target.service.serviceId ∈ event.serviceIds)
    (hnewer : ∀ current, db.branches (target.key branch) = some current →
      current.evidence.Before event.evidence)
    (hreplaces : ReplacesCheckpoint issued configuration target branch event.desired event.evidence
      false db db' checkpoint) :
    Follows active configuration branch origins reached db' where
  coherent := h.coherent.replacesCheckpoint hreplaces
  readActive := readActive_of_replacesCheckpoint h.readActive hreplaces
  origin key checkpoint' hkey hcheckpoint' := by
    by_cases hsame : key = target.key branch
    · subst hsame
      cases hreplaces.branches_self.symm.trans hcheckpoint'
      exact ⟨event, hevent, hnames, hreplaces.evidence_eq, hreplaces.desired_eq⟩
    · rw [hreplaces.branches_of_ne hsame] at hcheckpoint'
      exact h.origin key checkpoint' hkey hcheckpoint'
  reaches other hother serviceId hservice target' htarget hbranch := by
    obtain ⟨current, hcurrent, hnot⟩ := h.reaches other hother serviceId hservice target' htarget hbranch
    by_cases hsame : target'.key branch = target.key branch
    · rw [hsame] at hcurrent
      refine ⟨checkpoint, by rw [hsame]; exact hreplaces.branches_self, fun hbefore => hnot ?_⟩
      rw [hreplaces.evidence_eq] at hbefore
      exact (hnewer current hcurrent).trans hbefore
    · exact ⟨current, (hreplaces.branches_of_ne hsame).trans hcurrent, hnot⟩

end Follows

/-! ### Events of the branch -/

/-- An update that is accepted is written: its target is confirmed or becomes the new one. -/
theorem scheduleBranch_eq_of_accepted {target : TargetConfig} {desired : DesiredState}
    {evidence : ProviderReference} (hbranch : branch ∈ target.service.intendedBranches) :
    db.AcceptsUpdate (target.key branch) desired evidence none →
    db.scheduleBranch configuration target branch desired evidence none =
      (if db.sameSemanticTarget configuration (target.key branch) desired false = true then
        .ok (db.confirmBranch (target.key branch) evidence,
          if ((db.branches (target.key branch)).bind fun current =>
            db.currentJobRow current.currentJob).any (·.state.isNonterminal) then
            EventDisposition.scheduled else .noWork)
      else match desired with
        | .absent => .ok (db.scheduleAbsence (target.key branch) evidence, .scheduled)
        | .present revision =>
          .ok (db.scheduleAnalysis configuration target branch revision evidence, .scheduled)) := by
  intro haccepts
  unfold scheduleBranch
  rw [if_neg (not_not.mpr hbranch)]
  rcases haccepts rfl with hfirst | hnewer
  · cases desired <;> simp [hfirst]
  · cases desired <;> simp [hnewer]

theorem scheduleBranch_of_accepted (hc : db.Coherent) {target : TargetConfig}
    {desired : DesiredState} {evidence : ProviderReference}
    (hbranch : branch ∈ target.service.intendedBranches)
    (haccepts : db.AcceptsUpdate (target.key branch) desired evidence none) :
    ∃ after disposition checkpoint,
      db.scheduleBranch configuration target branch desired evidence none
        = .ok (after, disposition) ∧ disposition ≠ .reconciliationRequired ∧
      ReplacesCheckpoint issued configuration target branch desired evidence false db after
        checkpoint := by
  have hupdate := @scheduleBranch_eq_of_accepted _ configuration _ _ _ _ hbranch haccepts
  have hok : ∃ after disposition, db.scheduleBranch configuration target branch desired evidence none
      = .ok (after, disposition) ∧ disposition ≠ .reconciliationRequired := by
    rw [hupdate]
    by_cases hsame : db.sameSemanticTarget configuration (target.key branch) desired false = true
    · rw [if_pos hsame]
      refine ⟨_, _, rfl, ?_⟩
      split_ifs <;> simp
    · rw [if_neg hsame]
      cases desired with
      | absent => exact ⟨_, _, rfl, by simp⟩
      | present revision => exact ⟨_, _, rfl, by simp⟩
  obtain ⟨after, disposition, hok, hdisposition⟩ := hok
  obtain ⟨checkpoint, hreplaces⟩ := replacesCheckpoint_of_accepted hc (hupdate.symm.trans hok)
  exact ⟨after, disposition, checkpoint, hok, hdisposition, hreplaces⟩

/-- An update with a sequence, at a checkpoint with a sequence of the same provider: it is in
conflict, is not ahead of the checkpoint and changes nothing, or replaces the checkpoint. -/
theorem scheduleBranch_of_sequence (hc : db.Coherent) {target : TargetConfig}
    {desired : DesiredState} {evidence : ProviderReference} {y : String}
    (hbranch : branch ∈ target.service.intendedBranches) (hy : evidence.HasSequence y)
    (hcurrent : ∀ current, db.branches (target.key branch) = some current →
      current.evidence.provider = evidence.provider ∧ ∃ x, current.evidence.HasSequence x) :
    (∃ current, db.branches (target.key branch) = some current ∧
      current.evidence.SameSequence evidence ∧
      ¬ (current.evidence.providerReference = evidence.providerReference ∧
        current.desired = desired) ∧
      db.scheduleBranch configuration target branch desired evidence none
        = .error .eventOrderConflict) ∨
    (∃ current disposition, db.branches (target.key branch) = some current ∧
      ¬ current.evidence.Before evidence ∧
      db.scheduleBranch configuration target branch desired evidence none = .ok (db, disposition) ∧
      disposition ≠ .reconciliationRequired) ∨
    (∀ current, db.branches (target.key branch) = some current →
      current.evidence.Before evidence) ∧
    ∃ after disposition checkpoint,
      db.scheduleBranch configuration target branch desired evidence none
        = .ok (after, disposition) ∧ disposition ≠ .reconciliationRequired ∧
      ReplacesCheckpoint issued configuration target branch desired evidence false db after
        checkpoint := by
  cases hrow : db.branches (target.key branch) with
  | none =>
    refine .inr (.inr ⟨by simp, scheduleBranch_of_accepted hc hbranch fun _ => .inl ?_⟩)
    simp [hrow, classifyProviderUpdate, canonicalSequence_eq_true_iff.mpr ⟨y, hy⟩]
  | some current =>
    obtain ⟨hprovider, x, hx⟩ := hcurrent current hrow
    have hclassify := @classifyProviderUpdate_of_sequence _ _
      current.providerCheckpoint ⟨evidence, desired⟩ _ _ hprovider hx hy
    cases hcompare : Decimal.compare x y with
    | older =>
      have hlt := compare_eq_older_iff.mp hcompare
      refine .inr (.inl ⟨current, .ignoredStale, rfl, ?_, ?_, by simp⟩)
      · rintro ⟨-, x', y', hx', hy', hlt'⟩
        obtain rfl := hx.unique hx'
        obtain rfl := hy.unique hy'
        exact Decimal.Precedes.irrefl _ (hlt.trans hlt')
      · simp [scheduleBranch, hbranch, hrow, hclassify, hcompare]
    | newer =>
      have hlt := compare_eq_newer_iff.mp hcompare
      refine .inr (.inr ⟨fun other hother => ?_,
        scheduleBranch_of_accepted hc hbranch fun _ => .inr ?_⟩)
      · cases hother
        exact ⟨hprovider, x, y, hx, hy, hlt⟩
      · simp [hrow, hclassify, hcompare]
    | equal =>
      obtain rfl := compare_eq_equal_iff.mp hcompare
      have hsame : current.evidence.SameSequence evidence := ⟨hprovider, _, hx, hy⟩
      by_cases hsemantic :
          sameSemanticCheckpoint current.providerCheckpoint ⟨evidence, desired⟩ = true
      · refine .inr (.inl ⟨current, .noWork, rfl, fun h => h.not_self hsame.symm, ?_, by simp⟩)
        simp [scheduleBranch, hbranch, hrow, hclassify, hcompare, hsemantic]
      · refine .inl ⟨current, rfl, hsame, ?_, ?_⟩
        · rintro ⟨hreference, hdesired⟩
          refine hsemantic ?_
          simp [sameSemanticCheckpoint, BranchCheckpoint.providerCheckpoint, hreference, hdesired]
        · simp [scheduleBranch, hbranch, hrow, hclassify, hcompare, hsemantic]

theorem perform_of_not_configured (hread : db.readActive = .ok (active, configuration))
    (hnot : ¬ event.Configured configuration.document) :
    db.perform parses (.branchEvent event) = db := by
  rcases perform_eq_or parses db (.branchEvent event) with hsame | hok
  · exact hsame
  · obtain ⟨⟨active', configuration'⟩, hread', hfold⟩ := bind_eq_ok.mp hok
    obtain ⟨-, rfl⟩ := Prod.mk.inj (Except.ok.inj (hread.symm.trans hread'))
    refine absurd (fun serviceId hservice => ?_) hnot
    obtain ⟨before, after, hstep⟩ := exists_of_foldlM_eq_ok hfold serviceId hservice
    obtain ⟨target, htarget, -⟩ := bind_eq_ok.mp hstep
    exact ⟨target, orRaise_eq_ok.mp htarget⟩

/-- What an event does for one of the services it names. -/
def scheduleService (configuration : SchedulingConfiguration) (event : BranchEvent) (db : Database)
    (serviceId : String) : Except OrchestrationError Database := do
  let target ← orRaise (configuration.document.targetConfig serviceId) .eventSubjectMismatch
  let (db, disposition) ←
    db.scheduleBranch configuration target event.branch event.desired event.evidence none
  if disposition = .reconciliationRequired then
    db.scheduleBranchReconciliation configuration target event.branch
      event.evidence.providerReference event.evidence
  else return db

theorem attempt_branchEvent (hread : db.readActive = .ok (active, configuration)) :
    db.attempt parses (.branchEvent event) =
      event.serviceIds.foldlM (scheduleService configuration event) db := by
  simp only [attempt, ingestBranchEvent, hread, bind, Except.bind]
  rfl

theorem scheduleService_eq {target : TargetConfig} {serviceId : String} {after : Database}
    {disposition : EventDisposition}
    (htarget : configuration.document.targetConfig serviceId = some target)
    (hok : db.scheduleBranch configuration target event.branch event.desired event.evidence none
      = .ok (after, disposition)) (hdisposition : disposition ≠ .reconciliationRequired) :
    db.scheduleService configuration event serviceId = .ok after := by
  simp [scheduleService, htarget, orRaise, hok, hdisposition, bind, Except.bind, pure, Except.pure]

variable {events : Set BranchEvent}

/-- For one service, an event is refused because another with its sequence came first, or the
service has reached it. -/
theorem Follows.scheduleService (hdelivery : IsDelivery provider events)
    (hreached : reached ⊆ events) (hevent : event ∈ events) (hbranch : event.branch = branch)
    (hconfigured : event.Configured configuration.document) {serviceId : String}
    (hservice : serviceId ∈ event.serviceIds)
    (h : Follows active configuration branch (insert event reached) reached db) :
    (∃ error, db.scheduleService configuration event serviceId = .error error) ∧
        (∃ other ∈ reached, other.evidence.SameSequence event.evidence ∧
          ∀ serviceId, serviceId ∈ other.serviceIds ↔ serviceId ∈ event.serviceIds) ∨
      ∃ after, db.scheduleService configuration event serviceId = .ok after ∧
        Follows active configuration branch (insert event reached) reached after ∧
        (∀ target, configuration.document.targetConfig serviceId = some target →
          branch ∈ target.service.intendedBranches → after.Reaches branch event target) ∧
        ∀ target, db.Reaches branch event target → after.Reaches branch event target := by
  obtain ⟨target, htarget⟩ := hconfigured serviceId hservice
  obtain ⟨-, hid⟩ := targetConfig_eq_some htarget
  have hunique {target' : TargetConfig}
      (htarget' : configuration.document.targetConfig serviceId = some target') :
      target' = target :=
    Option.some.inj (htarget'.symm.trans htarget)
  by_cases hintended : branch ∈ target.service.intendedBranches
  · have horigins : insert event reached ⊆ events := Set.insert_subset hevent hreached
    obtain ⟨y, hy⟩ := hdelivery.sequence event hevent
    have hcurrent : ∀ current, db.branches (target.key branch) = some current →
        ∃ other ∈ insert event reached, current.evidence = other.evidence ∧
          current.desired = other.desired := fun current hrow => by
      obtain ⟨other, hother, -, hrest⟩ := h.origin _ current rfl hrow
      exact ⟨other, hother, hrest⟩
    rcases @scheduleBranch_of_sequence _ Nobody configuration _ h.coherent _ event.desired _ _
      hintended hy (fun current hrow => by
        obtain ⟨other, hother, hevidence, -⟩ := hcurrent current hrow
        rw [hevidence, hdelivery.provider_eq other (horigins hother),
          hdelivery.provider_eq event hevent]
        exact ⟨rfl, hdelivery.sequence other (horigins hother)⟩) with
      ⟨current, hrow, hsame, hdiffers, hraises⟩ | ⟨current, disposition, hrow, hnot, hok, hne⟩ |
        ⟨hnewer, after, disposition, checkpoint, hok, hne, hreplaces⟩
    · -- the checkpoint stems from another event, which names the same services
      obtain ⟨other, hother, hevidence, hdesired⟩ := hcurrent current hrow
      rw [hevidence] at hsame
      rw [hevidence, hdesired] at hdiffers
      have hpayload := hdelivery.desired_eq other (horigins hother) event hevent hsame
      rcases hdelivery.reference other (horigins hother) event hevent hsame with
        hreference | hservices
      · exact absurd ⟨hreference, hpayload⟩ hdiffers
      · refine .inl ⟨⟨.eventOrderConflict, ?_⟩, other, ?_, hsame, hservices⟩
        · subst hbranch
          simp [Database.scheduleService, htarget, orRaise, hraises, bind, Except.bind]
        · rcases Set.mem_insert_iff.mp hother with rfl | hother
          · exact absurd ⟨rfl, rfl⟩ hdiffers
          · exact hother
    · subst hbranch
      refine .inr ⟨db, scheduleService_eq htarget hok hne, h, fun target' htarget' _ => ?_,
        fun _ h => h⟩
      rw [hunique htarget']
      exact ⟨current, hrow, hnot⟩
    · subst hbranch
      refine .inr ⟨after, scheduleService_eq htarget hok hne,
        h.replacesCheckpoint (Set.mem_insert event reached) (hid ▸ hservice) hnewer hreplaces,
        fun target' htarget' _ => ?_, fun other hother => ?_⟩
      · rw [hunique htarget']
        refine ⟨checkpoint, hreplaces.branches_self, ?_⟩
        rw [hreplaces.evidence_eq]
        exact ProviderReference.Before.irrefl event.evidence
      · obtain ⟨current, hrow, hnot⟩ := hother
        by_cases hkey : other.key event.branch = target.key event.branch
        · refine ⟨checkpoint, by rw [hkey]; exact hreplaces.branches_self, ?_⟩
          rw [hreplaces.evidence_eq]
          exact ProviderReference.Before.irrefl event.evidence
        · exact ⟨current, (hreplaces.branches_of_ne hkey).trans hrow, hnot⟩
  · subst hbranch
    refine .inr ⟨db, @scheduleService_eq _ _ _ _ _ _ .ignoredUnconfiguredBranch htarget ?_
      (by simp), h, fun target' htarget' hintended' => ?_, fun _ h => h⟩
    · simp [scheduleBranch, hintended]
    · rw [hunique htarget'] at hintended'
      exact absurd hintended' hintended

theorem Follows.perform_branchEvent
    (hdelivery : IsDelivery provider events) (hreached : reached ⊆ events) (hevent : event ∈ events)
    (hbranch : event.branch = branch) (hconfigured : event.Configured configuration.document)
    (h : Follows active configuration branch reached reached db) :
    Follows active configuration branch (insert event reached) (insert event reached)
      (db.perform parses (.branchEvent event)) := by
  have hstart : Follows active configuration branch (insert event reached) reached db :=
    h.origins_mono (Set.subset_insert event reached)
  have hfinish {after : Database}
      (hafter : Follows active configuration branch (insert event reached) reached after)
      (hall : ∀ serviceId ∈ event.serviceIds, ∀ target,
        configuration.document.targetConfig serviceId = some target →
        branch ∈ target.service.intendedBranches → after.Reaches branch event target) :
      Follows active configuration branch (insert event reached) (insert event reached) after :=
    { hafter with
      reaches := fun other hother => by
        rcases Set.mem_insert_iff.mp hother with rfl | hother
        · exact hall
        · exact hafter.reaches other hother }
  have hfold := foldlM_cases (f := Database.scheduleService configuration event)
    (P := fun serviceId after => ∀ target,
      configuration.document.targetConfig serviceId = some target →
      branch ∈ target.service.intendedBranches → after.Reaches branch event target)
    (fun before serviceId hservice hbefore => by
      rcases Follows.scheduleService hdelivery hreached hevent hbranch hconfigured hservice hbefore
        with hraised | ⟨after, hok, hafter, hthis, hkeep⟩
      · exact .inl hraised
      · exact .inr ⟨after, hok, hafter, hthis, fun other hother target htarget hintended =>
          hkeep target (hother target htarget hintended)⟩) hstart
  rw [← @attempt_branchEvent parses _ _ _ _ h.readActive] at hfold
  rcases hfold with ⟨⟨error, herror⟩, other, hother, hsame, hservices⟩ | ⟨after, hok, hafter, hall, -⟩
  · have hperform : db.perform parses (.branchEvent event) = db := by
      rw [perform, herror]
    rw [hperform]
    refine hfinish hstart fun serviceId hservice target htarget hintended => ?_
    obtain ⟨checkpoint, hrow, hnot⟩ :=
      h.reaches other hother serviceId ((hservices serviceId).mpr hservice) target htarget hintended
    exact ⟨checkpoint, hrow, fun hbefore => hnot (hbefore.trans_sameSequence hsame.symm)⟩
  · have hperform : db.perform parses (.branchEvent event) = after := by
      rw [perform, hok]
    rw [hperform]
    exact hfinish hafter hall

/-! ### The other operations -/

/-- The other operations, and the events of other branches, move no checkpoint of the branch. -/
theorem Follows.perform_of_ne {action : Action} (hmoves : action.MovesByEvents)
    (hother : ∀ event, action = .branchEvent event → event.branch ≠ branch)
    (h : Follows active configuration branch origins reached db) :
    Follows active configuration branch origins reached (db.perform parses action) := by
  rcases perform_eq_or parses db action with hsame | hok
  · rwa [hsame]
  generalize db.perform parses action = db' at hok
  have hc : db'.Coherent := (keepsJobs_attempt h.coherent hok).2
  cases action with
  | tick milliseconds =>
    cases hok
    exact h.of_sameTarget hc h.readActive fun key _ =>
      (KeepsBranches.refl db : KeepsBranches Nobody db db).branches key
  | activateInitialConfiguration fingerprint => cases hmoves
  | activateConfiguration fingerprint expected evidence => cases hmoves
  | branchEvent event =>
    refine (ingestBranchEvent_induction Nobody (I := fun last => Follows active configuration
      branch origins reached last) hok h.coherent h ?_ ?_).1
    · intro active' configuration' target before after checkpoint hread _ hbefore _ _ _ hreplaces
      cases h.readActive.symm.trans hread
      exact hbefore.replacesCheckpoint_of_ne (hother event rfl) hreplaces
    · intro before after hbefore hs
      exact hbefore.keepsBranches hs.toKeepsBranches
  | reconcile worker lease reference observation => cases hmoves
  | complete worker lease material =>
    obtain ⟨⟨written, outcome⟩, hcompletion, rfl⟩ := map_eq_ok.mp hok
    exact h.keepsBranches (keepsBranches_completion Nobody h.coherent hcompletion)
  | _ => exact h.keepsBranches (Settles.attempt rfl hok).toKeepsBranches

/-! ### Runs -/

theorem deliveredEvents_cons (document : InstallationConfig) (branch : String) (action : Action)
    (actions : List Action) :
    deliveredEvents document branch actions ⊆ deliveredEvents document branch (action :: actions) :=
  fun _ ⟨hmem, hrest⟩ => ⟨mem_cons_of_mem action hmem, hrest⟩

theorem follows_of_run (hdelivery : IsDelivery provider events)
    {actions : List Action} (hrun : Run (Step parses) start actions db)
    (hmoves : ∀ action ∈ actions, action.MovesByEvents)
    (hevents : deliveredEvents configuration.document branch actions ⊆ events)
    (hreached : reached ⊆ events) (h : Follows active configuration branch reached reached start) :
    Follows active configuration branch
      (reached ∪ deliveredEvents configuration.document branch actions)
      (reached ∪ deliveredEvents configuration.document branch actions) db := by
  induction hrun generalizing reached with
  | nil s =>
    have hnone : reached ∪ deliveredEvents configuration.document branch [] = reached := by
      ext event
      simp [deliveredEvents]
    rwa [hnone]
  | @cons s t u action actions hstep _ ih =>
    obtain rfl : t = s.perform parses action := hstep
    have hmoves' : ∀ action ∈ actions, action.MovesByEvents :=
      fun action haction => hmoves action (mem_cons_of_mem _ haction)
    have hevents' : deliveredEvents configuration.document branch actions ⊆ events :=
      (deliveredEvents_cons _ branch action actions).trans hevents
    by_cases hthis : ∃ event, action = .branchEvent event ∧ event.branch = branch ∧
        event.Configured configuration.document
    · obtain ⟨event, rfl, hbranch, hconfigured⟩ := hthis
      have hevent : event ∈ events := hevents ⟨mem_cons_self, hbranch, hconfigured⟩
      have hnext := ih hmoves' hevents' (Set.insert_subset hevent hreached)
        (h.perform_branchEvent hdelivery hreached hevent hbranch hconfigured)
      have hsame : insert event reached ∪ deliveredEvents configuration.document branch actions =
          reached ∪ deliveredEvents configuration.document branch (.branchEvent event :: actions) := by
        ext other
        simp only [deliveredEvents, Set.mem_union, Set.mem_insert_iff, Set.mem_ofPred_eq,
          mem_cons, Action.branchEvent.injEq]
        constructor
        · rintro ((rfl | hother) | ⟨hmem, hrest⟩)
          · exact .inr ⟨.inl rfl, hbranch, hconfigured⟩
          · exact .inl hother
          · exact .inr ⟨.inr hmem, hrest⟩
        · rintro (hother | ⟨rfl | hmem, hrest⟩)
          · exact .inl (.inr hother)
          · exact .inl (.inl rfl)
          · exact .inr ⟨hmem, hrest⟩
      rwa [hsame] at hnext
    · have hkept : Follows active configuration branch reached reached
          (s.perform parses action) := by
        by_cases hevent : ∃ event, action = .branchEvent event ∧ event.branch = branch
        · obtain ⟨event, rfl, hbranch⟩ := hevent
          rwa [perform_of_not_configured h.readActive fun hconfigured =>
            hthis ⟨event, rfl, hbranch, hconfigured⟩]
        · exact h.perform_of_ne (hmoves action mem_cons_self) fun event haction hbranch =>
            hevent ⟨event, haction, hbranch⟩
      have hnext := ih hmoves' hevents' hreached hkept
      have hsame : deliveredEvents configuration.document branch actions =
          deliveredEvents configuration.document branch (action :: actions) := by
        refine (deliveredEvents_cons _ branch action actions).antisymm ?_
        rintro event ⟨hmem, hbranch, hconfigured⟩
        rcases List.mem_cons.mp hmem with rfl | hmem
        · exact absurd ⟨event, rfl, hbranch, hconfigured⟩ hthis
        · exact ⟨hmem, hbranch, hconfigured⟩
      rwa [hsame] at hnext

/-- The configuration of the sample is activated. -/
def activatedActions : List Action := [
  .registerConfiguration (sampleConfiguration "A"), .activateInitialConfiguration "A"]

/-- A later event comes first and is repeated after an earlier one, for another revision. -/
def shuffledActions : List Action := [
  .branchEvent (sampleEvent (.present sampleRevision) "7"),
  .claim sampleWorker (sampleAnalysis "A" 1) "token-1",
  .branchEvent (sampleEvent (.present "ba9876543210") "5"),
  .branchEvent (sampleEvent (.present sampleRevision) "7")]

theorem mem_shuffledActions {event : BranchEvent}
    (h : event ∈ deliveredEvents (sampleConfiguration "A").document "main" shuffledActions) :
    event = sampleEvent (.present sampleRevision) "7" ∨
      event = sampleEvent (.present "ba9876543210") "5" := by
  obtain ⟨hmem, -⟩ := h
  simp only [shuffledActions, mem_cons, Action.branchEvent.injEq, not_mem_nil,
    or_false, reduceCtorEq, false_or] at hmem
  rcases hmem with h | h | h
  · exact .inl h
  · exact .inr h
  · exact .inl h

/-- A configuration of two services with one branch each. -/
def pairConfiguration : SchedulingConfiguration :=
  ⟨"A", { configVersion := "1.0.0", repositories := [{ sampleTarget.repository with
    services := [sampleTarget.service, { sampleTarget.service with serviceId := "web" }] }] }⟩

def narrowEvent : BranchEvent := sampleEvent (.present sampleRevision) "5"

/-- The same update for both services, under another reference. -/
def wideEvent : BranchEvent :=
  { narrowEvent with
    serviceIds := ["svc", "web"]
    evidence := { narrowEvent.evidence with providerReference := "ref-other" } }

/-- The rows after the two services have been configured and the events have been delivered. -/
def deliveredRows (events : List BranchEvent) : Database :=
  (events.map Action.branchEvent).foldl (perform sampleParses) <|
    [Action.registerConfiguration pairConfiguration, .activateInitialConfiguration "A"].foldl
      (perform sampleParses) empty

end Database

end ApiTruth.Orchestration
