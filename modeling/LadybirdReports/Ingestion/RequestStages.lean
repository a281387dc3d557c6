import LadybirdReports.Ingestion.AcceptedFiles

/-!
# Stages of a request

A request passes its stages in order: it has no staging directory, it asks for a lease, its deadline
runs, it is over. A step leaves it at its stage, ends it or lets it go on by one (`step_effect`).

So a request that is over stays over (`step_over`), no report of it is committed any more
(`step_not_committed`), and what is removed of it is nobody's (`inv_of_removeOver`).
-/

namespace LadybirdReports.Ingestion.StagingSweep

open Transition

/-! ## Stages of a request -/

/-- How far a request has come. -/
inductive Stage
  | undirected
  | leasing
  | running
  | ended
  deriving DecidableEq

def stage : Point → Stage
  | .preparing | .beginning | .recovering .. => .undirected
  | .acquiringLease => .leasing
  | .receiving _ | .validating | .accepting | .removingOwn _ | .recoveringExisting .. |
    .finalizing _ => .running
  | .releasing _ | .abandoning _ | .finished | .crashed => .ended

/-- The request of an upload is over, and so is its transaction. -/
def Over (s : State) (upload : UploadId) : Prop :=
  stage (s.point upload) = .ended ∧ s.inFlight upload = false

/-- What an answer makes of where its request waits. -/
def Next (before after : Point) : Prop :=
  stage after = stage before ∨ stage after = .ended ∨
    (before = .beginning ∧ after = .acquiringLease) ∨
    (before = .acquiringLease ∧ after = .receiving [])

/-- A request goes on: only where it waits has changed, and maybe its transaction was sent. -/
structure Moved (s s' : State) (upload : UploadId) : Prop where
  point : ∃ point, s'.point = Function.update s.point upload point ∧ Next (s.point upload) point
  inFlight : ∀ other, s'.inFlight other →
    s.inFlight other ∨ other = upload ∧ stage (s.point upload) = .running
  committed : ∀ other, Committed s' other → Committed s other
  staging : ∀ other, s'.files.staging other ≠ none → s.files.staging other ≠ none ∨
    other = upload ∧ s.point upload = .beginning ∧ s'.point upload = .acquiringLease

section

variable {c : Requests} {s s' s₁ : State} {upload : UploadId} {action : Action}
  {receipt : ReportReceipt} {report : ReportId} {point done failed : Point}
  {waiting : FinalizePoint → Point}

/-- What changes besides is none of its business. -/
theorem Moved.of_goTo (hpoint : s₁.point = s.point) (hinFlight : s₁.inFlight = s.inFlight)
    (hreports : s₁.reports = s.reports)
    (hstaging : ∀ other, s₁.files.staging other ≠ none → s.files.staging other ≠ none)
    (hnext : Next (s.point upload) point) :
    Moved s (s₁.goTo upload point) upload where
  point := ⟨point, by rw [← hpoint]; rfl, hnext⟩
  inFlight other h := .inl (hinFlight ▸ h)
  committed other h := by
    unfold Committed at h ⊢
    rw [← hreports]
    exact h
  staging other h := .inl (hstaging other h)

theorem stage_goTo (point : Point) : stage ((s.goTo upload point).point upload) = stage point :=
  congrArg stage (Function.update_self ..)

theorem Moved.goTo (hnext : Next (s.point upload) point) : Moved s (s.goTo upload point) upload :=
  Moved.of_goTo rfl rfl rfl (fun _ h => h) hnext

theorem Moved.dropped (hnext : Next (s.point upload) point) :
    Moved s ((s.dropPrepared upload).goTo upload point) upload :=
  Moved.of_goTo rfl rfl rfl (fun _ h => h) hnext

theorem Moved.withFiles (h : Moved s s' upload) {files : FileAttachmentStore}
    (hfiles : ∀ other, files.staging other ≠ none → s'.files.staging other ≠ none) :
    Moved s { s' with files } upload :=
  ⟨h.point, h.inFlight, h.committed, fun other hother => h.staging other (hfiles other hother)⟩

theorem setStaging_of_none {files : FileAttachmentStore} {staging : Option Directory}
    (h : files.staging upload = none → staging = none) {other : UploadId}
    (hother : (files.setStaging upload staging).staging other ≠ none) :
    files.staging other ≠ none := by
  by_cases hsame : other = upload
  · subst hsame
    rw [FileAttachmentStore.setStaging_same] at hother
    exact fun hnone => hother (h hnone)
  · rwa [FileAttachmentStore.setStaging_other _ _ hsame] at hother

/-- Finalizing creates no staging directory. -/
theorem finalizeStep_staging {files after : FileAttachmentStore} {step next : FinalizePoint}
    (h : finalizeStep files upload report step = .ok (after, next)) (other : UploadId)
    (hother : after.staging other ≠ none) : files.staging other ≠ none := by
  rcases finalizeStep_cases h with ⟨rfl, -⟩ | ⟨-, _, -, -, rfl⟩
  · exact hother
  · by_cases hsame : other = upload
    · subst hsame
      dsimp only at hother
      rw [Function.update_self] at hother
      exact absurd rfl hother
    · dsimp only at hother
      rwa [Function.update_of_ne hsame] at hother

theorem committed_markStorageReady {other : UploadId}
    (h : Committed { s with reports := markStorageReady s.reports report upload } other) :
    Committed s other := by
  obtain ⟨row, hrow, hid⟩ := h
  obtain ⟨before, hbefore, rfl⟩ := List.mem_map.mp hrow
  refine ⟨before, hbefore, ?_⟩
  split at hid <;> exact hid

theorem Moved.markReady {staging : UploadId} (h : Moved s s' upload) :
    Moved s { s' with reports := markStorageReady s.reports report staging } upload where
  point := h.point
  inFlight := h.inFlight
  committed other hother := by
    exact committed_markStorageReady (s := s) hother
  staging := h.staging

theorem Moved.recover (hwaiting : ∀ point, Next (s.point upload) (waiting point))
    (hdone : Next (s.point upload) done) :
    Moved s (s.recover upload receipt waiting done) upload := by
  unfold State.recover
  split
  · exact .dropped hdone
  · exact .goTo (hwaiting _)

theorem Moved.recoverStep {step : FinalizePoint}
    (hwaiting : ∀ point, Next (s.point upload) (waiting point))
    (hdone : Next (s.point upload) done) (hfailed : Next (s.point upload) failed) :
    Moved s (s.recoverStep upload receipt step waiting done failed) upload := by
  unfold State.recoverStep
  split
  · exact (Moved.dropped hdone).markReady
  · split
    · next hfiles => exact (Moved.goTo (hwaiting _)).withFiles (finalizeStep_staging hfiles)
    · exact .dropped hfailed

/-- A request whose deadline runs goes on twice. -/
theorem Moved.trans (hrunning : stage (s.point upload) = .running) (h : Moved s s₁ upload)
    (hmiddle : stage (s₁.point upload) = .running) (h' : Moved s₁ s' upload) :
    Moved s s' upload where
  point := by
    obtain ⟨middle, hupdate, -⟩ := h.point
    obtain ⟨point, hupdate', hnext⟩ := h'.point
    refine ⟨point, by rw [hupdate', hupdate, Function.update_idem], ?_⟩
    rcases hnext with hsame | hover | ⟨hp, -⟩ | ⟨hp, -⟩
    · exact .inl (hsame.trans (hmiddle.trans hrunning.symm))
    · exact .inr (.inl hover)
    · rw [hp] at hmiddle
      cases hmiddle
    · rw [hp] at hmiddle
      cases hmiddle
  inFlight other hother := by
    rcases h'.inFlight other hother with hsent | hsame
    · exact h.inFlight other hsent
    · exact .inr ⟨hsame.1, hrunning⟩
  committed other hother := h.committed other (h'.committed other hother)
  staging other hother := by
    rcases h'.staging other hother with hbefore | ⟨-, hp, -⟩
    · rcases h.staging other hbefore with hbefore | ⟨-, hp, -⟩
      · exact .inl hbefore
      · rw [hp] at hrunning
        cases hrunning
    · rw [hp] at hmiddle
      cases hmiddle

theorem Moved.setInFlight (hrunning : stage (s.point upload) = .running) (sent : Bool) :
    Moved s (s.setInFlight upload sent) upload where
  point := ⟨s.point upload, by rw [Function.update_eq_self]; rfl, .inl rfl⟩
  inFlight other _ := by
    by_cases hother : other = upload
    · exact .inr ⟨hother, hrunning⟩
    · refine .inl ?_
      rename_i hsent
      simpa only [State.setInFlight, Function.update_of_ne hother] using hsent
  committed _ hother := hother
  staging _ hother := .inl hother

theorem Moved.accepted (hrunning : stage (s.point upload) = .running)
    (h : s.accepted c upload = some s') : Moved s s' upload := by
  have hnext (point : Point) (hpoint : stage point = .running ∨ stage point = .ended) :
      Next (s.point upload) point := by
    rcases hpoint with hpoint | hpoint
    · exact .inl (hpoint.trans hrunning.symm)
    · exact .inr (.inl hpoint)
  unfold State.accepted at h
  dsimp only at h
  split at h
  · obtain rfl := Option.some.inj h
    exact .goTo (hnext _ (.inl rfl))
  · split at h
    · split at h
      · next receipt _ =>
        split at h
        · cases h
        · split at h
          · obtain rfl := Option.some.inj h
            exact (Moved.setInFlight hrunning false).trans hrunning hrunning
              (.goTo (hnext _ (.inl rfl)))
          · obtain rfl := Option.some.inj h
            have hmoved := (Moved.setInFlight hrunning false).trans hrunning hrunning
              (.goTo (hnext (.recoveringExisting receipt true .reportExists) (.inl rfl)))
            refine hmoved.trans hrunning (stage_goTo _) (.recover (fun _ => ?_) ?_)
            · exact .inl (stage_goTo (.recoveringExisting receipt true .reportExists)).symm
            · exact .inr (.inl rfl)
      · cases h
    · cases h

theorem resume_moved (h : resume c s upload = some s') : Moved s s' upload := by
  have hnext {before : Point} (hp : s.point upload = before) (point : Point)
      (hpoint : Next before point) : Next (s.point upload) point := hp ▸ hpoint
  unfold resume at h
  cases hp : s.point upload with
  | preparing =>
    rw [hp] at h
    dsimp only at h
    split at h
    · split at h
      · obtain rfl := Option.some.inj h
        exact .recover (fun _ => hnext hp _ (.inl rfl)) (hnext hp _ (.inr (.inl rfl)))
      · obtain rfl := Option.some.inj h
        exact .goTo (hnext hp _ (.inr (.inl rfl)))
    · obtain rfl := Option.some.inj h
      exact .goTo (hnext hp _ (.inl rfl))
  | beginning =>
    rw [hp] at h
    dsimp only at h
    split at h
    · next files hfiles =>
      obtain rfl := Option.some.inj h
      have hmoved : Moved s (s.goTo upload .acquiringLease) upload :=
        .goTo (hnext hp _ (.inr (.inr (.inl ⟨rfl, rfl⟩))))
      refine ⟨hmoved.point, hmoved.inFlight, hmoved.committed, fun other hother => ?_⟩
      by_cases hsame : other = upload
      · exact .inr ⟨hsame, hp, Function.update_self ..⟩
      · refine .inl ?_
        unfold FileAttachmentStore.beginStaging at hfiles
        split at hfiles
        · cases hfiles
          exact (FileAttachmentStore.setStaging_other _ _ hsame).symm ▸ hother
        · cases hfiles
    · obtain rfl := Option.some.inj h
      exact .goTo (hnext hp _ (.inr (.inl rfl)))
  | recovering receipt step =>
    rw [hp] at h
    obtain rfl := Option.some.inj h
    exact .recoverStep (fun _ => hnext hp _ (.inl rfl)) (hnext hp _ (.inr (.inl rfl)))
      (hnext hp _ (.inr (.inl rfl)))
  | acquiringLease =>
    rw [hp] at h
    obtain rfl := Option.some.inj h
    exact .goTo (hnext hp _ (.inr (.inr (.inr ⟨rfl, rfl⟩))))
  | receiving received =>
    rw [hp] at h
    dsimp only at h
    split at h
    · obtain rfl := Option.some.inj h
      exact .goTo (hnext hp _ (.inl rfl))
    · cases h
  | validating =>
    rw [hp] at h
    dsimp only at h
    split at h
    · split at h
      · obtain rfl := Option.some.inj h
        have hrunning : stage (s.point upload) = .running := by rw [hp]; rfl
        exact (Moved.setInFlight hrunning true).trans hrunning hrunning
          (.goTo (hnext hp _ (.inl rfl)))
      · cases h
    · cases h
  | accepting =>
    rw [hp] at h
    exact .accepted (by rw [hp]; rfl) h
  | removingOwn receipt =>
    rw [hp] at h
    obtain rfl := Option.some.inj h
    have hmoved : Moved { s with files := s.files.removeStaging upload }
        (State.recover { s with files := s.files.removeStaging upload } upload receipt
          (.recoveringExisting receipt false) (.releasing true)) upload :=
      .recover (fun point => hnext hp (.recoveringExisting receipt false point) (.inl rfl))
        (hnext hp (.releasing true) (.inr (.inl rfl)))
    refine ⟨hmoved.point, hmoved.inFlight, hmoved.committed, fun other hother => .inl ?_⟩
    rcases hmoved.staging other hother with hbefore | ⟨-, hbeginning, -⟩
    · exact setStaging_of_none (fun _ => rfl) hbefore
    · rw [hp] at hbeginning
      cases hbeginning
  | recoveringExisting receipt referenced step =>
    rw [hp] at h
    obtain rfl := Option.some.inj h
    exact .recoverStep (fun _ => hnext hp _ (.inl rfl)) (hnext hp _ (.inr (.inl rfl)))
      (hnext hp _ (.inr (.inl rfl)))
  | finalizing step =>
    rw [hp] at h
    dsimp only at h
    split at h
    · obtain rfl := Option.some.inj h
      exact (Moved.goTo (hnext hp _ (.inr (.inl rfl)))).markReady
    · split at h
      · next step' hfiles =>
        obtain rfl := Option.some.inj h
        exact (Moved.goTo (hnext hp (.finalizing step') (.inl rfl))).withFiles
          (finalizeStep_staging hfiles)
      · obtain rfl := Option.some.inj h
        exact .goTo (hnext hp _ (.inr (.inl rfl)))
  | releasing accepted =>
    rw [hp] at h
    obtain rfl := Option.some.inj h
    refine .goTo (hnext hp _ (.inr (.inl ?_)))
    split <;> rfl
  | abandoning held =>
    rw [hp] at h
    obtain rfl := Option.some.inj h
    exact .of_goTo rfl rfl rfl (fun _ => setStaging_of_none fun _ => rfl)
      (hnext hp _ (.inr (.inl rfl)))
  | finished =>
    rw [hp] at h
    cases h
  | crashed =>
    rw [hp] at h
    cases h

theorem interrupted_moved (h : interrupted s upload = some s') :
    Moved s s' upload ∧ stage (s'.point upload) = .ended := by
  unfold interrupted at h
  cases hp : s.point upload <;> rw [hp] at h <;> dsimp only at h <;> cases h
  case preparing => exact ⟨.goTo (.inr (.inl rfl)), stage_goTo _⟩
  case beginning => exact ⟨.goTo (.inr (.inl rfl)), stage_goTo _⟩
  case recovering => exact ⟨.goTo (.inr (.inl rfl)), stage_goTo _⟩
  case acquiringLease => exact ⟨.goTo (.inr (.inl rfl)), stage_goTo _⟩
  all_goals exact ⟨.dropped (.inr (.inl rfl)), stage_goTo _⟩

/-! ## What steps make of a request -/

/-- What a step does to an upload: its request stays at its stage, is over or goes on by one; only
a request whose deadline runs sends its transaction, and only one that was sent commits. -/
structure Effect (action : Action) (s s' : State) (upload : UploadId) : Prop where
  goes : stage (s'.point upload) = stage (s.point upload) ∨ stage (s'.point upload) = .ended ∨
    action = .resume upload ∧ ((s.point upload = .beginning ∧ s'.point upload = .acquiringLease) ∨
      (s.point upload = .acquiringLease ∧ s'.point upload = .receiving []))
  sends : s'.inFlight upload → s.inFlight upload ∨ stage (s.point upload) = .running
  commits : Committed s' upload → Committed s upload ∨ s.inFlight upload
  directs : s'.files.staging upload ≠ none → s.files.staging upload ≠ none ∨
    action = .resume upload ∧ s.point upload = .beginning ∧ s'.point upload = .acquiringLease

theorem Effect.of_same (hpoint : s'.point = s.point) (hinFlight : s'.inFlight = s.inFlight)
    (hcommitted : ∀ upload, Committed s' upload → Committed s upload)
    (hstaging : ∀ upload, s'.files.staging upload ≠ none → s.files.staging upload ≠ none) :
    Effect action s s' upload where
  goes := .inl (by rw [hpoint])
  sends h := .inl (hinFlight ▸ h)
  commits h := .inl (hcommitted upload h)
  directs h := .inl (hstaging upload h)

theorem Moved.effect {moved : UploadId} (h : Moved s s' moved)
    (haction : action = .resume moved ∨ stage (s'.point moved) = .ended ∨
      stage (s'.point moved) = stage (s.point moved)) : Effect action s s' upload where
  goes := by
    obtain ⟨point, hupdate, hnext⟩ := h.point
    by_cases hmoved : upload = moved
    · subst hmoved
      have hpoint : s'.point upload = point := by rw [hupdate, Function.update_self]
      rcases haction with haction | hover | hsame
      · rw [hpoint]
        rcases hnext with hsame | hover | hleasing | hrunning
        · exact .inl hsame
        · exact .inr (.inl hover)
        · exact .inr (.inr ⟨haction, .inl hleasing⟩)
        · exact .inr (.inr ⟨haction, .inr hrunning⟩)
      · exact .inr (.inl hover)
      · exact .inl hsame
    · exact .inl (by rw [hupdate, Function.update_of_ne hmoved])
  sends hsent := by
    rcases h.inFlight upload hsent with hsent | ⟨rfl, hrunning⟩
    · exact .inl hsent
    · exact .inr hrunning
  commits hcommitted := .inl (h.committed upload hcommitted)
  directs hstaging := by
    rcases h.staging upload hstaging with hbefore | ⟨rfl, hbeginning, hleasing⟩
    · exact .inl hbefore
    · rcases haction with haction | hover | hsame
      · exact .inr ⟨haction, hbeginning, hleasing⟩
      · rw [hleasing] at hover
        cases hover
      · rw [hleasing, hbeginning] at hsame
        cases hsame

theorem Effect.crash : Effect .crash s { s with
    point := fun upload => (s.point upload).afterCrash
    removal := fun _ => false
    recovery := fun _ => .idle } upload where
  goes := .inr (.inl (by cases hp : s.point upload <;> simp only [hp, Point.afterCrash] <;> rfl))
  sends := .inl
  commits := .inl
  directs := .inl

theorem recoverPendingStorage_effect (run : ℕ) :
    Effect action s (recoverPendingStorage s run) upload := by
  unfold recoverPendingStorage
  split
  · exact .of_same rfl rfl (fun _ h => h) fun _ h => h
  · split
    · exact .of_same rfl rfl (fun _ h => committed_markStorageReady h) fun _ h => h
    · split
      · next hfiles => exact .of_same rfl rfl (fun _ h => h) (finalizeStep_staging hfiles)
      · exact .of_same rfl rfl (fun _ h => h) fun _ h => h

theorem unsent_inFlight {other : UploadId} (h : (s.setInFlight upload false).inFlight other) :
    s.inFlight other := by
  have h : Function.update s.inFlight upload false other := h
  by_cases hother : other = upload
  · rw [hother, Function.update_self] at h
    cases h
  · rwa [Function.update_of_ne hother] at h

theorem step_effect (h : step c s action = some s') (upload : UploadId) :
    Effect action s s' upload := by
  cases action with
  | resume moved => exact (resume_moved h).effect (.inl rfl)
  | receive moved file =>
    unfold step at h
    dsimp only at h
    split at h
    · next received hp =>
      split at h
      · obtain rfl := Option.some.inj h
        have hstage : stage (s.point moved) = .running := by rw [hp]; rfl
        have hmoved : Moved s (s.goTo moved (.receiving (received ++ [file]))) moved :=
          .goTo (.inl hstage.symm)
        have hfiles (other : UploadId) :
            (s.files.writeStaged moved file).staging other ≠ none → s.files.staging other ≠ none :=
          setStaging_of_none fun hnone => by rw [hnone]; rfl
        exact (hmoved.withFiles hfiles).effect (.inr (.inr ((stage_goTo _).trans hstage.symm)))
      · cases h
    · cases h
  | fail moved =>
    obtain ⟨hmoved, hover⟩ := interrupted_moved h
    exact hmoved.effect (.inr (.inl hover))
  | deadline moved =>
    unfold step at h
    dsimp only at h
    split at h
    · obtain ⟨hmoved, hover⟩ := interrupted_moved h
      exact hmoved.effect (.inr (.inl hover))
    · cases h
  | cancel moved =>
    unfold step at h
    dsimp only at h
    split at h
    · cases h
    · obtain rfl := Option.some.inj h
      exact (Moved.dropped (.inr (.inl rfl))).effect (.inr (.inl (stage_goTo _)))
  | commit moved =>
    unfold step at h
    dsimp only at h
    split at h
    · next hsent =>
      obtain rfl := Option.some.inj h
      refine ⟨.inl rfl, fun hother => .inl (unsent_inFlight hother), fun hcommitted => ?_, .inl⟩
      obtain ⟨row, hrow, hid⟩ := hcommitted
      rcases List.mem_append.mp hrow with hrow | hrow
      · exact .inl ⟨row, hrow, hid⟩
      · obtain rfl := List.mem_singleton.mp hrow
        exact .inr (hid ▸ hsent.1)
    · cases h
  | rollback moved =>
    unfold step at h
    dsimp only at h
    split at h
    · obtain rfl := Option.some.inj h
      exact ⟨.inl rfl, fun hother => .inl (unsent_inFlight hother), .inl, .inl⟩
    · cases h
  | unlink moved file =>
    unfold step at h
    dsimp only at h
    split at h
    · obtain rfl := Option.some.inj h
      exact .of_same rfl rfl (fun _ h => h) fun _ => setStaging_of_none fun hnone => by
        rw [hnone]; rfl
    · cases h
  | removed moved =>
    unfold step at h
    dsimp only at h
    split at h
    · obtain rfl := Option.some.inj h
      exact .of_same rfl rfl (fun _ h => h) fun _ => setStaging_of_none fun _ => rfl
    · cases h
  | crash =>
    obtain rfl := Option.some.inj h
    exact .crash
  | recover run =>
    obtain rfl := Option.some.inj h
    exact recoverPendingStorage_effect run
  | recoverFail run =>
    obtain rfl := Option.some.inj h
    exact .of_same rfl rfl (fun _ h => h) fun _ h => h

theorem step_over (h : step c s action = some s') (hover : Over s upload) : Over s' upload := by
  obtain ⟨hstage, hsent⟩ := hover
  constructor
  · rcases (step_effect h upload).goes with hsame | hover | ⟨-, ⟨hp, -⟩ | ⟨hp, -⟩⟩
    · exact hsame.trans hstage
    · exact hover
    · rw [hp] at hstage
      cases hstage
    · rw [hp] at hstage
      cases hstage
  · by_contra hnot
    rcases (step_effect h upload).sends (eq_true_of_ne_false hnot) with hsent' | hrunning
    · rw [hsent] at hsent'
      cases hsent'
    · rw [hstage] at hrunning
      cases hrunning

theorem step_not_committed (h : step c s action = some s') (hover : Over s upload)
    (hcommitted : ¬ Committed s upload) : ¬ Committed s' upload := by
  intro hcommitted'
  rcases (step_effect h upload).commits hcommitted' with hbefore | hsent
  · exact hcommitted hbefore
  · rw [hover.2] at hsent
    cases hsent

/-- What is removed of an upload that is over and not committed is nobody's. -/
theorem inv_of_removeOver (h : Inv c s) (hover : Over s upload) (hcommitted : ¬ Committed s upload)
    (staging : Option Directory) :
    Inv c { s with files := s.files.setStaging upload staging } := by
  refine h.change upload (fun other ho => ?_) ?_ (fun _ _ hk => hk) (h.receipt upload) h.recovery
  · simp [State.view, FileAttachmentStore.setStaging_other _ _ ho]
  · obtain ⟨-, hreport, -, -, hat⟩ := h.upload upload
    obtain ⟨hstage, hsent⟩ := hover
    have hremoval (hp : s.point upload = .crashed) : s.removal upload = false := by
      simp only [View.AtPoint, State.view, hp] at hat
      exact hat.1
    have hrows : (s.view c upload).rows = [] := (view_rows_eq_nil c).mpr hcommitted
    refine ⟨fun row hrow => ?_, hreport, fun _ => hrows, fun _ hne => absurd hrows hne, ?_⟩
    · have hrow : row ∈ (s.view c upload).rows := hrow
      rw [hrows] at hrow
      cases hrow
    · simp only [View.AtPoint, State.view]
      cases hp : s.point upload with
      | releasing | abandoning | finished => trivial
      | crashed => exact ⟨hremoval hp, fun h => absurd (hsent.symm.trans h) Bool.false_ne_true⟩
      | _ =>
        rw [hp] at hstage
        cases hstage

end

end LadybirdReports.Ingestion.StagingSweep
