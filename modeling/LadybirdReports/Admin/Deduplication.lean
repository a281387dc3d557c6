import LadybirdReports.Admin.IndexedSignatures

/-!
# Crashes that are silenced

The notification of a report is dropped if a report with its signature came at most five minutes
before, as far as signatures are stored when the report is matched. That depends on the order in
which the reports of a crash are indexed, so that a report is sure to be notified of only if no
order makes all of them drop theirs.

1. What is stored for one report changes nothing else of the crash (`Indexed`).
2. A report drops its notification only if one with a signature came shortly before it
   (`store_crash`), so that one that no chain of such reports leads to keeps it (`exists_kept`).
3. Where chains lead to all of them, they are indexed along these (`exists_silent_run`).
-/

namespace LadybirdReports.Admin

open Ingestion (StoredAttachment Submission Tables)
open Rust Transition

/-! ## One report -/

namespace Database

variable {version : ℕ} {db db' : Database} {trace : PendingStackTrace} {fingerprint : String}
  {now : Timestamp}

/-- The report has the signature, at this version. -/
def HasSignature (db : Database) (version : ℕ) (report : ReportId) (fingerprint : String) : Prop :=
  ∃ s ∈ db.signatures, s.reportId = report ∧ s.algorithmVersion = version ∧
    s.fingerprint = some fingerprint

theorem mem_reportsWithSignatureAt {r : Report} :
    r ∈ db.reportsWithSignatureAt version trace fingerprint ↔
      r ∈ db.reports ∧ r.id ≠ trace.reportId ∧ r.kind = trace.kind ∧ r.ready = true ∧
        db.HasSignature version r.id fingerprint := by
  unfold reportsWithSignatureAt HasSignature
  simp only [List.mem_filter, Bool.and_eq_true, decide_eq_true_eq, List.any_eq_true, and_assoc]

variable (version trace) in
theorem hasSignature_upsert {report : ReportId} (hne : report ≠ trace.reportId) :
    (db.upsertSignatureAt version trace).HasSignature version report fingerprint ↔
      db.HasSignature version report fingerprint := by
  unfold HasSignature
  simp only [mem_upsertSignatureAt]
  constructor
  · rintro ⟨s, ⟨hs, -⟩ | ⟨hid, -⟩, hreport, hrow⟩
    · exact ⟨s, hs, hreport, hrow⟩
    · exact absurd (hreport.symm.trans hid) hne
  · rintro ⟨s, hs, hreport, hrow⟩
    exact ⟨s, .inl ⟨hs, fun h => hne (hreport.symm.trans h)⟩, hreport, hrow⟩

/-- A report with the signature came at most five minutes before. -/
theorem recentDuplicateAt_iff :
    (db.upsertSignatureAt version trace).recentDuplicateAt version trace fingerprint = true ↔
      ∃ s ∈ db.reports, s.id ≠ trace.reportId ∧ s.kind = trace.kind ∧ s.ready = true ∧
        db.HasSignature version s.id fingerprint ∧ s.state ≠ .rejected ∧
        ∃ r ∈ db.reports, r.id = trace.reportId ∧ r.createdAt - recentTime ≤ s.createdAt ∧
          s.createdAt ≤ r.createdAt := by
  unfold recentDuplicateAt
  simp only [List.any_eq_true, mem_reportsWithSignatureAt, upsertSignatureAt_reports,
    Bool.and_eq_true, decide_eq_true_eq, and_assoc]
  constructor
  · rintro ⟨s, hs, hne, hkind, hready, hsigned, hrest⟩
    exact ⟨s, hs, hne, hkind, hready, (hasSignature_upsert version trace hne).mp hsigned, hrest⟩
  · rintro ⟨s, hs, hne, hkind, hready, hsigned, hrest⟩
    exact ⟨s, hs, hne, hkind, hready, (hasSignature_upsert version trace hne).mpr hsigned, hrest⟩

/-- With no issue to match, the report stays as it is, and drops its notification if one like it
came shortly before. -/
theorem matchIndexedReportAt_of_no_issue
    (h : db.matchingIssuesAt version trace fingerprint = []) :
    db.matchIndexedReportAt version trace fingerprint =
      .ok (if db.recentDuplicateAt version trace fingerprint
        then db.deleteNotification trace.reportId else db) := by
  unfold matchIndexedReportAt
  rw [h]

theorem matchingIssuesAt_upsert_eq_nil
    (h : ∀ s ∈ db.reports, s.kind = trace.kind → db.HasSignature version s.id fingerprint →
      ∀ i ∈ db.issues, i.active = true → i.resolvedAt = none → i.githubState = .open →
        ¬(s.state = .confirmed ∧ s.issueId = some i.id)) :
    (db.upsertSignatureAt version trace).matchingIssuesAt version trace fingerprint = [] := by
  unfold matchingIssuesAt
  rw [List.filter_eq_nil_iff, upsertSignatureAt_issues]
  intro i hi hmatch
  simp only [Bool.and_eq_true, decide_eq_true_eq, Option.isNone_iff_eq_none, List.any_eq_true,
    mem_reportsWithSignatureAt, upsertSignatureAt_reports] at hmatch
  obtain ⟨⟨⟨hactive, hresolved⟩, hopen⟩, s, ⟨hs, hne, hkind, -, hsigned⟩, hlinked⟩ := hmatch
  exact h s hs hkind ((hasSignature_upsert version trace hne).mp hsigned) i hi hactive hresolved
    hopen hlinked

/-- The notification of the report is still to be sent. -/
def Pending (db : Database) (report : ReportId) : Prop :=
  ∃ n ∈ db.notifications, n.reportId = report

theorem pending_deleteNotification {report other : ReportId} (hother : other ≠ report)
    (h : db.Pending other) : (db.deleteNotification report).Pending other :=
  let ⟨n, hn, hid⟩ := h
  ⟨n, List.mem_filter.mpr ⟨hn, decide_eq_true (hid.trans_ne hother)⟩, hid⟩

theorem not_pending_deleteNotification (report : ReportId) :
    ¬(db.deleteNotification report).Pending report := by
  rintro ⟨n, hn, hid⟩
  exact of_decide_eq_true (List.mem_filter.mp hn).2 hid

theorem notifications_of_match (h : db.matchIndexedReportAt version trace fingerprint = .ok db') :
    db'.notifications = db.notifications ∨
      db'.notifications = (db.deleteNotification trace.reportId).notifications := by
  unfold matchIndexedReportAt at h
  split at h
  · obtain ⟨db₁, h₁, h⟩ := bind_eq_ok.mp h
    obtain rfl := pure_eq_ok.mp h
    unfold assignMatch at h₁
    obtain ⟨db₂, h₂, h₁⟩ := bind_eq_ok.mp h₁
    obtain rfl := pure_eq_ok.mp h₁
    obtain rfl := updateReports_eq_ok h₂
    exact .inr rfl
  · obtain rfl := Except.ok.inj h
    exact .inl rfl
  · obtain rfl := Except.ok.inj h
    split
    · exact .inr rfl
    · exact .inl rfl

/-- Storing a signature takes the notification of the report at most. -/
theorem Stored.notifications (h : Stored version db trace now db') :
    db'.notifications = db.notifications ∨
      db'.notifications = (db.deleteNotification trace.reportId).notifications := by
  cases h with
  | again => exact .inl upsertSignatureAt_notifications
  | unmatchable => exact .inl upsertSignatureAt_notifications
  | tried unmarked eligible fingerprint signed db₁ tried =>
    have hmatch := notifications_of_match tried
    unfold deleteNotification at hmatch
    rwa [upsertSignatureAt_notifications] at hmatch

theorem Stored.pending (h : Stored version db trace now db') {report : ReportId}
    (hother : report ≠ trace.reportId) (hpending : db.Pending report) : db'.Pending report := by
  unfold Pending
  rcases h.notifications with hsame | hdeleted
  · rwa [hsame]
  · rw [hdeleted]
    exact pending_deleteNotification hother hpending

theorem Stored.pending_of_pending (h : Stored version db trace now db') {report : ReportId}
    (hpending : db'.Pending report) : db.Pending report := by
  obtain ⟨n, hn, hid⟩ := hpending
  rcases h.notifications with hsame | hdeleted
  · exact ⟨n, hsame ▸ hn, hid⟩
  · rw [hdeleted] at hn
    exact ⟨n, List.mem_of_mem_filter hn, hid⟩

theorem Stored.issues (h : Stored version db trace now db') : db'.issues = db.issues := by
  cases h with
  | again => exact upsertSignatureAt_issues
  | unmatchable => exact upsertSignatureAt_issues
  | tried unmarked eligible fingerprint signed db₁ tried =>
    exact (matchIndexedReportAt_eq_ok tried).2.1.trans upsertSignatureAt_issues

/-- A report that was matched before keeps its notification. -/
theorem Stored.pending_of_marked (h : Stored version db trace now db') {time : Timestamp}
    (hmarked : db.Marked trace.reportId time) {report : ReportId} (hpending : db.Pending report) :
    db'.Pending report := by
  cases h with
  | again =>
    unfold Pending
    rwa [upsertSignatureAt_notifications]
  | unmatchable unmarked => exact absurd hmarked (unmarked time)
  | tried unmarked => exact absurd hmarked (unmarked time)

theorem Stored.marked_of_other (h : Stored version db trace now db') {report : ReportId}
    (hother : report ≠ trace.reportId) {time : Timestamp} (hmarked : db'.Marked report time) :
    db.Marked report time := by
  obtain ⟨s, hs, hid, htime⟩ := hmarked
  rcases h.signatures hs with ⟨hold, -⟩ | ⟨hsame, -⟩
  · exact ⟨s, hold, hid, htime⟩
  · exact absurd (hid.symm.trans hsame) hother

theorem Stored.hasSignature_other (h : Stored version db trace now db') {report : ReportId}
    (hother : report ≠ trace.reportId) (hsigned : db.HasSignature version report fingerprint) :
    db'.HasSignature version report fingerprint := by
  have hupsert := (hasSignature_upsert version trace hother).mpr hsigned
  have hmark : ∀ {db₁ : Database},
      db₁.signatures = (db.upsertSignatureAt version trace).signatures →
      (db₁.markMatched trace.reportId now).HasSignature version report fingerprint := by
    intro db₁ hsame
    obtain ⟨s, hs, hid, hrow⟩ := hupsert
    refine ⟨s, List.mem_map.mpr ⟨s, hsame ▸ hs, if_neg ?_⟩, hid, hrow⟩
    exact fun heq => hother (hid.symm.trans heq)
  cases h with
  | again => exact hupsert
  | unmatchable => exact hmark rfl
  | tried unmarked eligible fingerprint signed db₁ tried =>
    exact hmark (matchIndexedReportAt_eq_ok tried).1

/-- The report that was indexed has the signature of its trace. -/
theorem Stored.hasSignature (h : Stored version db trace now db')
    (hsigned : trace.fingerprint = some fingerprint) :
    db'.HasSignature version trace.reportId fingerprint := by
  obtain ⟨time, s, hs, hid, -⟩ := h.exists_marked
  rcases h.signatures hs with ⟨-, hne⟩ | ⟨-, hversion, hfingerprint⟩
  · exact absurd hid hne
  · exact ⟨s, hs, hid, hversion, hfingerprint.trans hsigned⟩

/-- With no issue to match, a report that was not matched before drops its notification exactly if
one with its signature came at most five minutes before. -/
theorem Stored.of_no_issue (h : Stored version db trace now db')
    (hunmarked : ∀ time, ¬db.Marked trace.reportId time)
    (heligible : trace.autoMatchEligible = true) (hsigned : trace.fingerprint = some fingerprint)
    (hissues :
      (db.upsertSignatureAt version trace).matchingIssuesAt version trace fingerprint = []) :
    db' = (if (db.upsertSignatureAt version trace).recentDuplicateAt version trace fingerprint
      then (db.upsertSignatureAt version trace).deleteNotification trace.reportId
      else db.upsertSignatureAt version trace).markMatched trace.reportId now := by
  cases h with
  | again time marked => exact absurd marked (hunmarked time)
  | unmatchable unmarked none =>
    rcases none with hnot | hnone
    · rw [heligible] at hnot
      cases hnot
    · rw [hsigned] at hnone
      cases hnone
  | tried unmarked eligible fingerprint' signed db₁ tried =>
    obtain rfl := Option.some.inj (hsigned.symm.trans signed)
    rw [matchIndexedReportAt_of_no_issue hissues] at tried
    rw [Except.ok.inj tried]

theorem exists_store_of_no_issue (hreport : ∃ r ∈ db.reports, r.id = trace.reportId)
    (hsigned : trace.fingerprint = some fingerprint) (hdigest : isHexDigest fingerprint = true)
    (hissues : (db.upsertSignatureAt version trace).matchingIssuesAt version trace fingerprint = [])
    (now : Timestamp) : ∃ db', db.storeStackSignatureAt version trace now = .ok db' := by
  obtain ⟨r, hr, hid⟩ := hreport
  have hany : db.reports.any (·.id = trace.reportId) = true :=
    List.any_eq_true.mpr ⟨r, hr, decide_eq_true hid⟩
  unfold storeStackSignatureAt
  dsimp only
  rw [hany, hsigned, Option.all_some, hdigest]
  simp only [ensure, if_true, ok_bind]
  split_ifs
  · exact ⟨_, rfl⟩
  · cases trace.autoMatchEligible with
    | false => exact ⟨_, rfl⟩
    | true =>
      dsimp only
      rw [matchIndexedReportAt_of_no_issue hissues]
      exact ⟨_, rfl⟩

end Database

namespace Indexing

/-! ## A crash -/

section

variable (u : Unicode) (sha256 : List UInt8 → Str) (numberText : JsonNumber → Str) (w : Indexing)
  (kind : ReportKind) (fingerprint : String)

/-- The reports of a crash: those of the kind whose traces have the fingerprint. -/
def crashes : List Report :=
  w.tables.database.reports.filter fun r => r.kind = kind &&
    (w.trace? u sha256 numberText r).any (·.fingerprint = some fingerprint)

/-- No report of the crash was indexed yet, and there is no issue that they match. -/
structure Unindexed : Prop where
  digest : isHexDigest fingerprint = true
  reportIds : (w.tables.database.reports.map (·.id)).Nodup
  idle : w.work = []
  eligible : ∀ r ∈ w.crashes u sha256 numberText kind fingerprint,
    r.ready = true ∧ r.state ≠ .rejected ∧ r.autoMatchEligible = true
  pending : ∀ r ∈ w.crashes u sha256 numberText kind fingerprint, w.tables.database.Pending r.id
  unmarked : ∀ r ∈ w.crashes u sha256 numberText kind fingerprint,
    ∀ time, ¬w.tables.database.Marked r.id time
  unmatched : ∀ r ∈ w.tables.database.reports, r.kind = kind →
    r ∈ w.crashes u sha256 numberText kind fingerprint ∨
      w.tables.database.HasSignature w.version r.id fingerprint →
    ∀ i ∈ w.tables.database.issues, i.active = true → i.resolvedAt = none → i.githubState = .open →
      ¬(r.state = .confirmed ∧ r.issueId = some i.id)

/-- The one came at most five minutes before the other, or at the same time. -/
def Near (s r : Report) : Prop :=
  s.id ≠ r.id ∧ r.createdAt - recentTime ≤ s.createdAt ∧ s.createdAt ≤ r.createdAt

/-- A report that a report of the crash may be silenced by, as soon as it has the signature. -/
def Silences (s r : Report) : Prop :=
  r ∈ w.crashes u sha256 numberText kind fingerprint ∧ Near s r

/-- The report has the signature before any report of the crash is indexed: it was accepted with
it. -/
structure Presigned (s : Report) : Prop where
  mem : s ∈ w.tables.database.reports
  kind : s.kind = kind
  ready : s.ready = true
  state : s.state ≠ .rejected
  signed : w.tables.database.HasSignature w.version s.id fingerprint

/-- A chain of reports leads to the report from one that has the signature already, each at most
five minutes after the one before. -/
def Reached (r : Report) : Prop :=
  ∃ s, w.Presigned kind fingerprint s ∧
    Relation.TransGen (w.Silences u sha256 numberText kind fingerprint) s r

/-- What the indexing runs of the present release do. -/
def Indexes (w : Indexing) : Label → Prop
  | .read | .giveUp => True
  | .store item => item.version = w.version
  | _ => False

abbrev IndexingStep := Where Indexes (Step u sha256 numberText)

/-- What indexing keeps of the crash. -/
structure Indexed (v : Indexing) : Prop where
  definitions : v.definitions = w.definitions
  version : v.version = w.version
  fields : v.tables.fields = w.tables.fields
  issues : v.tables.database.issues = w.tables.database.issues
  reports : ∃ g : Report → Report, (∀ r, ∃ o s f, g r = r.put o s f) ∧
    v.tables.database.reports = w.tables.database.reports.map g
  kept : ∀ r ∈ w.crashes u sha256 numberText kind fingerprint, r ∈ v.tables.database.reports
  work : ∀ item ∈ v.work, item.version = w.version →
    ∃ r ∈ w.tables.database.reports, w.trace? u sha256 numberText r = some item.trace
  signed : ∀ s ∈ v.tables.database.reports, s.kind = kind →
    v.tables.database.HasSignature w.version s.id fingerprint →
      s ∈ w.tables.database.reports ∧
        (w.tables.database.HasSignature w.version s.id fingerprint ∨
          s ∈ w.crashes u sha256 numberText kind fingerprint ∧
            ∃ time, v.tables.database.Marked s.id time)

end

section

variable {u : Unicode} {sha256 : List UInt8 → Str} {numberText : JsonNumber → Str}
  {w v v' : Indexing} {kind : ReportKind} {fingerprint : String} {r : Report}

theorem mem_crashes : r ∈ w.crashes u sha256 numberText kind fingerprint ↔
    r ∈ w.tables.database.reports ∧ r.kind = kind ∧
      ∃ trace, w.trace? u sha256 numberText r = some trace ∧
        trace.fingerprint = some fingerprint := by
  unfold crashes
  simp only [List.mem_filter, Bool.and_eq_true, decide_eq_true_eq, Option.any_eq_true]

theorem trace?_eq_some {trace : PendingStackTrace}
    (h : w.trace? u sha256 numberText r = some trace) :
    trace.reportId = r.id ∧ trace.kind = r.kind ∧
      trace.autoMatchEligible = r.autoMatchEligible := by
  unfold trace? at h
  split at h
  · cases h
    exact ⟨rfl, rfl, rfl⟩
  · cases h

namespace Indexed

theorem start (hw : w.Unindexed u sha256 numberText kind fingerprint) :
    Indexed u sha256 numberText w kind fingerprint w := by
  refine ⟨rfl, rfl, rfl, rfl, ⟨id, fun r => ⟨_, _, _, (put_self r).symm⟩, (List.map_id _).symm⟩,
    fun r hr => (mem_crashes.mp hr).1, fun item hi => ?_, fun s hs _ hsigned => ⟨hs, .inl hsigned⟩⟩
  rw [hw.idle] at hi
  cases hi

theorem trace?_eq (h : Indexed u sha256 numberText w kind fingerprint v) (r : Report) :
    v.trace? u sha256 numberText r = w.trace? u sha256 numberText r := by
  refine trace?_congr rfl rfl rfl ?_
  unfold fieldsOf
  rw [h.fields, h.definitions]

theorem nodup (h : Indexed u sha256 numberText w kind fingerprint v)
    (hw : w.Unindexed u sha256 numberText kind fingerprint) :
    (v.tables.database.reports.map (·.id)).Nodup := by
  obtain ⟨g, hg, hreports⟩ := h.reports
  rw [hreports, Database.map_id_of_put hg]
  exact hw.reportIds

/-- No issue is matched by a report of the crash. -/
theorem matchingIssues_eq_nil (h : Indexed u sha256 numberText w kind fingerprint v)
    (hw : w.Unindexed u sha256 numberText kind fingerprint) {trace : PendingStackTrace}
    (hkind : trace.kind = kind) :
    (v.tables.database.upsertSignatureAt w.version trace).matchingIssuesAt w.version trace
      fingerprint = [] := by
  refine Database.matchingIssuesAt_upsert_eq_nil fun s hs hskind hsigned i hi => ?_
  obtain ⟨hmem, hcase⟩ := h.signed s hs (hskind.trans hkind) hsigned
  rw [h.issues] at hi
  exact hw.unmatched s hmem (hskind.trans hkind) (hcase.symm.imp_left And.left) i hi

/-- Storing a signature moves no report of the crash. -/
theorem kept_of_store (h : Indexed u sha256 numberText w kind fingerprint v)
    (hw : w.Unindexed u sha256 numberText kind fingerprint) {trace : PendingStackTrace}
    {now : Timestamp} {db : Database} {x : Report} (hx : x ∈ w.tables.database.reports)
    (htrace : w.trace? u sha256 numberText x = some trace)
    (hstored : Database.Stored w.version v.tables.database trace now db)
    (hr : r ∈ w.crashes u sha256 numberText kind fingerprint) : r ∈ db.reports := by
  obtain ⟨hid, hkind, heligible⟩ := trace?_eq_some htrace
  obtain ⟨g, hg, hreports, hkeep⟩ := hstored.reports
  by_cases hrid : r.id = trace.reportId
  · by_cases hmarked : ∃ time, v.tables.database.Marked trace.reportId time
    · rw [hreports, hkeep hmarked, List.map_id]
      exact h.kept r hr
    · obtain ⟨hrmem, hrkind, trace', htrace', hsigned⟩ := mem_crashes.mp hr
      obtain rfl := List.inj_on_of_nodup_map hw.reportIds hrmem hx (hrid.trans hid)
      obtain rfl := Option.some.inj (htrace.symm.trans htrace')
      have hdb := hstored.of_no_issue (fun time ht => hmarked ⟨time, ht⟩)
        (heligible.trans (hw.eligible r hr).2.2) hsigned
        (h.matchingIssues_eq_nil hw (hkind.trans hrkind))
      have hsame : db.reports = v.tables.database.reports := by
        rw [hdb]
        unfold Database.markMatched Database.deleteNotification
        split <;> exact Database.upsertSignatureAt_reports
      rw [hsame]
      exact h.kept r hr
  · rw [hreports]
    exact List.mem_map.mpr ⟨r, h.kept r hr, hg.others r hrid⟩

theorem step {l : Label} (h : Indexed u sha256 numberText w kind fingerprint v)
    (hw : w.Unindexed u sha256 numberText kind fingerprint)
    (hstep : IndexingStep u sha256 numberText v l v') :
    Indexed u sha256 numberText w kind fingerprint v' := by
  obtain ⟨hindexes, hstep⟩ := hstep
  cases hstep with
  | read version report limit hversion =>
    refine { h with work := fun item hi hpresent => ?_ }
    rcases List.mem_append.mp hi with hi | hi
    · exact h.work item hi hpresent
    · obtain ⟨trace, htrace, rfl⟩ := List.mem_map.mp hi
      obtain ⟨r', hr', htrace⟩ := mem_stackTracesToIndex htrace
      obtain ⟨g, hg, hreports⟩ := h.reports
      rw [hreports] at hr'
      obtain ⟨r, hr, rfl⟩ := List.mem_map.mp hr'
      obtain ⟨o, s, f, heq⟩ := hg r
      refine ⟨r, hr, ?_⟩
      rw [← htrace, h.trace?_eq, heq]
      exact (trace?_congr rfl rfl rfl rfl).symm
  | giveUp item => exact { h with work := fun item hi => h.work item (List.mem_of_mem_erase hi) }
  | store item now db hitem hstore =>
    have hversion : item.version = w.version := hindexes.trans h.version
    obtain ⟨x, hx, htrace⟩ := h.work item hitem hversion
    obtain ⟨hid, hkind, heligible⟩ := trace?_eq_some htrace
    rw [hversion] at hstore
    have hstored := Database.stored_of_ok hstore
    obtain ⟨g', hg', hreports', -⟩ := hstored.reports
    have hkept := fun r hr => h.kept_of_store (r := r) hw hx htrace hstored hr
    refine ⟨h.definitions, h.version, h.fields, hstored.issues.trans h.issues, ?_, hkept,
      fun item hi => h.work item (List.mem_of_mem_erase hi), fun s' hs' hskind hsigned => ?_⟩
    · obtain ⟨g, hg, hreports⟩ := h.reports
      refine ⟨g' ∘ g, fun r => ?_, ?_⟩
      · obtain ⟨o, s, f, heq⟩ := hg r
        obtain ⟨o', s', f', heq'⟩ := hg'.put (g r)
        refine ⟨o', s', f', ?_⟩
        rw [Function.comp_apply, heq', heq]
        rfl
      · exact hreports'.trans (by rw [hreports, List.map_map])
    · obtain ⟨o, ho, hoid, hoversion, hofingerprint⟩ := hsigned
      rcases hstored.signatures ho with ⟨hold, hne⟩ | ⟨hoid', -, hfingerprint⟩
      · have hs : s' ∈ v.tables.database.reports := by
          rw [hreports'] at hs'
          obtain ⟨s, hs, rfl⟩ := List.mem_map.mp hs'
          obtain ⟨o', t, f, heq⟩ := hg'.put s
          have hsid : (g' s).id = s.id := by
            rw [heq]
            rfl
          rwa [hg'.others s fun hsame => hne (hoid.trans (hsid.trans hsame))]
        obtain ⟨hmem, hcase⟩ := h.signed s' hs hskind ⟨o, hold, hoid, hoversion, hofingerprint⟩
        exact ⟨hmem, hcase.imp_right fun ⟨hcrash, time, hmarked⟩ =>
          ⟨hcrash, time, hstored.marked hmarked⟩⟩
      · have hsid : s'.id = x.id := hoid.symm.trans (hoid'.trans hid)
        obtain ⟨g, hg, hreports⟩ := h.reports
        have hxkind : x.kind = kind := by
          rw [hreports', hreports] at hs'
          obtain ⟨s, hs, rfl⟩ := List.mem_map.mp hs'
          obtain ⟨r, hr, rfl⟩ := List.mem_map.mp hs
          obtain ⟨o₁, t₁, f₁, heq₁⟩ := hg r
          obtain ⟨o₂, t₂, f₂, heq₂⟩ := hg'.put (g r)
          rw [heq₂, heq₁] at hsid hskind
          exact (congrArg Report.kind (List.inj_on_of_nodup_map hw.reportIds hr hx hsid)).symm.trans
            hskind
        have hcrash : x ∈ w.crashes u sha256 numberText kind fingerprint :=
          mem_crashes.mpr ⟨hx, hxkind, item.trace, htrace, hfingerprint.symm.trans hofingerprint⟩
        have hids : (db.reports.map (·.id)).Nodup := by
          rw [hreports', Database.map_id_of_put hg'.put]
          exact h.nodup hw
        obtain rfl := List.inj_on_of_nodup_map hids hs' (hkept x hcrash) hsid
        obtain ⟨time, hmarked⟩ := hstored.exists_marked
        exact ⟨hx, .inr ⟨hcrash, time, hid ▸ hmarked⟩⟩
  | _ => exact absurd hindexes not_false

/-- When a report of the crash is matched, it drops its notification exactly if a report with the
signature came at most five minutes before. -/
theorem pending_iff (h : Indexed u sha256 numberText w kind fingerprint v)
    (hw : w.Unindexed u sha256 numberText kind fingerprint) {trace : PendingStackTrace}
    {now : Timestamp} {db : Database} {x : Report}
    (hx : x ∈ w.crashes u sha256 numberText kind fingerprint)
    (htrace : w.trace? u sha256 numberText x = some trace)
    (hstored : Database.Stored w.version v.tables.database trace now db)
    (hunmarked : ∀ time, ¬v.tables.database.Marked x.id time) :
    db.Pending x.id ↔ v.tables.database.Pending x.id ∧
      ¬∃ s ∈ v.tables.database.reports, s.kind = kind ∧ s.ready = true ∧ s.state ≠ .rejected ∧
        v.tables.database.HasSignature w.version s.id fingerprint ∧ Near s x := by
  obtain ⟨hid, hkind, heligible⟩ := trace?_eq_some htrace
  obtain ⟨hxmem, hxkind, trace', htrace', hsigned⟩ := mem_crashes.mp hx
  obtain rfl := Option.some.inj (htrace.symm.trans htrace')
  have hdb := hstored.of_no_issue (hid ▸ hunmarked) (heligible.trans (hw.eligible x hx).2.2) hsigned
    (h.matchingIssues_eq_nil hw (hkind.trans hxkind))
  have hrecent : (v.tables.database.upsertSignatureAt w.version trace).recentDuplicateAt w.version
      trace fingerprint = true ↔
      ∃ s ∈ v.tables.database.reports, s.kind = kind ∧ s.ready = true ∧ s.state ≠ .rejected ∧
        v.tables.database.HasSignature w.version s.id fingerprint ∧ Near s x := by
    rw [Database.recentDuplicateAt_iff, hid, hkind, hxkind]
    constructor
    · rintro ⟨s, hs, hne, hskind, hready, hrow, hstate, r, hr, hrid, hfrom, hto⟩
      obtain rfl := List.inj_on_of_nodup_map (h.nodup hw) hr (h.kept x hx) hrid
      exact ⟨s, hs, hskind, hready, hstate, hrow, hne, hfrom, hto⟩
    · rintro ⟨s, hs, hskind, hready, hstate, hrow, hne, hfrom, hto⟩
      exact ⟨s, hs, hne, hskind, hready, hrow, hstate, x, h.kept x hx, rfl, hfrom, hto⟩
  rw [← hrecent, hdb, hid]
  unfold Database.markMatched
  by_cases hdup : (v.tables.database.upsertSignatureAt w.version trace).recentDuplicateAt w.version
      trace fingerprint = true
  · rw [if_pos hdup]
    constructor
    · exact fun hpending => absurd hpending (Database.not_pending_deleteNotification _)
    · exact fun ⟨_, hnot⟩ => absurd hdup hnot
  · rw [if_neg hdup]
    unfold Database.Pending
    rw [Database.upsertSignatureAt_notifications]
    exact ⟨fun hpending => ⟨hpending, hdup⟩, fun hpending => hpending.1⟩

end Indexed

theorem Reached.exists_near (h : w.Reached u sha256 numberText kind fingerprint r) :
    ∃ s ∈ w.tables.database.reports, Near s r := by
  obtain ⟨p, hp, hchain⟩ := h
  cases hchain with
  | single h => exact ⟨p, hp.mem, h.2⟩
  | @tail b _ hchain h =>
    refine ⟨b, ?_, h.2⟩
    cases hchain with
    | single h => exact (mem_crashes.mp h.1).1
    | tail _ h => exact (mem_crashes.mp h.1).1

/-! ## A report that keeps its notification -/

/-- The reports that no chain leads to are as they were, or one of them was matched and kept its
notification. -/
def Kept (u : Unicode) (sha256 : List UInt8 → Str) (numberText : JsonNumber → Str) (w : Indexing)
    (kind : ReportKind) (fingerprint : String) (v : Indexing) : Prop :=
  (∀ r ∈ w.crashes u sha256 numberText kind fingerprint,
    ¬w.Reached u sha256 numberText kind fingerprint r →
      (∀ time, ¬v.tables.database.Marked r.id time) ∧ v.tables.database.Pending r.id) ∨
  ∃ r ∈ w.crashes u sha256 numberText kind fingerprint,
    (∃ time, v.tables.database.Marked r.id time) ∧
    v.tables.database.Pending r.id

/-- A report that is matched first of those that no chain leads to keeps its notification. -/
theorem Kept.step {l : Label} (hk : Kept u sha256 numberText w kind fingerprint v)
    (h : Indexed u sha256 numberText w kind fingerprint v)
    (hw : w.Unindexed u sha256 numberText kind fingerprint)
    (hstep : IndexingStep u sha256 numberText v l v') :
    Kept u sha256 numberText w kind fingerprint v' := by
  obtain ⟨hindexes, hstep⟩ := hstep
  cases hstep with
  | read => exact hk
  | giveUp => exact hk
  | store item now db hitem hstore =>
    have hversion : item.version = w.version := hindexes.trans h.version
    obtain ⟨x, hx, htrace⟩ := h.work item hitem hversion
    obtain ⟨hid, hkind, -⟩ := trace?_eq_some htrace
    rw [hversion] at hstore
    have hstored := Database.stored_of_ok hstore
    rcases hk with hall | ⟨r, hr, ⟨time, hmarked⟩, hpending⟩
    · by_cases hcrash : x ∈ w.crashes u sha256 numberText kind fingerprint ∧
          ¬w.Reached u sha256 numberText kind fingerprint x
      · obtain ⟨hxcrash, hxnot⟩ := hcrash
        obtain ⟨hunmarked, hpending⟩ := hall x hxcrash hxnot
        refine .inr ⟨x, hxcrash, hid ▸ hstored.exists_marked, ?_⟩
        refine (h.pending_iff hw hxcrash htrace hstored hunmarked).mpr ⟨hpending, ?_⟩
        rintro ⟨s, hs, hskind, hready, hstate, hsigned, hnear⟩
        obtain ⟨hsmem, hold | ⟨hscrash, time, hmarked⟩⟩ := h.signed s hs hskind hsigned
        · exact hxnot ⟨s, ⟨hsmem, hskind, hready, hstate, hold⟩, .single ⟨hxcrash, hnear⟩⟩
        · by_cases hsreached : w.Reached u sha256 numberText kind fingerprint s
          · obtain ⟨p, hp, hchain⟩ := hsreached
            exact hxnot ⟨p, hp, hchain.tail ⟨hxcrash, hnear⟩⟩
          · exact (hall s hscrash hsreached).1 time hmarked
      · refine .inl fun r hr hnot => ?_
        obtain ⟨hunmarked, hpending⟩ := hall r hr hnot
        have hne : r.id ≠ item.trace.reportId := fun hsame => by
          obtain rfl := List.inj_on_of_nodup_map hw.reportIds (mem_crashes.mp hr).1 hx
            (hsame.trans hid)
          exact hcrash ⟨hr, hnot⟩
        exact ⟨fun time ht => hunmarked time (hstored.marked_of_other hne ht),
          hstored.pending hne hpending⟩
    · refine .inr ⟨r, hr, ⟨time, hstored.marked hmarked⟩, ?_⟩
      by_cases hsame : r.id = item.trace.reportId
      · exact hstored.pending_of_marked (hsame ▸ hmarked) hpending
      · exact hstored.pending hsame hpending
  | _ => exact absurd hindexes not_false

theorem exists_kept (hw : w.Unindexed u sha256 numberText kind fingerprint)
    (hr : r ∈ w.crashes u sha256 numberText kind fingerprint)
    (hnot : ¬w.Reached u sha256 numberText kind fingerprint r) {ls : List Label}
    (hrun : Run (IndexingStep u sha256 numberText) w ls v) :
    ∃ r ∈ w.crashes u sha256 numberText kind fingerprint, v.tables.database.Pending r.id := by
  have hinv := hrun.invariant
    (I := fun v => Indexed u sha256 numberText w kind fingerprint v ∧
      Kept u sha256 numberText w kind fingerprint v)
    (fun _ _ _ hv hstep => ⟨hv.1.step hw hstep, hv.2.step hv.1 hw hstep⟩)
    ⟨.start hw, .inl fun r hr _ => ⟨hw.unmarked r hr, hw.pending r hr⟩⟩
  rcases hinv.2 with hall | ⟨r', hr', -, hpending⟩
  · exact ⟨r, hr, (hall r hr hnot).2⟩
  · exact ⟨r', hr', hpending⟩

/-! ## A run that silences the crash -/

/-- What was matched of the crash is silenced, and has the signature like what had it before. -/
structure Silent (u : Unicode) (sha256 : List UInt8 → Str) (numberText : JsonNumber → Str)
    (w : Indexing) (kind : ReportKind) (fingerprint : String) (v : Indexing) : Prop where
  indexed : Indexed u sha256 numberText w kind fingerprint v
  silenced : ∀ r ∈ w.crashes u sha256 numberText kind fingerprint,
    (∃ time, v.tables.database.Marked r.id time) → ¬v.tables.database.Pending r.id
  presigned : ∀ s, w.Presigned kind fingerprint s → s ∈ v.tables.database.reports ∧
    v.tables.database.HasSignature w.version s.id fingerprint
  signed : ∀ r ∈ w.crashes u sha256 numberText kind fingerprint,
    (∃ time, v.tables.database.Marked r.id time) →
      v.tables.database.HasSignature w.version r.id fingerprint

/-- As long as a report is left that chains lead to, one is left that comes right after a report
with the signature. -/
theorem exists_next (hreached : w.Reached u sha256 numberText kind fingerprint r)
    (hunmarked : ∀ time, ¬v.tables.database.Marked r.id time) :
    ∃ x ∈ w.crashes u sha256 numberText kind fingerprint,
      (∀ time, ¬v.tables.database.Marked x.id time) ∧
      ∃ s, (w.Presigned kind fingerprint s ∨ s ∈ w.crashes u sha256 numberText kind fingerprint ∧
        ∃ time, v.tables.database.Marked s.id time) ∧ Near s x := by
  obtain ⟨p, hp, hchain⟩ := hreached
  induction hchain with
  | single h => exact ⟨_, h.1, hunmarked, p, .inl hp, h.2⟩
  | @tail b c hchain h ih =>
    by_cases hb : ∃ time, v.tables.database.Marked b.id time
    · have hbcrash : b ∈ w.crashes u sha256 numberText kind fingerprint := by
        cases hchain with
        | single h => exact h.1
        | tail _ h => exact h.1
      exact ⟨c, h.1, hunmarked, b, .inr ⟨hbcrash, hb⟩, h.2⟩
    · exact ih fun time ht => hb ⟨time, ht⟩

/-- A scan that is long enough finds every report that awaits indexing. -/
theorem mem_scan {version : ℕ} {trace : PendingStackTrace} (hr : r ∈ v.tables.database.reports)
    (hawaits : v.awaitsIndexing version r = true)
    (htrace : v.trace? u sha256 numberText r = some trace) :
    trace ∈ v.stackTracesToIndex u sha256 numberText version none
      v.tables.database.reports.length := by
  unfold stackTracesToIndex
  dsimp only
  rw [List.take_of_length_le ?_]
  · refine List.mem_filterMap.mpr ⟨r, (List.mem_insertionSort _).mpr ?_, htrace⟩
    exact List.mem_filter.mpr ⟨hr, by simp [hawaits, htrace]⟩
  · rw [List.length_insertionSort]
    exact List.length_filter_le _ _

theorem Silent.next (hs : Silent u sha256 numberText w kind fingerprint v)
    (hw : w.Unindexed u sha256 numberText kind fingerprint) {x s : Report}
    (hx : x ∈ w.crashes u sha256 numberText kind fingerprint)
    (hunmarked : ∀ time, ¬v.tables.database.Marked x.id time)
    (hsigned : w.Presigned kind fingerprint s ∨
      s ∈ w.crashes u sha256 numberText kind fingerprint ∧
        ∃ time, v.tables.database.Marked s.id time)
    (hnear : Near s x) :
    ∃ ls v', Run (IndexingStep u sha256 numberText) v ls v' ∧
      Silent u sha256 numberText w kind fingerprint v' ∧
      (∃ time, v'.tables.database.Marked x.id time) ∧
      ∀ report time, v.tables.database.Marked report time →
        v'.tables.database.Marked report time := by
  have h := hs.indexed
  obtain ⟨hxmem, hxkind, trace, htrace, hfingerprint⟩ := mem_crashes.mp hx
  obtain ⟨hid, hkind, -⟩ := trace?_eq_some htrace
  obtain ⟨hready, -, -⟩ := hw.eligible x hx
  have hawaits : v.awaitsIndexing w.version x = true := by
    refine Bool.and_eq_true_iff.mpr ⟨hready, List.all_eq_true.mpr fun o ho => ?_⟩
    by_cases hoid : o.reportId = x.id
    · cases hm : o.matchedAt with
      | none => simp
      | some time => exact absurd ⟨o, ho, hoid, hm⟩ (hunmarked time)
    · simp [hoid]
  let item : WorkItem := ⟨w.version, trace⟩
  let read : Indexing :=
    { v with
      work := v.work ++ (v.stackTracesToIndex u sha256 numberText w.version none
        v.tables.database.reports.length).map (⟨w.version, ·⟩) }
  have hread : IndexingStep u sha256 numberText v .read read :=
    ⟨trivial, .read w.version none _ h.version.ge⟩
  have hitem : item ∈ read.work := by
    refine List.mem_append_right _ (List.mem_map_of_mem ?_)
    exact mem_scan (h.kept x hx) hawaits ((h.trace?_eq x).trans htrace)
  obtain ⟨db, hdb⟩ := Database.exists_store_of_no_issue ⟨x, h.kept x hx, hid.symm⟩ hfingerprint
    hw.digest (h.matchingIssues_eq_nil hw (hkind.trans hxkind)) 0
  have hstore : IndexingStep u sha256 numberText read (.store item)
      { read with tables := { read.tables with database := db }, work := read.work.erase item } :=
    ⟨h.version.symm, .store item 0 db hitem hdb⟩
  have hstored := Database.stored_of_ok hdb
  refine ⟨_, _, .snoc (.single hread) hstore, ?_, hid ▸ hstored.exists_marked,
    fun report time hm => hstored.marked hm⟩
  have hsource : s ∈ v.tables.database.reports ∧ s.kind = kind ∧ s.ready = true ∧
      s.state ≠ .rejected ∧ v.tables.database.HasSignature w.version s.id fingerprint := by
    rcases hsigned with hp | ⟨hcrash, hmarked⟩
    · obtain ⟨hmem, hrow⟩ := hs.presigned s hp
      exact ⟨hmem, hp.kind, hp.ready, hp.state, hrow⟩
    · obtain ⟨hsready, hstate, -⟩ := hw.eligible s hcrash
      exact ⟨h.kept s hcrash, (mem_crashes.mp hcrash).2.1, hsready, hstate,
        hs.signed s hcrash hmarked⟩
  have hdropped : ¬db.Pending x.id := fun hpending =>
    ((h.pending_iff hw hx htrace hstored hunmarked).mp hpending).2
      ⟨s, hsource.1, hsource.2.1, hsource.2.2.1, hsource.2.2.2.1, hsource.2.2.2.2, hnear⟩
  have hone : ∀ {r}, r ∈ w.crashes u sha256 numberText kind fingerprint → r.id = trace.reportId →
      r = x := fun hr hsame =>
    List.inj_on_of_nodup_map hw.reportIds (mem_crashes.mp hr).1 hxmem (hsame.trans hid)
  refine ⟨(h.step hw hread).step hw hstore, fun r hr hmarked => ?_, fun p hp => ?_,
    fun r hr hmarked => ?_⟩
  · by_cases hsame : r.id = trace.reportId
    · exact hone hr hsame ▸ hdropped
    · obtain ⟨time, hmarked⟩ := hmarked
      have hold := hs.silenced r hr ⟨time, hstored.marked_of_other hsame hmarked⟩
      exact fun hpending => hold (hstored.pending_of_pending hpending)
  · obtain ⟨hmem, hrow⟩ := hs.presigned p hp
    by_cases hsame : p.id = trace.reportId
    · obtain rfl := List.inj_on_of_nodup_map hw.reportIds hp.mem hxmem (hsame.trans hid)
      exact ⟨((h.step hw hread).step hw hstore).kept p hx,
        hsame ▸ hstored.hasSignature hfingerprint⟩
    · obtain ⟨g, hg, hreports, -⟩ := hstored.reports
      refine ⟨?_, hstored.hasSignature_other hsame hrow⟩
      change p ∈ db.reports
      rw [hreports]
      exact List.mem_map.mpr ⟨p, hmem, hg.others p hsame⟩
  · by_cases hsame : r.id = trace.reportId
    · exact hsame ▸ hstored.hasSignature hfingerprint
    · obtain ⟨time, hmarked⟩ := hmarked
      exact hstored.hasSignature_other hsame
        (hs.signed r hr ⟨time, hstored.marked_of_other hsame hmarked⟩)

theorem exists_silent_run (hw : w.Unindexed u sha256 numberText kind fingerprint)
    (hall : ∀ r ∈ w.crashes u sha256 numberText kind fingerprint,
      w.Reached u sha256 numberText kind fingerprint r) :
    ∃ ls v, Run (IndexingStep u sha256 numberText) w ls v ∧
      ∀ r ∈ w.crashes u sha256 numberText kind fingerprint, ¬v.tables.database.Pending r.id := by
  -- What is left to be matched is among `rest`.
  have hrest : ∀ n (rest : List Report) v, rest.length = n →
      Silent u sha256 numberText w kind fingerprint v →
      (∀ r ∈ w.crashes u sha256 numberText kind fingerprint,
        (∀ time, ¬v.tables.database.Marked r.id time) → r ∈ rest) →
      ∃ ls v', Run (IndexingStep u sha256 numberText) v ls v' ∧
        ∀ r ∈ w.crashes u sha256 numberText kind fingerprint, ¬v'.tables.database.Pending r.id := by
    intro n
    induction n with
    | zero =>
      intro rest v hlength hs hmem
      refine ⟨[], v, .nil v, fun r hr => hs.silenced r hr ?_⟩
      by_contra hnone
      push Not at hnone
      have hin := hmem r hr hnone
      rw [List.length_eq_zero_iff.mp hlength] at hin
      cases hin
    | succ n ih =>
      intro rest v hlength hs hmem
      by_cases hdone : ∀ r ∈ w.crashes u sha256 numberText kind fingerprint,
          ∃ time, v.tables.database.Marked r.id time
      · exact ⟨[], v, .nil v, fun r hr => hs.silenced r hr (hdone r hr)⟩
      push Not at hdone
      obtain ⟨r, hr, hunmarked⟩ := hdone
      obtain ⟨x, hx, hxunmarked, s, hsigned, hnear⟩ := exists_next (hall r hr) hunmarked
      obtain ⟨ls, v', hrun, hs', hmarked, hkeep⟩ := hs.next hw hx hxunmarked hsigned hnear
      have hxrest := hmem x hx hxunmarked
      obtain ⟨ls', v'', hrun', hsilent⟩ := ih (rest.erase x) v'
        (by rw [List.length_erase_of_mem hxrest, hlength, Nat.add_sub_cancel]) hs'
        fun r hr hnot => by
          have hne : r ≠ x := fun hsame => by
            obtain ⟨time, hm⟩ := hmarked
            exact hnot time (hsame ▸ hm)
          exact (List.mem_erase_of_ne hne).mpr
            (hmem r hr fun time hm => hnot time (hkeep r.id time hm))
      exact ⟨ls ++ ls', v'', hrun.append hrun', hsilent⟩
  refine hrest _ (w.crashes u sha256 numberText kind fingerprint) w rfl
    ⟨.start hw, fun r hr ⟨time, hm⟩ => absurd hm (hw.unmarked r hr time),
      fun s hp => ⟨hp.mem, hp.signed⟩, fun r hr ⟨time, hm⟩ => absurd hm (hw.unmarked r hr time)⟩
    fun r hr _ => hr

/-- Whatever the order in which the reports of a crash are indexed, at least one of them keeps its
notification, exactly if there is one that no chain of reports leads to from one that had the
signature before, each at most five minutes after the one before. -/
theorem notification_kept_iff (hw : w.Unindexed u sha256 numberText kind fingerprint) :
    (∀ ls v, Run (IndexingStep u sha256 numberText) w ls v →
      ∃ r ∈ w.crashes u sha256 numberText kind fingerprint, v.tables.database.Pending r.id) ↔
    ∃ r ∈ w.crashes u sha256 numberText kind fingerprint,
      ¬w.Reached u sha256 numberText kind fingerprint r := by
  constructor
  · intro hkept
    by_contra hnone
    push Not at hnone
    obtain ⟨ls, v, hrun, hsilent⟩ := exists_silent_run hw hnone
    obtain ⟨r, hr, hpending⟩ := hkept ls v hrun
    exact hsilent r hr hpending
  · exact fun ⟨r, hr, hnot⟩ ls v hrun => exists_kept hw hr hnot hrun

end

/-! ## Two crashes -/

instance (s r : Report) : Decidable (Near s r) := by
  unfold Near
  infer_instance

/-- Two reports of a crash are accepted, the second so much later, and their files are stored. -/
def samplePair (gap : Timestamp) : Indexing :=
  let accepted := (sampleStart.acceptSample 0 sampleStack (some sampleDigest) 0).acceptSample 1
    sampleStack (some sampleDigest) gap
  (accepted.storeSample 0).storeSample 1

def sampleAt (n : ℕ) (now : Timestamp) : Report :=
  { (sampleReport n sampleStack (some sampleDigest)).request.report now with
    storageState := .ready }

/-- What was accepted. -/
theorem samplePair_tables {gap : Timestamp} (hgap : gap = 0 ∨ gap = 60000000) :
    (samplePair gap).tables.database.reports = [sampleAt 0 0, sampleAt 1 gap] ∧
      (samplePair gap).tables.database.issues = [] ∧
      (samplePair gap).tables.database.notifications = [⟨⟨0⟩⟩, ⟨⟨1⟩⟩] ∧
      (samplePair gap).tables.database.signatures =
        [⟨⟨0⟩, 0, some sampleDigest, none⟩, ⟨⟨1⟩, 0, some sampleDigest, none⟩] ∧
      (samplePair gap).tables.fields =
        [(⟨0⟩, ⟨stackKey, .stackTrace, .string sampleStack, false⟩),
          (⟨1⟩, ⟨stackKey, .stackTrace, .string sampleStack, false⟩)] := by
  rcases hgap with rfl | rfl <;> decide +kernel

theorem sample_signature :
    indexedSignature .ascii sampleSha256 sampleNumberText .crash
      [⟨stackKey, .stackTrace, .string sampleStack, false⟩] (fun _ => none) =
      .ok (some (some (List.replicate 64 'a'))) := by
  decide +kernel

theorem trace?_samplePair {gap : Timestamp} (hgap : gap = 0 ∨ gap = 60000000) {n : ℕ} (hn : n < 2)
    (now : Timestamp) :
    (samplePair gap).trace? .ascii sampleSha256 sampleNumberText (sampleAt n now) =
      some ⟨⟨n⟩, .crash, some sampleDigest, true⟩ := by
  obtain ⟨-, -, -, -, hfields⟩ := samplePair_tables hgap
  have hrows : fieldsOf (samplePair gap).tables (sampleAt n now).id =
      [⟨stackKey, .stackTrace, .string sampleStack, false⟩] := by
    unfold fieldsOf
    rw [hfields]
    match n, hn with
    | 0, _ => rfl
    | 1, _ => rfl
  have hsigned : indexedSignature .ascii sampleSha256 sampleNumberText (sampleAt n now).kind
      (fieldsOf (samplePair gap).tables (sampleAt n now).id) (samplePair gap).definitions =
      .ok (some (some (List.replicate 64 'a'))) := by
    rw [hrows]
    exact sample_signature
  unfold trace?
  rw [hsigned]
  rfl

theorem crashes_samplePair {gap : Timestamp} (hgap : gap = 0 ∨ gap = 60000000) :
    (samplePair gap).crashes .ascii sampleSha256 sampleNumberText .crash sampleDigest =
      [sampleAt 0 0, sampleAt 1 gap] := by
  unfold crashes
  rw [(samplePair_tables hgap).1]
  refine List.filter_eq_self.mpr fun r hr => ?_
  have htrace : ∃ n now, n < 2 ∧ r = sampleAt n now := by
    rcases List.mem_cons.mp hr with rfl | hr
    · exact ⟨0, 0, by decide, rfl⟩
    · exact ⟨1, gap, by decide, List.mem_singleton.mp hr⟩
  obtain ⟨n, now, hn, rfl⟩ := htrace
  rw [trace?_samplePair hgap hn]
  rfl

theorem unindexed_samplePair {gap : Timestamp} (hgap : gap = 0 ∨ gap = 60000000) :
    (samplePair gap).Unindexed .ascii sampleSha256 sampleNumberText .crash sampleDigest := by
  obtain ⟨hreports, hissues, hnotifications, hsignatures, -⟩ := samplePair_tables hgap
  refine ⟨by decide +kernel, ?_, rfl, ?_, ?_, fun r _ time ⟨s, hs, _, hmatched⟩ => ?_, ?_⟩
  · rw [hreports]
    exact List.nodup_cons.mpr ⟨by simp [sampleAt, sampleReport, AcceptReportRequest.report],
      List.nodup_singleton _⟩
  · rw [crashes_samplePair hgap]
    simp [sampleAt, sampleReport, AcceptReportRequest.report, Report.ready]
  · rw [crashes_samplePair hgap]
    unfold Database.Pending
    rw [hnotifications]
    simp [sampleAt, sampleReport, AcceptReportRequest.report]
  · rw [hsignatures] at hs
    have hnone : ∀ s ∈ [(⟨⟨0⟩, 0, some sampleDigest, none⟩ : StackSignature),
        ⟨⟨1⟩, 0, some sampleDigest, none⟩], s.matchedAt = none := by simp
    rw [hnone s hs] at hmatched
    cases hmatched
  · intro r _ _ _ i hi
    rw [hissues] at hi
    cases hi

theorem isReachable_samplePair {gap : Timestamp} (hgap : gap = 0 ∨ gap = 60000000) :
    (samplePair gap).IsReachable .ascii sampleSha256 sampleNumberText := by
  obtain ⟨definitions, version, hstart⟩ := isReachable_sampleStart
  have hsigned : acceptedSignature .ascii sampleSha256 .crash (sampleFields sampleStack)
      (fun _ => none) = .ok (some ((some sampleDigest).map String.toList)) := by
    decide +kernel
  have hnew : ∀ {n : ℕ}, ∀ item ∈ sampleStart.work, item.trace.reportId ≠ ⟨n⟩ :=
    fun _ h => absurd h List.not_mem_nil
  refine ⟨definitions, version, hstart.run (Run.snoc (Run.snoc (Run.snoc (Run.single
    (step_acceptSample hnew hsigned ?_)) (step_acceptSample hnew hsigned ?_)) (step_storeSample 0))
    (step_storeSample 1))⟩
  · decide +kernel
  · rcases hgap with rfl | rfl <;> decide +kernel

theorem presigned_samplePair {gap : Timestamp} (hgap : gap = 0 ∨ gap = 60000000) {r : Report}
    (hr : r ∈ [sampleAt 0 0, sampleAt 1 gap]) :
    (samplePair gap).Presigned .crash sampleDigest r := by
  obtain ⟨hreports, -, -, hsignatures, -⟩ := samplePair_tables hgap
  have hsigned : (samplePair gap).tables.database.HasSignature (samplePair gap).version r.id
      sampleDigest := by
    unfold Database.HasSignature
    rw [hsignatures]
    rcases List.mem_cons.mp hr with rfl | hr
    · exact ⟨_, List.mem_cons_self, rfl, rfl, rfl⟩
    · rw [List.mem_singleton.mp hr]
      exact ⟨_, List.mem_cons_of_mem _ List.mem_cons_self, rfl, rfl, rfl⟩
  refine ⟨hreports ▸ hr, ?_, ?_, ?_, hsigned⟩
  all_goals
    rcases List.mem_cons.mp hr with rfl | hr
    · simp [sampleAt, sampleReport, AcceptReportRequest.report, Report.ready]
    · rw [List.mem_singleton.mp hr]
      simp [sampleAt, sampleReport, AcceptReportRequest.report, Report.ready]

/-- Of two reports a minute apart the first keeps its notification. -/
theorem first_report_notifies :
    (samplePair 60000000).Unindexed .ascii sampleSha256 sampleNumberText .crash sampleDigest ∧
    ∀ ls v, Run (IndexingStep .ascii sampleSha256 sampleNumberText) (samplePair 60000000) ls v →
      ∃ r ∈ (samplePair 60000000).crashes .ascii sampleSha256 sampleNumberText .crash sampleDigest,
        v.tables.database.Pending r.id := by
  have hw := unindexed_samplePair (.inr rfl : (60000000 : Timestamp) = 0 ∨ _)
  refine ⟨hw, (notification_kept_iff hw).mpr ⟨sampleAt 0 0, ?_, ?_⟩⟩
  · rw [crashes_samplePair (.inr rfl)]
    exact List.mem_cons_self
  · intro hreached
    obtain ⟨s, hs, hnear⟩ := hreached.exists_near
    rw [(samplePair_tables (.inr rfl)).1] at hs
    have hnone : ∀ s ∈ [sampleAt 0 0, sampleAt 1 60000000], ¬Near s (sampleAt 0 0) := by decide
    exact hnone s hs hnear

/-- Two reports of the same time silence each other. -/
theorem equal_times_silence : ¬∀ w : Indexing,
    w.IsReachable .ascii sampleSha256 sampleNumberText → ∀ kind fingerprint,
      w.Unindexed .ascii sampleSha256 sampleNumberText kind fingerprint →
      w.crashes .ascii sampleSha256 sampleNumberText kind fingerprint ≠ [] →
      ∀ ls v, Run (IndexingStep .ascii sampleSha256 sampleNumberText) w ls v →
        ∃ r ∈ w.crashes .ascii sampleSha256 sampleNumberText kind fingerprint,
          v.tables.database.Pending r.id := by
  intro hclaim
  have hgap : (0 : Timestamp) = 0 ∨ (0 : Timestamp) = 60000000 := .inl rfl
  have hcrashes := crashes_samplePair hgap
  have hreached : ∀ r ∈ (samplePair 0).crashes .ascii sampleSha256 sampleNumberText .crash
      sampleDigest, (samplePair 0).Reached .ascii sampleSha256 sampleNumberText .crash sampleDigest
        r := by
    intro r hr
    have hother : ∃ s ∈ [sampleAt 0 0, sampleAt 1 0], Near s r := by
      rw [hcrashes] at hr
      revert r
      decide
    obtain ⟨s, hs, hnear⟩ := hother
    exact ⟨s, presigned_samplePair hgap hs, .single ⟨hr, hnear⟩⟩
  obtain ⟨ls, v, hrun, hsilent⟩ := exists_silent_run (unindexed_samplePair hgap) hreached
  obtain ⟨r, hr, hpending⟩ := hclaim _ (isReachable_samplePair hgap) .crash sampleDigest
    (unindexed_samplePair hgap) (by rw [hcrashes]; exact List.cons_ne_nil _ _) ls v hrun
  exact hsilent r hr hpending

end Indexing

end LadybirdReports.Admin
