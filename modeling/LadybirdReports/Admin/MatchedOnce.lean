import LadybirdReports.Admin.Indexing
import LadybirdReports.Admin.Following

/-!
# Reports are matched once

What storing a signature does to the tables (`Stored`): whether the report was matched is read in
the transaction that matches it, so that what a run has read before does not matter. The mark stays
(`Step.marked`), and a report that has it no indexing changes any more (`Step.matched`).
-/

namespace LadybirdReports.Admin

open Ingestion (Submission Tables)
open Rust Transition

/-! ## What is stored -/

namespace Database

/-- The automatic match was tried, at this time. -/
def Marked (db : Database) (report : ReportId) (time : Timestamp) : Prop :=
  ∃ s ∈ db.signatures, s.reportId = report ∧ s.matchedAt = some time

/-- What storing a signature does: the match is tried unless it was tried before. -/
inductive Stored (version : ℕ) (db : Database) (trace : PendingStackTrace) (now : Timestamp) :
    Database → Prop
  | again (time : Timestamp) (marked : db.Marked trace.reportId time) :
      Stored version db trace now (db.upsertSignatureAt version trace)
  | unmatchable (unmarked : ∀ time, ¬db.Marked trace.reportId time)
      (none : trace.autoMatchEligible = false ∨ trace.fingerprint = none) :
      Stored version db trace now
        ((db.upsertSignatureAt version trace).markMatched trace.reportId now)
  | tried (unmarked : ∀ time, ¬db.Marked trace.reportId time)
      (eligible : trace.autoMatchEligible = true) (fingerprint : String)
      (signed : trace.fingerprint = some fingerprint) (db' : Database)
      (tried : (db.upsertSignatureAt version trace).matchIndexedReportAt version trace
        fingerprint = .ok db') :
      Stored version db trace now (db'.markMatched trace.reportId now)

variable {version : ℕ} {db db' : Database} {trace : PendingStackTrace} {now : Timestamp}

theorem stored_of_ok (h : db.storeStackSignatureAt version trace now = .ok db') :
    Stored version db trace now db' := by
  unfold storeStackSignatureAt at h
  dsimp only at h
  obtain ⟨u, -, h⟩ := bind_eq_ok.mp h
  obtain ⟨v, -, h⟩ := bind_eq_ok.mp h
  split_ifs at h with hmatched
  · obtain rfl := pure_eq_ok.mp h
    obtain ⟨s, hs, hmatched⟩ := List.any_eq_true.mp hmatched
    simp only [Bool.and_eq_true, decide_eq_true_eq] at hmatched
    obtain ⟨time, htime⟩ := Option.isSome_iff_exists.mp hmatched.2
    exact .again time ⟨s, hs, hmatched.1, htime⟩
  · have hunmarked : ∀ time, ¬db.Marked trace.reportId time := by
      rintro time ⟨s, hs, hid, htime⟩
      refine hmatched (List.any_eq_true.mpr ⟨s, hs, ?_⟩)
      simp [hid, htime]
    split at h
    · rename_i fingerprint heligible hsigned
      obtain ⟨db₁, h₁, h⟩ := bind_eq_ok.mp h
      obtain rfl := pure_eq_ok.mp h
      exact .tried hunmarked heligible fingerprint hsigned db₁ h₁
    · rename_i hnot
      obtain rfl := pure_eq_ok.mp h
      refine .unmatchable hunmarked ?_
      by_contra hboth
      push Not at hboth
      obtain ⟨fingerprint, hsigned⟩ := Option.ne_none_iff_exists'.mp hboth.2
      exact hnot fingerprint (by simpa using hboth.1) hsigned

theorem exists_report_of_store (h : db.storeStackSignatureAt version trace now = .ok db') :
    ∃ r ∈ db.reports, r.id = trace.reportId := by
  unfold storeStackSignatureAt at h
  dsimp only at h
  obtain ⟨u, hreport, -⟩ := bind_eq_ok.mp h
  obtain ⟨r, hr, hid⟩ := List.any_eq_true.mp (ensure_eq_ok.mp hreport)
  exact ⟨r, hr, of_decide_eq_true hid⟩

@[simp] theorem upsertSignatureAt_reports :
    (db.upsertSignatureAt version trace).reports = db.reports := by
  unfold upsertSignatureAt
  split <;> rfl

@[simp] theorem upsertSignatureAt_issues :
    (db.upsertSignatureAt version trace).issues = db.issues := by
  unfold upsertSignatureAt
  split <;> rfl

@[simp] theorem upsertSignatureAt_notifications :
    (db.upsertSignatureAt version trace).notifications = db.notifications := by
  unfold upsertSignatureAt
  split <;> rfl

/-- The rows of the signatures: those of other reports stay, and that of this one is written. -/
theorem mem_upsertSignatureAt {s : StackSignature} :
    s ∈ (db.upsertSignatureAt version trace).signatures ↔
      (s ∈ db.signatures ∧ s.reportId ≠ trace.reportId) ∨
      (s.reportId = trace.reportId ∧ s.algorithmVersion = version ∧
        s.fingerprint = trace.fingerprint ∧
        ((∃ o ∈ db.signatures, o.reportId = trace.reportId ∧ o.matchedAt = s.matchedAt) ∨
          (∀ o ∈ db.signatures, o.reportId ≠ trace.reportId) ∧ s.matchedAt = none)) := by
  unfold upsertSignatureAt
  by_cases hany : db.signatures.any (·.reportId = trace.reportId) = true
  · rw [if_pos hany]
    obtain ⟨o, ho, hoid⟩ := List.any_eq_true.mp hany
    have hno : ¬∀ o ∈ db.signatures, o.reportId ≠ trace.reportId := fun h =>
      h o ho (of_decide_eq_true hoid)
    simp only [List.mem_map]
    constructor
    · rintro ⟨o, ho, rfl⟩
      by_cases hid : o.reportId = trace.reportId
      · rw [if_pos hid]
        exact .inr ⟨hid, rfl, rfl, .inl ⟨o, ho, hid, rfl⟩⟩
      · rw [if_neg hid]
        exact .inl ⟨ho, hid⟩
    · rintro (⟨hs, hid⟩ | ⟨hid, hversion, hfingerprint, ⟨o, ho, hoid, hmatched⟩ | ⟨h, -⟩⟩)
      · exact ⟨s, hs, if_neg hid⟩
      · refine ⟨o, ho, ?_⟩
        rw [if_pos hoid]
        cases s
        cases o
        simp_all
      · exact absurd h hno
  · rw [if_neg hany]
    have hno : ∀ o ∈ db.signatures, o.reportId ≠ trace.reportId := fun o ho hid =>
      hany (List.any_eq_true.mpr ⟨o, ho, decide_eq_true hid⟩)
    simp only [List.mem_append, List.mem_singleton]
    constructor
    · rintro (hs | rfl)
      · exact .inl ⟨hs, hno s hs⟩
      · exact .inr ⟨rfl, rfl, rfl, .inr ⟨hno, rfl⟩⟩
    · rintro (⟨hs, -⟩ | ⟨hid, hversion, hfingerprint, ⟨o, ho, hoid, -⟩ | ⟨-, hmatched⟩⟩)
      · exact .inl hs
      · exact absurd hoid (hno o ho)
      · refine .inr ?_
        cases s
        simp_all

variable (version trace) in
theorem marked_upsertSignatureAt {report : ReportId} {time : Timestamp} :
    (db.upsertSignatureAt version trace).Marked report time ↔ db.Marked report time := by
  unfold Marked
  simp only [mem_upsertSignatureAt]
  constructor
  · rintro ⟨s, ⟨hs, -⟩ | ⟨hid, -, -, ⟨o, ho, hoid, hmatched⟩ | ⟨-, hnone⟩⟩, hreport, htime⟩
    · exact ⟨s, hs, hreport, htime⟩
    · exact ⟨o, ho, (hoid.trans hid.symm).trans hreport, hmatched.trans htime⟩
    · rw [hnone] at htime
      cases htime
  · rintro ⟨s, hs, hreport, htime⟩
    by_cases hid : s.reportId = trace.reportId
    · exact ⟨⟨s.reportId, version, trace.fingerprint, s.matchedAt⟩,
        .inr ⟨hid, rfl, rfl, .inl ⟨s, hs, hid, rfl⟩⟩, hreport, htime⟩
    · exact ⟨s, .inl ⟨hs, hid⟩, hreport, htime⟩

/-- Only the report is moved, and only where it is. -/
structure Moves (report : ReportId) (g : Report → Report) : Prop where
  others : ∀ r, r.id ≠ report → g r = r
  put : ∀ r, ∃ o s f, g r = r.put o s f

theorem map_id_of_put {g : Report → Report} (hg : ∀ r, ∃ o s f, g r = r.put o s f)
    (reports : List Report) : (reports.map g).map (·.id) = reports.map (·.id) := by
  rw [List.map_map]
  refine List.map_congr_left fun r _ => ?_
  obtain ⟨o, s, f, heq⟩ := hg r
  rw [Function.comp_apply, heq]
  rfl

/-- What a match does to the tables. -/
theorem matchIndexedReportAt_eq_ok {fingerprint : String}
    (h : db.matchIndexedReportAt version trace fingerprint = .ok db') :
    db'.signatures = db.signatures ∧ db'.issues = db.issues ∧
      ∃ g, Moves trace.reportId g ∧ db'.reports = db.reports.map g := by
  have hkeep : Moves trace.reportId id := ⟨fun _ _ => rfl, fun r => ⟨_, _, _, (put_self r).symm⟩⟩
  unfold matchIndexedReportAt at h
  split at h
  · rename_i issue hmatch
    obtain ⟨db₁, h₁, h⟩ := bind_eq_ok.mp h
    obtain rfl := pure_eq_ok.mp h
    unfold assignMatch at h₁
    obtain ⟨db₂, h₂, h₁⟩ := bind_eq_ok.mp h₁
    obtain rfl := pure_eq_ok.mp h₁
    obtain rfl := updateReports_eq_ok h₂
    refine ⟨rfl, rfl, _, ⟨fun r hr => ?_, fun r => ?_⟩, rfl⟩
    · exact if_neg (by simp [hr])
    · split
      · obtain ⟨s, f, heq⟩ :=
          Indexing.exists_settle_eq db.issues
            { r with issueId := some issue.id, state := .confirmed }
        exact ⟨_, s, f, heq⟩
      · exact ⟨_, _, _, (put_self r).symm⟩
  · obtain rfl := Except.ok.inj h
    exact ⟨rfl, rfl, id, hkeep, (List.map_id _).symm⟩
  · obtain rfl := Except.ok.inj h
    refine ⟨?_, ?_, id, hkeep, ?_⟩
    all_goals split <;> simp [deleteNotification]

theorem marked_markMatched {report other : ReportId} {time : Timestamp}
    (h : db.Marked other time) (hother : other = report → ∀ t, ¬db.Marked report t) :
    (db.markMatched report now).Marked other time := by
  obtain ⟨s, hs, hid, htime⟩ := h
  have hne : s.reportId ≠ report := fun heq =>
    hother (hid.symm.trans heq) time ⟨s, hs, heq, htime⟩
  exact ⟨s, List.mem_map.mpr ⟨s, hs, if_neg hne⟩, hid, htime⟩

variable (version trace) in
/-- The keys of the signatures stay those of one row each. -/
theorem nodup_upsertSignatureAt (h : (db.signatures.map (·.reportId)).Nodup) :
    ((db.upsertSignatureAt version trace).signatures.map (·.reportId)).Nodup := by
  unfold upsertSignatureAt
  split_ifs with hany
  · rw [List.map_map]
    have hkeys : db.signatures.map ((·.reportId) ∘ fun s => if s.reportId = trace.reportId then
        { s with algorithmVersion := version, fingerprint := trace.fingerprint } else s) =
        db.signatures.map (·.reportId) := by
      refine List.map_congr_left fun s _ => ?_
      rw [Function.comp_apply]
      split <;> rfl
    rwa [hkeys]
  · rw [List.map_append, List.nodup_append]
    refine ⟨h, List.nodup_singleton _, fun id hid id' hid' heq => hany ?_⟩
    obtain ⟨s, hs, rfl⟩ := List.mem_map.mp hid
    obtain rfl := List.mem_singleton.mp hid'
    exact List.any_eq_true.mpr ⟨s, hs, decide_eq_true heq⟩

theorem markMatched_keys {report : ReportId} :
    (db.markMatched report now).signatures.map (·.reportId) =
      db.signatures.map (·.reportId) := by
  unfold markMatched
  rw [List.map_map]
  refine List.map_congr_left fun s _ => ?_
  rw [Function.comp_apply]
  split <;> rfl

namespace Stored

/-- What was marked stays marked, at its time. -/
theorem marked (h : Stored version db trace now db') {report : ReportId} {time : Timestamp}
    (hmarked : db.Marked report time) : db'.Marked report time := by
  have hupsert := (marked_upsertSignatureAt version trace).mpr hmarked
  cases h with
  | again => exact hupsert
  | unmatchable unmarked =>
    refine marked_markMatched hupsert fun heq => ?_
    exact fun t ht => unmarked t ((marked_upsertSignatureAt version trace).mp ht)
  | tried unmarked eligible fingerprint signed db₁ tried =>
    have hsignatures := (matchIndexedReportAt_eq_ok tried).1
    have hmarks : ∀ {report time}, db₁.Marked report time ↔ db.Marked report time := by
      intro report time
      refine Iff.trans ?_ (marked_upsertSignatureAt version trace)
      unfold Marked
      rw [hsignatures]
    exact marked_markMatched (hmarks.mpr hmarked) fun heq t ht => unmarked t (hmarks.mp ht)

/-- The report that was indexed is marked. -/
theorem exists_marked (h : Stored version db trace now db') :
    ∃ time, db'.Marked trace.reportId time := by
  have hrow : ∃ s ∈ (db.upsertSignatureAt version trace).signatures,
      s.reportId = trace.reportId := by
    unfold upsertSignatureAt
    split_ifs with hany
    · obtain ⟨s, hs, hid⟩ := List.any_eq_true.mp hany
      have hid := of_decide_eq_true hid
      refine ⟨_, List.mem_map_of_mem hs, ?_⟩
      rw [if_pos hid]
      exact hid
    · exact ⟨_, List.mem_append_right _ (List.mem_singleton_self _), rfl⟩
  obtain ⟨s, hs, hid⟩ := hrow
  cases h with
  | again time marked => exact ⟨time, (marked_upsertSignatureAt version trace).mpr marked⟩
  | unmatchable =>
    refine ⟨now, _, List.mem_map_of_mem hs, ?_⟩
    rw [if_pos hid]
    exact ⟨hid, rfl⟩
  | tried unmarked eligible fingerprint signed db₁ tried =>
    rw [← (matchIndexedReportAt_eq_ok tried).1] at hs
    refine ⟨now, _, List.mem_map_of_mem hs, ?_⟩
    rw [if_pos hid]
    exact ⟨hid, rfl⟩

/-- Only the report that was indexed is moved, and only if it was not marked. -/
theorem reports (h : Stored version db trace now db') :
    ∃ g, Moves trace.reportId g ∧ db'.reports = db.reports.map g ∧
      ((∃ time, db.Marked trace.reportId time) → g = id) := by
  have hkeep : Moves trace.reportId id := ⟨fun _ _ => rfl, fun r => ⟨_, _, _, (put_self r).symm⟩⟩
  cases h with
  | again => exact ⟨id, hkeep, by simp, fun _ => rfl⟩
  | unmatchable => exact ⟨id, hkeep, by simp [markMatched], fun _ => rfl⟩
  | tried unmarked eligible fingerprint signed db₁ tried =>
    obtain ⟨-, -, g, hg, hreports⟩ := matchIndexedReportAt_eq_ok tried
    refine ⟨g, hg, ?_, fun ⟨time, htime⟩ => absurd htime (unmarked time)⟩
    rw [upsertSignatureAt_reports] at hreports
    exact hreports

/-- What is stored for the report that was indexed is what was read; other rows stay. -/
theorem signatures (h : Stored version db trace now db') {s : StackSignature}
    (hs : s ∈ db'.signatures) :
    (s ∈ db.signatures ∧ s.reportId ≠ trace.reportId) ∨
      (s.reportId = trace.reportId ∧ s.algorithmVersion = version ∧
        s.fingerprint = trace.fingerprint) := by
  have hupsert : ∀ {o : StackSignature}, o ∈ (db.upsertSignatureAt version trace).signatures →
      (o ∈ db.signatures ∧ o.reportId ≠ trace.reportId) ∨
        (o.reportId = trace.reportId ∧ o.algorithmVersion = version ∧
          o.fingerprint = trace.fingerprint) := by
    intro o ho
    rcases mem_upsertSignatureAt.mp ho with hold | ⟨hid, hversion, hfingerprint, -⟩
    · exact .inl hold
    · exact .inr ⟨hid, hversion, hfingerprint⟩
  have hmark : ∀ {db₁ : Database},
      db₁.signatures = (db.upsertSignatureAt version trace).signatures →
      s ∈ (db₁.markMatched trace.reportId now).signatures →
      (s ∈ db.signatures ∧ s.reportId ≠ trace.reportId) ∨
        (s.reportId = trace.reportId ∧ s.algorithmVersion = version ∧
          s.fingerprint = trace.fingerprint) := by
    intro db₁ hsame hs
    obtain ⟨o, ho, rfl⟩ := List.mem_map.mp hs
    have hrow := hupsert (hsame ▸ ho)
    split
    · rename_i hid
      exact .inr (hrow.resolve_left fun hold => hold.2 hid)
    · exact hrow
  cases h with
  | again => exact hupsert hs
  | unmatchable => exact hmark rfl hs
  | tried unmarked eligible fingerprint signed db₁ tried =>
    exact hmark (matchIndexedReportAt_eq_ok tried).1 hs

theorem nodup (h : Stored version db trace now db')
    (hnodup : (db.signatures.map (·.reportId)).Nodup) :
    (db'.signatures.map (·.reportId)).Nodup := by
  have hupsert := nodup_upsertSignatureAt version trace hnodup
  cases h with
  | again => exact hupsert
  | unmatchable => rwa [markMatched_keys]
  | tried unmarked eligible fingerprint signed db₁ tried =>
    rwa [markMatched_keys, (matchIndexedReportAt_eq_ok tried).1]

end Stored

end Database

/-! ## Every step -/

/-- What accepting a report adds to the tables. -/
structure Accepted (t : Tables) (version : ℕ) (s : Submission) (now : Timestamp) (t' : Tables) :
    Prop where
  fresh : ∀ r ∈ t.database.reports, r.id ≠ s.request.reportId
  unsigned : s.request.stackSignature ≠ none →
    ∀ o ∈ t.database.signatures, o.reportId ≠ s.request.reportId
  reports : t'.database.reports = t.database.reports ++ [s.request.report now]
  fields : t'.fields = t.fields ++ s.fields.map (s.request.reportId, ·)
  signatures : t'.database.signatures = t.database.signatures ++
    s.request.stackSignature.toList.map fun fingerprint =>
      ⟨s.request.reportId, version, fingerprint, none⟩

theorem accepted_of_ok {t t' : Tables} {version : ℕ} {s : Submission} {now : Timestamp}
    (h : acceptSubmission t version s now = .ok t') : Accepted t version s now t' := by
  unfold acceptSubmission at h
  obtain ⟨t₁, h₁, h⟩ := bind_eq_ok.mp h
  have hinserted := Tables.inserted_of_ok h₁
  have hsignatures := hinserted.signatures rfl
  cases hsignature : s.request.stackSignature with
  | none =>
    rw [hsignature] at h
    obtain rfl := pure_eq_ok.mp h
    refine ⟨hinserted.fresh, fun hne => absurd hsignature hne, hinserted.reports,
      hinserted.fields, ?_⟩
    rw [hsignatures, hsignature]
    exact (List.append_nil _).symm
  | some fingerprint =>
    rw [hsignature] at h
    obtain ⟨db, hdb, rfl⟩ := Tables.setDatabase_eq_ok h
    unfold Database.acceptStackSignatureAt at hdb
    obtain ⟨u, -, hdb⟩ := bind_eq_ok.mp hdb
    obtain ⟨v, hunsigned, hdb⟩ := bind_eq_ok.mp hdb
    obtain rfl := pure_eq_ok.mp hdb
    refine ⟨hinserted.fresh, fun _ o ho => ?_, hinserted.reports, hinserted.fields, ?_⟩
    · rw [← hsignatures] at ho
      exact of_decide_eq_true (List.all_eq_true.mp (ensure_eq_ok.mp hunsigned) o ho)
    · rw [hsignature]
      exact congrArg (· ++ _) hsignatures

namespace Indexing

variable {u : Unicode} {sha256 : List UInt8 → Str} {numberText : JsonNumber → Str}
  {w w' : Indexing} {item : WorkItem} {report : ReportId} {time : Timestamp}

@[simp] theorem finishFailureReason_database {t : Tables} {reason : Option Str} :
    (finishFailureReason t report reason).database = t.database := by
  unfold finishFailureReason
  split
  · split <;> rfl
  · rfl

theorem Step.marked {l : Label} (h : Step u sha256 numberText w l w')
    (hkept : l ≠ .deleteReport report) (hmarked : w.tables.database.Marked report time) :
    w'.tables.database.Marked report time := by
  cases h with
  | accept s version fields definitions signature now tables _ _ _ _ _ haccept =>
    obtain ⟨o, ho, hid, htime⟩ := hmarked
    refine ⟨o, ?_, hid, htime⟩
    change o ∈ tables.database.signatures
    rw [(accepted_of_ok haccept).signatures]
    exact List.mem_append_left _ ho
  | deleteReport other =>
    obtain ⟨o, ho, hid, htime⟩ := hmarked
    have hne : o.reportId ≠ other := fun heq => hkept (by rw [← hid, heq])
    exact ⟨o, List.mem_filter.mpr ⟨ho, decide_eq_true hne⟩, hid, htime⟩
  | finishFailureReason r a reason => simpa using hmarked
  | store item now db hitem hstore => exact (Database.stored_of_ok hstore).marked hmarked
  | review db change hreview =>
    obtain ⟨o, ho, hid, htime⟩ := hmarked
    exact ⟨o, hreview.signatures ▸ ho, hid, htime⟩
  | _ => exact hmarked

theorem Step.nodup {l : Label} (h : Step u sha256 numberText w l w')
    (hnodup : (w.tables.database.signatures.map (·.reportId)).Nodup) :
    (w'.tables.database.signatures.map (·.reportId)).Nodup := by
  cases h with
  | accept s version fields definitions signature now tables _ _ _ _ _ haccept =>
    obtain ⟨-, hunsigned, -, -, hsignatures⟩ := accepted_of_ok haccept
    change (tables.database.signatures.map (·.reportId)).Nodup
    rw [hsignatures]
    cases hsignature : s.request.stackSignature with
    | none => simpa using hnodup
    | some fingerprint =>
      rw [List.map_append, List.nodup_append]
      refine ⟨hnodup, List.nodup_singleton _, fun id hid id' hid' heq => ?_⟩
      obtain ⟨o, ho, rfl⟩ := List.mem_map.mp hid
      obtain rfl := List.mem_singleton.mp hid'
      exact hunsigned (by rw [hsignature]; exact Option.some_ne_none _) o ho heq
  | deleteReport other => exact hnodup.sublist (List.filter_sublist.map _)
  | finishFailureReason r a reason => simpa using hnodup
  | store item now db hitem hstore => exact (Database.stored_of_ok hstore).nodup hnodup
  | review db change hreview =>
    change (db.signatures.map (·.reportId)).Nodup
    rwa [hreview.signatures]
  | _ => exact hnodup

/-- What indexing does to a report: the first match that is tried may move it, and marks it. -/
theorem Step.matched (h : Step u sha256 numberText w (.store item) w') {r : Report}
    (hr : r ∈ w.tables.database.reports) :
    r ∈ w'.tables.database.reports ∨
      ((∀ t, ¬w.tables.database.Marked r.id t) ∧ ∃ t, w'.tables.database.Marked r.id t) := by
  cases h with
  | store _ now db hitem hstore =>
    have hstored := Database.stored_of_ok hstore
    obtain ⟨g, hg, hreports, hkeep⟩ := hstored.reports
    by_cases hid : r.id = item.trace.reportId
    · by_cases hmarked : ∃ t, w.tables.database.Marked item.trace.reportId t
      · refine .inl ?_
        change r ∈ db.reports
        rwa [hreports, hkeep hmarked, List.map_id]
      · rw [hid]
        exact .inr ⟨fun t ht => hmarked ⟨t, ht⟩, hstored.exists_marked⟩
    · refine .inl ?_
      change r ∈ db.reports
      rw [hreports]
      exact List.mem_map.mpr ⟨r, hr, hg.others r hid⟩

variable (u sha256 numberText report) in
/-- Whatever is done as long as the report is not purged. -/
abbrev Keeping := Where (fun _ l => l ≠ .deleteReport report) (Step u sha256 numberText)

theorem run_marked {ls : List Label} (h : Run (Keeping u sha256 numberText report) w ls w')
    (hmarked : w.tables.database.Marked report time) :
    w'.tables.database.Marked report time :=
  h.invariant (I := fun v => v.tables.database.Marked report time)
    (fun _ _ _ hm hstep => hstep.2.marked hstep.1 hm) hmarked

/-- In every run, with any number of replicas and releases: the mark of a report is never cleared or
set anew; an automatic match comes to a report that has none; and what a report becomes after it,
unlinked or not, no indexing changes, so that it is matched at most once. -/
theorem IsReachable.matched_once (h : w.IsReachable u sha256 numberText) :
    (w.tables.database.signatures.map (·.reportId)).Nodup ∧
    (∀ report time, w.tables.database.Marked report time →
      ∀ ls v, Run (Keeping u sha256 numberText report) w ls v →
        v.tables.database.Marked report time ∧
        ∀ item v', Step u sha256 numberText v (.store item) v' →
          ∀ r ∈ v.tables.database.reports, r.id = report → r ∈ v'.tables.database.reports) ∧
    ∀ item w₁, Step u sha256 numberText w (.store item) w₁ →
      ∀ r ∈ w.tables.database.reports, r ∉ w₁.tables.database.reports →
        (∀ t, ¬w.tables.database.Marked r.id t) ∧
        ∀ ls v, Run (Keeping u sha256 numberText r.id) w₁ ls v →
          ∀ item' v', Step u sha256 numberText v (.store item') v' →
            ∀ r' ∈ v.tables.database.reports, r'.id = r.id →
              r' ∈ v'.tables.database.reports := by
  have hunmoved : ∀ {v v' : Indexing} {item : WorkItem} {r : Report} {t : Timestamp},
      Step u sha256 numberText v (.store item) v' → v.tables.database.Marked r.id t →
      r ∈ v.tables.database.reports → r ∈ v'.tables.database.reports :=
    fun hstep hm hr => (hstep.matched hr).resolve_right fun hun => hun.1 _ hm
  refine ⟨?_, ?_, ?_⟩
  · obtain ⟨definitions, version, hreach⟩ := h
    exact hreach.invariant (I := fun v => (v.tables.database.signatures.map (·.reportId)).Nodup)
      (fun _ _ _ hn hstep => hstep.nodup hn) List.nodup_nil
  · intro report time hmarked ls v hrun
    have hv := run_marked hrun hmarked
    exact ⟨hv, fun item v' hstep r hr hid => hunmoved hstep (hid ▸ hv) hr⟩
  · intro item w₁ hstep r hr hmoved
    obtain ⟨hunmarked, t, hmarked⟩ := (hstep.matched hr).resolve_left hmoved
    refine ⟨hunmarked, fun ls v hrun item' v' hstep' r' hr' hid => ?_⟩
    exact hunmoved hstep' (hid ▸ run_marked hrun hmarked) hr'

/-! ## Two crashes -/

/-- Two crashes with one signature; the first is linked to an issue, and a run has read both. -/
def sampleRead : Indexing :=
  let accepted := (sampleStart.acceptSample 0 sampleStack (some sampleDigest) 0).acceptSample 1
    sampleStack (some sampleDigest) 0
  let stored := (accepted.storeSample 0).storeSample 1
  let linked := stored.operate
    (.linkToGithubIssue (sampleIssue 10 1 "1" .open 1 none) [⟨0⟩] "o/r" 7 ⟨0⟩ 0)
  let read := linked.stackTracesToIndex .ascii sampleSha256 sampleNumberText 0 none 64
  { linked with work := read.map (⟨0, ·⟩) }

def sampleItem : WorkItem := ⟨0, ⟨⟨1⟩, .crash, some sampleDigest, true⟩⟩

def sampleMatched : Indexing :=
  { sampleRead with
    tables := { sampleRead.tables with
      database := (sampleRead.tables.database.storeStackSignatureAt 0
        sampleItem.trace 5).toOption.getD .empty }
    work := sampleRead.work.erase sampleItem }


theorem isReachable_sampleRead : sampleRead.IsReachable .ascii sampleSha256 sampleNumberText := by
  obtain ⟨definitions, version, hstart⟩ := isReachable_sampleStart
  refine ⟨definitions, version, hstart.run (Run.snoc (Run.snoc (Run.snoc (Run.snoc (Run.snoc
    (Run.single (step_acceptSample ?_ ?_ ?_)) (step_acceptSample ?_ ?_ ?_)) (step_storeSample 0))
    (step_storeSample 1)) (step_operate _ _ rfl)) (.read 0 none 64 le_rfl))⟩
  all_goals first | exact fun _ h => absurd h List.not_mem_nil | decide +kernel

/-- The second crash is matched to the issue of the first; whatever is done then, no indexing moves
it any more. -/
theorem matched_crash_stays :
    (∃ r ∈ sampleRead.tables.database.reports, r.id = ⟨1⟩ ∧ r.issueId = none) ∧
    Step .ascii sampleSha256 sampleNumberText sampleRead (.store sampleItem) sampleMatched ∧
    (∃ r ∈ sampleMatched.tables.database.reports, r.id = ⟨1⟩ ∧ r.issueId = some ⟨0⟩) ∧
    ∀ ls v, Run (Keeping .ascii sampleSha256 sampleNumberText ⟨1⟩) sampleMatched ls v →
      ∀ item v', Step .ascii sampleSha256 sampleNumberText v (.store item) v' →
        ∀ r ∈ v.tables.database.reports, r.id = ⟨1⟩ → r ∈ v'.tables.database.reports := by
  have hstep : Step .ascii sampleSha256 sampleNumberText sampleRead (.store sampleItem)
      sampleMatched := by
    refine .store sampleItem 5 _ (by decide +kernel) ?_
    exact eq_ok_of_isOk _ (by decide +kernel)
  obtain ⟨r, hr, hid, hissue⟩ :
      ∃ r ∈ sampleRead.tables.database.reports, r.id = ⟨1⟩ ∧ r.issueId = none := by decide +kernel
  have hmoved : ∀ r ∈ sampleMatched.tables.database.reports, r.id = ⟨1⟩ → r.issueId = some ⟨0⟩ := by
    decide +kernel
  have hnot : r ∉ sampleMatched.tables.database.reports := fun h => by
    rw [hmoved r h hid] at hissue
    cases hissue
  obtain ⟨-, hkeep⟩ := (isReachable_sampleRead.matched_once).2.2 sampleItem _ hstep r hr hnot
  rw [hid] at hkeep
  exact ⟨⟨r, hr, hid, hissue⟩, hstep, by decide +kernel, hkeep⟩

end Indexing

end LadybirdReports.Admin
