import LadybirdReports.Admin.MatchedOnce

/-!
# Signatures that are current

The signature of a report is derived from rows that others write. A report is looked at again as
long as it has no signature of the present version, or one that is still to be matched; what is
stored for one that is not looked at any more (`isSettled`) is right only as long as nobody writes
what it was derived from. The invariant (`Current`) says what every run keeps that leaves these rows
alone (`Leaves`).
-/

namespace LadybirdReports.Admin.Indexing

open Ingestion (StoredAttachment Submission Tables)
open Rust Transition

section

variable (u : Unicode) (sha256 : List UInt8 → Str) (numberText : JsonNumber → Str) (w : Indexing)

/-- The fingerprint stored for a report at the present version. -/
def storedFingerprint? (r : Report) : Option (Option String) :=
  (w.tables.database.signatures.find? fun s =>
    s.reportId = r.id && s.algorithmVersion = w.version).map (·.fingerprint)

/-- The fingerprint of its present fields and trace, under the present definitions. -/
def presentFingerprint? (r : Report) : Option (Option String) :=
  (w.trace? u sha256 numberText r).map (·.fingerprint)

/-- A scan finds nothing. -/
def Quiet : Prop :=
  w.stackTracesToIndex u sha256 numberText w.version none stackIndexBatchSize = []

/-! ## What is left alone -/

/-- The report has a signature of the present version. -/
def isSigned (r : Report) : Bool :=
  w.tables.database.signatures.any fun s =>
    s.reportId = r.id && s.algorithmVersion = w.version

/-- Its fields were read for the last time: it was matched under the present version, or a run of
that version is to store what it has read. -/
def isSettled (r : Report) : Bool :=
  (w.tables.database.signatures.any fun s =>
    s.reportId = r.id && s.algorithmVersion = w.version && s.matchedAt.isSome) ||
  w.work.any fun item => item.trace.reportId = r.id && item.version = w.version

/-- The step leaves alone what the signatures of reports that are settled were derived from: a
failure reason that says something is written only for others, the trace that is preferred changes
only for others, and no report that is signed is left without a trace. -/
def Leaves : Label → Prop
  | .accept s version =>
    version = w.version → s.request.stackSignature.isSome = true →
      (reportStackTrace w.definitions s.fields).isSome = true
  | .finishFailureReason report reason =>
    (∀ text ∈ reason, failureKey u text = none) ∨
    (fieldsOf w.tables report).any (·.key = failureReasonKey) = true ∨
    ∀ r ∈ w.tables.database.reports, r.id = report → w.isSettled r = false
  | .upsertFieldDefinition key label kind position =>
    ∀ r ∈ w.tables.database.reports,
      let trace (definitions : FieldDefinitions) : Option JsonValue :=
        (reportStackTrace definitions (fieldsOf w.tables r.id)).map (·.value)
      let definitions := upsertFieldDefinition w.definitions key label kind position
      (w.isSettled r = true → trace definitions = trace w.definitions) ∧
        (w.isSigned r = true → (trace definitions).isSome = true)
  | _ => True

/-- What is stored at the present version, or about to be, is what the rows say. -/
structure Current : Prop where
  reportIds : (w.tables.database.reports.map (·.id)).Nodup
  signatureVersions : ∀ s ∈ w.tables.database.signatures, s.algorithmVersion ≤ w.version
  workVersions : ∀ item ∈ w.work, item.version ≤ w.version
  owned : ∀ f ∈ w.tables.fields, ∃ r ∈ w.tables.database.reports, r.id = f.1
  signatureOwned : ∀ s ∈ w.tables.database.signatures,
    ∃ r ∈ w.tables.database.reports, r.id = s.reportId
  read : ∀ item ∈ w.work, item.version = w.version →
    ∀ r ∈ w.tables.database.reports, r.id = item.trace.reportId →
      w.trace? u sha256 numberText r = some item.trace
  signed : ∀ s ∈ w.tables.database.signatures, s.algorithmVersion = w.version →
    ∀ r ∈ w.tables.database.reports, r.id = s.reportId →
      ∃ trace, w.trace? u sha256 numberText r = some trace ∧
        (s.matchedAt.isSome = true → s.fingerprint = trace.fingerprint)

end

/-! ## What is derived from what -/

section

variable {u : Unicode} {sha256 : List UInt8 → Str} {numberText : JsonNumber → Str}
  {w w' : Indexing} {r r' : Report}

variable (u sha256 numberText) in
theorem indexedSignature_eq (kind : ReportKind) {rows : List StoredField}
    {definitions : FieldDefinitions} {row : StoredField}
    (h : reportStackTrace definitions rows = some row) :
    ∃ parsed, parseStackTrace u (row.value.text numberText) = .ok parsed ∧
      indexedSignature u sha256 numberText kind rows definitions =
        .ok (some ((indexedTexts numberText rows).fingerprint u sha256 kind parsed)) := by
  obtain ⟨parsed, hparsed⟩ := parseStackTrace_safe u (row.value.text numberText)
  refine ⟨parsed, hparsed, ?_⟩
  unfold indexedSignature
  rw [h]
  change (signatureOf u sha256 kind _ _ >>= fun signature => pure (some signature)) = _
  rw [signatureOf_eq _ hparsed]
  rfl

variable (u sha256 numberText w r) in
/-- A report has a trace in the rows exactly if one of its fields is a stack trace. -/
theorem trace?_isSome : (w.trace? u sha256 numberText r).isSome =
    (reportStackTrace w.definitions (fieldsOf w.tables r.id)).isSome := by
  unfold trace?
  cases h : reportStackTrace w.definitions (fieldsOf w.tables r.id) with
  | none =>
    unfold indexedSignature
    rw [h]
    rfl
  | some row =>
    obtain ⟨parsed, -, heq⟩ :=
      indexedSignature_eq u sha256 numberText r.kind h
    rw [heq]
    rfl

theorem trace?_reportId {trace : PendingStackTrace}
    (h : w.trace? u sha256 numberText r = some trace) : trace.reportId = r.id := by
  unfold trace? at h
  split at h
  · cases h
    rfl
  · cases h

/-- Nothing else is read for a trace. -/
theorem trace?_congr (hid : r'.id = r.id) (hkind : r'.kind = r.kind)
    (heligible : r'.autoMatchEligible = r.autoMatchEligible)
    (h : indexedSignature u sha256 numberText r.kind (fieldsOf w'.tables r.id) w'.definitions =
      indexedSignature u sha256 numberText r.kind (fieldsOf w.tables r.id) w.definitions) :
    w'.trace? u sha256 numberText r' = w.trace? u sha256 numberText r := by
  unfold trace?
  rw [hid, hkind, heligible, h]

/-- The row that a failure reason is written to. -/
def failureRow (text : Str) : StoredField := ⟨failureReasonKey, .text, .string text, false⟩

theorem fieldsOf_finishFailureReason {t : Tables} {report : ReportId} (text : Str)
    (hnone : (fieldsOf t report).any (·.key = failureReasonKey) = false) (id : ReportId) :
    fieldsOf (finishFailureReason t report (some text)) id =
      fieldsOf t id ++ if id = report then [failureRow text] else [] := by
  unfold finishFailureReason
  dsimp only
  rw [if_neg (by rw [hnone]; exact Bool.false_ne_true)]
  unfold fieldsOf
  rw [List.filter_append, List.map_append]
  congr 1
  by_cases hid : id = report
  · rw [if_pos hid, List.filter_cons_of_pos (by simp [hid])]
    rfl
  · rw [if_neg hid, List.filter_cons_of_neg (by simp [Ne.symm hid])]
    rfl

theorem finishFailureReason_eq_self {t : Tables} {report : ReportId} {reason : Option Str}
    (h : (fieldsOf t report).any (·.key = failureReasonKey) = true) :
    finishFailureReason t report reason = t := by
  cases reason with
  | none => rfl
  | some text => exact if_pos h

/-- A failure reason is no stack trace. -/
theorem reportStackTrace_append_failure (definitions : FieldDefinitions) (rows : List StoredField)
    (text : Str) :
    reportStackTrace definitions (rows ++ [failureRow text]) =
      reportStackTrace definitions rows := by
  unfold reportStackTrace
  rw [List.filter_append, List.filter_cons_of_neg (by simp [StoredField.isTrace, failureRow]),
    List.filter_nil, List.append_nil]

theorem fieldOf_append_of_ne {rows : List StoredField} (row : StoredField) {key : Str}
    (h : row.key ≠ key) : fieldOf (rows ++ [row]) key = fieldOf rows key := by
  unfold fieldOf
  rw [List.find?_append, List.find?_singleton, if_neg (by simpa using h), Option.or_none]

theorem fieldOf_append_of_none {rows : List StoredField} (row : StoredField)
    (h : rows.any (·.key = row.key) = false) : fieldOf (rows ++ [row]) row.key = some row := by
  have hnone : rows.find? (·.key = row.key) = none :=
    List.find?_eq_none.mpr fun o ho => by simpa using List.any_eq_false.mp h o ho
  unfold fieldOf
  rw [List.find?_append, hnone, List.find?_singleton]
  simp

/-- A failure reason that says nothing is not signed. -/
theorem fingerprint_of_failureKey_eq_none {kind : ReportKind} {process signal : Option Str}
    {text : Str} (h : failureKey u text = none) :
    SignatureTexts.fingerprint u sha256 kind ⟨process, signal, some text⟩ =
      SignatureTexts.fingerprint u sha256 kind ⟨process, signal, none⟩ := by
  funext parsed
  unfold SignatureTexts.fingerprint stackFingerprint
  simp only [Option.bind_some, h, Option.bind_none]

theorem indexedSignature_append_failure {kind : ReportKind} {rows : List StoredField}
    {definitions : FieldDefinitions} {text : Str} (hkey : failureKey u text = none)
    (hnone : rows.any (·.key = failureReasonKey) = false) :
    indexedSignature u sha256 numberText kind (rows ++ [failureRow text]) definitions =
      indexedSignature u sha256 numberText kind rows definitions := by
  have htexts : ∀ parsed,
      (indexedTexts numberText (rows ++ [failureRow text])).fingerprint u sha256 kind parsed =
        (indexedTexts numberText rows).fingerprint u sha256 kind parsed := by
    intro parsed
    have hfailure : fieldOf (rows ++ [failureRow text]) failureReasonKey =
        some (failureRow text) := fieldOf_append_of_none (failureRow text) hnone
    have hold : fieldOf rows failureReasonKey = none :=
      List.find?_eq_none.mpr fun o ho => by simpa using List.any_eq_false.mp hnone o ho
    unfold indexedTexts
    dsimp only
    rw [fieldOf_append_of_ne (failureRow text) (by decide : failureReasonKey ≠ processKey),
      fieldOf_append_of_ne (failureRow text) (by decide : failureReasonKey ≠ signalKey), hfailure,
      hold]
    exact congrFun (fingerprint_of_failureKey_eq_none hkey) parsed
  cases h : reportStackTrace definitions rows with
  | none =>
    unfold indexedSignature
    rw [reportStackTrace_append_failure, h]
  | some row =>
    have h' := (reportStackTrace_append_failure definitions rows text).trans h
    obtain ⟨parsed, hparsed, heq⟩ := indexedSignature_eq u sha256 numberText kind h
    obtain ⟨parsed', hparsed', heq'⟩ := indexedSignature_eq u sha256 numberText kind h'
    cases hparsed.symm.trans hparsed'
    rw [heq, heq', htexts]

/-- The definitions matter for which trace is preferred only. -/
theorem indexedSignature_congr {kind : ReportKind} {rows : List StoredField}
    {definitions definitions' : FieldDefinitions}
    (h : (reportStackTrace definitions' rows).map (·.value) =
      (reportStackTrace definitions rows).map (·.value)) :
    indexedSignature u sha256 numberText kind rows definitions' =
      indexedSignature u sha256 numberText kind rows definitions := by
  unfold indexedSignature
  cases hold : reportStackTrace definitions rows with
  | none =>
    rw [hold, Option.map_none, Option.map_eq_none_iff] at h
    rw [h]
  | some row =>
    rw [hold, Option.map_some, Option.map_eq_some_iff] at h
    obtain ⟨row', hrow', hvalue⟩ := h
    rw [hrow']
    simp only [hvalue]

/-! ## Every step -/

namespace Current

/-- Reports that keep their rows keep their traces. -/
theorem of_reports {db : Database} {work : List WorkItem} (hc : w.Current u sha256 numberText)
    (hids : (db.reports.map (·.id)).Nodup)
    (hreports : ∀ r' ∈ db.reports, ∃ r ∈ w.tables.database.reports, r'.id = r.id ∧
      r'.kind = r.kind ∧ r'.autoMatchEligible = r.autoMatchEligible)
    (howned : ∀ r ∈ w.tables.database.reports, ∃ r' ∈ db.reports, r'.id = r.id)
    (hsignatures : ∀ s ∈ db.signatures, s.algorithmVersion ≤ w.version ∧
      (∃ r ∈ w.tables.database.reports, r.id = s.reportId) ∧
      (s.algorithmVersion = w.version → ∀ r ∈ w.tables.database.reports, r.id = s.reportId →
        ∃ trace, w.trace? u sha256 numberText r = some trace ∧
          (s.matchedAt.isSome = true → s.fingerprint = trace.fingerprint)))
    (hwork : ∀ item ∈ work, item ∈ w.work) :
    Current u sha256 numberText
      { w with tables := { w.tables with database := db }, work := work } := by
  have htrace : ∀ r' ∈ db.reports, ∃ r ∈ w.tables.database.reports, r'.id = r.id ∧
      Indexing.trace? u sha256 numberText
        { w with tables := { w.tables with database := db }, work := work } r' =
        w.trace? u sha256 numberText r := by
    intro r' hr'
    obtain ⟨r, hr, hid, hkind, heligible⟩ := hreports r' hr'
    exact ⟨r, hr, hid, trace?_congr hid hkind heligible rfl⟩
  refine ⟨hids, fun s hs => (hsignatures s hs).1,
    fun item hi => hc.workVersions item (hwork item hi), fun f hf => ?_, fun s hs => ?_,
    fun item hi hversion r' hr' hid' => ?_, fun s hs hversion r' hr' hid' => ?_⟩
  · obtain ⟨r, hr, hid⟩ := hc.owned f hf
    obtain ⟨r', hr', hid'⟩ := howned r hr
    exact ⟨r', hr', hid'.trans hid⟩
  · obtain ⟨r, hr, hid⟩ := (hsignatures s hs).2.1
    obtain ⟨r', hr', hid'⟩ := howned r hr
    exact ⟨r', hr', hid'.trans hid⟩
  · obtain ⟨r, hr, hid, heq⟩ := htrace r' hr'
    rw [heq]
    exact hc.read item (hwork item hi) hversion r hr (hid.symm.trans hid')
  · obtain ⟨r, hr, hid, heq⟩ := htrace r' hr'
    rw [heq]
    exact (hsignatures s hs).2.2 hversion r hr (hid.symm.trans hid')

theorem review {db : Database} {change : Report → Report} (hc : w.Current u sha256 numberText)
    (h : Review w.tables.database db change) :
    Current u sha256 numberText { w with tables := { w.tables with database := db } } := by
  refine hc.of_reports ?_ (fun r' hr' => ?_) (fun r hr => ?_) (fun s hs => ?_) fun _ h => h
  · rw [h.reports, List.map_map]
    exact (List.map_congr_left fun r _ => h.id r : _ = w.tables.database.reports.map (·.id)) ▸
      hc.reportIds
  · rw [h.reports] at hr'
    obtain ⟨r, hr, rfl⟩ := List.mem_map.mp hr'
    exact ⟨r, hr, h.id r, h.kind r, h.autoMatchEligible r⟩
  · exact ⟨change r, h.reports ▸ List.mem_map_of_mem hr, h.id r⟩
  · rw [h.signatures] at hs
    exact ⟨hc.signatureVersions s hs, hc.signatureOwned s hs, hc.signed s hs⟩

theorem store {item : WorkItem} {now : Timestamp} {db : Database}
    (hc : w.Current u sha256 numberText) (hitem : item ∈ w.work)
    (h : w.tables.database.storeStackSignatureAt item.version item.trace now = .ok db) :
    Current u sha256 numberText
      { w with tables := { w.tables with database := db }, work := w.work.erase item } := by
  have hstored := Database.stored_of_ok h
  obtain ⟨g, hg, hreports, -⟩ := hstored.reports
  have hput : ∀ r, (g r).id = r.id ∧ (g r).kind = r.kind ∧
      (g r).autoMatchEligible = r.autoMatchEligible := by
    intro r
    obtain ⟨o, s, f, heq⟩ := hg.put r
    rw [heq]
    exact ⟨rfl, rfl, rfl⟩
  refine hc.of_reports ?_ (fun r' hr' => ?_) (fun r hr => ?_) (fun s hs => ?_)
    fun _ hi => List.mem_of_mem_erase hi
  · rw [hreports, List.map_map]
    exact (List.map_congr_left fun r _ => (hput r).1 : _ = w.tables.database.reports.map (·.id)) ▸
      hc.reportIds
  · rw [hreports] at hr'
    obtain ⟨r, hr, rfl⟩ := List.mem_map.mp hr'
    exact ⟨r, hr, hput r⟩
  · exact ⟨g r, hreports ▸ List.mem_map_of_mem hr, (hput r).1⟩
  · rcases hstored.signatures hs with ⟨hold, -⟩ | ⟨hid, hversion, hfingerprint⟩
    · exact ⟨hc.signatureVersions s hold, hc.signatureOwned s hold, hc.signed s hold⟩
    · refine ⟨hversion ▸ hc.workVersions item hitem, ?_, fun hpresent r hr hrid => ?_⟩
      · obtain ⟨r, hr, hrid⟩ := Database.exists_report_of_store h
        exact ⟨r, hr, hrid.trans hid.symm⟩
      refine ⟨item.trace, hc.read item hitem (hversion.symm.trans hpresent) r hr (hrid.trans hid),
        fun _ => hfingerprint⟩

/-- What is written next to the reports, signatures and work changes traces only. -/
theorem of_traces {tables : Tables} {definitions : FieldDefinitions}
    (hc : w.Current u sha256 numberText) (hdatabase : tables.database = w.tables.database)
    (howned : ∀ f ∈ tables.fields, ∃ r ∈ w.tables.database.reports, r.id = f.1)
    (hsettled : ∀ r ∈ w.tables.database.reports, w.isSettled r = true →
      Indexing.trace? u sha256 numberText
        { w with tables := tables, definitions := definitions } r = w.trace? u sha256 numberText r)
    (hsigned : ∀ r ∈ w.tables.database.reports, w.isSigned r = true →
      (Indexing.trace? u sha256 numberText
        { w with tables := tables, definitions := definitions } r).isSome = true) :
    Current u sha256 numberText { w with tables := tables, definitions := definitions } := by
  refine ⟨?_, ?_, hc.workVersions, ?_, ?_, ?_, ?_⟩
  all_goals dsimp only; rw [hdatabase]
  · exact hc.reportIds
  · exact hc.signatureVersions
  · exact howned
  · exact hc.signatureOwned
  · intro item hi hversion r hr hid
    refine (hsettled r hr ?_).trans (hc.read item hi hversion r hr hid)
    exact Bool.or_eq_true_iff.mpr (.inr (List.any_eq_true.mpr ⟨item, hi, by simp [hid, hversion]⟩))
  · intro s hs hversion r hr hid
    obtain ⟨trace, htrace, hmatched⟩ := hc.signed s hs hversion r hr hid
    cases hm : s.matchedAt.isSome with
    | false =>
      have hsome := hsigned r hr (List.any_eq_true.mpr ⟨s, hs, by simp [hid, hversion]⟩)
      obtain ⟨trace', htrace'⟩ := Option.isSome_iff_exists.mp hsome
      exact ⟨trace', htrace', fun h => absurd h Bool.false_ne_true⟩
    | true =>
      refine ⟨trace, (hsettled r hr ?_).trans htrace, fun _ => hmatched hm⟩
      exact Bool.or_eq_true_iff.mpr
        (.inl (List.any_eq_true.mpr ⟨s, hs, by simp [hid, hversion, hm]⟩))

theorem finishFailureReason {r : Report} {reason : Option Str} (hc : w.Current u sha256 numberText)
    (hr : r ∈ w.tables.database.reports)
    (hleaves : w.Leaves u (.finishFailureReason r.id reason)) :
    Current u sha256 numberText
      { w with tables := Admin.finishFailureReason w.tables r.id reason } := by
  by_cases hkept : (fieldsOf w.tables r.id).any (·.key = failureReasonKey) = true
  · rwa [finishFailureReason_eq_self hkept]
  cases reason with
  | none => exact hc
  | some text =>
    have hnone := Bool.eq_false_iff.mpr hkept
    have hfields := fieldsOf_finishFailureReason text hnone
    refine hc.of_traces finishFailureReason_database (fun f hf => ?_) (fun r' hr' hsettled => ?_)
      fun r' hr' hsigned => ?_
    · unfold Admin.finishFailureReason at hf
      dsimp only at hf
      rw [if_neg hkept] at hf
      rcases List.mem_append.mp hf with hf | hf
      · exact hc.owned f hf
      · rw [List.mem_singleton.mp hf]
        exact ⟨r, hr, rfl⟩
    · refine trace?_congr rfl rfl rfl ?_
      dsimp only
      rw [hfields]
      by_cases hid : r'.id = r.id
      · rw [if_pos hid, hid]
        rcases hleaves with hkey | hkept' | hother
        · exact indexedSignature_append_failure (hkey text rfl) hnone
        · exact absurd hkept' hkept
        · rw [hother r' hr' hid] at hsettled
          cases hsettled
      · rw [if_neg hid, List.append_nil]
    · obtain ⟨s, hs, h⟩ := List.any_eq_true.mp hsigned
      simp only [Bool.and_eq_true, decide_eq_true_eq] at h
      obtain ⟨trace, htrace, -⟩ := hc.signed s hs h.2 r' hr' h.1.symm
      have hsome := trace?_isSome u sha256 numberText w r'
      rw [htrace] at hsome
      rw [trace?_isSome, hfields]
      by_cases hid : r'.id = r.id
      · rw [if_pos hid, reportStackTrace_append_failure, ← hsome]
        rfl
      · rw [if_neg hid, List.append_nil, ← hsome]
        rfl

theorem upsertFieldDefinition {key label : Str} {kind : FieldKind} {position : ℤ}
    (hc : w.Current u sha256 numberText)
    (hleaves : w.Leaves u (.upsertFieldDefinition key label kind position)) :
    Current u sha256 numberText
      { w with
        definitions := Admin.upsertFieldDefinition w.definitions key label kind position } := by
  refine hc.of_traces rfl hc.owned (fun r hr hsettled => ?_) fun r hr hsigned => ?_
  · exact trace?_congr rfl rfl rfl (indexedSignature_congr ((hleaves r hr).1 hsettled))
  · rw [trace?_isSome]
    exact Option.isSome_map.symm.trans ((hleaves r hr).2 hsigned)

theorem deleteReport (report : ReportId) (hc : w.Current u sha256 numberText) :
    Current u sha256 numberText { w with tables := w.tables.deleteReport report } := by
  have hmem : ∀ {r}, r ∈ (w.tables.deleteReport report).database.reports →
      r ∈ w.tables.database.reports ∧ r.id ≠ report := fun hr => by
    obtain ⟨hr, hne⟩ := List.mem_filter.mp hr
    exact ⟨hr, of_decide_eq_true hne⟩
  have htrace : ∀ {r}, r ∈ (w.tables.deleteReport report).database.reports →
      Indexing.trace? u sha256 numberText { w with tables := w.tables.deleteReport report } r =
        w.trace? u sha256 numberText r := by
    intro r hr
    have hfields : fieldsOf (w.tables.deleteReport report) r.id = fieldsOf w.tables r.id := by
      unfold fieldsOf Tables.deleteReport
      rw [List.filter_filter]
      refine congrArg (List.map Prod.snd) (List.filter_congr fun f _ => ?_)
      by_cases hf : f.1 = r.id
      · simp [hf, (hmem hr).2]
      · simp [hf]
    refine trace?_congr rfl rfl rfl ?_
    dsimp only
    rw [hfields]
  refine ⟨hc.reportIds.sublist (List.filter_sublist.map _),
    fun s hs => hc.signatureVersions s (List.mem_of_mem_filter hs), hc.workVersions,
    fun f hf => ?_, fun s hs => ?_, fun item hi hversion r hr hid => ?_,
    fun s hs hversion r hr hid => ?_⟩
  · obtain ⟨hf, hne⟩ := List.mem_filter.mp hf
    obtain ⟨r, hr, hid⟩ := hc.owned f hf
    exact ⟨r, List.mem_filter.mpr ⟨hr, by simpa [hid] using hne⟩, hid⟩
  · obtain ⟨hs, hne⟩ := List.mem_filter.mp hs
    obtain ⟨r, hr, hid⟩ := hc.signatureOwned s hs
    exact ⟨r, List.mem_filter.mpr ⟨hr, by simpa [hid] using hne⟩, hid⟩
  · rw [htrace hr]
    exact hc.read item hi hversion r (hmem hr).1 hid
  · rw [htrace hr]
    exact hc.signed s (List.mem_of_mem_filter hs) hversion r (hmem hr).1 hid

theorem release {version : ℕ} (hc : w.Current u sha256 numberText)
    (hversion : w.version < version) :
    Current u sha256 numberText { w with version := version } := by
  refine ⟨hc.reportIds, fun s hs => (hc.signatureVersions s hs).trans hversion.le,
    fun item hi => (hc.workVersions item hi).trans hversion.le, hc.owned, hc.signatureOwned,
    fun item hi heq => ?_, fun s hs heq => ?_⟩
  · have hle := hc.workVersions item hi
    have heq : item.version = version := heq
    omega
  · have hle := hc.signatureVersions s hs
    have heq : s.algorithmVersion = version := heq
    omega

theorem of_work {work : List WorkItem} (hc : w.Current u sha256 numberText)
    (hwork : ∀ item ∈ work, item ∈ w.work ∨ (item.version ≤ w.version ∧
      ∃ r ∈ w.tables.database.reports, w.trace? u sha256 numberText r = some item.trace)) :
    Current u sha256 numberText { w with work := work } := by
  refine ⟨hc.reportIds, hc.signatureVersions, fun item hi => ?_, hc.owned,
    hc.signatureOwned, fun item hi hversion r hr hid => ?_, hc.signed⟩
  · rcases hwork item hi with hold | ⟨hle, -⟩
    · exact hc.workVersions item hold
    · exact hle
  · rcases hwork item hi with hold | ⟨-, r', hr', htrace⟩
    · exact hc.read item hold hversion r hr hid
    · have hsame : r = r' := List.inj_on_of_nodup_map hc.reportIds hr hr'
        (hid.trans (trace?_reportId htrace))
      exact hsame ▸ htrace

theorem accept {s : Submission} {version : ℕ} {now : Timestamp} {tables : Tables}
    (hc : w.Current u sha256 numberText) (hversion : version ≤ w.version)
    (hnew : ∀ item ∈ w.work, item.trace.reportId ≠ s.request.reportId)
    (haccepted : Accepted w.tables version s now tables)
    (hleaves : w.Leaves u (.accept s version)) :
    Current u sha256 numberText { w with tables := tables } := by
  have hnewId : (s.request.report now).id = s.request.reportId := rfl
  have hfields : ∀ id, fieldsOf tables id =
      fieldsOf w.tables id ++ if id = s.request.reportId then s.fields else [] := by
    intro id
    unfold fieldsOf
    rw [haccepted.fields, List.filter_append, List.map_append]
    congr 1
    by_cases h : id = s.request.reportId
    · rw [if_pos h, List.filter_eq_self.mpr (by simp [h]), List.map_map]
      exact List.map_id _
    · rw [if_neg h, List.filter_eq_nil_iff.mpr (by simp [Ne.symm h])]
      rfl
  have hunowned : fieldsOf w.tables s.request.reportId = [] := by
    unfold fieldsOf
    rw [List.filter_eq_nil_iff.mpr fun f hf => ?_]
    · rfl
    · obtain ⟨r, hr, hrid⟩ := hc.owned f hf
      have hne := haccepted.fresh r hr
      simpa [← hrid] using hne
  have htrace : ∀ r ∈ w.tables.database.reports,
      Indexing.trace? u sha256 numberText { w with tables := tables } r =
        w.trace? u sha256 numberText r := by
    intro r hr
    refine trace?_congr rfl rfl rfl ?_
    dsimp only
    rw [hfields, if_neg (haccepted.fresh r hr), List.append_nil]
  have hmem : ∀ {r}, r ∈ tables.database.reports →
      r ∈ w.tables.database.reports ∨ r = s.request.report now := fun hr => by
    rw [haccepted.reports] at hr
    exact (List.mem_append.mp hr).imp_right List.mem_singleton.mp
  have hrow : ∀ {o}, o ∈ tables.database.signatures → o ∈ w.tables.database.signatures ∨
      (o.reportId = s.request.reportId ∧ o.algorithmVersion = version ∧ o.matchedAt = none ∧
        s.request.stackSignature.isSome = true) := by
    intro o ho
    rw [haccepted.signatures] at ho
    refine (List.mem_append.mp ho).imp_right fun ho => ?_
    obtain ⟨fingerprint, hf, rfl⟩ := List.mem_map.mp ho
    exact ⟨rfl, rfl, rfl, Option.isSome_of_mem (Option.mem_toList.mp hf)⟩
  refine ⟨?_, fun o ho => ?_, hc.workVersions, fun f hf => ?_, fun o ho => ?_,
    fun item hi hv r hr hrid => ?_, fun o ho hv r hr hrid => ?_⟩
  · dsimp only
    rw [haccepted.reports, List.map_append, List.nodup_append]
    refine ⟨hc.reportIds, List.nodup_singleton _, fun id hid' id' hid'' heq => ?_⟩
    obtain ⟨r, hr, rfl⟩ := List.mem_map.mp hid'
    obtain rfl := List.mem_singleton.mp hid''
    exact haccepted.fresh r hr heq
  · rcases hrow ho with hold | ⟨-, hv, -⟩
    · exact hc.signatureVersions o hold
    · exact hv ▸ hversion
  · dsimp only at hf ⊢
    rw [haccepted.fields] at hf
    rw [haccepted.reports]
    rcases List.mem_append.mp hf with hf | hf
    · obtain ⟨r, hr, hrid⟩ := hc.owned f hf
      exact ⟨r, List.mem_append_left _ hr, hrid⟩
    · obtain ⟨row, -, rfl⟩ := List.mem_map.mp hf
      exact ⟨_, List.mem_append_right _ (List.mem_singleton_self _), rfl⟩
  · dsimp only
    rw [haccepted.reports]
    rcases hrow ho with hold | ⟨hid, -⟩
    · obtain ⟨r, hr, hrid⟩ := hc.signatureOwned o hold
      exact ⟨r, List.mem_append_left _ hr, hrid⟩
    · exact ⟨_, List.mem_append_right _ (List.mem_singleton_self _), hid.symm⟩
  · rcases hmem hr with hold | rfl
    · exact (htrace r hold).trans (hc.read item hi hv r hold hrid)
    · exact absurd hrid.symm (hnew item hi)
  · rcases hrow ho with hold | ⟨hid, hnow, hnone, hsome⟩
    · obtain ⟨r', hr', hrid'⟩ := hc.signatureOwned o hold
      rcases hmem hr with hrold | rfl
      · rw [htrace r hrold]
        exact hc.signed o hold hv r hrold hrid
      · exact absurd (hrid'.trans hrid.symm) (haccepted.fresh r' hr')
    · rcases hmem hr with hrold | rfl
      · exact absurd (hrid.trans hid) (haccepted.fresh r hrold)
      · have htraced := hleaves (hnow.symm.trans hv) hsome
        have hrows : fieldsOf tables (s.request.report now).id = s.fields := by
          rw [hnewId, hfields, hunowned, if_pos rfl, List.nil_append]
        rw [← hrows, ← trace?_isSome u sha256 numberText { w with tables := tables }] at htraced
        obtain ⟨trace, h⟩ := Option.isSome_iff_exists.mp htraced
        refine ⟨trace, h, fun hm => ?_⟩
        rw [hnone] at hm
        cases hm

end Current

theorem mem_stackTracesToIndex {version limit : ℕ} {report : Option ReportId}
    {trace : PendingStackTrace}
    (h : trace ∈ w.stackTracesToIndex u sha256 numberText version report limit) :
    ∃ r ∈ w.tables.database.reports, w.trace? u sha256 numberText r = some trace := by
  unfold stackTracesToIndex at h
  obtain ⟨r, hr, htrace⟩ := List.mem_filterMap.mp h
  have hr := (List.mem_insertionSort _).mp (List.mem_of_mem_take hr)
  exact ⟨r, List.mem_of_mem_filter hr, htrace⟩

theorem Step.current {l : Label} (h : Step u sha256 numberText w l w') (hleaves : w.Leaves u l)
    (hc : w.Current u sha256 numberText) : w'.Current u sha256 numberText := by
  cases h with
  | accept s version fields definitions signature now tables hversion hnew _ _ _ haccept =>
    exact hc.accept hversion hnew (accepted_of_ok haccept) hleaves
  | deleteReport report => exact hc.deleteReport report
  | finishFailureReason r a reason hr => exact hc.finishFailureReason hr hleaves
  | upsertFieldDefinition key label kind position => exact hc.upsertFieldDefinition hleaves
  | release version hversion => exact hc.release hversion
  | read version report limit hversion =>
    refine hc.of_work fun item hi => (List.mem_append.mp hi).imp_right fun hi => ?_
    obtain ⟨trace, htrace, rfl⟩ := List.mem_map.mp hi
    exact ⟨hversion, mem_stackTracesToIndex htrace⟩
  | store item now db hitem hstore => exact hc.store hitem hstore
  | giveUp item => exact hc.of_work fun _ hi => .inl (List.mem_of_mem_erase hi)
  | review db change hreview => exact hc.review hreview

theorem current_init (definitions : FieldDefinitions) (version : ℕ) :
    (init definitions version).Current u sha256 numberText := by
  refine ⟨List.nodup_nil, ?_, ?_, ?_, ?_, ?_, ?_⟩ <;> exact fun _ h => absurd h List.not_mem_nil

/-! ## With nothing to be indexed -/

/-- A scan that finds nothing has looked at every report. -/
theorem Quiet.trace?_eq_none (h : w.Quiet u sha256 numberText)
    (hr : r ∈ w.tables.database.reports) (hawaits : w.awaitsIndexing w.version r = true) :
    w.trace? u sha256 numberText r = none := by
  by_contra hsome
  unfold Quiet stackTracesToIndex at h
  dsimp only at h
  set rows := w.tables.database.reports.filter fun r => (none : Option ReportId).all (· = r.id) &&
    w.awaitsIndexing w.version r && (w.trace? u sha256 numberText r).isSome with hrows
  have hmem : r ∈ rows.insertionSort (indexedBefore · ·) := by
    rw [List.mem_insertionSort, hrows, List.mem_filter]
    exact ⟨hr, by simp [hawaits, Option.isSome_iff_ne_none.mpr hsome]⟩
  have hall : ∀ r' ∈ rows.insertionSort (indexedBefore · ·),
      (w.trace? u sha256 numberText r').isSome = true := by
    intro r' hr'
    rw [List.mem_insertionSort, hrows, List.mem_filter] at hr'
    exact (Bool.and_eq_true_iff.mp hr'.2).2
  cases hsorted : rows.insertionSort (indexedBefore · ·) with
  | nil => rw [hsorted] at hmem; cases hmem
  | cons first rest =>
    rw [hsorted] at h hall
    obtain ⟨trace, htrace⟩ := Option.isSome_iff_exists.mp (hall first List.mem_cons_self)
    have hin : trace ∈ ((first :: rest).take stackIndexBatchSize).filterMap
        (w.trace? u sha256 numberText) :=
      List.mem_filterMap.mpr ⟨first, List.mem_cons_self, htrace⟩
    rw [h] at hin
    cases hin

theorem Current.stored_eq_present (hc : w.Current u sha256 numberText)
    (hkeys : (w.tables.database.signatures.map (·.reportId)).Nodup)
    (hquiet : w.Quiet u sha256 numberText) (hr : r ∈ w.tables.database.reports)
    (hready : r.ready = true) :
    w.storedFingerprint? r = w.presentFingerprint? u sha256 numberText r := by
  unfold storedFingerprint? presentFingerprint?
  cases hfind : w.tables.database.signatures.find? fun s =>
      s.reportId = r.id && s.algorithmVersion = w.version with
  | none =>
    have hawaits : w.awaitsIndexing w.version r = true := by
      refine Bool.and_eq_true_iff.mpr ⟨hready, List.all_eq_true.mpr fun s hs => ?_⟩
      have hno := List.find?_eq_none.mp hfind s hs
      by_cases hid : s.reportId = r.id
      · simp [hid] at hno
        simp [hno]
      · simp [hid]
    rw [hquiet.trace?_eq_none hr hawaits]
    rfl
  | some s =>
    have hs := List.mem_of_find?_eq_some hfind
    have hrow := List.find?_some hfind
    simp only [Bool.and_eq_true, decide_eq_true_eq] at hrow
    obtain ⟨trace, htrace, hmatched⟩ := hc.signed s hs hrow.2 r hr hrow.1.symm
    rw [htrace]
    cases hm : s.matchedAt.isSome with
    | true => exact congrArg some (hmatched hm)
    | false =>
      have hawaits : w.awaitsIndexing w.version r = true := by
        refine Bool.and_eq_true_iff.mpr ⟨hready, List.all_eq_true.mpr fun o ho => ?_⟩
        by_cases hid : o.reportId = r.id
        · obtain rfl := List.inj_on_of_nodup_map hkeys ho hs (hid.trans hrow.1.symm)
          rw [← Option.not_isSome, hm]
          simp
        · simp [hid]
      rw [hquiet.trace?_eq_none hr hawaits] at htrace
      cases htrace

variable (u sha256 numberText) in
/-- The steps that leave alone what the signatures of settled reports were derived from. -/
abbrev Leaving := Where (fun w l => w.Leaves u l) (Step u sha256 numberText)

/-- In every run that leaves these rows alone, the signatures of all reports that are ready are
those of their present fields and traces whenever a scan finds nothing. -/
theorem signatures_current_of_run {definitions : FieldDefinitions} {version : ℕ} {ls : List Label}
    (h : Run (Leaving u sha256 numberText) (init definitions version) ls w)
    (hquiet : w.Quiet u sha256 numberText) :
    ∀ r ∈ w.tables.database.reports, r.ready = true →
      w.storedFingerprint? r = w.presentFingerprint? u sha256 numberText r := by
  have hkeys := h.invariant
    (I := fun v => v.Current u sha256 numberText ∧
      (v.tables.database.signatures.map (·.reportId)).Nodup)
    (fun _ _ _ hv hstep => ⟨hstep.2.current hstep.1 hv.1, hstep.2.nodup hv.2⟩)
    ⟨current_init definitions version, List.nodup_nil⟩
  exact fun r hr hready => hkeys.1.stored_eq_present hkeys.2 hquiet hr hready

end

/-! ## A failure reason, in time and late -/

def sampleReason : Str := "Verification failed: false".toList

/-- A crash whose stack has nothing in it. -/
def sampleStored : Indexing := (sampleStart.acceptSample 0 "x".toList none 0).storeSample 0

def sampleCrash : Report :=
  { (sampleReport 0 "x".toList none).request.report 0 with storageState := .ready }

/-- Its diagnostics are read. -/
def backfill (w : Indexing) : Indexing :=
  { w with tables := Admin.finishFailureReason w.tables ⟨0⟩ (some sampleReason) }

/-- A run reads it, and stores its signature. -/
def indexed (w : Indexing) (fingerprint : Option String) : Indexing :=
  { w with tables := { w.tables with
      database := (w.tables.database.storeStackSignatureAt 0 ⟨⟨0⟩, .crash, fingerprint, true⟩
        5).toOption.getD .empty } }

theorem run_sampleStored :
    Run (Leaving .ascii sampleSha256 sampleNumberText) (init (fun _ => none) 0)
      [.review, .accept (sampleReport 0 "x".toList none) 0, .review] sampleStored := by
  refine .snoc (.snoc (.single ⟨trivial, .review sampleStart.tables.database id ?_⟩)
    ⟨fun _ _ => ?_, step_acceptSample ?_ ?_ ?_⟩) ⟨trivial, step_storeSample 0⟩
  · exact ⟨rfl, rfl, fun _ => rfl, fun _ => rfl, fun _ => rfl, fun _ => rfl, fun _ h => h⟩
  · decide
  · exact fun _ h => absurd h List.not_mem_nil
  · decide +kernel
  · decide +kernel

theorem step_backfill {w : Indexing} (hr : sampleCrash ∈ w.tables.database.reports)
    (ha : w.tables.attachments = sampleStored.tables.attachments) :
    Step .ascii sampleSha256 sampleNumberText w (.finishFailureReason ⟨0⟩ (some sampleReason))
      w.backfill := by
  refine .finishFailureReason sampleCrash
    ⟨⟨0⟩, "a", "crash-diagnostics.txt", "text/plain", 1, sampleDigest⟩ (some sampleReason) hr rfl
    ?_ rfl rfl
  rw [ha]
  decide +kernel

/-- A run of the only report there is. -/
theorem run_indexed {w : Indexing} {fingerprint : Option String} (hwork : w.work = [])
    (hread : w.stackTracesToIndex .ascii sampleSha256 sampleNumberText 0 none 50 =
      [⟨⟨0⟩, .crash, fingerprint, true⟩])
    (hstore : (w.tables.database.storeStackSignatureAt 0 ⟨⟨0⟩, .crash, fingerprint, true⟩ 5).isOk =
      true) :
    Run (Leaving .ascii sampleSha256 sampleNumberText) w
      [.read, .store ⟨0, ⟨⟨0⟩, .crash, fingerprint, true⟩⟩] (w.indexed fingerprint) := by
  let item : WorkItem := ⟨0, ⟨⟨0⟩, .crash, fingerprint, true⟩⟩
  have hfirst : Step .ascii sampleSha256 sampleNumberText w .read { w with work := [item] } := by
    have hstep : Step .ascii sampleSha256 sampleNumberText w .read _ :=
      .read 0 none 50 (Nat.zero_le _)
    rwa [hread, hwork] at hstep
  have hlast : Step .ascii sampleSha256 sampleNumberText { w with work := [item] } (.store item)
      (w.indexed fingerprint) := by
    have hstep :
        Step .ascii sampleSha256 sampleNumberText { w with work := [item] } (.store item) _ :=
      .store item 5 _ List.mem_cons_self (eq_ok_of_isOk .empty hstore)
    have hdone : [item].erase item = w.work := by rw [List.erase_cons_head, hwork]
    rwa [hdone] at hstep
  exact .snoc (.single ⟨trivial, hfirst⟩) ⟨trivial, hlast⟩

/-- A failure reason that is written before the report is indexed is signed. -/
theorem early_reason_is_signed :
    ∃ ls w, Run (Leaving .ascii sampleSha256 sampleNumberText) (init (fun _ => none) 0) ls w ∧
      w.Quiet .ascii sampleSha256 sampleNumberText ∧
      (∃ r ∈ w.tables.database.reports, r.ready = true ∧
        w.presentFingerprint? .ascii sampleSha256 sampleNumberText r = some (some sampleDigest)) ∧
      ∀ r ∈ w.tables.database.reports, r.ready = true →
        w.storedFingerprint? r = w.presentFingerprint? .ascii sampleSha256 sampleNumberText r := by
  have hearly : Leaving .ascii sampleSha256 sampleNumberText sampleStored
      (.finishFailureReason ⟨0⟩ (some sampleReason)) sampleStored.backfill :=
    ⟨.inr (.inr (by decide +kernel)), step_backfill (by decide +kernel) rfl⟩
  obtain ⟨ls, hrun⟩ : Reachable (Leaving .ascii sampleSha256 sampleNumberText)
      (init (fun _ => none) 0) (sampleStored.backfill.indexed (some sampleDigest)) := by
    refine ⟨_, (Run.snoc run_sampleStored hearly).append (run_indexed ?_ ?_ ?_)⟩
    all_goals decide +kernel
  have hquiet : (sampleStored.backfill.indexed (some sampleDigest)).Quiet .ascii sampleSha256
      sampleNumberText := by
    unfold Quiet
    decide +kernel
  exact ⟨_, _, hrun, hquiet, by decide +kernel, signatures_current_of_run hrun hquiet⟩

/-- One that is written later is not, and nothing is left to be indexed. -/
theorem late_reason_is_not_signed : ¬∀ w : Indexing,
    w.IsReachable .ascii sampleSha256 sampleNumberText → w.work = [] →
      w.Quiet .ascii sampleSha256 sampleNumberText →
      ∀ r ∈ w.tables.database.reports, r.ready = true →
        w.storedFingerprint? r = w.presentFingerprint? .ascii sampleSha256 sampleNumberText r := by
  intro hclaim
  have hrun : Reachable (Leaving .ascii sampleSha256 sampleNumberText) (init (fun _ => none) 0)
      (sampleStored.indexed none) := by
    refine ⟨_, run_sampleStored.append (run_indexed ?_ ?_ ?_)⟩
    all_goals decide +kernel
  have hlate : Step .ascii sampleSha256 sampleNumberText (sampleStored.indexed none)
      (.finishFailureReason ⟨0⟩ (some sampleReason)) (sampleStored.indexed none).backfill :=
    step_backfill (by decide +kernel) (by decide +kernel)
  have hreach : (sampleStored.indexed none).backfill.IsReachable .ascii sampleSha256
      sampleNumberText :=
    let ⟨_, h⟩ := hrun
    ⟨_, _, _, .snoc (h.mono fun _ _ _ h => h.2) hlate⟩
  have hstored := hclaim _ hreach (by decide +kernel) (by unfold Quiet; decide +kernel) sampleCrash
    (by decide +kernel) rfl
  revert hstored
  decide +kernel

end LadybirdReports.Admin.Indexing
