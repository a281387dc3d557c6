import LadybirdReports.Admin.History
import LadybirdReports.Admin.Reports
import LadybirdReports.Lib.Run

/-!
# A report and its issue at the same time

One transaction restores a report or links it to an issue, while another brings the issue in line
with GitHub. The statements of both come in any order that the row locks allow: the first locks the
report, the second locks the issue, and a new link takes a key share lock of the issue, when its row
is written. A statement sees what was committed before it, and what its own transaction wrote; so do
the statements of a trigger, one by one. The advisory lock of issues orders nothing here: neither
`set_report_state` nor the synchronisation takes it.

Where neither reads what the other is about to change, the report follows the issue in the end and
its history says so (`report_follows_after_both`).
-/

namespace LadybirdReports.Admin.Interleaving

open Transition

/-! ## The transactions -/

/-- What is asked for of the report. -/
inductive Request
  /-- `set_report_state` to confirmed. -/
  | restore
  /-- `link_report`. -/
  | link
  deriving DecidableEq, Repr

/-- How far the transaction of the report is, with what it read and wrote. -/
inductive OperationPhase
  | begin
  | locked (previous : Standing)
  | read (previous : Standing) (target : ReportState)
  | updated (previous : Standing) (target : ReportState) (row : Standing)
  /-- The foreign key of the row is checked. -/
  | checked (previous : Standing) (target : ReportState) (row : Standing)
  | audited (previous : Standing) (row : Standing) (entries : List HistoryEntry)
  /-- There is nothing to change. -/
  | unchanged
  | committed
  | failed
  deriving DecidableEq, Repr

/-- How far the transaction of the issue is. -/
inductive SyncPhase
  | begin
  | locked
  | updated
  /-- The statement of the trigger has taken its snapshot, in which the report is one of its rows or
  not. -/
  | scanned (matched : Bool)
  /-- What the trigger wrote of the report. -/
  | followed (change : Option (Standing × HistoryEntry))
  | committed
  deriving DecidableEq, Repr

/-- What is committed, and where the transactions are. -/
structure World where
  issue : IssueState
  report : Standing
  entries : List HistoryEntry
  operation : OperationPhase
  sync : SyncPhase
  deriving DecidableEq, Repr

/-- The transaction of the report holds the lock of its row. -/
def OperationPhase.holdsReport : OperationPhase → Bool
  | .begin | .committed | .failed => false
  | _ => true

/-- The transaction of the report holds a key share lock of the issue. -/
def OperationPhase.holdsKey : OperationPhase → Bool
  | .checked previous _ row | .audited previous row _ => row.2 ≠ previous.2
  | _ => false

/-- The transaction of the issue holds the lock of its row. -/
def SyncPhase.holdsIssue : SyncPhase → Bool
  | .begin | .committed => false
  | _ => true

/-- The transaction of the issue holds the lock of the report. -/
def SyncPhase.holdsReport : SyncPhase → Bool
  | .followed (some _) => true
  | _ => false

/-! ## The statements -/

inductive Statement
  | lockReport
  | readIssue
  | updateReport
  | checkKey
  | auditReport
  | commitOperation
  | lockIssue
  | updateIssue
  | scanReports
  | followReport
  | commitSync
  deriving DecidableEq, Repr

section

variable (request : Request) (issueId : IssueId) (next : IssueState)

/-- `SELECT … FROM reports WHERE id = $1 FOR UPDATE`, with the checks that need no issue. -/
def lockReport (w : World) : OperationPhase :=
  match request with
  | .link => .locked w.report
  | .restore =>
    if w.report.1 = .confirmed then .unchanged
    else match checkStateChange w.report.1 .confirmed w.report.2 with
      | .ok _ => .locked w.report
      | .error _ => .failed

/-- `SELECT state FROM issues WHERE id = $1`. -/
def readIssue (w : World) (previous : Standing) : OperationPhase :=
  let target := IssueState.reportState (some w.issue)
  match request with
  | .restore => .read previous target
  | .link =>
    if previous = (target, some issueId) then .unchanged
    else if previous.2 = none ∨ previous.2 = some issueId then .read previous target
    else .failed

/-- The events of the transaction of the report. -/
def operationEntries (previous : Standing) (target : ReportState) (row : Standing) :
    List HistoryEntry :=
  (if row.2 ≠ previous.2 then [.issue previous.2 row.2] else []) ++
    if previous.1 ≠ target then [.state previous.1 target] else []

/-- The state from which the trigger of the issue takes its reports. -/
def followedFrom : ReportState := if next = .resolved then .confirmed else .resolved

/-- What the trigger of the issue makes of a report it selects. -/
def followed (issueId : IssueId) : Standing × HistoryEntry :=
  ((IssueState.reportState (some next), some issueId),
    .state (followedFrom next) (IssueState.reportState (some next)))

/-- The trigger of issues fires: the issue becomes resolved, or is no longer. -/
def fires (w : World) : Bool :=
  w.issue ≠ next && (next = .resolved || w.issue = .resolved)

/-- One statement, where the locks it needs are free. -/
def step (w : World) : Statement → Option World
  | .lockReport =>
    if w.operation = .begin ∧ !w.sync.holdsReport ∧ (request = .restore → w.report.2 = some issueId)
    then some { w with operation := lockReport request w } else none
  | .readIssue =>
    match w.operation with
    | .locked previous => some { w with operation := readIssue request issueId w previous }
    | _ => none
  -- The trigger of the row reads the issue once more.
  | .updateReport =>
    match w.operation with
    | .read previous target => some { w with
        operation := .updated previous target
          (IssueState.reportState (some w.issue), some issueId) }
    | _ => none
  | .checkKey =>
    match w.operation with
    | .updated previous target row =>
      if row.2 ≠ previous.2 ∧ w.sync.holdsIssue then none
      else some { w with operation := .checked previous target row }
    | _ => none
  | .auditReport =>
    match w.operation with
    | .checked previous target row => some { w with
        operation := .audited previous row (operationEntries previous target row) }
    | _ => none
  | .commitOperation =>
    match w.operation with
    | .audited _ row entries => some { w with
        report := row
        entries := w.entries ++ entries
        operation := .committed }
    | .unchanged => some { w with operation := .committed }
    | _ => none
  | .lockIssue =>
    if w.sync = .begin ∧ !w.operation.holdsKey then some { w with sync := .locked } else none
  | .updateIssue =>
    if w.sync = .locked
    then some { w with sync := if fires next w then .updated else .followed none } else none
  | .scanReports =>
    if w.sync = .updated
    then some { w with sync := .scanned (w.report = (followedFrom next, some issueId)) } else none
  -- A selected report is locked, and its condition is looked at again if it has changed.
  | .followReport =>
    match w.sync with
    | .scanned true =>
      if w.operation.holdsReport then none
      else some { w with
        sync := .followed (if w.report = (followedFrom next, some issueId)
          then some (followed next issueId) else none) }
    | .scanned false => some { w with sync := .followed none }
    | _ => none
  | .commitSync =>
    match w.sync with
    | .followed change => some { w with
        issue := next
        report := (change.map (·.1)).getD w.report
        entries := w.entries ++ (change.map (·.2)).toList
        sync := .committed }
    | _ => none

end

/-! ## What is to hold -/

/-- The state that the last event of a history leads to. -/
def lastState (entries : List HistoryEntry) : ReportState :=
  entries.foldl (fun s entry => match entry with
    | .state _ next => next
    | .issue _ _ => s) .triage

/-- The report follows the issue if it is on it, and its last event leads to its state. -/
def Follows (issueId : IssueId) (w : World) : Prop :=
  (w.report.2 = some issueId → w.report.1 ≠ .rejected →
    w.report.1 = IssueState.reportState (some w.issue)) ∧ lastState w.entries = w.report.1

instance (issueId : IssueId) (w : World) : Decidable (Follows issueId w) := by
  unfold Follows; infer_instance

/-- The operation has read the issue and is to write the report by it. -/
def OperationPhase.relies : OperationPhase → Bool
  | .read .. | .updated .. | .checked .. | .audited .. => true
  | _ => false

/-- The trigger has looked at the reports, and the issue is to change. -/
def SyncPhase.relies : SyncPhase → Bool
  | .scanned _ | .followed _ => true
  | _ => false

/-- Where the issue becomes resolved or is no longer, the operation reads the issue while the
trigger has not looked at the reports, or after its change is committed, and the trigger looks at
the reports while the operation has not read the issue, or after its own change is committed. -/
def ReadsApart (next : IssueState) (w : World) : Statement → Prop
  | .readIssue => fires next w = true → w.sync.relies = false
  | .scanReports => w.operation.relies = false
  | _ => True

instance (next : IssueState) (w : World) (s : Statement) : Decidable (ReadsApart next w s) := by
  cases s <;> unfold ReadsApart <;> infer_instance

/-! ## The invariant -/

section

variable {request : Request} {issueId : IssueId} {next : IssueState} {w w' : World}
  {previous row : Standing} {target : ReportState} {entries entries' : List HistoryEntry}

/-- The state that the issue calls for. -/
def World.calls (w : World) : ReportState := IssueState.reportState (some w.issue)

/-- What the operation has read and written is what the issue calls for. -/
def OperationOk (issueId : IssueId) (w : World) : Prop :=
  match w.operation with
  | .locked previous => previous = w.report
  | .read previous target => previous = w.report ∧ target = w.calls
  | .updated previous target row | .checked previous target row =>
    previous = w.report ∧ target = w.calls ∧ row = (w.calls, some issueId)
  | .audited _ row entries =>
    row = (w.calls, some issueId) ∧ entries = operationEntries w.report w.calls row
  | _ => True

/-- What the trigger has seen and written is what is committed. -/
def SyncOk (issueId : IssueId) (next : IssueState) (w : World) : Prop :=
  match w.sync with
  | .updated => fires next w = true
  | .scanned true => fires next w = true ∧ w.report = (followedFrom next, some issueId)
  | .scanned false =>
    fires next w = true ∧ (w.report.2 = some issueId → w.report.1 = .rejected)
  | .followed none => fires next w = true → w.report.2 = some issueId → w.report.1 = .rejected
  | .followed (some change) => change = followed next issueId ∧ w.operation.holdsReport = false
  | _ => True

structure Inv (issueId : IssueId) (next : IssueState) (w : World) : Prop where
  follows : Follows issueId w
  operation : OperationOk issueId w
  sync : SyncOk issueId next w
  apart : fires next w = true → w.operation.relies = true → w.sync.relies = false

theorem lastState_append (entries entries' : List HistoryEntry) :
    lastState (entries ++ entries') = entries'.foldl (fun s entry => match entry with
      | .state _ next => next
      | .issue _ _ => s) (lastState entries) :=
  List.foldl_append

theorem lastState_operationEntries (h : lastState entries = previous.1) :
    lastState (entries ++ operationEntries previous target row) = target := by
  rw [lastState_append, h]
  unfold operationEntries
  split <;> split <;> simp_all

/-- Where the trigger does not fire, the issue calls for the same state. -/
theorem calls_of_not_fires (h : fires next w = false) :
    IssueState.reportState (some next) = w.calls := by
  unfold fires at h
  unfold World.calls IssueState.reportState
  grind

/-- Where it fires, the reports that follow the issue are those that the trigger selects. -/
theorem calls_of_fires (h : fires next w = true) : w.calls = followedFrom next := by
  unfold fires at h
  unfold World.calls IssueState.reportState followedFrom
  grind

/-! ## Statements -/

/-- The locks of the report exclude each other. -/
theorem Inv.sync_free (h : Inv issueId next w) (hholds : w.operation.holdsReport = true) :
    w.sync.holdsReport = false := by
  have hsync := h.sync
  unfold SyncOk at hsync
  cases hs : w.sync with
  | followed change =>
    cases change with
    | none => rfl
    | some change =>
      rw [hs] at hsync
      rw [hsync.2] at hholds
      cases hholds
  | _ => rfl

/-- A statement of the operation that commits nothing. -/
theorem Inv.of_operation {phase : OperationPhase} (h : Inv issueId next w)
    (hfree : w.sync.holdsReport = false)
    (hphase : OperationOk issueId { w with operation := phase })
    (hapart : fires next w = true → phase.relies = true → w.sync.relies = false) :
    Inv issueId next { w with operation := phase } := by
  refine ⟨h.follows, hphase, ?_, hapart⟩
  have hsync := h.sync
  unfold SyncOk at hsync ⊢
  cases hs : w.sync with
  | followed change =>
    cases change with
    | none => rw [hs] at hsync; exact hsync
    | some change => rw [hs] at hfree; cases hfree
  | scanned matched =>
    rw [hs] at hsync
    cases matched <;> exact hsync
  | updated => rw [hs] at hsync; exact hsync
  | _ => trivial

/-- A statement of the synchronisation that commits nothing. -/
theorem Inv.of_sync {phase : SyncPhase} (h : Inv issueId next w)
    (hphase : SyncOk issueId next { w with sync := phase })
    (hapart : fires next w = true → w.operation.relies = true → phase.relies = false) :
    Inv issueId next { w with sync := phase } :=
  ⟨h.follows, h.operation, hphase, hapart⟩

/-- What locking the report comes to. -/
theorem lockReport_cases (request : Request) (w : World) :
    lockReport request w = .locked w.report ∨ lockReport request w = .unchanged ∨
      lockReport request w = .failed := by
  unfold lockReport
  grind

/-- What reading the issue comes to. -/
theorem readIssue_cases (request : Request) (issueId : IssueId) (w : World) (previous : Standing) :
    readIssue request issueId w previous = .read previous w.calls ∨
      readIssue request issueId w previous = .unchanged ∨
      readIssue request issueId w previous = .failed := by
  unfold readIssue World.calls
  grind

theorem Inv.commitOperation (h : Inv issueId next w) (hphase : w.operation =
    .audited previous row entries) : Inv issueId next
      { w with report := row, entries := w.entries ++ entries, operation := .committed } := by
  have hoperation := h.operation
  unfold OperationOk at hoperation
  rw [hphase] at hoperation
  obtain ⟨rfl, rfl⟩ := hoperation
  refine ⟨⟨fun _ _ => rfl, lastState_operationEntries h.follows.2⟩, trivial, ?_,
    fun _ hc => by cases hc⟩
  have hsync := h.sync
  have hfree := h.sync_free (by rw [hphase]; rfl)
  have hapart : fires next w = true → w.sync.relies = false := fun hfires =>
    h.apart hfires (by rw [hphase]; rfl)
  unfold SyncOk at hsync ⊢
  cases hs : w.sync with
  | updated => rw [hs] at hsync; exact hsync
  | scanned matched =>
    rw [hs] at hsync hapart
    cases matched <;> exact absurd (hapart hsync.1) (by decide)
  | followed change =>
    rw [hs] at hfree hapart
    cases change with
    | none => exact fun hfires => absurd (hapart hfires) (by decide)
    | some change => cases hfree
  | _ => trivial

/-- The issue changes, and the report with it. -/
theorem Inv.commitSync {change : Option (Standing × HistoryEntry)} (h : Inv issueId next w)
    (hphase : w.sync = .followed change) : Inv issueId next
      { w with
        issue := next
        report := (change.map (·.1)).getD w.report
        entries := w.entries ++ (change.map (·.2)).toList
        sync := .committed } := by
  have hsync := h.sync
  have hoperation := h.operation
  have hapart : fires next w = true → w.operation.relies = false := fun hfires => by
    cases hrelies : w.operation.relies with
    | false => rfl
    | true =>
      have hfree := h.apart hfires hrelies
      rw [hphase] at hfree
      cases hfree
  have hquiet : ∀ w' : World, w'.issue = next → fires next w' = true →
      w'.operation.relies = true → w'.sync.relies = false := by
    intro w' hissue hfires
    simp [fires, hissue] at hfires
  unfold SyncOk at hsync
  rw [hphase] at hsync
  cases change with
  | some change =>
    obtain ⟨rfl, hholds⟩ := hsync
    refine ⟨⟨fun _ _ => rfl, lastState_append _ _⟩, ?_, trivial, hquiet _ rfl⟩
    unfold OperationOk
    cases hop : w.operation with
    | begin => trivial
    | committed => trivial
    | failed => trivial
    | _ => rw [hop] at hholds; cases hholds
  | none =>
    by_cases hfires : fires next w = true
    · refine ⟨⟨fun hlink hne => absurd (hsync hfires hlink) hne, ?_⟩, ?_, trivial, hquiet _ rfl⟩
      · exact (congrArg lastState (List.append_nil _)).trans h.follows.2
      · have hrelies := hapart hfires
        unfold OperationOk at hoperation ⊢
        cases hop : w.operation with
        | locked previous => rw [hop] at hoperation; exact hoperation
        | begin => trivial
        | unchanged => trivial
        | committed => trivial
        | failed => trivial
        | _ => rw [hop] at hrelies; cases hrelies
    · have hcalls := calls_of_not_fires (by simpa using hfires)
      refine ⟨⟨fun hlink hne => (h.follows.1 hlink hne).trans hcalls.symm, ?_⟩, ?_, trivial,
        hquiet _ rfl⟩
      · exact (congrArg lastState (List.append_nil _)).trans h.follows.2
      · unfold OperationOk World.calls at hoperation ⊢
        dsimp only
        rw [hcalls]
        exact hoperation

/-- The invariant is kept by the statements that read apart. -/
theorem Inv.step {statement : Statement} (h : Inv issueId next w)
    (hapart : ReadsApart next w statement)
    (hstep : step request issueId next w statement = some w') : Inv issueId next w' := by
  have hoperation := h.operation
  have hsync := h.sync
  unfold OperationOk at hoperation
  unfold SyncOk at hsync
  cases statement with
  | lockReport =>
    simp only [Interleaving.step, Option.ite_none_right_eq_some, Option.some.injEq] at hstep
    obtain ⟨⟨-, hfree, -⟩, rfl⟩ := hstep
    refine h.of_operation (by simpa using hfree) ?_ fun _ hc => ?_
    · rcases lockReport_cases request w with hp | hp | hp <;> rw [hp] <;> trivial
    · rcases lockReport_cases request w with hp | hp | hp <;> rw [hp] at hc <;> cases hc
  | readIssue =>
    simp only [Interleaving.step] at hstep
    split at hstep
    · rename_i previous hop
      obtain rfl := Option.some.inj hstep
      rw [hop] at hoperation
      refine h.of_operation (h.sync_free (by rw [hop]; rfl)) ?_ fun hfires _ => hapart hfires
      rcases readIssue_cases request issueId w previous with hp | hp | hp <;> rw [hp]
      · exact ⟨hoperation, rfl⟩
      · trivial
      · trivial
    · cases hstep
  | updateReport =>
    simp only [Interleaving.step] at hstep
    split at hstep
    · rename_i previous target hop
      obtain rfl := Option.some.inj hstep
      rw [hop] at hoperation
      exact h.of_operation (h.sync_free (by rw [hop]; rfl)) ⟨hoperation.1, hoperation.2, rfl⟩
        fun hfires _ => h.apart hfires (by rw [hop]; rfl)
    · cases hstep
  | checkKey =>
    simp only [Interleaving.step] at hstep
    split at hstep
    · rename_i previous target row hop
      rw [Option.ite_none_left_eq_some] at hstep
      obtain rfl := Option.some.inj hstep.2
      rw [hop] at hoperation
      exact h.of_operation (h.sync_free (by rw [hop]; rfl)) hoperation
        fun hfires _ => h.apart hfires (by rw [hop]; rfl)
    · cases hstep
  | auditReport =>
    simp only [Interleaving.step] at hstep
    split at hstep
    · rename_i previous target row hop
      obtain rfl := Option.some.inj hstep
      rw [hop] at hoperation
      obtain ⟨rfl, rfl, rfl⟩ := hoperation
      exact h.of_operation (h.sync_free (by rw [hop]; rfl)) ⟨rfl, rfl⟩
        fun hfires _ => h.apart hfires (by rw [hop]; rfl)
    · cases hstep
  | commitOperation =>
    simp only [Interleaving.step] at hstep
    split at hstep
    · rename_i previous row entries hop
      obtain rfl := Option.some.inj hstep
      exact h.commitOperation hop
    · rename_i hop
      obtain rfl := Option.some.inj hstep
      exact h.of_operation (h.sync_free (by rw [hop]; rfl)) trivial fun _ hc => by cases hc
    · cases hstep
  | lockIssue =>
    simp only [Interleaving.step, Option.ite_none_right_eq_some, Option.some.injEq] at hstep
    obtain ⟨-, rfl⟩ := hstep
    exact h.of_sync trivial fun _ _ => rfl
  | updateIssue =>
    simp only [Interleaving.step, Option.ite_none_right_eq_some, Option.some.injEq] at hstep
    obtain ⟨-, rfl⟩ := hstep
    by_cases hfires : fires next w = true
    · rw [if_pos hfires]
      exact h.of_sync hfires fun _ _ => rfl
    · rw [if_neg hfires]
      exact h.of_sync (fun hc => absurd hc hfires) fun hc => absurd hc hfires
  | scanReports =>
    simp only [Interleaving.step, Option.ite_none_right_eq_some, Option.some.injEq] at hstep
    obtain ⟨hphase, rfl⟩ := hstep
    rw [hphase] at hsync
    refine h.of_sync ?_ fun _ hrelies => absurd hrelies (by rw [hapart]; decide)
    by_cases hmatch : w.report = (followedFrom next, some issueId)
    · rw [decide_eq_true hmatch]
      exact ⟨hsync, hmatch⟩
    · rw [decide_eq_false hmatch]
      refine ⟨hsync, fun hlink => ?_⟩
      by_contra hne
      have hstate := (h.follows.1 hlink hne).trans (calls_of_fires hsync)
      exact hmatch (Prod.ext hstate hlink)
  | followReport =>
    simp only [Interleaving.step] at hstep
    split at hstep
    · rename_i hphase
      rw [Option.ite_none_left_eq_some] at hstep
      obtain ⟨hfree, hstep⟩ := hstep
      obtain rfl := Option.some.inj hstep
      rw [hphase] at hsync
      refine h.of_sync ?_ fun hfires hrelies =>
        absurd (h.apart hfires hrelies) (by rw [hphase]; decide)
      rw [if_pos hsync.2]
      exact ⟨rfl, by simpa using hfree⟩
    · rename_i hphase
      obtain rfl := Option.some.inj hstep
      rw [hphase] at hsync
      exact h.of_sync (fun _ => hsync.2) fun hfires hrelies =>
        absurd (h.apart hfires hrelies) (by rw [hphase]; decide)
    · cases hstep
  | commitSync =>
    simp only [Interleaving.step] at hstep
    split at hstep
    · rename_i change hphase
      obtain rfl := Option.some.inj hstep
      exact h.commitSync hphase
    · cases hstep

/-! ## Both transactions -/

/-- Neither transaction has begun. -/
def World.start (issue : IssueState) (report : Standing) (entries : List HistoryEntry) : World :=
  ⟨issue, report, entries, .begin, .begin⟩

/-- Whatever the order of the statements in which the two read apart, the report is resolved just
when the issue is and is confirmed else, if it is on it and not rejected, and its last event leads
to its state: at all times, and so once both have committed. -/
theorem report_follows_after_both {issue : IssueState} {statements : List Statement}
    (hstart : Follows issueId (.start issue row entries))
    (h : Run (Where (ReadsApart next) (Steps (step request issueId next)))
      (.start issue row entries) statements w) :
    (w.report.2 = some issueId → w.report.1 ≠ .rejected →
      (w.report.1 = .resolved ↔ w.issue = .resolved) ∧
        (w.report.1 = .confirmed ↔ w.issue ≠ .resolved)) ∧
    lastState w.entries = w.report.1 := by
  have hinv : Inv issueId next w := by
    refine h.invariant (fun s statement t hs hstep => hs.step hstep.1 hstep.2) ?_
    exact ⟨hstart, trivial, trivial, fun _ hc => by cases hc⟩
  refine ⟨fun hlink hne => ?_, hinv.follows.2⟩
  rw [hinv.follows.1 hlink hne]
  unfold IssueState.reportState
  by_cases hs : w.issue = .resolved <;> simp [hs]

/-- Both transactions, from a report that was rejected on an open issue. -/
def rejectedStart : World :=
  .start .unresolved (.rejected, some ⟨1⟩)
    [.issue none (some ⟨1⟩), .state .triage .confirmed, .state .confirmed .rejected]

/-- GitHub closes the issue before the report is restored. -/
def closedFirst : List Statement :=
  [.lockReport, .lockIssue, .updateIssue, .scanReports, .followReport, .commitSync, .readIssue,
    .updateReport, .checkKey, .auditReport, .commitOperation]

theorem restored_after_close_is_resolved :
    let w := (run? (stepWhere (ReadsApart .resolved) (step .restore ⟨1⟩ .resolved)) rejectedStart
      closedFirst).get (by decide +kernel)
    (w.report.2 = some ⟨1⟩ → w.report.1 ≠ .rejected →
      (w.report.1 = .resolved ↔ w.issue = .resolved) ∧
        (w.report.1 = .confirmed ↔ w.issue ≠ .resolved)) ∧
    lastState w.entries = w.report.1 :=
  report_follows_after_both (by decide) (run_where (Option.some_get _).symm)

/-- GitHub closes the issue between the time the issue is read and the time the report is committed:
the report is confirmed, on a resolved issue. -/
theorem restored_while_closing_stays_confirmed :
    ∃ w, Run (Steps (step .restore ⟨1⟩ .resolved)) rejectedStart
        [.lockReport, .readIssue, .updateReport, .checkKey, .auditReport, .lockIssue, .updateIssue,
          .scanReports, .followReport, .commitSync, .commitOperation] w ∧
      w.operation = .committed ∧ w.sync = .committed ∧ w.issue = .resolved ∧
      w.report = (.confirmed, some ⟨1⟩) :=
  ⟨_, run?_eq_some rfl, by decide +kernel⟩

end

end LadybirdReports.Admin.Interleaving
