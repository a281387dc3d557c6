import LadybirdReports.Admin.ReportChanges
import LadybirdReports.Admin.ReportRules
import LadybirdReports.Admin.Runs

/-!
# Operations on several reports

Assigning, resolving and changing several reports: the operations lock the reports in one order,
and some of them check all the reports before they change one. Each is the application of a rule to
one report after the other (`assignReportsToIssue_eq_ok_iff`, `resolveReportsWithFix_eq_ok_iff`,
`applyReportStateAction_eq_ok_iff`). So the order in which the reports are named does not matter,
nor how often, and a second time nothing changes (`Database.IsReachable.bulk_atomic`).
-/

namespace LadybirdReports.Admin

open Rust RowWise

namespace Database

/-- The reports and the events about them. -/
def table (db : Database) : Table Report AuditEvent := ⟨db.reports, db.events⟩

def withTable (db : Database) (t : Table Report AuditEvent) : Database :=
  { db with reports := t.rows, events := t.log }

section

variable {db : Database} {t t' : Table Report AuditEvent}

@[simp] theorem withTable_issues : (db.withTable t).issues = db.issues := rfl

@[simp] theorem withTable_clock : (db.withTable t).clock = db.clock := rfl

@[simp] theorem withTable_reports : (db.withTable t).reports = t.rows := rfl

@[simp] theorem table_withTable : (db.withTable t).table = t := rfl

@[simp] theorem withTable_table : db.withTable db.table = db := rfl

@[simp] theorem withTable_withTable : (db.withTable t).withTable t' = db.withTable t' := rfl

end

/-- One report takes the row that a rule makes of it. -/
def record (db : Database) (id : ReportId) (o : Outcome Report AuditEvent) : Database :=
  { db with
    reports := db.reports.map fun r => if r.id = id then o.row else r
    events := db.events ++ o.log }

end Database

section

variable {db db' : Database} {r : Report} {issueId : IssueId} {actor : ℤ} {k : ReportId}
  {ks ids ids' : List ReportId} {n : ℕ}
  {change : Report → Except AppError (Outcome Report AuditEvent)} {o : Outcome Report AuditEvent}
  {fix : ReportFix} {action : ReportStateAction} {reason : Option String}

/-! ## One report -/

/-- A statement that selects one report rewrites its row. -/
theorem updateReports_one (hids : (db.reports.map (·.id)).Nodup) (hr : r ∈ db.reports)
    {p : Report → Bool} (hp : ∀ s ∈ db.reports, p s = decide (s.id = r.id))
    (set : Report → Report) (events : List AuditEvent) (count : ℕ) :
    (do
      let db ← db.updateReports p set
      return { db with events := db.events ++ events }) =
    db.record r.id <$> Report.rewrite db.issues (set r) events count := by
  have hone : db.reports.filter p = [r] := by
    have heq : ∀ s ∈ db.reports, p s = decide (s = r) := by
      intro s hs
      rw [hp s hs]
      exact decide_eq_decide.mpr ⟨fun h => Rows.eq_of_key hids hs hr h, fun h => by rw [h]⟩
    rw [List.filter_congr heq, List.filter_eq, List.count_eq_one_of_mem hids.of_map hr]
    rfl
  have hmap : db.reports.map (fun s => if p s then (set s).settle db.issues else s) =
      db.reports.map fun s => if s.id = r.id then (set r).settle db.issues else s := by
    refine List.map_congr_left fun s hs => ?_
    rw [hp s hs]
    by_cases hsr : s.id = r.id
    · rw [Rows.eq_of_key hids hs hr hsr]
      simp
    · simp [hsr]
  unfold Database.updateReports Report.rewrite
  rw [hone, hmap, List.flatMap_singleton]
  cases check (((set r).settle db.issues).constraints db.issues) with
  | error e => rfl
  | ok u => rfl

/-- A report that stays as it is. -/
theorem record_self (hids : (db.reports.map (·.id)).Nodup) (hr : r ∈ db.reports) :
    db.record r.id ⟨r, [], n⟩ = db := by
  have hrows : db.reports.map (fun s => if s.id = r.id then r else s) = db.reports := by
    conv_rhs => rw [← List.map_id' db.reports]
    refine List.map_congr_left fun s hs => ?_
    by_cases hsr : s.id = r.id
    · rw [Rows.eq_of_key hids hs hr hsr]
      exact if_pos rfl
    · exact if_neg hsr
  unfold Database.record
  rw [hrows, List.append_nil]

theorem record_keys (hid : o.row.id = k) :
    (db.record k o).reports.map (·.id) = db.reports.map (·.id) := by
  refine Rows.map_key fun s _ => ?_
  split
  · rename_i hs
    rw [hid, hs]
  · rfl

/-- The other reports stay as they are. -/
theorem mem_record (hr : r ∈ db.reports) (hne : r.id ≠ k) : r ∈ (db.record k o).reports :=
  List.mem_map.mpr ⟨r, hr, if_neg hne⟩

/-- A rule is applied to the report with an identifier. -/
theorem one_eq (hfound : db.findReady? k = some r) :
    (reportRule change).one k db.table =
      (fun o => (o.count, (db.record k o).table)) <$> change r := by
  have hrow : (reportRule change).row? db.table.rows k = some r := hfound
  unfold Rule.one
  rw [hrow]
  rfl

theorem linkReport_eq (hids : (db.reports.map (·.id)).Nodup) :
    db.linkReport k issueId actor =
      (fun p => db.withTable p.2) <$> (linkRule db.issues db.clock issueId actor).one k
        db.table := by
  cases hfound : db.findReady? k with
  | none =>
    have hrow : (linkRule db.issues db.clock issueId actor).row? db.table.rows k = none := hfound
    unfold Database.linkReport Rule.one
    rw [hfound, hrow]
    rfl
  | some r =>
    obtain ⟨hr, rfl, -⟩ := Database.findReady?_eq_some hfound
    unfold linkRule
    rw [one_eq hfound, Functor.map_map]
    change _ = db.record r.id <$> _
    unfold Database.linkReport linkChange
    rw [hfound]
    cases hstate : issueState? db.issues issueId with
    | none => rfl
    | some state =>
      simp only [okOr, ok_bind]
      split
      · exact congrArg Except.ok (record_self hids hr).symm
      · cases ensure (r.issueId.isNone || r.issueId = some issueId)
          (AppError.conflict "Unlink the report before adding it to another issue") with
        | error e => rfl
        | ok u =>
          simp only [ok_bind]
          rw [← updateReports_one (p := fun s => s.id = r.id) hids hr (fun s _ => rfl) fun s =>
            { s with issueId := some issueId, state := IssueState.reportState (some state) }]
          refine bind_congr_ok fun db₁ h₁ => ?_
          have hclock := Database.updateReports_clock h₁
          split <;> split <;> simp [Database.audit, Database.auditReportStateChange, issueEvent,
            stateEvent, ← hclock]

/-! ## The order of the locks -/

instance : Std.Antisymm fun a b : ReportId => a.value ≤ b.value where
  antisymm a b h h' := by
    obtain ⟨a⟩ := a
    obtain ⟨b⟩ := b
    exact congrArg ReportId.mk (Nat.le_antisymm h h')

instance : Std.Total fun a b : ReportId => a.value ≤ b.value where
  total a b := Nat.le_total a.value b.value

instance : IsTrans ReportId fun a b => a.value ≤ b.value where
  trans _ _ _ := Nat.le_trans

theorem inLockOrder_eq_dedup :
    inLockOrder ids = (ids.insertionSort (·.value ≤ ·.value)).dedup :=
  (List.pairwise_insertionSort _ ids).destutter_eq_dedup

theorem inLockOrder_nodup : (inLockOrder ids).Nodup := by
  rw [inLockOrder_eq_dedup]
  exact List.nodup_dedup _

theorem mem_inLockOrder : k ∈ inLockOrder ids ↔ k ∈ ids := by
  rw [inLockOrder_eq_dedup, List.mem_dedup, List.mem_insertionSort]

theorem inLockOrder_sorted : (inLockOrder ids).Pairwise (·.value ≤ ·.value) := by
  rw [inLockOrder_eq_dedup]
  exact (List.pairwise_insertionSort _ ids).sublist (List.dedup_sublist _)

/-- The same reports are locked in the same order. -/
theorem inLockOrder_congr (h : ∀ id, id ∈ ids ↔ id ∈ ids') :
    inLockOrder ids = inLockOrder ids' := by
  refine List.Perm.eq_of_pairwise' inLockOrder_sorted inLockOrder_sorted ?_
  refine (List.perm_ext_iff_of_nodup inLockOrder_nodup inLockOrder_nodup).mpr fun id => ?_
  rw [mem_inLockOrder, mem_inLockOrder, h]

theorem readyReports_subset :
    (db.readyReports (inLockOrder ids)).map (·.id) ⊆ inLockOrder ids := by
  intro id hid
  obtain ⟨r, hr, rfl⟩ := List.mem_map.mp hid
  exact (mem_readyReports.mp hr).2.1

/-- As many reports are ready as are asked for exactly if they are the ones asked for. -/
theorem readyReports_eq_iff (hids : (db.reports.map (·.id)).Nodup) :
    (db.readyReports (inLockOrder ids)).length = (inLockOrder ids).length ↔
      (db.readyReports (inLockOrder ids)).map (·.id) = inLockOrder ids := by
  constructor
  · intro h
    have hperm := (List.subperm_of_subset (readyReports_nodup hids)
      readyReports_subset).perm_of_length_le (by rw [List.length_map, h])
    have hsorted := List.pairwise_insertionSort (fun r s : Report => r.id.value ≤ s.id.value)
      (db.reports.filter fun r => r.id ∈ inLockOrder ids && r.ready)
    exact List.Perm.eq_of_pairwise' (List.pairwise_map.mpr hsorted) inLockOrder_sorted hperm
  · intro h
    rw [← List.length_map (fun r : Report => r.id), h]

/-- All the reports that are asked for are ready if each is found. -/
theorem readyReports_of_found (hids : (db.reports.map (·.id)).Nodup)
    (h : ∀ k ∈ inLockOrder ids, (db.findReady? k).isSome = true) :
    (db.readyReports (inLockOrder ids)).map (·.id) = inLockOrder ids := by
  have hsub : inLockOrder ids ⊆ (db.readyReports (inLockOrder ids)).map (·.id) := by
    intro k hk
    obtain ⟨r, hr⟩ := Option.isSome_iff_exists.mp (h k hk)
    obtain ⟨hmem, rfl, hready⟩ := Database.findReady?_eq_some hr
    exact List.mem_map_of_mem (mem_readyReports.mpr ⟨hmem, hk, hready⟩)
  have hsub' : (db.readyReports (inLockOrder ids)).map (·.id) ⊆ inLockOrder ids :=
    readyReports_subset
  have hle := (List.subperm_of_subset inLockOrder_nodup hsub).length_le
  have hge := (List.subperm_of_subset (readyReports_nodup hids) hsub').length_le
  rw [List.length_map] at hle hge
  exact (readyReports_eq_iff hids).mp (le_antisymm hge hle)

/-! ## One report after the other -/

/-- Reports are linked one after the other. -/
theorem foldlM_linkReport_eq (hids : (db.reports.map (·.id)).Nodup) :
    ks.foldlM (fun db k => db.linkReport k issueId actor) db =
      (fun p => db.withTable p.2) <$> (linkRule db.issues db.clock issueId actor).all ks
        db.table := by
  induction ks generalizing db with
  | nil => rfl
  | cons k ks ih =>
    rw [List.foldlM_cons, linkReport_eq hids, Rule.all]
    cases hone : (linkRule db.issues db.clock issueId actor).one k db.table with
    | error e => rfl
    | ok p =>
      obtain ⟨n, t⟩ := p
      have hids' : ((db.withTable t).reports.map (·.id)).Nodup := by
        rw [Database.withTable_reports]
        exact (Rule.one_keys linkRule_lawful hone) ▸ hids
      change ks.foldlM _ (db.withTable t) = _
      rw [ih hids', ok_bind, Database.withTable_issues, Database.withTable_clock,
        Database.table_withTable]
      dsimp only
      cases (linkRule db.issues db.clock issueId actor).all ks t with
      | error e => rfl
      | ok p => rfl

section
variable {α : Type} {change? : Report → Except AppError (Option α)}
  {write : Report → α → Except AppError (Outcome Report AuditEvent)}
  {round : Database → Report × α → Except AppError Database} {reports : List Report} {a : α}
  {o : Outcome Report AuditEvent} {changes : List (Report × α)}

theorem collectChanges_cons :
    collectChanges change? (r :: reports) = change? r >>= fun first =>
      (fun changes => (first.map fun a => (r, a)).toList ++ changes) <$>
        collectChanges change? reports := rfl

theorem changeRule_error {e : AppError} (h : change? r = .error e) :
    (changeRule change? write).change r = .error e := by
  change change? r >>= _ = _
  rw [h]
  rfl

theorem changeRule_none (h : change? r = .ok none) :
    (changeRule change? write).change r = .ok ⟨r, [], 0⟩ := by
  change change? r >>= _ = _
  rw [h]
  rfl

theorem changeRule_some (h : change? r = .ok (some a)) :
    (changeRule change? write).change r = write r a := by
  change change? r >>= _ = _
  rw [h]
  rfl

/-- The rule at the first of some reports, and then at the others. -/
theorem changeRule_all_cons (hfound : db.findReady? r.id = some r) :
    (changeRule change? write).all (r.id :: ks) db.table =
      (changeRule change? write).change r >>= fun o =>
        (fun p => (o.count + p.1, p.2)) <$>
          (changeRule change? write).all ks (db.record r.id o).table := by
  have hone : (changeRule change? write).one r.id db.table =
      (fun o => (o.count, (db.record r.id o).table)) <$> (changeRule change? write).change r :=
    one_eq hfound
  rw [Rule.all, hone]
  cases (changeRule change? write).change r <;> rfl

/-- A change that is written is applied before those that were collected with it. -/
theorem collected_some_iff (hwrite : write r a = .ok o) (hcount : o.count = 1)
    (hchange : change? r = .ok (some a)) (hstep : round db (r, a) = .ok (db.record r.id o))
    (hfound : db.findReady? r.id = some r)
    (hrest : ∀ m, (∃ changes, collectChanges change? reports = .ok changes ∧
        changes.foldlM round (db.record r.id o) = .ok db' ∧ m = changes.length) ↔
      ∃ t, (changeRule change? write).all (reports.map (·.id)) (db.record r.id o).table =
        .ok (m, t) ∧ db' = (db.record r.id o).withTable t) :
    (∃ changes, collectChanges change? (r :: reports) = .ok changes ∧
      changes.foldlM round db = .ok db' ∧ n = changes.length) ↔
    ∃ t, (changeRule change? write).all (r.id :: reports.map (·.id)) db.table = .ok (n, t) ∧
      db' = db.withTable t := by
  rw [collectChanges_cons, changeRule_all_cons hfound, changeRule_some hchange, hchange, hwrite,
    ok_bind, ok_bind, hcount]
  constructor
  · rintro ⟨changes, hchanges, hdb', rfl⟩
    obtain ⟨rest, hcollected, rfl⟩ := map_eq_ok.mp hchanges
    obtain ⟨db₁, h₁, hdb'⟩ := bind_eq_ok.mp hdb'
    cases hstep.symm.trans h₁
    obtain ⟨t, ht, rfl⟩ := (hrest _).mp ⟨rest, hcollected, hdb', rfl⟩
    exact ⟨t, map_eq_ok.mpr ⟨_, ht, by rw [Nat.add_comm]; rfl⟩, rfl⟩
  · rintro ⟨t, h, rfl⟩
    obtain ⟨⟨m, t'⟩, ht, h⟩ := map_eq_ok.mp h
    cases h
    obtain ⟨rest, hcollected, hdb', rfl⟩ := (hrest m).mpr ⟨_, ht, rfl⟩
    refine ⟨_, map_eq_ok.mpr ⟨rest, hcollected, rfl⟩, bind_eq_ok.mpr ⟨_, hstep, hdb'⟩, ?_⟩
    exact Nat.add_comm _ _

/-- Changes that are collected first and applied then are the application of their rule. -/
theorem collected_eq_ok_iff
    (hwrite : ∀ r a o, write r a = .ok o → o.row.id = r.id ∧ o.count = 1)
    (hround : ∀ s : Database, (s.reports.map (·.id)).Nodup → s.issues = db.issues →
      s.clock = db.clock → ∀ r a, r ∈ s.reports → r.ready = true → change? r = .ok (some a) →
        round s (r, a) = s.record r.id <$> write r a)
    (hids : (db.reports.map (·.id)).Nodup) (hnodup : (reports.map (·.id)).Nodup)
    (hmem : ∀ r ∈ reports, r ∈ db.reports ∧ r.ready = true) :
    (∃ changes, collectChanges change? reports = .ok changes ∧
      changes.foldlM round db = .ok db' ∧ n = changes.length) ↔
    ∃ t, (changeRule change? write).all (reports.map (·.id)) db.table = .ok (n, t) ∧
      db' = db.withTable t := by
  induction reports generalizing db n with
  | nil =>
    constructor
    · rintro ⟨changes, hchanges, hdb', rfl⟩
      cases hchanges
      exact ⟨db.table, rfl, (pure_eq_ok.mp hdb').symm⟩
    · rintro ⟨t, h, rfl⟩
      cases h
      exact ⟨[], rfl, rfl, rfl⟩
  | cons r reports ih =>
    rw [List.map_cons, List.nodup_cons] at hnodup
    rw [List.map_cons]
    obtain ⟨hr, hready⟩ := hmem r List.mem_cons_self
    have hmem' := fun s hs => hmem s (List.mem_cons_of_mem _ hs)
    have hfound : db.findReady? r.id = some r := Rows.find?_key_and hids hr hready
    cases hchange : change? r with
    | error e =>
      rw [collectChanges_cons, changeRule_all_cons hfound, changeRule_error hchange, hchange]
      constructor
      · rintro ⟨_, h, _⟩
        cases h
      · rintro ⟨_, h, _⟩
        cases h
    | ok first =>
      cases first with
      | none =>
        rw [collectChanges_cons, changeRule_all_cons hfound, changeRule_none hchange, hchange,
          ok_bind, ok_bind, record_self hids hr]
        simp only [Option.map_none, Option.toList_none, List.nil_append, id_map', Nat.zero_add,
          Prod.mk.eta]
        exact ih hround hids hnodup.2 hmem'
      | some a =>
        have hstep := hround db hids rfl rfl r a hr hready hchange
        cases hw : write r a with
        | error e =>
          rw [collectChanges_cons, changeRule_all_cons hfound, changeRule_some hchange, hchange, hw]
          rw [hw] at hstep
          constructor
          · rintro ⟨changes, hchanges, hdb', _⟩
            obtain ⟨rest, -, rfl⟩ := map_eq_ok.mp hchanges
            obtain ⟨db₁, h₁, -⟩ := bind_eq_ok.mp hdb'
            rw [hstep] at h₁
            cases h₁
          · rintro ⟨_, h, _⟩
            cases h
        | ok o =>
          rw [hw] at hstep
          obtain ⟨hid, hcount⟩ := hwrite r a o hw
          have hids' : ((db.record r.id o).reports.map (·.id)).Nodup := by
            rw [record_keys hid]
            exact hids
          have hothers : ∀ s ∈ reports, s ∈ (db.record r.id o).reports ∧ s.ready = true := by
            intro s hs
            have hne : s.id ≠ r.id := fun h => hnodup.1 (h ▸ List.mem_map_of_mem hs)
            exact ⟨mem_record (hmem' s hs).1 hne, (hmem' s hs).2⟩
          exact collected_some_iff hw hcount hchange hstep hfound fun m =>
            @ih (db.record r.id o) m hround hids' hnodup.2 hothers

end

theorem findReady?_of_outcome {rule : Rule Report ReportId AuditEvent AppError}
    (hrule : rule = reportRule rule.change)
    (h : (rule.outcome? db.table.rows k).isSome = true) : (db.findReady? k).isSome = true := by
  obtain ⟨o, ho⟩ := Option.isSome_iff_exists.mp h
  obtain ⟨r, hr, -⟩ := Rule.outcome?_eq_some.mp ho
  rw [hrule] at hr
  rw [show db.findReady? k = some r from hr]
  rfl

/-- An operation that checks the reports before it changes them applies its rule to each. -/
theorem collecting_eq_ok_iff {α : Type} {change? : Report → Except AppError (Option α)}
    {write : Report → α → Except AppError (Outcome Report AuditEvent)}
    {round : Database → Report × α → Except AppError Database}
    (hlawful : (changeRule change? write).Lawful)
    (hwrite : ∀ r a o, write r a = .ok o → o.row.id = r.id ∧ o.count = 1)
    (hround : ∀ s : Database, (s.reports.map (·.id)).Nodup → s.issues = db.issues →
      s.clock = db.clock → ∀ r a, r ∈ s.reports → r.ready = true → change? r = .ok (some a) →
        round s (r, a) = s.record r.id <$> write r a)
    (hids : (db.reports.map (·.id)).Nodup) :
    (do
      ensure ((db.readyReports (inLockOrder ids)).length = (inLockOrder ids).length)
        (AppError.notFound "Report not found")
      let changes ← collectChanges change? (db.readyReports (inLockOrder ids))
      let db ← changes.foldlM round db
      return (changes.length, db)) = .ok (n, db') ↔
    ∃ t, (changeRule change? write).all (inLockOrder ids) db.table = .ok (n, t) ∧
      db' = db.withTable t := by
  have hnodup : ((db.readyReports (inLockOrder ids)).map (·.id)).Nodup :=
    readyReports_nodup hids
  have hcollected : (∃ changes, collectChanges change? (db.readyReports (inLockOrder ids)) =
        .ok changes ∧ changes.foldlM round db = .ok db' ∧ n = changes.length) ↔
      ∃ t, (changeRule change? write).all ((db.readyReports (inLockOrder ids)).map (·.id))
        db.table = .ok (n, t) ∧ db' = db.withTable t :=
    collected_eq_ok_iff hwrite hround hids hnodup fun r hr =>
      ⟨(mem_readyReports.mp hr).1, (mem_readyReports.mp hr).2.2⟩
  constructor
  · intro h
    obtain ⟨u, hlength, h⟩ := bind_eq_ok.mp h
    rw [ensure_eq_ok, decide_eq_true_eq, readyReports_eq_iff hids] at hlength
    obtain ⟨changes, hchanges, h⟩ := bind_eq_ok.mp h
    obtain ⟨db₁, h₁, h⟩ := bind_eq_ok.mp h
    obtain ⟨rfl, rfl⟩ := Prod.mk.inj (pure_eq_ok.mp h)
    rw [hlength] at hcollected
    exact hcollected.mp ⟨changes, hchanges, h₁, rfl⟩
  · intro h
    have hall := h
    obtain ⟨t, hall, -⟩ := hall
    have hfound := ((Rule.all_eq_ok_iff hlawful inLockOrder_nodup).mp hall).1
    have hready := readyReports_of_found hids fun k hk => findReady?_of_outcome rfl (hfound k hk)
    rw [hready] at hcollected
    obtain ⟨changes, hchanges, hdb', rfl⟩ := hcollected.mpr h
    refine bind_eq_ok.mpr ⟨(), ?_, bind_eq_ok.mpr ⟨_, hchanges, bind_eq_ok.mpr ⟨_, hdb', rfl⟩⟩⟩
    rw [ensure_eq_ok, decide_eq_true_eq, readyReports_eq_iff hids]
    exact hready

/-! ## The operations are their rules -/

theorem resolveReportsWithFix_eq_ok_iff (hids : (db.reports.map (·.id)).Nodup) :
    db.resolveReportsWithFix ids fix actor = .ok (n, db') ↔
      ∃ t, (fixRule db.issues db.clock fix actor).all (inLockOrder ids) db.table = .ok (n, t) ∧
        db' = db.withTable t := by
  refine collecting_eq_ok_iff fixRule_lawful (fun r a o h => ?_)
    (fun s hids hissues hclock r a hr _ _ => ?_) hids
  · rw [rewrite_eq_ok h]
    exact ⟨settle_id _, rfl⟩
  · unfold writeFix
    rw [← hissues, ← hclock, ← updateReports_one (p := fun s => s.id = r.id) hids hr
      (fun s _ => rfl) fun s => { s with state := .resolved, fix := .of fix }]
    refine bind_congr_ok fun s₁ h₁ => ?_
    rw [← Database.updateReports_clock h₁]
    rfl

theorem applyReportStateAction_eq_ok_iff (hids : (db.reports.map (·.id)).Nodup) :
    db.applyReportStateAction ids action actor reason = .ok (n, db') ↔
      ∃ t, (actionRule db.issues db.clock action actor reason).all (inLockOrder ids) db.table =
        .ok (n, t) ∧ db' = db.withTable t := by
  refine collecting_eq_ok_iff actionRule_lawful (fun r a o h => ?_)
    (fun s hids hissues hclock r change hr hready hchange => ?_) hids
  · rw [rewrite_eq_ok h]
    exact ⟨(settle_id _).trans (a.set_keeps r).1, rfl⟩
  · unfold writeChange Database.applyChange
    rw [← hissues, ← hclock]
    cases change with
    | state target =>
      rw [← updateReports_one (p := fun s => s.id = r.id) hids hr (fun s _ => rfl) fun s =>
        ReportChange.set s (.state target)]
      refine bind_congr_ok fun s₁ h₁ => ?_
      rw [← Database.updateReports_clock h₁]
      rfl
    | unlink issue =>
      have hissue : r.issueId = some issue := by
        rcases actionChange?_eq_ok hchange with h | ⟨h, -⟩ | ⟨d, h, hd⟩ | ⟨-, -, d, -, h⟩
        · cases h
        · cases h
        · cases h
          exact hd
        · cases h
      rw [← updateReports_one (p := fun s => s.id = r.id && s.issueId = some issue && s.ready) hids
        hr (fun s hs => ?_) fun s => ReportChange.set s (.unlink issue)]
      · unfold Database.unlinkReport
        refine bind_congr_ok fun db₁ h₁ => ?_
        have hclock := Database.updateReports_clock h₁
        unfold ReportChange.events
        split <;> simp [Database.audit, Database.auditReportStateChange, issueEvent, stateEvent,
          hissue, ← hclock]
      · by_cases hsr : s.id = r.id
        · rw [Rows.eq_of_key hids hs hr hsr]
          simp [hissue, hready]
        · simp [hsr]

/-- The issue can be assigned reports. -/
def assignable (issues : List Issue) (issueId : IssueId) : Bool :=
  issues.any fun i => i.id = issueId && i.mergedInto.isNone && i.state ≠ .rejected

theorem assignReportsToIssue_eq_ok_iff (hids : (db.reports.map (·.id)).Nodup) :
    db.assignReportsToIssue ids issueId actor = .ok db' ↔ assignable db.issues issueId = true ∧
      ∃ t, (linkRule db.issues db.clock issueId actor).all (inLockOrder ids) db.table = .ok (0, t) ∧
        db' = db.withTable t := by
  have hlinks : (inLockOrder ids).foldlM (fun db k => db.linkReport k issueId actor) db =
      (fun p => db.withTable p.2) <$>
        (linkRule db.issues db.clock issueId actor).all (inLockOrder ids) db.table :=
    foldlM_linkReport_eq hids
  constructor
  · intro h
    obtain ⟨u, hassignable, h⟩ := bind_eq_ok.mp h
    obtain ⟨u, -, h⟩ := bind_eq_ok.mp h
    rw [hlinks] at h
    obtain ⟨⟨n, t⟩, ht, rfl⟩ := map_eq_ok.mp h
    have hn := Rule.all_count_eq_zero (fun r o h => (linkRule_about h).1) ht
    rw [hn] at ht
    exact ⟨ensure_eq_ok.mp hassignable, t, ht, rfl⟩
  · rintro ⟨hassignable, t, ht, rfl⟩
    refine bind_eq_ok.mpr ⟨(), ensure_eq_ok.mpr hassignable, bind_eq_ok.mpr ⟨(), ?_, ?_⟩⟩
    · rw [ensure_eq_ok, Bool.or_eq_true, Bool.not_eq_true', List.any_eq_false]
      refine .inr fun r hr h => ?_
      simp only [Bool.and_eq_true, decide_eq_true_eq, Option.isSome_iff_ne_none, ne_eq] at h
      obtain ⟨⟨hk, hlinked⟩, helse⟩ := h
      have hfound := ((Rule.all_eq_ok_iff linkRule_lawful inLockOrder_nodup).mp ht).1 r.id hk
      obtain ⟨o, ho⟩ := Option.isSome_iff_exists.mp hfound
      obtain ⟨s, hs, hchange⟩ := Rule.outcome?_eq_some.mp ho
      obtain ⟨hmem, hid, -⟩ := Rule.row?_eq_some hs
      rw [Rows.eq_of_key hids hmem hr hid] at hchange
      exact (linkRule_about hchange).2.1.elim hlinked helse
    · exact hlinks.trans (map_eq_ok.mpr ⟨_, ht, rfl⟩)

end

/-! ## The operations as one -/

/-- What may be asked for of several reports. -/
inductive BulkOperation
  | assign (issueId : IssueId) (actor : ℤ)
  | resolve (fix : ReportFix) (actor : ℤ)
  | changeState (action : ReportStateAction) (actor : ℤ) (reason : Option String)
  deriving DecidableEq, Repr

namespace BulkOperation

/-- The operation of the store. Assigning returns no count. -/
def perform (bulk : BulkOperation) (ids : List ReportId) (db : Database) :
    Except AppError (ℕ × Database) :=
  match bulk with
  | .assign issueId actor => (fun db => (0, db)) <$> db.assignReportsToIssue ids issueId actor
  | .resolve fix actor => db.resolveReportsWithFix ids fix actor
  | .changeState action actor reason => db.applyReportStateAction ids action actor reason

def operation (bulk : BulkOperation) (ids : List ReportId) : Operation :=
  match bulk with
  | .assign issueId actor => .assignReportsToIssue ids issueId actor
  | .resolve fix actor => .resolveReportsWithFix ids fix actor
  | .changeState action actor reason => .applyReportStateAction ids action actor reason

/-- The operation on one report after the other. -/
def singly (bulk : BulkOperation) : List ReportId → Database → Except AppError (ℕ × Database)
  | [], db => .ok (0, db)
  | id :: ids, db => do
    let (n, db) ← bulk.perform [id] db
    let (m, db) ← bulk.singly ids db
    return (n + m, db)

def rule (bulk : BulkOperation) (issues : List Issue) (clock : Timestamp) :
    Rule Report ReportId AuditEvent AppError :=
  match bulk with
  | .assign issueId actor => linkRule issues clock issueId actor
  | .resolve fix actor => fixRule issues clock fix actor
  | .changeState action actor reason => actionRule issues clock action actor reason

def allowed (bulk : BulkOperation) (issues : List Issue) : Bool :=
  match bulk with
  | .assign issueId _ => assignable issues issueId
  | _ => true

section

variable {bulk : BulkOperation} {db db' : Database} {ids order : List ReportId} {n : ℕ}
  {issues : List Issue} {clock : Timestamp}

theorem rule_key : (bulk.rule issues clock).key = fun r => r.id := by
  cases bulk <;> rfl

theorem rule_lawful : (bulk.rule issues clock).Lawful := by
  cases bulk with
  | assign issueId actor => exact linkRule_lawful
  | resolve fix actor => exact fixRule_lawful
  | changeState action actor reason => exact actionRule_lawful

theorem rule_about {r : Report} {o : Outcome Report AuditEvent}
    (h : (bulk.rule issues clock).change r = .ok o) :
    ∀ e ∈ o.log, e.entity = .report ((bulk.rule issues clock).key r) := by
  rw [rule_key]
  cases bulk with
  | assign issueId actor => exact (linkRule_about h).2.2
  | resolve fix actor => exact fixRule_about h
  | changeState action actor reason => exact actionRule_about h

theorem perform_eq_ok_iff (hids : (db.reports.map (·.id)).Nodup) :
    bulk.perform ids db = .ok (n, db') ↔ bulk.allowed db.issues = true ∧
      ∃ t, (bulk.rule db.issues db.clock).all (inLockOrder ids) db.table = .ok (n, t) ∧
        db' = db.withTable t := by
  cases bulk with
  | assign issueId actor =>
    constructor
    · intro h
      obtain ⟨db₁, h₁, h⟩ := map_eq_ok.mp h
      cases h
      exact (assignReportsToIssue_eq_ok_iff hids).mp h₁
    · rintro ⟨hallowed, t, ht, rfl⟩
      have hn := Rule.all_count_eq_zero (fun r o h => (linkRule_about h).1) ht
      subst hn
      exact map_eq_ok.mpr
        ⟨_, (assignReportsToIssue_eq_ok_iff hids).mpr ⟨hallowed, t, ht, rfl⟩, rfl⟩
  | resolve fix actor =>
    exact (resolveReportsWithFix_eq_ok_iff hids).trans (by simp [allowed, rule])
  | changeState action actor reason =>
    exact (applyReportStateAction_eq_ok_iff hids).trans (by simp [allowed, rule])

/-- Only which reports are named matters. -/
theorem perform_congr (h : ∀ id, id ∈ order ↔ id ∈ ids) :
    bulk.perform order db = bulk.perform ids db := by
  have horder := inLockOrder_congr h
  cases bulk <;> unfold perform
  · unfold Database.assignReportsToIssue Database.linkReports
    rw [horder]
  · unfold Database.resolveReportsWithFix
    rw [horder]
  · unfold Database.applyReportStateAction
    rw [horder]

theorem exec_operation :
    (bulk.operation ids).exec db = commit ((·.2) <$> bulk.perform ids db) db := by
  cases bulk with
  | assign issueId actor =>
    unfold perform
    rw [Functor.map_map]
    change commit (db.assignReportsToIssue ids issueId actor) db = _
    cases db.assignReportsToIssue ids issueId actor <;> rfl
  | resolve fix actor => rfl
  | changeState action actor reason => rfl

theorem inLockOrder_singleton (id : ReportId) : inLockOrder [id] = [id] := rfl

/-- One after the other the operation applies its rule to each report. -/
theorem singly_eq_ok {t : Table Report AuditEvent} (hids : (db.reports.map (·.id)).Nodup)
    (hallowed : bulk.allowed db.issues = true)
    (h : (bulk.rule db.issues db.clock).all order db.table = .ok (n, t)) :
    bulk.singly order db = .ok (n, db.withTable t) := by
  induction order generalizing db n with
  | nil =>
    cases h
    rfl
  | cons id order ih =>
    obtain ⟨⟨n₁, t₁⟩, h₁, h⟩ := bind_eq_ok.mp h
    obtain ⟨⟨n₂, t₂⟩, h₂, h⟩ := bind_eq_ok.mp h
    obtain ⟨rfl, rfl⟩ := Prod.mk.inj (pure_eq_ok.mp h)
    have hone : bulk.perform [id] db = .ok (n₁, db.withTable t₁) := by
      refine (perform_eq_ok_iff hids).mpr ⟨hallowed, t₁, ?_, rfl⟩
      rw [inLockOrder_singleton]
      exact bind_eq_ok.mpr ⟨_, h₁, rfl⟩
    have hkeys := Rule.one_keys rule_lawful h₁
    rw [rule_key] at hkeys
    exact bind_eq_ok.mpr ⟨_, hone, bind_eq_ok.mpr
      ⟨_, @ih (db.withTable t₁) n₂ (hkeys.symm ▸ hids) hallowed h₂, rfl⟩⟩

/-! ## All or none, in any order, once -/

/-- What holds of an operation on several reports. -/
structure Atomic (bulk : BulkOperation) (ids : List ReportId) (db : Database) : Prop where
  /-- A failure leaves everything as it was. -/
  failed : (bulk.perform ids db).isOk = false → (bulk.operation ids).exec db = db
  /-- Neither the order of the reports matters nor how often they are named. -/
  unordered : ∀ order, (∀ id, id ∈ order ↔ id ∈ ids) →
    bulk.perform order db = bulk.perform ids db
  /-- The reports are changed as they are one by one, in any order. The events about each are the
  same, in the same order. -/
  singly : ∀ n db', bulk.perform ids db = .ok (n, db') → (bulk.operation ids).exec db = db' ∧
    ∀ order : List ReportId, order.Nodup → (∀ id, id ∈ order ↔ id ∈ ids) →
      ∃ db'', bulk.singly order db = .ok (n, db'') ∧ db'' = { db' with events := db''.events } ∧
        ∀ entity, db''.events.filter (·.entity = entity) = db'.events.filter (·.entity = entity)
  /-- A second time nothing changes. -/
  again : ∀ n db', bulk.perform ids db = .ok (n, db') → bulk.perform ids db' = .ok (0, db')

end

end BulkOperation

open BulkOperation in
/-- Operations on several reports change all or none, in any order, and once. -/
theorem Database.IsReachable.bulk_atomic {db : Database} (hdb : db.IsReachable)
    (bulk : BulkOperation) (ids : List ReportId) : bulk.Atomic ids db := by
  have hids := hdb.wf.reportIds
  refine ⟨fun hfailed => ?_, fun order h => perform_congr h,
    fun n db' h => ⟨?_, fun order horder hsame => ?_⟩, fun n db' h => ?_⟩
  · rw [exec_operation]
    cases hp : bulk.perform ids db with
    | error e => rfl
    | ok p =>
      rw [hp] at hfailed
      cases hfailed
  · rw [exec_operation, h]
    rfl
  · obtain ⟨hallowed, t, ht, rfl⟩ := (perform_eq_ok_iff hids).mp h
    have hperm : order.Perm (inLockOrder ids) :=
      (List.perm_ext_iff_of_nodup horder inLockOrder_nodup).mpr fun id => by
        rw [hsame, mem_inLockOrder]
    obtain ⟨t', ht', hrows, hlog⟩ := Rule.all_perm rule_lawful (fun r o ho => rule_about ho)
      (fun a b hab => by cases hab; rfl) inLockOrder_nodup hperm ht
    refine ⟨_, singly_eq_ok hids hallowed ht', ?_, hlog⟩
    unfold Database.withTable
    rw [hrows]
  · obtain ⟨hallowed, t, ht, rfl⟩ := (perform_eq_ok_iff hids).mp h
    have hrows : (db.table.rows.map (bulk.rule db.issues db.clock).key).Nodup := by
      rw [rule_key]
      exact hids
    have hagain := Rule.all_again rule_lawful hrows inLockOrder_nodup ht
    have hkeys := Rule.all_keys rule_lawful inLockOrder_nodup ht
    rw [rule_key] at hkeys
    have hids' : ((db.withTable t).reports.map (·.id)).Nodup := hkeys.symm ▸ hids
    exact (perform_eq_ok_iff hids').mpr ⟨hallowed, t, hagain, rfl⟩

/-- Two reports in triage. -/
def twoReports : Database := execAll (submit 1 ++ submit 2) .empty

theorem twoReports_rejected :
    ((BulkOperation.changeState .reject 7 none).perform [⟨2⟩, ⟨1⟩, ⟨2⟩] twoReports).isOk = true ∧
      (BulkOperation.changeState .reject 7 none).Atomic [⟨2⟩, ⟨1⟩, ⟨2⟩] twoReports :=
  ⟨by decide +kernel, (isReachable_execAll _).bulk_atomic _ _⟩

end LadybirdReports.Admin
