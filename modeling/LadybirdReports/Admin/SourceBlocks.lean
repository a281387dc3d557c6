import LadybirdReports.Admin.Schema
import LadybirdReports.Lib.Result
import LadybirdReports.Lib.Rows
import LadybirdReports.Lib.Run

/-!
# Blocked sources

A maintainer blocks the client that a report came from. The block is a row of `source_rate_limits`
under the key of the client, and says from which report it was imposed. The key is deleted from the
reports before long, and the block of a report is found by the report from then on.

1. The key of a report never becomes another one, so blocks that were imposed from one report are
   under one key, and there is one of them (`eq_of_source`).
2. What `unblock_report_source` lifts is the block that the page of the report shows
   (`liftedKey_eq`).

So a report whose source is shown as blocked can have it unblocked, and no other
(`blocked_source_can_be_unblocked`). A client is refused from the time that it is blocked until one
of its reports is unblocked, whatever is swept or deleted (`block_holds_until_lifted`).
-/

namespace LadybirdReports.Admin.SourceBlocks

open Rust Transition

/-- The columns of `reports` that are about its source. -/
structure Report where
  id : ReportId
  sourceClientKey : Option String
  isReady : Bool
  createdAt : Timestamp
  deriving DecidableEq

/-- A row of `source_rate_limits`. -/
structure Block where
  clientKey : String
  sourceReportId : Option ReportId
  imposedBy : ℤ
  imposedAt : Timestamp
  expiresAt : Option Timestamp
  liftedBy : Option ℤ
  liftedAt : Option Timestamp
  deriving DecidableEq

def Block.isActive (b : Block) (now : Timestamp) : Bool :=
  b.liftedAt.isNone && b.expiresAt.all (now < ·)

structure World where
  reports : List Report
  blocks : List Block
  /-- The reports that there ever were, with the keys of their clients. -/
  accepted : List (ReportId × String)

/-- `make_interval`. -/
def hours (n : ℕ) : ℤ := n * 3600000000

namespace World

variable (w : World)

/-! ## Queries -/

/-- `source_has_active_rate_limit`, for which requests of the client are refused. -/
def sourceHasActiveRateLimit (clientKey : String) (now : Timestamp) : Bool :=
  w.blocks.any fun b => b.clientKey = clientKey && b.isActive now

/-- `submission_source_is_blocked`, on the page of a report. -/
def submissionSourceIsBlocked (r : Report) (now : Timestamp) : Bool :=
  w.blocks.any fun b =>
    (some b.clientKey = r.sourceClientKey || b.sourceReportId = some r.id) && b.isActive now

def findReport? (id : ReportId) : Option Report := w.reports.find? (·.id = id)

/-! ## Transactions -/

/-- `accept_report`. -/
def acceptReport (id : ReportId) (clientKey : String) (now : Timestamp) : World :=
  { w with
    reports := ⟨id, some clientKey, false, now⟩ :: w.reports
    accepted := (id, clientKey) :: w.accepted }

/-- `mark_storage_ready`. -/
def markStorageReady (id : ReportId) : World :=
  { w with reports := w.reports.map fun r => if r.id = id then { r with isReady := true } else r }

/-- `block_report_source`, but for the reports that it may reject. -/
def blockReportSource (id : ReportId) (actor : ℤ) (now : Timestamp) : Except AppError World := do
  let report ← okOr ((w.findReport? id).filter fun r => r.isReady && r.sourceClientKey.isSome)
    (.notFound "Report not found")
  let clientKey ← okOr report.sourceClientKey
    (.invalidRequest "This report has no submission source identifier")
  let block : Block := ⟨clientKey, some id, actor, now, none, none, none⟩
  pure { w with blocks := block :: w.blocks.filter (·.clientKey ≠ clientKey) }

/-- The key of which a block is lifted. More than one row of the inner query is an error. -/
def liftedKey (id : ReportId) : Except AppError (Option String) :=
  match (w.findReport? id).bind (·.sourceClientKey) with
  | some clientKey => .ok (some clientKey)
  | none =>
    match w.blocks.filter fun b => b.sourceReportId = some id && b.liftedAt.isNone with
    | [] => .ok none
    | [b] => .ok (some b.clientKey)
    | _ => .error (.database "more than one row returned by a subquery used as an expression")

/-- The block of the key is lifted. -/
def lift (clientKey : Option String) (actor : ℤ) (now : Timestamp) : World :=
  { w with
    blocks := w.blocks.map fun b =>
      if some b.clientKey = clientKey ∧ b.isActive now = true then
        { b with liftedBy := some actor, liftedAt := some now }
      else b }

/-- `unblock_report_source`. -/
def unblockReportSource (id : ReportId) (actor : ℤ) (now : Timestamp) : Except AppError World := do
  let clientKey ← w.liftedKey id
  let updated := w.blocks.filter fun b => some b.clientKey = clientKey && b.isActive now
  ensure (updated.length = 1) (.invalidRequest "Submission source is not blocked")
  pure (w.lift clientKey actor now)

/-- The statements of `begin_maintenance_sweep` about sources. -/
def sweep (sourceRetentionHours : ℕ) (now : Timestamp) : World :=
  let cutoff := now - hours sourceRetentionHours
  { w with
    reports := w.reports.map fun r =>
      if r.createdAt ≤ cutoff then { r with sourceClientKey := none } else r
    blocks := w.blocks.filter fun b =>
      !(b.liftedAt.any (· ≤ cutoff) || b.expiresAt.any (· ≤ cutoff)) }

/-- The deletion of a report, with `ON DELETE SET NULL`. -/
def deleteReport (id : ReportId) : World :=
  { w with
    reports := w.reports.filter (·.id ≠ id)
    blocks := w.blocks.map fun b =>
      if b.sourceReportId = some id then { b with sourceReportId := none } else b }

end World

inductive Label
  | accept (id : ReportId) (clientKey : String) (now : Timestamp)
  | markReady (id : ReportId)
  | block (id : ReportId) (actor : ℤ) (now : Timestamp)
  | unblock (id : ReportId) (actor : ℤ) (now : Timestamp)
  | sweep (sourceRetentionHours : ℕ) (now : Timestamp)
  | delete (id : ReportId)

/-- One transaction. IDs of reports are drawn anew, and an error changes nothing. -/
def World.step (w : World) : Label → Option World
  | .accept id clientKey now =>
    if id ∈ w.accepted.map Prod.fst then none else some (w.acceptReport id clientKey now)
  | .markReady id => some (w.markStorageReady id)
  | .block id actor now => (w.blockReportSource id actor now).toOption
  | .unblock id actor now => (w.unblockReportSource id actor now).toOption
  | .sweep sourceRetentionHours now => some (w.sweep sourceRetentionHours now)
  | .delete id => some (w.deleteReport id)

/-! ## What is kept -/

structure World.Wf (w : World) : Prop where
  ids : (w.accepted.map Prod.fst).Nodup
  reports : (w.reports.map (·.id)).Nodup
  blocks : (w.blocks.map (·.clientKey)).Nodup
  known : ∀ r ∈ w.reports, ∃ clientKey, (r.id, clientKey) ∈ w.accepted ∧
    ∀ key, r.sourceClientKey = some key → key = clientKey
  imposed : ∀ b ∈ w.blocks, ∀ id, b.sourceReportId = some id → (id, b.clientKey) ∈ w.accepted

section

variable {w w' : World} {id : ReportId} {r : Report} {b b' : Block} {clientKey : String}
  {actor : ℤ} {now later : Timestamp} {label : Label} {labels : List Label}

theorem wf_empty : World.Wf ⟨[], [], []⟩ :=
  ⟨List.nodup_nil, List.nodup_nil, List.nodup_nil, List.forall_mem_nil _, List.forall_mem_nil _⟩

/-- A report has one key. -/
theorem World.Wf.key_unique {key : String} (h : w.Wf) (hid : (id, clientKey) ∈ w.accepted)
    (hid' : (id, key) ∈ w.accepted) : key = clientKey :=
  congrArg Prod.snd (List.inj_on_of_nodup_map h.ids hid' hid rfl)

/-- The blocks that were imposed from one report are one. -/
theorem World.Wf.eq_of_source (h : w.Wf) (hb : b ∈ w.blocks) (hb' : b' ∈ w.blocks)
    (hsource : b.sourceReportId = some id) (hsource' : b'.sourceReportId = some id) : b = b' :=
  Rows.eq_of_key h.blocks hb hb'
    (h.key_unique (h.imposed b' hb' id hsource') (h.imposed b hb id hsource))

/-! ## Each transaction -/

theorem wf_accept (h : w.Wf) (hnew : id ∉ w.accepted.map Prod.fst) :
    (w.acceptReport id clientKey now).Wf := by
  refine ⟨List.nodup_cons.mpr ⟨hnew, h.ids⟩, List.nodup_cons.mpr ⟨?_, h.reports⟩, h.blocks, ?_, ?_⟩
  · intro hmem
    obtain ⟨r, hr, hid⟩ := List.mem_map.mp hmem
    obtain ⟨key, hkey, -⟩ := h.known r hr
    exact hnew (List.mem_map.mpr ⟨_, hkey, hid⟩)
  · refine List.forall_mem_cons.mpr ⟨⟨clientKey, List.mem_cons_self, ?_⟩, ?_⟩
    · intro key hkey
      exact (Option.some.inj hkey).symm
    · intro r hr
      obtain ⟨key, hkey, hsame⟩ := h.known r hr
      exact ⟨key, List.mem_cons_of_mem _ hkey, hsame⟩
  · intro b hb id hsource
    exact List.mem_cons_of_mem _ (h.imposed b hb id hsource)

/-- Reports may lose their keys, and not change them. -/
theorem wf_map_reports (h : w.Wf) {f : Report → Report} (hid : ∀ r, (f r).id = r.id)
    (hkey : ∀ r key, (f r).sourceClientKey = some key → r.sourceClientKey = some key) :
    World.Wf { w with reports := w.reports.map f } := by
  refine ⟨h.ids, ?_, h.blocks, ?_, h.imposed⟩
  · change ((w.reports.map f).map (·.id)).Nodup
    rw [Rows.map_key fun r _ => hid r]
    exact h.reports
  · intro r hr
    obtain ⟨s, hs, rfl⟩ := List.mem_map.mp hr
    obtain ⟨clientKey, hknown, hsame⟩ := h.known s hs
    exact ⟨clientKey, (hid s).symm ▸ hknown, fun key hfound => hsame key (hkey s key hfound)⟩

/-- Blocks may lose the report that they were imposed from, and not change it. -/
theorem wf_map_blocks (h : w.Wf) {f : Block → Block} (hkey : ∀ b, (f b).clientKey = b.clientKey)
    (hsource : ∀ b id, (f b).sourceReportId = some id → b.sourceReportId = some id) :
    World.Wf { w with blocks := w.blocks.map f } := by
  refine ⟨h.ids, h.reports, ?_, h.known, ?_⟩
  · change ((w.blocks.map f).map (·.clientKey)).Nodup
    rw [Rows.map_key fun b _ => hkey b]
    exact h.blocks
  · intro b hb id hid
    obtain ⟨c, hc, rfl⟩ := List.mem_map.mp hb
    rw [hkey c]
    exact h.imposed c hc id (hsource c id hid)

theorem wf_filter (h : w.Wf) {p : Report → Bool} {q : Block → Bool} :
    World.Wf { w with reports := w.reports.filter p, blocks := w.blocks.filter q } := by
  refine ⟨h.ids, h.reports.sublist ((List.filter_sublist).map _),
    h.blocks.sublist ((List.filter_sublist).map _), ?_, ?_⟩
  · intro r hr
    exact h.known r (List.mem_of_mem_filter hr)
  · intro b hb
    exact h.imposed b (List.mem_of_mem_filter hb)

/-- A report that is found, with the key of its client. -/
theorem blockReportSource_eq_ok : w.blockReportSource id actor now = .ok w' ↔
    ∃ r clientKey, w.findReport? id = some r ∧ r.isReady = true ∧
      r.sourceClientKey = some clientKey ∧
      w' = { w with
        blocks := ⟨clientKey, some id, actor, now, none, none, none⟩ ::
          w.blocks.filter (·.clientKey ≠ clientKey) } := by
  unfold World.blockReportSource
  constructor
  · intro h
    obtain ⟨r, hr, h⟩ := bind_eq_ok.mp h
    obtain ⟨clientKey, hkey, h⟩ := bind_eq_ok.mp h
    obtain ⟨hfound, hready⟩ := Option.filter_eq_some_iff.mp (okOr_eq_ok.mp hr)
    exact ⟨r, clientKey, hfound, (Bool.and_eq_true_iff.mp hready).1, okOr_eq_ok.mp hkey,
      (pure_eq_ok.mp h).symm⟩
  · rintro ⟨r, clientKey, hfound, hready, hkey, rfl⟩
    have hsource : (r.isReady && r.sourceClientKey.isSome) = true := by
      rw [hready, hkey]
      rfl
    exact bind_eq_ok.mpr ⟨r, okOr_eq_ok.mpr (Option.filter_eq_some_iff.mpr ⟨hfound, hsource⟩),
      bind_eq_ok.mpr ⟨clientKey, okOr_eq_ok.mpr hkey, rfl⟩⟩

theorem World.Wf.findReport?_eq_some (h : w.Wf) :
    w.findReport? id = some r ↔ r ∈ w.reports ∧ r.id = id :=
  Rows.find?_key_eq_some_iff h.reports

theorem wf_block (h : w.Wf) (hblock : w.blockReportSource id actor now = .ok w') : w'.Wf := by
  obtain ⟨r, clientKey, hfound, -, hkey, rfl⟩ := blockReportSource_eq_ok.mp hblock
  obtain ⟨hr, rfl⟩ := h.findReport?_eq_some.mp hfound
  obtain ⟨key, hknown, hsame⟩ := h.known r hr
  obtain rfl := hsame clientKey hkey
  refine ⟨h.ids, h.reports, List.nodup_cons.mpr ⟨?_, ?_⟩, h.known, ?_⟩
  · intro hmem
    obtain ⟨b, hb, heq⟩ := List.mem_map.mp hmem
    exact of_decide_eq_true (List.mem_filter.mp hb).2 heq
  · exact h.blocks.sublist ((List.filter_sublist).map _)
  · refine List.forall_mem_cons.mpr ⟨?_, ?_⟩
    · intro id hid
      obtain rfl := Option.some.inj hid
      exact hknown
    · intro b hb
      exact h.imposed b (List.mem_of_mem_filter hb)

theorem wf_lift (h : w.Wf) {lifted : Option String} : (w.lift lifted actor now).Wf := by
  refine wf_map_blocks h ?_ ?_
  · intro b
    split <;> rfl
  · intro b id hid
    split at hid <;> exact hid

theorem unblockReportSource_eq_ok : w.unblockReportSource id actor now = .ok w' ↔
    ∃ lifted, w.liftedKey id = .ok lifted ∧
      (w.blocks.filter fun b => some b.clientKey = lifted && b.isActive now).length = 1 ∧
      w' = w.lift lifted actor now := by
  unfold World.unblockReportSource
  constructor
  · intro h
    obtain ⟨lifted, hlifted, h⟩ := bind_eq_ok.mp h
    obtain ⟨_, hone, h⟩ := bind_eq_ok.mp h
    exact ⟨lifted, hlifted, of_decide_eq_true (ensure_eq_ok.mp hone), (pure_eq_ok.mp h).symm⟩
  · rintro ⟨lifted, hlifted, hone, rfl⟩
    exact bind_eq_ok.mpr ⟨lifted, hlifted,
      bind_eq_ok.mpr ⟨(), ensure_eq_ok.mpr (decide_eq_true hone), rfl⟩⟩

theorem toOption_eq_some {x : Except AppError World} : x.toOption = some w' ↔ x = .ok w' := by
  cases x with
  | ok w =>
    exact ⟨fun h => congrArg Except.ok (Option.some.inj h),
      fun h => congrArg some (Except.ok.inj h)⟩
  | error e => exact ⟨fun h => (nomatch h), fun h => (nomatch h)⟩

theorem wf_step (h : w.Wf) (hstep : w.step label = some w') : w'.Wf := by
  unfold World.step at hstep
  cases label with
  | accept id clientKey now =>
    dsimp only at hstep
    split at hstep
    · cases hstep
    · next hnew =>
      obtain rfl := Option.some.inj hstep
      exact wf_accept h hnew
  | markReady id =>
    obtain rfl := Option.some.inj hstep
    refine wf_map_reports h ?_ ?_
    · intro r
      split <;> rfl
    · intro r key hkey
      split at hkey <;> exact hkey
  | block id actor now => exact wf_block h (toOption_eq_some.mp hstep)
  | unblock id actor now =>
    obtain ⟨lifted, -, -, rfl⟩ := unblockReportSource_eq_ok.mp (toOption_eq_some.mp hstep)
    exact wf_lift h
  | sweep sourceRetentionHours now =>
    obtain rfl := Option.some.inj hstep
    have hkept : World.Wf { w with
        reports := w.reports.filter fun _ => true
        blocks := w.blocks.filter fun b =>
          !(b.liftedAt.any (· ≤ now - hours sourceRetentionHours) ||
            b.expiresAt.any (· ≤ now - hours sourceRetentionHours)) } := wf_filter h
    rw [List.filter_true] at hkept
    refine wf_map_reports hkept ?_ ?_
    · intro r
      split <;> rfl
    · intro r key hkey
      split at hkey
      · cases hkey
      · exact hkey
  | delete id =>
    obtain rfl := Option.some.inj hstep
    have hkept : World.Wf { w with
        reports := w.reports.filter (·.id ≠ id), blocks := w.blocks.filter fun _ => true } :=
      wf_filter h
    rw [List.filter_true] at hkept
    refine wf_map_blocks hkept ?_ ?_
    · intro b
      split <;> rfl
    · intro b other hother
      split at hother
      · cases hother
      · exact hother

/-! ## What is shown and what is lifted -/

/-- The block that is in force for a report, by the key or by the report. -/
def World.BlockOf (w : World) (r : Report) (now : Timestamp) (b : Block) : Prop :=
  b ∈ w.blocks ∧ b.isActive now = true ∧
    (some b.clientKey = r.sourceClientKey ∨ b.sourceReportId = some r.id)

theorem submissionSourceIsBlocked_iff :
    w.submissionSourceIsBlocked r now = true ↔ ∃ b, w.BlockOf r now b := by
  unfold World.submissionSourceIsBlocked
  rw [List.any_eq_true]
  constructor
  · rintro ⟨b, hb, h⟩
    obtain ⟨hsource, hactive⟩ := Bool.and_eq_true_iff.mp h
    refine ⟨b, hb, hactive, ?_⟩
    exact (Bool.or_eq_true _ _ ▸ hsource).imp of_decide_eq_true of_decide_eq_true
  · rintro ⟨b, hb, hactive, hsource⟩
    refine ⟨b, hb, Bool.and_eq_true_iff.mpr ⟨?_, hactive⟩⟩
    exact (Bool.or_eq_true _ _).mpr (hsource.imp decide_eq_true decide_eq_true)

theorem isActive_iff : b.isActive now = true ↔
    b.liftedAt = none ∧ ∀ expiry, b.expiresAt = some expiry → now < expiry := by
  unfold Block.isActive
  rw [Bool.and_eq_true_iff, Option.isNone_iff_eq_none, Option.all_eq_true]
  exact and_congr_right fun _ => forall₂_congr fun _ _ => decide_eq_true_iff

/-- While the key of a report is there, the block that was imposed from it is under this key. -/
theorem World.Wf.clientKey_of_blockOf (h : w.Wf) (hr : r ∈ w.reports)
    (hblock : w.BlockOf r now b) (hkey : r.sourceClientKey = some clientKey) :
    b.clientKey = clientKey := by
  obtain ⟨hb, -, hsource | hsource⟩ := hblock
  · rw [hkey] at hsource
    exact Option.some.inj hsource
  · obtain ⟨key, hknown, hsame⟩ := h.known r hr
    rw [hsame clientKey hkey]
    exact h.key_unique hknown (h.imposed b hb r.id hsource)

/-- What is lifted is what is shown: the block under the key that is found, if one is. -/
theorem liftedKey_eq (h : w.Wf) (hr : r ∈ w.reports) :
    ∃ lifted, w.liftedKey r.id = .ok lifted ∧ ∀ now, ∀ b ∈ w.blocks, b.isActive now = true →
      (some b.clientKey = lifted ↔ w.BlockOf r now b) := by
  have hfound : (w.findReport? r.id).bind (·.sourceClientKey) = r.sourceClientKey := by
    rw [h.findReport?_eq_some.mpr ⟨hr, rfl⟩]
    rfl
  unfold World.liftedKey
  rw [hfound]
  cases hkey : r.sourceClientKey with
  | some clientKey =>
    refine ⟨some clientKey, rfl, fun now b hb hactive => ?_⟩
    constructor
    · intro hb'
      exact ⟨hb, hactive, .inl (hb'.trans hkey.symm)⟩
    · intro hblock
      exact congrArg some (h.clientKey_of_blockOf hr hblock hkey)
  | none =>
    have hsource {now : Timestamp} {b : Block} (hblock : w.BlockOf r now b) :
        b.sourceReportId = some r.id ∧
          b ∈ w.blocks.filter fun b => b.sourceReportId = some r.id && b.liftedAt.isNone := by
      obtain ⟨hb, hactive, heq | heq⟩ := hblock
      · rw [hkey] at heq
        cases heq
      · refine ⟨heq, List.mem_filter.mpr ⟨hb, ?_⟩⟩
        rw [decide_eq_true heq, (isActive_iff.mp hactive).1]
        rfl
    have hof {b : Block}
        (hb : b ∈ w.blocks.filter fun b => b.sourceReportId = some r.id && b.liftedAt.isNone) :
        b ∈ w.blocks ∧ b.sourceReportId = some r.id := by
      obtain ⟨hb, hp⟩ := List.mem_filter.mp hb
      exact ⟨hb, of_decide_eq_true (Bool.and_eq_true_iff.mp hp).1⟩
    have hnodup : (w.blocks.filter fun b =>
        b.sourceReportId = some r.id && b.liftedAt.isNone).Nodup := h.blocks.of_map.filter _
    dsimp only
    split
    · next hnone =>
      refine ⟨none, rfl, fun now b hb _ => iff_of_false (fun heq => nomatch heq) fun hblock => ?_⟩
      have hmem := (hsource hblock).2
      rw [hnone] at hmem
      cases hmem
    · next c hone =>
      have hc : c ∈ w.blocks ∧ c.sourceReportId = some r.id := by
        apply hof
        rw [hone]
        exact List.mem_singleton_self c
      refine ⟨some c.clientKey, rfl, fun now b hb hactive => ?_⟩
      constructor
      · intro heq
        obtain rfl := Rows.eq_of_key h.blocks hb hc.1 (Option.some.inj heq)
        exact ⟨hb, hactive, .inr hc.2⟩
      · intro hblock
        rw [h.eq_of_source hblock.1 hc.1 (hsource hblock).1 hc.2]
    · next hnil hmany =>
      -- Two blocks that were imposed from the report would be one.
      match hblocks : w.blocks.filter fun b =>
          b.sourceReportId = some r.id && b.liftedAt.isNone with
      | [] => exact absurd hblocks hnil
      | [c] => exact absurd hblocks (hmany c)
      | c :: d :: rest =>
        rw [hblocks] at hof hnodup
        have hc := hof List.mem_cons_self
        have hd := hof (List.mem_cons_of_mem _ List.mem_cons_self)
        obtain rfl := h.eq_of_source hc.1 hd.1 hc.2 hd.2
        exact absurd List.mem_cons_self (List.nodup_cons.mp hnodup).1

theorem length_eq_one_iff {p : Block → Bool} (h : w.Wf)
    (hone : ∀ b ∈ w.blocks, ∀ c ∈ w.blocks, p b = true → p c = true → b.clientKey = c.clientKey) :
    (w.blocks.filter p).length = 1 ↔ ∃ b ∈ w.blocks, p b = true := by
  have hnodup : (w.blocks.filter p).Nodup := h.blocks.of_map.filter _
  constructor
  · intro hlength
    obtain ⟨b, hb⟩ := List.length_eq_one_iff.mp hlength
    have hmem : b ∈ w.blocks.filter p := hb ▸ List.mem_singleton_self b
    exact ⟨b, List.mem_filter.mp hmem⟩
  · rintro ⟨b, hb, hp⟩
    have hall : w.blocks.filter p = List.replicate (w.blocks.filter p).length b := by
      refine List.eq_replicate_of_mem fun c hc => ?_
      obtain ⟨hc, hpc⟩ := List.mem_filter.mp hc
      exact Rows.eq_of_key h.blocks hc hb (hone c hc b hb hpc hp)
    rw [hall] at hnodup
    have hle := List.nodup_replicate.mp hnodup
    have hpos := List.length_pos_of_mem (List.mem_filter.mpr ⟨hb, hp⟩)
    omega

/-- A block of the report is lifted if there is one, and otherwise the request is refused. -/
theorem unblock_iff (h : w.Wf) (hr : r ∈ w.reports) :
    (w.submissionSourceIsBlocked r now = true ↔
      ∃ w', w.unblockReportSource r.id actor now = .ok w') ∧
    (w.submissionSourceIsBlocked r now = false →
      w.unblockReportSource r.id actor now =
        .error (.invalidRequest "Submission source is not blocked")) := by
  obtain ⟨lifted, hlifted, hblocks⟩ := liftedKey_eq h hr
  have hlength : (w.blocks.filter fun b => some b.clientKey = lifted && b.isActive now).length = 1 ↔
      w.submissionSourceIsBlocked r now = true := by
    rw [submissionSourceIsBlocked_iff, length_eq_one_iff h]
    · constructor
      · rintro ⟨b, hb, hp⟩
        obtain ⟨hkey, hactive⟩ := Bool.and_eq_true_iff.mp hp
        exact ⟨b, (hblocks now b hb hactive).mp (of_decide_eq_true hkey)⟩
      · rintro ⟨b, hblock⟩
        have hkey := (hblocks now b hblock.1 hblock.2.1).mpr hblock
        exact ⟨b, hblock.1, Bool.and_eq_true_iff.mpr ⟨decide_eq_true hkey, hblock.2.1⟩⟩
    · intro b _ c _ hb hc
      have hb := of_decide_eq_true (Bool.and_eq_true_iff.mp hb).1
      have hc := of_decide_eq_true (Bool.and_eq_true_iff.mp hc).1
      exact Option.some.inj (hb.trans hc.symm)
  refine ⟨?_, ?_⟩
  · rw [← hlength]
    constructor
    · intro hone
      exact ⟨_, unblockReportSource_eq_ok.mpr ⟨lifted, hlifted, hone, rfl⟩⟩
    · rintro ⟨w', hunblock⟩
      obtain ⟨lifted', hlifted', hone, -⟩ := unblockReportSource_eq_ok.mp hunblock
      rw [hlifted] at hlifted'
      obtain rfl := Except.ok.inj hlifted'
      exact hone
  · intro hnot
    rw [← Bool.not_eq_true, ← hlength] at hnot
    unfold World.unblockReportSource
    rw [hlifted, ok_bind]
    dsimp only
    rw [decide_eq_false hnot]
    rfl

/-- No block of the report is in force after one was lifted. -/
theorem not_blockOf_lift (h : w.Wf) (hr : r ∈ w.reports)
    (hunblock : w.unblockReportSource r.id actor now = .ok w') (hlater : now ≤ later) :
    ¬ w'.BlockOf r later b := by
  obtain ⟨lifted, hlifted, hblocks⟩ := liftedKey_eq h hr
  obtain ⟨lifted', hlifted', -, rfl⟩ := unblockReportSource_eq_ok.mp hunblock
  rw [hlifted] at hlifted'
  obtain rfl := Except.ok.inj hlifted'
  rintro ⟨hb, hactive, hsource⟩
  obtain ⟨c, hc, rfl⟩ := List.mem_map.mp hb
  split at hactive
  · have hnone := (isActive_iff.mp hactive).1
    cases hnone
  · next hkept =>
    rw [if_neg hkept] at hsource
    obtain ⟨hunlifted, hexpiry⟩ := isActive_iff.mp hactive
    have hbefore : c.isActive now = true :=
      isActive_iff.mpr ⟨hunlifted, fun expiry he => Int.lt_of_le_of_lt hlater (hexpiry expiry he)⟩
    exact hkept ⟨(hblocks now c hc hbefore).mpr ⟨hc, hbefore, hsource⟩, hbefore⟩

/-- While the key of a report is there, the client is refused exactly if the page says so. -/
theorem sourceHasActiveRateLimit_eq (h : w.Wf) (hr : r ∈ w.reports)
    (hkey : r.sourceClientKey = some clientKey) :
    w.sourceHasActiveRateLimit clientKey now = w.submissionSourceIsBlocked r now := by
  rw [Bool.eq_iff_iff, submissionSourceIsBlocked_iff]
  unfold World.sourceHasActiveRateLimit
  rw [List.any_eq_true]
  constructor
  · rintro ⟨b, hb, hp⟩
    obtain ⟨hb', hactive⟩ := Bool.and_eq_true_iff.mp hp
    exact ⟨b, hb, hactive, .inl (by rw [of_decide_eq_true hb', hkey])⟩
  · rintro ⟨b, hblock⟩
    have hb := h.clientKey_of_blockOf hr hblock hkey
    exact ⟨b, hblock.1, Bool.and_eq_true_iff.mpr ⟨decide_eq_true hb, hblock.2.1⟩⟩

theorem wf_of_run (hrun : Run (Steps World.step) ⟨[], [], []⟩ labels w) : w.Wf :=
  hrun.invariant (fun _ _ _ h hstep => wf_step h hstep) wf_empty

/-- The client is blocked for good. -/
def World.Blocks (clientKey : String) (w : World) : Prop :=
  ∃ b ∈ w.blocks, b.clientKey = clientKey ∧ b.liftedAt = none ∧ b.expiresAt = none

/-- No report of the client is unblocked. -/
def Upheld (clientKey : String) (w : World) : Label → Prop
  | .unblock id _ _ => (id, clientKey) ∉ w.accepted
  | _ => True

/-- What is lifted for a report is a block of its client. -/
theorem accepted_of_liftedKey (h : w.Wf) (hlifted : w.liftedKey id = .ok (some clientKey)) :
    (id, clientKey) ∈ w.accepted := by
  unfold World.liftedKey at hlifted
  split at hlifted
  · next key hkey =>
    obtain rfl := Option.some.inj (Except.ok.inj hlifted)
    obtain ⟨r, hfound, hr⟩ := Option.bind_eq_some_iff.mp hkey
    obtain ⟨hmem, rfl⟩ := h.findReport?_eq_some.mp hfound
    obtain ⟨key', hknown, hsame⟩ := h.known r hmem
    rwa [hsame key hr]
  · split at hlifted
    · cases hlifted
    · next b hone =>
      obtain rfl := Option.some.inj (Except.ok.inj hlifted)
      have hmem : b ∈ w.blocks.filter fun b =>
          b.sourceReportId = some id && b.liftedAt.isNone := hone ▸ List.mem_singleton_self b
      obtain ⟨hb, hp⟩ := List.mem_filter.mp hmem
      exact h.imposed b hb id (of_decide_eq_true (Bool.and_eq_true_iff.mp hp).1)
    · cases hlifted

theorem blocks_of_step (hwf : w.Wf) (h : w.Blocks clientKey) (hlabel : Upheld clientKey w label)
    (hstep : w.step label = some w') : w'.Blocks clientKey := by
  obtain ⟨b, hb, rfl, hunlifted, hexpiry⟩ := h
  unfold World.step at hstep
  cases label with
  | accept id key now =>
    dsimp only at hstep
    split at hstep
    · cases hstep
    · obtain rfl := Option.some.inj hstep
      exact ⟨b, hb, rfl, hunlifted, hexpiry⟩
  | markReady id =>
    obtain rfl := Option.some.inj hstep
    exact ⟨b, hb, rfl, hunlifted, hexpiry⟩
  | block id actor now =>
    obtain ⟨r, key, -, -, -, rfl⟩ := blockReportSource_eq_ok.mp (toOption_eq_some.mp hstep)
    by_cases hkey : b.clientKey = key
    · exact ⟨_, List.mem_cons_self, hkey.symm, rfl, rfl⟩
    · exact ⟨b, List.mem_cons_of_mem _ (List.mem_filter.mpr ⟨hb, decide_eq_true hkey⟩), rfl,
        hunlifted, hexpiry⟩
  | unblock id actor now =>
    obtain ⟨lifted, hlifted, -, rfl⟩ := unblockReportSource_eq_ok.mp (toOption_eq_some.mp hstep)
    have hother : some b.clientKey ≠ lifted := by
      rintro rfl
      exact hlabel (accepted_of_liftedKey hwf hlifted)
    refine ⟨b, List.mem_map.mpr ⟨b, hb, if_neg fun heq => hother heq.1⟩, rfl, hunlifted, hexpiry⟩
  | sweep sourceRetentionHours now =>
    obtain rfl := Option.some.inj hstep
    refine ⟨b, List.mem_filter.mpr ⟨hb, ?_⟩, rfl, hunlifted, hexpiry⟩
    rw [hunlifted, hexpiry]
    rfl
  | delete id =>
    obtain rfl := Option.some.inj hstep
    refine ⟨_, List.mem_map.mpr ⟨b, hb, rfl⟩, ?_, ?_, ?_⟩
    · split <;> rfl
    · split <;> exact hunlifted
    · split <;> exact hexpiry

/-- From the time that a report's source is blocked, its client is refused at all times, until one
of the reports of the client is unblocked: whatever is blocked or unblocked else, and although the
report may be deleted and the keys of reports are swept. -/
theorem block_holds_until_lifted {labels' : List Label} {w'' : World}
    (hrun : Run (Steps World.step) ⟨[], [], []⟩ labels w) (hr : r ∈ w.reports)
    (hkey : r.sourceClientKey = some clientKey)
    (hblock : w.blockReportSource r.id actor now = .ok w')
    (hrun' : Run (Where (Upheld clientKey) (Steps World.step)) w' labels' w'') :
    w''.sourceHasActiveRateLimit clientKey later = true := by
  have hwf := wf_of_run hrun
  have hblocked : w'.Wf ∧ w'.Blocks clientKey := by
    refine ⟨wf_block hwf hblock, ?_⟩
    obtain ⟨s, key, hfound, -, hs, rfl⟩ := blockReportSource_eq_ok.mp hblock
    rw [hwf.findReport?_eq_some.mpr ⟨hr, rfl⟩] at hfound
    obtain rfl := Option.some.inj hfound
    rw [hkey] at hs
    exact ⟨_, List.mem_cons_self, (Option.some.inj hs).symm, rfl, rfl⟩
  obtain ⟨-, b, hb, heq, hunlifted, hexpiry⟩ : w''.Wf ∧ w''.Blocks clientKey :=
    hrun'.invariant (I := fun w => w.Wf ∧ w.Blocks clientKey)
      (fun _ _ _ h hstep => ⟨wf_step h.1 hstep.2, blocks_of_step h.1 h.2 hstep.1 hstep.2⟩) hblocked
  refine List.any_eq_true.mpr ⟨b, hb, Bool.and_eq_true_iff.mpr ⟨decide_eq_true heq, ?_⟩⟩
  refine isActive_iff.mpr ⟨hunlifted, fun expiry he => ?_⟩
  rw [hexpiry] at he
  cases he

end

/-! ## A block after its key is swept -/

/-- A client whose report was blocked two days ago, and whose key was swept since. -/
def sampleLabels : List Label :=
  [.accept ⟨1⟩ "a" 0, .markReady ⟨1⟩, .block ⟨1⟩ 7 0, .sweep 24 (hours 48)]

def sampleReport : Report := ⟨⟨1⟩, none, true, 0⟩

theorem sampleRun : ∃ w, Run (Steps World.step) ⟨[], [], []⟩ sampleLabels w ∧
    sampleReport ∈ w.reports ∧ w.submissionSourceIsBlocked sampleReport (hours 48) = true :=
  ⟨_, run?_eq_some rfl, List.mem_cons_self, rfl⟩

/-- The report has been accepted and stored. -/
def readyWorld : World := ⟨[⟨⟨1⟩, some "a", true, 0⟩], [], [(⟨1⟩, "a")]⟩

def blockedWorld : World :=
  { readyWorld with blocks := [⟨"a", some ⟨1⟩, 7, 0, none, none, none⟩] }

theorem block_holds_until_lifted_sample : ∃ w,
    Run (Steps World.step) blockedWorld [.sweep 24 (hours 48), .delete ⟨1⟩] w ∧
      w.sourceHasActiveRateLimit "a" (hours 96) = true := by
  have hrun : Run (Steps World.step) ⟨[], [], []⟩ [.accept ⟨1⟩ "a" 0, .markReady ⟨1⟩] readyWorld :=
    run?_eq_some rfl
  have hrun' : Run (Steps World.step) blockedWorld [.sweep 24 (hours 48), .delete ⟨1⟩]
      ⟨[], [⟨"a", none, 7, 0, none, none, none⟩], [(⟨1⟩, "a")]⟩ := run?_eq_some rfl
  have hblock : readyWorld.blockReportSource ⟨1⟩ 7 0 = .ok blockedWorld := rfl
  refine ⟨_, hrun', block_holds_until_lifted hrun List.mem_cons_self rfl hblock
    (hrun'.restrict fun label hlabel w => ?_)⟩
  simp only [List.mem_cons, List.not_mem_nil, or_false] at hlabel
  rcases hlabel with rfl | rfl <;> trivial

end LadybirdReports.Admin.SourceBlocks
