import LadybirdReports.Lib.Result
import LadybirdReports.Lib.Rows
import Mathlib.Algebra.BigOperators.Group.List.Basic
import Mathlib.Algebra.GroupWithZero.Nat

/-!
# Changing rows one at a time

A rule looks at one row of a table and either refuses it or says what becomes of it, what is logged
about it and what it counts for. Applying it to the rows with some keys, one after the other,
changes each of them as if it was the only one (`all_eq_ok_iff`). So the order of the keys does not
matter but for the order of the log (`all_perm`), and a rule that has nothing to do on what it made
does nothing the second time (`all_again`).
-/

namespace RowWise

open Rust

/-- What a rule makes of a row. -/
structure Outcome (ρ ν : Type) where
  row : ρ
  log : List ν
  count : ℕ

structure Table (ρ ν : Type) where
  rows : List ρ
  log : List ν

structure Rule (ρ κ ν ε : Type) where
  key : ρ → κ
  /-- The rows that are looked for. -/
  eligible : ρ → Bool
  missing : ε
  change : ρ → Except ε (Outcome ρ ν)

/-- The rule keeps what rows are found by, and has nothing to do on what it made. -/
structure Rule.Lawful {ρ κ ν ε : Type} (rule : Rule ρ κ ν ε) : Prop where
  key : ∀ r o, rule.change r = .ok o → rule.key o.row = rule.key r
  eligible : ∀ r o, rule.change r = .ok o → rule.eligible o.row = rule.eligible r
  again : ∀ r o, rule.change r = .ok o → rule.change o.row = .ok ⟨o.row, [], 0⟩

namespace Rule

section

variable {ρ κ ν ε : Type} [DecidableEq κ] {rule : Rule ρ κ ν ε} {rows : List ρ} {t t' : Table ρ ν}
  {k : κ} {ks ks' : List κ} {n : ℕ} {r : ρ} {o : Outcome ρ ν}

def row? (rule : Rule ρ κ ν ε) (rows : List ρ) (k : κ) : Option ρ :=
  rows.find? fun r => rule.key r = k && rule.eligible r

/-- The rows with a key, replaced. -/
def replaceRow (rule : Rule ρ κ ν ε) (rows : List ρ) (k : κ) (r : ρ) : List ρ :=
  rows.map fun s => if rule.key s = k then r else s

def one (rule : Rule ρ κ ν ε) (k : κ) (t : Table ρ ν) : Except ε (ℕ × Table ρ ν) := do
  let r ← okOr (rule.row? t.rows k) rule.missing
  let o ← rule.change r
  return (o.count, ⟨rule.replaceRow t.rows k o.row, t.log ++ o.log⟩)

def all (rule : Rule ρ κ ν ε) : List κ → Table ρ ν → Except ε (ℕ × Table ρ ν)
  | [], t => .ok (0, t)
  | k :: ks, t => do
    let (n, t) ← rule.one k t
    let (m, t) ← rule.all ks t
    return (n + m, t)

/-! ## What becomes of the rows -/

/-- What the rule makes of the row with a key. -/
def outcome? (rule : Rule ρ κ ν ε) (rows : List ρ) (k : κ) : Option (Outcome ρ ν) :=
  (rule.row? rows k).bind fun r => (rule.change r).toOption

/-- The rows after those with some keys are changed. -/
def after (rule : Rule ρ κ ν ε) (rows : List ρ) (ks : List κ) : List ρ :=
  rows.map fun s =>
    if rule.key s ∈ ks then ((rule.outcome? rows (rule.key s)).map (·.row)).getD s else s

def logs (rule : Rule ρ κ ν ε) (rows : List ρ) (ks : List κ) : List ν :=
  ks.flatMap fun k => ((rule.outcome? rows k).map (·.log)).getD []

def counts (rule : Rule ρ κ ν ε) (rows : List ρ) (ks : List κ) : ℕ :=
  (ks.map fun k => ((rule.outcome? rows k).map (·.count)).getD 0).sum

theorem row?_eq_some (h : rule.row? rows k = some r) :
    r ∈ rows ∧ rule.key r = k ∧ rule.eligible r = true := by
  have hr := List.find?_some h
  simp only [Bool.and_eq_true, decide_eq_true_eq] at hr
  exact ⟨List.mem_of_find?_eq_some h, hr⟩

theorem outcome?_eq_some :
    rule.outcome? rows k = some o ↔ ∃ r, rule.row? rows k = some r ∧ rule.change r = .ok o := by
  unfold outcome?
  rw [Option.bind_eq_some_iff]
  refine exists_congr fun r => and_congr_right fun _ => ?_
  cases rule.change r with
  | error e => exact ⟨fun h => (by cases h), fun h => (by cases h)⟩
  | ok o' => exact ⟨fun h => by cases h; rfl, fun h => by cases h; rfl⟩

theorem one_eq_ok_iff :
    rule.one k t = .ok (n, t') ↔ ∃ o, rule.outcome? t.rows k = some o ∧ n = o.count ∧
      t' = ⟨rule.replaceRow t.rows k o.row, t.log ++ o.log⟩ := by
  unfold one
  constructor
  · intro h
    obtain ⟨r, hr, h⟩ := bind_eq_ok.mp h
    obtain ⟨o, ho, h⟩ := bind_eq_ok.mp h
    cases h
    exact ⟨o, outcome?_eq_some.mpr ⟨r, okOr_eq_ok.mp hr, ho⟩, rfl, rfl⟩
  · rintro ⟨o, ho, rfl, rfl⟩
    obtain ⟨r, hr, ho⟩ := outcome?_eq_some.mp ho
    rw [hr]
    simp only [okOr, ok_bind, ho]
    rfl

theorem one_keys (hlawful : rule.Lawful) (h : rule.one k t = .ok (n, t')) :
    t'.rows.map rule.key = t.rows.map rule.key := by
  obtain ⟨o, ho, rfl, rfl⟩ := one_eq_ok_iff.mp h
  obtain ⟨r, hr, hchange⟩ := outcome?_eq_some.mp ho
  refine Rows.map_key fun s _ => ?_
  split
  · rename_i hs
    rw [hlawful.key r o hchange, (row?_eq_some hr).2.1, hs]
  · rfl

/-- Changing one row leaves the others to be found as they were. -/
theorem row?_replaceRow (hkey : rule.key r = k) {k' : κ} (hne : k' ≠ k) :
    rule.row? (rule.replaceRow rows k r) k' = rule.row? rows k' := by
  unfold row? replaceRow
  induction rows with
  | nil => rfl
  | cons s rows ih =>
    rw [List.map_cons, List.find?_cons, List.find?_cons, ih]
    by_cases hs : rule.key s = k
    · have hnot : ¬ k = k' := fun h => hne h.symm
      simp [hs, hkey, hnot]
    · rw [if_neg hs]

theorem outcome?_replaceRow (hkey : rule.key r = k) {k' : κ} (hne : k' ≠ k) :
    rule.outcome? (rule.replaceRow rows k r) k' = rule.outcome? rows k' := by
  unfold outcome?
  rw [row?_replaceRow hkey hne]

/-- Changing the row with one key and then those with others changes them all. -/
theorem after_replaceRow (ho : rule.outcome? rows k = some o) (hkey : rule.key o.row = k)
    (hk : k ∉ ks) :
    rule.after (rule.replaceRow rows k o.row) ks = rule.after rows (k :: ks) := by
  unfold after replaceRow
  rw [List.map_map]
  refine List.map_congr_left fun s _ => ?_
  rw [Function.comp_apply]
  by_cases hs : rule.key s = k
  · rw [if_pos hs, hkey, if_neg hk, hs, if_pos List.mem_cons_self, ho]
    rfl
  · rw [if_neg hs]
    have hout : rule.outcome? (rule.replaceRow rows k o.row) (rule.key s) =
        rule.outcome? rows (rule.key s) := outcome?_replaceRow hkey hs
    unfold replaceRow at hout
    rw [hout]
    simp [hs]

theorem logs_replaceRow (hkey : rule.key r = k) (hk : k ∉ ks) :
    rule.logs (rule.replaceRow rows k r) ks = rule.logs rows ks := by
  unfold logs
  refine List.flatMap_congr fun k' hk' => ?_
  rw [outcome?_replaceRow hkey fun h => hk (h ▸ hk')]

theorem counts_replaceRow (hkey : rule.key r = k) (hk : k ∉ ks) :
    rule.counts (rule.replaceRow rows k r) ks = rule.counts rows ks := by
  unfold counts
  refine congrArg List.sum (List.map_congr_left fun k' hk' => ?_)
  rw [outcome?_replaceRow hkey fun h => hk (h ▸ hk')]

theorem after_nil : rule.after rows [] = rows := by
  unfold after
  simp

/-- Rows are changed one after the other exactly if each can be changed, and each is as if it was
the only one. -/
theorem all_eq_ok_iff (hlawful : rule.Lawful) (hks : ks.Nodup) :
    rule.all ks t = .ok (n, t') ↔ (∀ k ∈ ks, (rule.outcome? t.rows k).isSome = true) ∧
      n = rule.counts t.rows ks ∧ t' = ⟨rule.after t.rows ks, t.log ++ rule.logs t.rows ks⟩ := by
  induction ks generalizing t t' n with
  | nil =>
    rw [all, after_nil]
    constructor
    · intro h
      cases h
      exact ⟨fun _ hk => (by cases hk), rfl, by simp [logs]⟩
    · rintro ⟨-, rfl, rfl⟩
      simp [counts, logs]
  | cons k ks ih =>
    obtain ⟨hk, hks⟩ := List.nodup_cons.mp hks
    rw [List.forall_mem_cons, all]
    have hcons : ∀ o, rule.outcome? t.rows k = some o →
        rule.counts t.rows (k :: ks) = o.count + rule.counts t.rows ks ∧
        rule.logs t.rows (k :: ks) = o.log ++ rule.logs t.rows ks := by
      intro o ho
      simp [counts, logs, ho]
    have hkeyOf : ∀ o, rule.outcome? t.rows k = some o → rule.key o.row = k := by
      intro o ho
      obtain ⟨r, hr, hchange⟩ := outcome?_eq_some.mp ho
      exact (hlawful.key r o hchange).trans (row?_eq_some hr).2.1
    constructor
    · intro h
      obtain ⟨⟨n₁, t₁⟩, h₁, h⟩ := bind_eq_ok.mp h
      obtain ⟨⟨n₂, t₂⟩, h₂, h⟩ := bind_eq_ok.mp h
      obtain ⟨rfl, rfl⟩ := Prod.mk.inj (pure_eq_ok.mp h)
      obtain ⟨o, ho, rfl, rfl⟩ := one_eq_ok_iff.mp h₁
      obtain ⟨hall, rfl, rfl⟩ := (ih hks).mp h₂
      have hkey := hkeyOf o ho
      obtain ⟨hcounts, hlogs⟩ := hcons o ho
      refine ⟨⟨by rw [ho]; rfl, fun k' hk' => ?_⟩, ?_, ?_⟩
      · have hsome := hall k' hk'
        rwa [outcome?_replaceRow hkey fun h => hk (h ▸ hk')] at hsome
      · rw [counts_replaceRow hkey hk, hcounts]
      · rw [after_replaceRow ho hkey hk, logs_replaceRow hkey hk, hlogs, List.append_assoc]
    · rintro ⟨⟨hsome, hall⟩, rfl, rfl⟩
      obtain ⟨o, ho⟩ := Option.isSome_iff_exists.mp hsome
      have hkey := hkeyOf o ho
      obtain ⟨hcounts, hlogs⟩ := hcons o ho
      rw [one_eq_ok_iff.mpr ⟨o, ho, rfl, rfl⟩, ok_bind]
      dsimp only
      have hrest := (ih (t := ⟨rule.replaceRow t.rows k o.row, t.log ++ o.log⟩) hks).mpr
        ⟨fun k' hk' => ?_, rfl, rfl⟩
      · rw [hrest, ok_bind, counts_replaceRow hkey hk, hcounts, after_replaceRow ho hkey hk,
          logs_replaceRow hkey hk, hlogs, List.append_assoc]
        rfl
      · rw [outcome?_replaceRow hkey fun h => hk (h ▸ hk')]
        exact hall k' hk'

/-- A rule that counts nothing counts nothing of several rows. -/
theorem all_count_eq_zero (hcount : ∀ r o, rule.change r = .ok o → o.count = 0)
    (h : rule.all ks t = .ok (n, t')) : n = 0 := by
  induction ks generalizing t n with
  | nil =>
    cases h
    rfl
  | cons k ks ih =>
    obtain ⟨⟨n₁, t₁⟩, h₁, h⟩ := bind_eq_ok.mp h
    obtain ⟨⟨n₂, t₂⟩, h₂, h⟩ := bind_eq_ok.mp h
    obtain ⟨rfl, rfl⟩ := Prod.mk.inj (pure_eq_ok.mp h)
    obtain ⟨o, ho, rfl, -⟩ := one_eq_ok_iff.mp h₁
    obtain ⟨r, -, hchange⟩ := outcome?_eq_some.mp ho
    rw [hcount r o hchange, ih h₂]

/-! ## Any order, and once more -/

theorem after_congr (h : ∀ k, k ∈ ks ↔ k ∈ ks') : rule.after rows ks = rule.after rows ks' := by
  unfold after
  refine List.map_congr_left fun s _ => ?_
  simp only [h]

theorem eq_of_perm_of_length_le_one {α : Type} {l l' : List α} (hperm : l'.Perm l)
    (h : l.length ≤ 1) : l' = l := by
  cases l with
  | nil => exact hperm.eq_nil
  | cons a l =>
    have hl : l = [] := List.eq_nil_of_length_eq_zero (by simpa using h)
    rw [hl] at hperm ⊢
    exact List.perm_singleton.mp hperm

section

variable {α : Type} [DecidableEq α] {about : ν → α} {label : κ → α}

/-- What is logged about one row is what the rule logs for it. -/
theorem filter_logs
    (habout : ∀ r o, rule.change r = .ok o → ∀ e ∈ o.log, about e = label (rule.key r)) (a : α) :
    (rule.logs rows ks).filter (about · = a) =
      rule.logs rows (ks.filter (label · = a)) := by
  unfold logs
  induction ks with
  | nil => rfl
  | cons k ks ih =>
    have hlog : ∀ e ∈ ((rule.outcome? rows k).map (·.log)).getD [], about e = label k := by
      cases ho : rule.outcome? rows k with
      | none => simp
      | some o =>
        obtain ⟨r, hr, hchange⟩ := outcome?_eq_some.mp ho
        intro e he
        rw [habout r o hchange e he, (row?_eq_some hr).2.1]
    rw [List.flatMap_cons, List.filter_append, ih, List.filter_cons]
    by_cases hk : label k = a
    · rw [if_pos (by simpa using hk), List.flatMap_cons,
        List.filter_eq_self.mpr fun e he => by simpa using (hlog e he).trans hk]
    · rw [if_neg (by simpa using hk),
        List.filter_eq_nil_iff.mpr fun e he => by
          simpa using fun h => hk ((hlog e he).symm.trans h)]
      rfl

theorem length_filter_label (hlabel : Function.Injective label) (hks : ks.Nodup) (a : α) :
    (ks.filter (label · = a)).length ≤ 1 := by
  by_cases h : ∃ k, label k = a
  · obtain ⟨k, rfl⟩ := h
    have heq : ks.filter (fun k' => label k' = label k) = ks.filter (· = k) :=
      List.filter_congr fun k' _ => by simp [hlabel.eq_iff]
    rw [heq, List.filter_eq, List.length_replicate]
    exact List.nodup_iff_count_le_one.mp hks k
  · rw [List.filter_eq_nil_iff.mpr fun k _ => by simpa using fun hk => h ⟨k, hk⟩]
    exact Nat.zero_le 1

/-- In another order the rows become the same, and the log says the same of each row. -/
theorem all_perm (hlawful : rule.Lawful)
    (habout : ∀ r o, rule.change r = .ok o → ∀ e ∈ o.log, about e = label (rule.key r))
    (hlabel : Function.Injective label) (hks : ks.Nodup) (hperm : ks'.Perm ks)
    (h : rule.all ks t = .ok (n, t')) :
    ∃ t'', rule.all ks' t = .ok (n, t'') ∧ t''.rows = t'.rows ∧
      ∀ a, t''.log.filter (about · = a) = t'.log.filter (about · = a) := by
  obtain ⟨hall, rfl, rfl⟩ := (all_eq_ok_iff hlawful hks).mp h
  refine ⟨⟨rule.after t.rows ks', t.log ++ rule.logs t.rows ks'⟩,
    (all_eq_ok_iff hlawful (hperm.nodup_iff.mpr hks)).mpr
      ⟨fun k hk => hall k (hperm.subset hk), ?_, rfl⟩, ?_, fun a => ?_⟩
  · exact ((hperm.map _).sum_eq).symm
  · exact after_congr fun k => hperm.mem_iff
  · dsimp only
    rw [List.filter_append, List.filter_append, filter_logs habout, filter_logs habout]
    rw [eq_of_perm_of_length_le_one (hperm.filter _) (length_filter_label hlabel hks a)]

end

theorem key_after (hlawful : rule.Lawful) :
    (rule.after rows ks).map rule.key = rows.map rule.key := by
  refine Rows.map_key fun s _ => ?_
  split
  · cases ho : rule.outcome? rows (rule.key s) with
    | none => rfl
    | some o =>
      obtain ⟨r, hr, hchange⟩ := outcome?_eq_some.mp ho
      exact (hlawful.key r o hchange).trans (row?_eq_some hr).2.1
  · rfl

theorem all_keys (hlawful : rule.Lawful) (hks : ks.Nodup) (h : rule.all ks t = .ok (n, t')) :
    t'.rows.map rule.key = t.rows.map rule.key := by
  obtain ⟨-, -, rfl⟩ := (all_eq_ok_iff hlawful hks).mp h
  exact key_after hlawful

/-- What the rule made of a row is what it finds next. -/
theorem row?_after (hlawful : rule.Lawful) (hrows : (rows.map rule.key).Nodup)
    (ho : rule.outcome? rows k = some o) (hk : k ∈ ks) :
    rule.row? (rule.after rows ks) k = some o.row := by
  obtain ⟨r, hr, hchange⟩ := outcome?_eq_some.mp ho
  obtain ⟨hmem, rfl, heligible⟩ := row?_eq_some hr
  have hnew : o.row ∈ rule.after rows ks := by
    refine List.mem_map.mpr ⟨r, hmem, ?_⟩
    rw [if_pos hk, ho]
    rfl
  rw [← hlawful.key r o hchange]
  refine Rows.find?_key_and ?_ hnew ?_
  · rwa [key_after hlawful]
  · rwa [hlawful.eligible r o hchange]

theorem all_again (hlawful : rule.Lawful) (hrows : (t.rows.map rule.key).Nodup) (hks : ks.Nodup)
    (h : rule.all ks t = .ok (n, t')) : rule.all ks t' = .ok (0, t') := by
  obtain ⟨hall, rfl, rfl⟩ := (all_eq_ok_iff hlawful hks).mp h
  have hagain : ∀ k ∈ ks, ∃ o, rule.outcome? t.rows k = some o ∧
      rule.outcome? (rule.after t.rows ks) k = some ⟨o.row, [], 0⟩ := by
    intro k hk
    obtain ⟨o, ho⟩ := Option.isSome_iff_exists.mp (hall k hk)
    obtain ⟨r, -, hchange⟩ := outcome?_eq_some.mp ho
    exact ⟨o, ho, outcome?_eq_some.mpr ⟨o.row, row?_after hlawful hrows ho hk,
      hlawful.again r o hchange⟩⟩
  have hsame : rule.after (rule.after t.rows ks) ks = rule.after t.rows ks := by
    conv_rhs => rw [← List.map_id' (rule.after t.rows ks)]
    refine List.map_congr_left fun s hs => ?_
    split
    · rename_i hk
      obtain ⟨o, ho, ho'⟩ := hagain _ hk
      have hfound := row?_after hlawful hrows ho hk
      rw [ho']
      refine Rows.eq_of_key ?_ (row?_eq_some hfound).1 hs (row?_eq_some hfound).2.1
      rwa [key_after hlawful]
    · rfl
  have hlogs : rule.logs (rule.after t.rows ks) ks = [] := by
    refine List.flatMap_eq_nil_iff.mpr fun k hk => ?_
    obtain ⟨o, -, ho'⟩ := hagain k hk
    rw [ho']
    rfl
  have hcounts : rule.counts (rule.after t.rows ks) ks = 0 := by
    refine List.sum_eq_zero fun c hc => ?_
    obtain ⟨k, hk, rfl⟩ := List.mem_map.mp hc
    obtain ⟨o, -, ho'⟩ := hagain k hk
    rw [ho']
    rfl
  refine (all_eq_ok_iff hlawful hks).mpr ⟨fun k hk => ?_, hcounts.symm, ?_⟩
  · obtain ⟨o, -, ho'⟩ := hagain k hk
    rw [ho']
    rfl
  · rw [hsame, hlogs, List.append_nil]

end

end Rule

end RowWise
