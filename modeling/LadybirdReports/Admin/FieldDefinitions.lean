import LadybirdReports.Domain.Field
import LadybirdReports.Lib.KeyOrder
import Mathlib.Data.Char
import Mathlib.Data.Int.Order.Basic
import Mathlib.Data.List.Induction
import Mathlib.Data.List.Lex

/-!
# The field definitions

The rows of `field_definitions` keep their order in numbers: a new row gets ten more than the
greatest, and a reorder numbers all rows again.

1. Keys and positions are distinct, and no position is ten times the number of rows
   (`FieldSettings.WellFormed`). A list of the rows by their positions is then the listing, whatever
   breaks a tie (`fieldDefinitions_eq`).
2. An ordered list of distinct keys does what each operation does to the listing, and refuses what
   the operation refuses (`operate_refines`).

So every run keeps to it (`field_definitions_refine`), and the audit of the run leads to the same
definitions (`field_audit_replays`).
-/

namespace LadybirdReports.Admin.FieldDefinitions

open Rust

/-! ## The table -/

/-- How the database sorts texts. -/
structure Collation where
  le : Str → Str → Bool
  total : ∀ a b, le a b ∨ le b a
  trans : ∀ a b c, le a b → le b c → le a c

/-- `ORDER BY position, key`. -/
def Collation.Before (c : Collation) (a b : FieldDefinition) : Prop :=
  a.position < b.position ∨ a.position = b.position ∧ c.le a.key b.key

instance (c : Collation) : DecidableRel c.Before := fun _ _ => by
  unfold Collation.Before; infer_instance

/-- What an audit event says of a definition: its label and its kind. -/
abbrev Described := Str × FieldKind

inductive FieldEvent
  | create (key : Str) (new : Described)
  | update (key : Str) (old new : Described)
  | reorder (old new : List Str)
  deriving DecidableEq

/-- The rows, and the audit events with their actors. -/
structure FieldSettings where
  rows : List FieldDefinition
  audit : List (ℤ × FieldEvent)

def FieldSettings.empty : FieldSettings := ⟨[], []⟩

def described (row : FieldDefinition) : Described := (row.label, row.kind)

def validateFieldKey (key : Str) : Except String Unit :=
  ensure (isValidFieldKey key) "Invalid field key"

def validateFieldDefinition (key label : Str) : Except String Unit := do
  validateFieldKey key
  ensure (label ≠ [] && byteLen label ≤ 128) "Invalid field label"

def fieldDefinitions (c : Collation) (s : FieldSettings) : List FieldDefinition :=
  s.rows.insertionSort c.Before

/-- `COALESCE(MAX(position) + 10, 0)`. -/
def nextPosition (rows : List FieldDefinition) : ℤ :=
  ((rows.map (·.position)).max?.map (· + 10)).getD 0

/-- The column of a text takes no U+0000, and the one of a position an `integer`. -/
def upsertFieldDefinition (key label : Str) (kind : FieldKind) (actor : ℤ) (s : FieldSettings) :
    Except String FieldSettings := do
  validateFieldDefinition key label
  let old := (s.rows.find? (·.key = key)).map described
  if old = some (label, kind) then
    return s
  else
    let position := nextPosition s.rows
    ensure (position < 2 ^ 31) "integer out of range"
    ensure (!label.contains '\x00') "invalid byte sequence for encoding \"UTF8\""
    match old with
    | none => return {
        rows := s.rows ++ [{ key, label, kind, position }]
        audit := s.audit ++ [(actor, .create key (label, kind))] }
    | some old => return {
        rows := s.rows.map fun row => if row.key = key then { row with label, kind } else row
        audit := s.audit ++ [(actor, .update key old (label, kind))] }

def reorderFieldDefinitions (c : Collation) (keys : List Str) (actor : ℤ) (s : FieldSettings) :
    Except String FieldSettings := do
  ensure (keys ≠ [] && keys.length ≤ 256) "Invalid field order"
  keys.forM validateFieldKey
  ensure keys.Nodup "Field order contains duplicates"
  let existingOrder := (fieldDefinitions c s).map (·.key)
  ensure (keys.all existingOrder.contains && existingOrder.all keys.contains)
    "Field definitions changed while they were being reordered"
  if keys = existingOrder then
    return s
  else
    return {
      rows := s.rows.map fun row =>
        if row.key ∈ keys then { row with position := keys.idxOf row.key * 10 } else row
      audit := s.audit ++ [(actor, .reorder existingOrder keys)] }

inductive FieldOperation
  | upsert (key label : Str) (kind : FieldKind) (actor : ℤ)
  | reorder (keys : List Str) (actor : ℤ)

def operate (c : Collation) (s : FieldSettings) : FieldOperation → Except String FieldSettings
  | .upsert key label kind actor => upsertFieldDefinition key label kind actor s
  | .reorder keys actor => reorderFieldDefinitions c keys actor s

/-- Operations one after another. The transaction of one that is refused is rolled back. -/
def runFields (c : Collation) (operations : List FieldOperation) : FieldSettings :=
  operations.foldl (fun s operation => (operate c s operation).toOption.getD s) .empty

/-! ## Ordered definitions -/

/-- Definitions in their order, of distinct keys. -/
structure OrderedFields where
  entries : List (Str × Described)
  nodup : (entries.map Prod.fst).Nodup

def OrderedFields.keys (o : OrderedFields) : List Str := o.entries.map Prod.fst

def OrderedFields.empty : OrderedFields := ⟨[], List.nodup_nil⟩

/-- The definition of a key is another, in its place. -/
def describe (key : Str) (new : Described) (entry : Str × Described) : Str × Described :=
  if entry.1 = key then (key, new) else entry

theorem describe_fst (key : Str) (new : Described) (entry : Str × Described) :
    (describe key new entry).1 = entry.1 := by
  unfold describe
  split_ifs with h
  · exact h.symm
  · rfl

/-- A new key comes last, and one that is there keeps its place. -/
def OrderedFields.upsert (o : OrderedFields) (key : Str) (new : Described) : OrderedFields where
  entries := if key ∈ o.keys then o.entries.map (describe key new) else o.entries ++ [(key, new)]
  nodup := by
    split_ifs with hkey
    · rw [Rows.map_key fun entry _ => describe_fst key new entry]
      exact o.nodup
    · rw [List.map_append, List.map_singleton]
      exact List.nodup_append'.mpr ⟨o.nodup, List.nodup_singleton _,
        List.disjoint_singleton.mpr hkey⟩

/-- The definitions in the order of a permutation of their keys. -/
def OrderedFields.reorder (o : OrderedFields) (keys : List Str) (h : keys.Perm o.keys) :
    OrderedFields where
  entries := Rows.ofKeys Prod.fst o.entries keys
  nodup := by
    rw [Rows.map_ofKeys fun key hkey => h.mem_iff.mp hkey]
    exact h.nodup_iff.mpr o.nodup

/-- What an operation makes of the order, if it is not refused. -/
def OrderedFields.step? (o : OrderedFields) : FieldOperation → Option OrderedFields
  | .upsert key label kind _ =>
    if isValidFieldKey key ∧ label ≠ [] ∧ byteLen label ≤ 128 ∧ '\x00' ∉ label then
      some (o.upsert key (label, kind))
    else none
  | .reorder keys _ =>
    if h : keys ≠ [] ∧ keys.Perm o.keys then some (o.reorder keys h.2) else none

def OrderedFields.run (operations : List FieldOperation) : OrderedFields :=
  operations.foldl (fun o operation => (o.step? operation).getD o) .empty

/-- The listing, without the positions. -/
def listing (c : Collation) (s : FieldSettings) : List (Str × Described) :=
  (fieldDefinitions c s).map fun row => (row.key, described row)

/-! ## The rows -/

/-- What every operation keeps of the rows. -/
structure FieldSettings.WellFormed (s : FieldSettings) : Prop where
  keys : (s.rows.map (·.key)).Nodup
  positions : (s.rows.map (·.position)).Nodup
  bounds : ∀ row ∈ s.rows, 0 ≤ row.position ∧ row.position < 10 * s.rows.length
  valid : ∀ row ∈ s.rows, isValidFieldKey row.key
  texts : ∀ row ∈ s.rows, '\x00' ∉ row.label

section

variable {c : Collation} {s s' : FieldSettings} {key label : Str} {kind : FieldKind} {actor : ℤ}
  {keys : List Str} {o : OrderedFields} {listed : List FieldDefinition}

instance (c : Collation) : Std.Total c.Before where
  total a b := by
    unfold Collation.Before
    rcases lt_trichotomy a.position b.position with h | h | h
    · exact .inl (.inl h)
    · rcases c.total a.key b.key with hkey | hkey
      · exact .inl (.inr ⟨h, hkey⟩)
      · exact .inr (.inr ⟨h.symm, hkey⟩)
    · exact .inr (.inl h)

instance (c : Collation) : IsTrans FieldDefinition c.Before where
  trans a b d := by
    unfold Collation.Before
    rintro (h | ⟨h, hkey⟩) (h' | ⟨h', hkey'⟩)
    · exact .inl (h.trans h')
    · exact .inl (h' ▸ h)
    · exact .inl (h ▸ h')
    · exact .inr ⟨h.trans h', c.trans _ _ _ hkey hkey'⟩

theorem fieldDefinitions_perm (c : Collation) (s : FieldSettings) :
    (fieldDefinitions c s).Perm s.rows :=
  List.perm_insertionSort _ _

/-- A list of the rows by their positions is the listing. -/
theorem fieldDefinitions_eq (hperm : listed.Perm s.rows)
    (hlisted : (listed.map (·.position)).Pairwise (· < ·)) : fieldDefinitions c s = listed :=
  Rows.insertionSort_eq (fun _ _ h => h.elim le_of_lt fun h => h.1.le) hperm hlisted

theorem positions_increase (hs : s.WellFormed) :
    ((fieldDefinitions c s).map (·.position)).Pairwise (· < ·) := by
  have hnodup : ((fieldDefinitions c s).map (·.position)).Nodup :=
    ((fieldDefinitions_perm c s).map _).nodup_iff.mpr hs.positions
  have hsorted : (fieldDefinitions c s).Pairwise c.Before := List.pairwise_insertionSort _ _
  refine List.pairwise_map.mpr ((List.pairwise_map.mp hnodup).imp₂ ?_ hsorted)
  rintro a b hne (hlt | ⟨heq, -⟩)
  · exact hlt
  · exact absurd heq hne

theorem position_lt_nextPosition {row : FieldDefinition} (h : row ∈ s.rows) :
    row.position < nextPosition s.rows := by
  unfold nextPosition
  have hmem : row.position ∈ s.rows.map (·.position) := List.mem_map_of_mem h
  cases hmax : (s.rows.map (·.position)).max? with
  | none => rw [List.max?_eq_none_iff.mp hmax] at hmem; cases hmem
  | some max =>
    have hle := (List.max?_eq_some_iff.mp hmax).2 _ hmem
    change row.position < max + 10
    omega

theorem nextPosition_bounds (hs : s.WellFormed) :
    0 ≤ nextPosition s.rows ∧ nextPosition s.rows < 10 * (s.rows.length + 1) := by
  unfold nextPosition
  cases hmax : (s.rows.map (·.position)).max? with
  | none =>
    change (0 : ℤ) ≤ 0 ∧ (0 : ℤ) < _
    omega
  | some max =>
    obtain ⟨row, hrow, rfl⟩ := List.mem_map.mp (List.max?_eq_some_iff.mp hmax).1
    have hbounds := hs.bounds row hrow
    change 0 ≤ row.position + 10 ∧ row.position + 10 < _
    omega

/-! ## An upsert -/

theorem validateFieldDefinition_eq_ok {u : Unit} :
    validateFieldDefinition key label = .ok u ↔
      isValidFieldKey key = true ∧ label ≠ [] ∧ byteLen label ≤ 128 := by
  unfold validateFieldDefinition validateFieldKey
  rw [bind_eq_ok]
  simp only [ensure_eq_ok, Bool.and_eq_true, decide_eq_true_eq, exists_const]

/-- The rows after a definition of a key, and what the audit says of it. -/
inductive Upserted (key : Str) (new : Described) (actor : ℤ) (s s' : FieldSettings) : Prop
  | same (row : FieldDefinition) (hrow : row ∈ s.rows) (hkey : row.key = key)
      (hnew : described row = new) (hs : s' = s)
  | created (hkey : ∀ row ∈ s.rows, row.key ≠ key)
      (hrows : s'.rows = s.rows ++ [⟨key, new.1, new.2, nextPosition s.rows⟩])
      (haudit : s'.audit = s.audit ++ [(actor, .create key new)])
  | updated (row : FieldDefinition) (hrow : row ∈ s.rows) (hkey : row.key = key)
      (hne : described row ≠ new)
      (hrows : s'.rows = s.rows.map fun row =>
        if row.key = key then { row with label := new.1, kind := new.2 } else row)
      (haudit : s'.audit = s.audit ++ [(actor, .update key (described row) new)])

theorem upserted_of_ok (h : upsertFieldDefinition key label kind actor s = .ok s') :
    isValidFieldKey key = true ∧ label ≠ [] ∧ byteLen label ≤ 128 ∧
      (s' = s ∨ '\x00' ∉ label) ∧ Upserted key (label, kind) actor s s' := by
  unfold upsertFieldDefinition at h
  obtain ⟨_, hvalid, h⟩ := bind_eq_ok.mp h
  obtain ⟨hkey, hlabel, hlength⟩ := validateFieldDefinition_eq_ok.mp hvalid
  refine ⟨hkey, hlabel, hlength, ?_⟩
  dsimp only at h
  cases hfind : s.rows.find? (·.key = key) with
  | none =>
    rw [hfind, Option.map_none, if_neg nofun] at h
    obtain ⟨_, -, h⟩ := bind_eq_ok.mp h
    obtain ⟨_, htext, h⟩ := bind_eq_ok.mp h
    rw [← pure_eq_ok.mp h]
    refine ⟨.inr (by simpa using ensure_eq_ok.mp htext), .created (fun row hrow heq => ?_) rfl rfl⟩
    exact List.find?_eq_none.mp hfind row hrow (decide_eq_true heq)
  | some row =>
    have hrow := List.mem_of_find?_eq_some hfind
    have hkey : row.key = key := by simpa using List.find?_some hfind
    rw [hfind, Option.map_some] at h
    by_cases hsame : described row = (label, kind)
    · rw [hsame, if_pos rfl] at h
      obtain rfl := pure_eq_ok.mp h
      exact ⟨.inl rfl, .same row hrow hkey hsame rfl⟩
    · rw [if_neg fun heq => hsame (Option.some.inj heq)] at h
      obtain ⟨_, -, h⟩ := bind_eq_ok.mp h
      obtain ⟨_, htext, h⟩ := bind_eq_ok.mp h
      rw [← pure_eq_ok.mp h]
      exact ⟨.inr (by simpa using ensure_eq_ok.mp htext), .updated row hrow hkey hsame rfl rfl⟩

theorem upsert_ok (hkey : isValidFieldKey key = true) (hlabel : label ≠ [])
    (hlength : byteLen label ≤ 128) (htext : '\x00' ∉ label)
    (hposition : nextPosition s.rows < 2 ^ 31) :
    ∃ s', upsertFieldDefinition key label kind actor s = .ok s' := by
  unfold upsertFieldDefinition
  rw [(validateFieldDefinition_eq_ok (u := ())).mpr ⟨hkey, hlabel, hlength⟩, ok_bind]
  dsimp only
  split
  · exact ⟨s, rfl⟩
  · have htext : (!label.contains '\x00') = true := by simpa using htext
    rw [ensure_eq_ok (u := ()).mpr (decide_eq_true hposition), ok_bind,
      ensure_eq_ok (u := ()).mpr htext, ok_bind]
    split
    · exact ⟨_, rfl⟩
    · exact ⟨_, rfl⟩

theorem Upserted.text (hs : s.WellFormed) (htext : s' = s ∨ '\x00' ∉ label)
    (h : Upserted key (label, kind) actor s s') : '\x00' ∉ label := by
  cases h with
  | same row hrow _ hnew _ =>
    have hlabel : row.label = label := congrArg Prod.fst hnew
    exact hlabel ▸ hs.texts row hrow
  | created hkey hrows _ =>
    refine htext.resolve_left fun heq => ?_
    have hlength := congrArg (fun s => s.rows.length) heq
    rw [hrows, List.length_append, List.length_singleton] at hlength
    omega
  | updated _ _ _ _ _ haudit =>
    refine htext.resolve_left fun heq => ?_
    have hlength := congrArg (fun s => s.audit.length) heq
    rw [haudit, List.length_append, List.length_singleton] at hlength
    omega

theorem Upserted.wellFormed (hs : s.WellFormed) (hvalid : isValidFieldKey key = true)
    (hlabel : '\x00' ∉ label) (h : Upserted key (label, kind) actor s s') :
    s'.WellFormed := by
  cases h with
  | same _ _ _ _ h => rwa [h]
  | created hkey hrows _ =>
    have hbounds := nextPosition_bounds hs
    refine ⟨?_, ?_, ?_, ?_, ?_⟩ <;> rw [hrows]
    · rw [List.map_append, List.map_singleton]
      refine List.nodup_append'.mpr ⟨hs.keys, List.nodup_singleton _,
        List.disjoint_singleton.mpr fun hmem => ?_⟩
      obtain ⟨row, hrow, heq⟩ := List.mem_map.mp hmem
      exact hkey row hrow heq
    · rw [List.map_append, List.map_singleton]
      refine List.nodup_append'.mpr ⟨hs.positions, List.nodup_singleton _,
        List.disjoint_singleton.mpr fun hmem => ?_⟩
      obtain ⟨row, hrow, heq⟩ := List.mem_map.mp hmem
      exact absurd heq (position_lt_nextPosition hrow).ne
    · rw [List.length_append, List.length_singleton, List.forall_mem_append,
        List.forall_mem_singleton]
      refine ⟨fun row hrow => ?_, hbounds.1, ?_⟩
      · have hrow := hs.bounds row hrow
        omega
      · have hbound := hbounds.2
        push_cast
        omega
    · exact List.forall_mem_append.mpr ⟨hs.valid, List.forall_mem_singleton.mpr hvalid⟩
    · exact List.forall_mem_append.mpr ⟨hs.texts, List.forall_mem_singleton.mpr hlabel⟩
  | updated row hrow hkey _ hrows _ =>
    refine ⟨?_, ?_, ?_, ?_, ?_⟩ <;> rw [hrows]
    · rw [Rows.map_key fun row _ => by split_ifs <;> rfl]
      exact hs.keys
    · rw [Rows.map_key fun row _ => by split_ifs <;> rfl]
      exact hs.positions
    · rw [List.length_map]
      refine List.forall_mem_map.mpr fun row hrow => ?_
      have hrow := hs.bounds row hrow
      split_ifs <;> exact hrow
    · refine List.forall_mem_map.mpr fun row hrow => ?_
      have hrow := hs.valid row hrow
      split_ifs <;> exact hrow
    · refine List.forall_mem_map.mpr fun row hrow => ?_
      split_ifs
      · exact hlabel
      · exact hs.texts row hrow

theorem mem_keys_listing (key : Str) :
    key ∈ (listing c s).map Prod.fst ↔ ∃ row ∈ s.rows, row.key = key := by
  unfold listing
  rw [List.map_map, ((fieldDefinitions_perm c s).map _).mem_iff, List.mem_map]
  rfl

/-- The listing after an upsert. -/
theorem Upserted.listing_eq {new : Described} (hs : s.WellFormed)
    (h : Upserted key new actor s s') :
    listing c s' = if key ∈ (listing c s).map Prod.fst then (listing c s).map (describe key new)
      else listing c s ++ [(key, new)] := by
  cases h with
  | same row hrow hkey hnew heq =>
    rw [if_pos ((mem_keys_listing key).mpr ⟨row, hrow, hkey⟩), heq]
    refine (List.map_id' (listing c s)).symm.trans (List.map_congr_left fun entry hentry => ?_)
    unfold listing at hentry
    obtain ⟨other, hother, rfl⟩ := List.mem_map.mp hentry
    have hother := (fieldDefinitions_perm c s).mem_iff.mp hother
    unfold describe
    split_ifs with hsame
    · rw [Rows.eq_of_key hs.keys hother hrow (hsame.trans hkey.symm), hkey, hnew]
    · rfl
  | created hkey hrows _ =>
    rw [if_neg fun hmem => by
      obtain ⟨row, hrow, heq⟩ := (mem_keys_listing key).mp hmem
      exact hkey row hrow heq]
    have hlisted : fieldDefinitions c s' =
        fieldDefinitions c s ++ [⟨key, new.1, new.2, nextPosition s.rows⟩] := by
      refine fieldDefinitions_eq ?_ ?_
      · rw [hrows]
        exact (fieldDefinitions_perm c s).append_right _
      · rw [List.map_append, List.map_singleton]
        refine List.pairwise_append.mpr ⟨positions_increase hs, List.pairwise_singleton _ _, ?_⟩
        intro position hposition next hnext
        obtain ⟨row, hrow, rfl⟩ := List.mem_map.mp hposition
        rw [List.mem_singleton.mp hnext]
        exact position_lt_nextPosition ((fieldDefinitions_perm c s).mem_iff.mp hrow)
    unfold listing
    rw [hlisted, List.map_append]
    rfl
  | updated row hrow hkey _ hrows _ =>
    rw [if_pos ((mem_keys_listing key).mpr ⟨row, hrow, hkey⟩)]
    have hlisted : fieldDefinitions c s' = (fieldDefinitions c s).map fun row =>
        if row.key = key then { row with label := new.1, kind := new.2 } else row := by
      refine fieldDefinitions_eq ?_ ?_
      · rw [hrows]
        exact (fieldDefinitions_perm c s).map _
      · rw [Rows.map_key fun row _ => by split_ifs <;> rfl]
        exact positions_increase hs
    unfold listing
    rw [hlisted, List.map_map, List.map_map]
    refine List.map_congr_left fun other _ => ?_
    unfold describe
    simp only [Function.comp_apply]
    split_ifs with hother
    · rw [← hother]
      rfl
    · rfl

/-! ## A reorder -/

theorem forM_validateFieldKey {u : Unit} :
    keys.forM validateFieldKey = .ok u ↔ ∀ key ∈ keys, isValidFieldKey key = true := by
  induction keys with
  | nil => exact ⟨fun _ => nofun, fun _ => rfl⟩
  | cons key keys ih =>
    change (validateFieldKey key >>= fun _ => keys.forM validateFieldKey) = _ ↔ _
    rw [bind_eq_ok, List.forall_mem_cons, ← ih]
    unfold validateFieldKey
    simp only [ensure_eq_ok, exists_const]

/-- The position that a key gets. -/
def renumber (keys : List Str) (row : FieldDefinition) : FieldDefinition :=
  if row.key ∈ keys then { row with position := keys.idxOf row.key * 10 } else row

theorem renumber_key (keys : List Str) (row : FieldDefinition) :
    (renumber keys row).key = row.key := by
  unfold renumber
  split_ifs <;> rfl

/-- Keys that are the stored ones, in another order. -/
theorem perm_existing (hnodup : keys.Nodup) (hs : s.WellFormed)
    (hkeys : (keys.all ((fieldDefinitions c s).map (·.key)).contains &&
      ((fieldDefinitions c s).map (·.key)).all keys.contains) = true) :
    keys.Perm ((fieldDefinitions c s).map (·.key)) := by
  rw [Bool.and_eq_true, List.all_eq_true, List.all_eq_true] at hkeys
  refine (List.perm_ext_iff_of_nodup hnodup
    (((fieldDefinitions_perm c s).map _).nodup_iff.mpr hs.keys)).mpr fun key =>
      ⟨fun h => ?_, fun h => ?_⟩
  · exact List.contains_iff_mem.mp (hkeys.1 key h)
  · exact List.contains_iff_mem.mp (hkeys.2 key h)

theorem reordered_of_ok (hs : s.WellFormed)
    (h : reorderFieldDefinitions c keys actor s = .ok s') :
    keys ≠ [] ∧ keys.Perm ((fieldDefinitions c s).map (·.key)) ∧
      (keys = (fieldDefinitions c s).map (·.key) ∧ s' = s ∨
        keys ≠ (fieldDefinitions c s).map (·.key) ∧ s'.rows = s.rows.map (renumber keys) ∧
        s'.audit = s.audit ++ [(actor, .reorder ((fieldDefinitions c s).map (·.key)) keys)]) := by
  unfold reorderFieldDefinitions at h
  obtain ⟨_, hlength, h⟩ := bind_eq_ok.mp h
  obtain ⟨_, -, h⟩ := bind_eq_ok.mp h
  obtain ⟨_, hnodup, h⟩ := bind_eq_ok.mp h
  obtain ⟨_, hkeys, h⟩ := bind_eq_ok.mp h
  have hlength := ensure_eq_ok.mp hlength
  have hnodup := of_decide_eq_true (ensure_eq_ok.mp hnodup)
  have hkeys := ensure_eq_ok.mp hkeys
  rw [Bool.and_eq_true, decide_eq_true_eq] at hlength
  refine ⟨hlength.1, perm_existing hnodup hs hkeys, ?_⟩
  split at h
  · exact .inl ⟨‹_›, (pure_eq_ok.mp h).symm⟩
  · rw [← pure_eq_ok.mp h]
    exact .inr ⟨‹_›, rfl, rfl⟩

theorem reorder_ok (hs : s.WellFormed) (hne : keys ≠ []) (hlength : keys.length ≤ 256)
    (hperm : keys.Perm ((fieldDefinitions c s).map (·.key))) :
    ∃ s', reorderFieldDefinitions c keys actor s = .ok s' := by
  have hrows : keys.Perm (s.rows.map (·.key)) :=
    hperm.trans ((fieldDefinitions_perm c s).map _)
  have hvalid : ∀ key ∈ keys, isValidFieldKey key = true := by
    intro key hkey
    obtain ⟨row, hrow, rfl⟩ := List.mem_map.mp (hrows.mem_iff.mp hkey)
    exact hs.valid row hrow
  have hnodup : keys.Nodup := hrows.nodup_iff.mpr hs.keys
  have hkeys : (keys.all ((fieldDefinitions c s).map (·.key)).contains &&
      ((fieldDefinitions c s).map (·.key)).all keys.contains) = true := by
    rw [Bool.and_eq_true, List.all_eq_true, List.all_eq_true]
    exact ⟨fun key hkey => List.contains_iff_mem.mpr (hperm.mem_iff.mp hkey),
      fun key hkey => List.contains_iff_mem.mpr (hperm.mem_iff.mpr hkey)⟩
  unfold reorderFieldDefinitions
  rw [ensure_eq_ok (u := ()).mpr (by simp [hne, hlength]), ok_bind,
    forM_validateFieldKey (u := ()).mpr hvalid, ok_bind,
    ensure_eq_ok (u := ()).mpr (decide_eq_true hnodup), ok_bind]
  dsimp only
  rw [ensure_eq_ok (u := ()).mpr hkeys, ok_bind]
  split
  · exact ⟨s, rfl⟩
  · exact ⟨_, rfl⟩

section

variable (hperm : keys.Perm ((fieldDefinitions c s).map (·.key)))
include hperm

theorem positions_of_reorder :
    ((Rows.ofKeys (·.key) (fieldDefinitions c s) keys).map (renumber keys)).map (·.position) =
      keys.map fun key => (keys.idxOf key * 10 : ℤ) := by
  have hmem : ∀ key ∈ keys, key ∈ (fieldDefinitions c s).map (·.key) := fun _ => hperm.mem_iff.mp
  have hkeys := Rows.map_ofKeys hmem
  conv_rhs => rw [← hkeys]
  rw [List.map_map, List.map_map]
  refine List.map_congr_left fun row hrow => ?_
  have hkey : row.key ∈ keys := hkeys ▸ List.mem_map_of_mem hrow
  unfold renumber
  rw [Function.comp_apply, if_pos hkey, Function.comp_apply, hkeys]

variable (hs : s.WellFormed) (hrows : s'.rows = s.rows.map (renumber keys))
include hs hrows

theorem fieldDefinitions_reorder : fieldDefinitions c s' =
    (Rows.ofKeys (·.key) (fieldDefinitions c s) keys).map (renumber keys) := by
  have hnodup : ((fieldDefinitions c s).map (·.key)).Nodup :=
    ((fieldDefinitions_perm c s).map _).nodup_iff.mpr hs.keys
  refine fieldDefinitions_eq ?_ ?_
  · rw [hrows]
    exact ((Rows.ofKeys_perm hnodup hperm).trans (fieldDefinitions_perm c s)).map _
  · rw [positions_of_reorder hperm]
    refine List.pairwise_map.mpr (List.pairwise_iff_getElem.mpr fun i j hi hj hlt => ?_)
    have hkeys : keys.Nodup := hperm.nodup_iff.mpr hnodup
    rw [hkeys.idxOf_getElem i hi, hkeys.idxOf_getElem j hj]
    omega

theorem listing_reorder : listing c s' = Rows.ofKeys Prod.fst (listing c s) keys := by
  unfold listing
  rw [fieldDefinitions_reorder hperm hs hrows, List.map_map, Rows.ofKeys_map fun _ => rfl]
  refine List.map_congr_left fun row _ => ?_
  unfold renumber
  rw [Function.comp_apply]
  split_ifs <;> rfl

theorem wellFormed_reorder : s'.WellFormed := by
  have hlisted := fieldDefinitions_reorder hperm hs hrows
  have hall : ∀ row ∈ s.rows, row.key ∈ keys := fun row hrow =>
    hperm.mem_iff.mpr (List.mem_map_of_mem ((fieldDefinitions_perm c s).mem_iff.mpr hrow))
  have hlength : keys.length = s.rows.length := by
    rw [hperm.length_eq, List.length_map, (fieldDefinitions_perm c s).length_eq]
  refine ⟨?_, ?_, ?_, ?_, ?_⟩
  · rw [hrows, Rows.map_key fun row _ => renumber_key keys row]
    exact hs.keys
  · refine ((fieldDefinitions_perm c s').map _).nodup_iff.mp ?_
    rw [hlisted, positions_of_reorder hperm]
    have hkeys : keys.Nodup := hperm.nodup_iff.mpr
      (((fieldDefinitions_perm c s).map _).nodup_iff.mpr hs.keys)
    refine hkeys.map_on fun a ha b hb heq => ?_
    exact (List.idxOf_inj ha).mp (by omega)
  · rw [hrows, List.length_map]
    refine List.forall_mem_map.mpr fun row hrow => ?_
    have hlt := List.idxOf_lt_length_of_mem (hall row hrow)
    unfold renumber
    rw [if_pos (hall row hrow)]
    dsimp only
    omega
  · rw [hrows]
    refine List.forall_mem_map.mpr fun row hrow => ?_
    rw [renumber_key]
    exact hs.valid row hrow
  · rw [hrows]
    refine List.forall_mem_map.mpr fun row hrow => ?_
    unfold renumber
    split_ifs <;> exact hs.texts row hrow

end

/-! ## Runs -/

/-- The rows keep the order of the definitions. -/
def Keeps (c : Collation) (s : FieldSettings) (o : OrderedFields) : Prop :=
  s.WellFormed ∧ listing c s = o.entries

theorem wellFormed_empty : FieldSettings.empty.WellFormed :=
  ⟨List.nodup_nil, List.nodup_nil, nofun, nofun, nofun⟩

theorem keeps_empty (c : Collation) : Keeps c .empty .empty := ⟨wellFormed_empty, rfl⟩

theorem Keeps.keys_eq (h : Keeps c s o) : (fieldDefinitions c s).map (·.key) = o.keys := by
  unfold OrderedFields.keys
  rw [← h.2, listing, List.map_map]
  rfl

theorem Keeps.length_eq (h : Keeps c s o) : s.rows.length = o.entries.length := by
  rw [← h.2, ← (fieldDefinitions_perm c s).length_eq]
  exact List.length_map _ |>.symm

theorem upsert_refines (h : Keeps c s o) (hbound : o.entries.length ≤ 256) :
    Option.Rel (Keeps c) (upsertFieldDefinition key label kind actor s).toOption
      (o.step? (.upsert key label kind actor)) := by
  unfold OrderedFields.step?
  dsimp only
  cases hok : upsertFieldDefinition key label kind actor s with
  | ok s' =>
    obtain ⟨hkey, hlabel, hlength, htext, hupserted⟩ := upserted_of_ok hok
    have hlisting := hupserted.listing_eq (c := c) h.1
    have hnul := hupserted.text h.1 htext
    rw [if_pos ⟨hkey, hlabel, hlength, hnul⟩]
    refine .some ⟨hupserted.wellFormed h.1 hkey hnul, ?_⟩
    rw [hlisting, h.2]
    rfl
  | error e =>
    rw [if_neg]
    · exact .none
    · rintro ⟨hkey, hlabel, hlength, htext⟩
      have hposition : nextPosition s.rows < 2 ^ 31 := by
        have hnext := (nextPosition_bounds h.1).2
        have hlength := h.length_eq
        omega
      obtain ⟨s', hs'⟩ : ∃ s', upsertFieldDefinition key label kind actor s = .ok s' :=
        upsert_ok hkey hlabel hlength htext hposition
      rw [hs'] at hok
      cases hok

theorem reorder_refines (h : Keeps c s o) (hbound : o.entries.length ≤ 256) :
    Option.Rel (Keeps c) (reorderFieldDefinitions c keys actor s).toOption
      (o.step? (.reorder keys actor)) := by
  unfold OrderedFields.step?
  dsimp only
  cases hok : reorderFieldDefinitions c keys actor s with
  | ok s' =>
    obtain ⟨hne, hperm, hreordered⟩ := reordered_of_ok h.1 hok
    rw [dif_pos ⟨hne, h.keys_eq ▸ hperm⟩]
    refine .some ?_
    rcases hreordered with ⟨hsame, rfl⟩ | ⟨-, hrows, -⟩
    · refine ⟨h.1, h.2.trans ?_⟩
      have hkeys : keys = o.entries.map Prod.fst := hsame.trans h.keys_eq
      subst hkeys
      exact (Rows.ofKeys_self o.nodup).symm
    · exact ⟨wellFormed_reorder hperm h.1 hrows,
        (listing_reorder hperm h.1 hrows).trans (by rw [h.2]; rfl)⟩
  | error e =>
    rw [dif_neg]
    · exact .none
    · rintro ⟨hne, hperm⟩
      have hlength : keys.length ≤ 256 := by
        rw [hperm.length_eq]
        exact (List.length_map _).trans_le hbound
      obtain ⟨s', hs'⟩ : ∃ s', reorderFieldDefinitions c keys actor s = .ok s' :=
        reorder_ok h.1 hne hlength (h.keys_eq ▸ hperm)
      rw [hs'] at hok
      cases hok

/-- An operation is refused where the order refuses it, and else makes of the rows what it makes of
the order. -/
theorem operate_refines (h : Keeps c s o) (hbound : o.entries.length ≤ 256)
    (operation : FieldOperation) :
    Option.Rel (Keeps c) (operate c s operation).toOption (o.step? operation) := by
  cases operation with
  | upsert key label kind actor => exact upsert_refines h hbound
  | reorder keys actor => exact reorder_refines h hbound

theorem length_le_step (o : OrderedFields) (operation : FieldOperation) :
    o.entries.length ≤ ((o.step? operation).getD o).entries.length := by
  cases operation with
  | upsert key label kind actor =>
    unfold OrderedFields.step?
    dsimp only
    split
    · rw [Option.getD_some]
      unfold OrderedFields.upsert
      dsimp only
      split_ifs
      · rw [List.length_map]
      · rw [List.length_append]
        omega
    · exact le_refl _
  | reorder keys actor =>
    unfold OrderedFields.step?
    dsimp only
    split
    · rename_i hkeys
      have hlength := (Rows.ofKeys_perm o.nodup hkeys.2).length_eq
      exact hlength.ge
    · exact le_refl _

theorem runFields_append (c : Collation) (operations : List FieldOperation)
    (operation : FieldOperation) : runFields c (operations ++ [operation]) =
      (operate c (runFields c operations) operation).toOption.getD (runFields c operations) := by
  unfold runFields
  rw [List.foldl_append, List.foldl_cons, List.foldl_nil]

theorem OrderedFields.run_append (operations : List FieldOperation) (operation : FieldOperation) :
    OrderedFields.run (operations ++ [operation]) =
      ((OrderedFields.run operations).step? operation).getD (OrderedFields.run operations) := by
  unfold OrderedFields.run
  rw [List.foldl_append, List.foldl_cons, List.foldl_nil]

theorem keeps_run {operations : List FieldOperation}
    (hbound : (OrderedFields.run operations).entries.length ≤ 256) :
    Keeps c (runFields c operations) (OrderedFields.run operations) := by
  induction operations using List.reverseRecOn with
  | nil => exact keeps_empty c
  | append_singleton operations operation ih =>
    rw [OrderedFields.run_append] at hbound ⊢
    have hle := length_le_step (OrderedFields.run operations) operation
    have hkeeps := ih (hle.trans hbound)
    have hrel := operate_refines hkeeps (hle.trans hbound) operation
    rw [runFields_append]
    generalize (operate c _ operation).toOption = result at hrel ⊢
    generalize (OrderedFields.run operations).step? operation = next at hrel ⊢
    cases hrel with
    | some hnext => exact hnext
    | none => exact hkeeps

/-- After every run the listing is the ordered list of the definitions, the next operation does to
it what it does to the list, and one that is refused leaves everything as it was. -/
theorem field_definitions_refine (c : Collation) (operations : List FieldOperation)
    (operation : FieldOperation)
    (hkeys : (OrderedFields.run operations).entries.length ≤ 256) :
    listing c (runFields c operations) = (OrderedFields.run operations).entries ∧
    ((operate c (runFields c operations) operation).toOption.map (listing c)) =
      ((OrderedFields.run operations).step? operation).map OrderedFields.entries ∧
    ∀ error, operate c (runFields c operations) operation = .error error →
      runFields c (operations ++ [operation]) = runFields c operations := by
  have hkeeps := keeps_run (c := c) hkeys
  refine ⟨hkeeps.2, ?_, fun error herror => ?_⟩
  · have hrel := operate_refines hkeeps hkeys operation
    generalize (operate c _ operation).toOption = result at hrel ⊢
    generalize (OrderedFields.run operations).step? operation = next at hrel ⊢
    cases hrel with
    | some hnext => exact congrArg some hnext.2
    | none => rfl
  · rw [runFields_append, herror]
    rfl

/-! ## The audit -/

/-- What an event makes of the definitions, if it fits them. -/
def FieldEvent.replay? (entries : List (Str × Described)) :
    FieldEvent → Option (List (Str × Described))
  | .create key new =>
    if key ∉ entries.map Prod.fst then some (entries ++ [(key, new)]) else none
  | .update key old new =>
    if (key, old) ∈ entries ∧ old ≠ new then some (entries.map (describe key new)) else none
  | .reorder old new =>
    if entries.map Prod.fst = old ∧ new.Perm old ∧ new ≠ old then
      some (Rows.ofKeys Prod.fst entries new)
    else none

/-- The events from the first on lead to the listing. -/
def Replays (c : Collation) (s : FieldSettings) : Prop :=
  (s.audit.map Prod.snd).foldlM FieldEvent.replay? [] = some (listing c s)

theorem Replays.append {event : FieldEvent} (h : Replays c s)
    (haudit : s'.audit = s.audit ++ [(actor, event)])
    (hevent : event.replay? (listing c s) = some (listing c s')) : Replays c s' := by
  unfold Replays at h ⊢
  rw [haudit, List.map_append, List.foldlM_append, h]
  exact (bind_pure _).trans hevent

theorem Upserted.replays {new : Described} (hs : s.WellFormed) (h : Upserted key new actor s s')
    (hreplays : Replays c s) : Replays c s' := by
  have hlisting := h.listing_eq (c := c) hs
  cases h with
  | same _ _ _ _ heq => rwa [heq]
  | created hkey hrows haudit =>
    have hnew : key ∉ (listing c s).map Prod.fst := fun hmem => by
      obtain ⟨row, hrow, heq⟩ := (mem_keys_listing key).mp hmem
      exact hkey row hrow heq
    rw [if_neg hnew] at hlisting
    exact hreplays.append haudit ((if_pos hnew).trans (congrArg some hlisting.symm))
  | updated row hrow hkey hne hrows haudit =>
    have hold : (key, described row) ∈ listing c s :=
      List.mem_map.mpr ⟨row, (fieldDefinitions_perm c s).mem_iff.mpr hrow, by rw [hkey]⟩
    rw [if_pos (List.mem_map_of_mem hold)] at hlisting
    exact hreplays.append haudit ((if_pos ⟨hold, hne⟩).trans (congrArg some hlisting.symm))

theorem operate_replays {operation : FieldOperation} (hs : s.WellFormed) (hreplays : Replays c s)
    (h : operate c s operation = .ok s') : s'.WellFormed ∧ Replays c s' := by
  cases operation with
  | upsert key label kind actor =>
    obtain ⟨hkey, -, -, htext, hupserted⟩ := upserted_of_ok h
    exact ⟨hupserted.wellFormed hs hkey (hupserted.text hs htext), hupserted.replays hs hreplays⟩
  | reorder keys actor =>
    obtain ⟨-, hperm, hreordered⟩ := reordered_of_ok hs h
    rcases hreordered with ⟨-, rfl⟩ | ⟨hne, hrows, haudit⟩
    · exact ⟨hs, hreplays⟩
    · have hlisting := listing_reorder hperm hs hrows
      have hkeys : (listing c s).map Prod.fst = (fieldDefinitions c s).map (·.key) := by
        rw [listing, List.map_map]
        rfl
      exact ⟨wellFormed_reorder hperm hs hrows, hreplays.append haudit
        ((if_pos ⟨hkeys, hperm, hne⟩).trans (congrArg some hlisting.symm))⟩

/-- Replaying the audit of a run leads to the definitions that are listed, each event fits what the
ones before it lead to, and changes it. -/
theorem field_audit_replays (c : Collation) (operations : List FieldOperation) :
    ((runFields c operations).audit.map Prod.snd).foldlM FieldEvent.replay? [] =
      some (listing c (runFields c operations)) := by
  have hrun : (runFields c operations).WellFormed ∧ Replays c (runFields c operations) := by
    induction operations using List.reverseRecOn with
    | nil => exact ⟨wellFormed_empty, rfl⟩
    | append_singleton operations operation ih =>
      rw [runFields_append]
      cases hok : operate c (runFields c operations) operation with
      | ok s' => exact operate_replays ih.1 ih.2 hok
      | error e => exact ih
  exact hrun.2

/-- The order of the bytes. -/
def byteCollation : Collation where
  le a b := a ≤ b
  total a b := by simpa using le_total a b
  trans a b d := by simpa using le_trans

def sampleOperations : List FieldOperation :=
  [.upsert "stack".toList "Stack trace".toList .stackTrace 7,
    .upsert "url".toList "Page URL".toList .url 7,
    .reorder ["url".toList, "stack".toList] 7]

theorem sample_reordered :
    listing byteCollation (runFields byteCollation sampleOperations) =
      [("url".toList, "Page URL".toList, .url),
        ("stack".toList, "Stack trace".toList, .stackTrace)] := by
  have hrun : (OrderedFields.run sampleOperations).entries =
      [("url".toList, "Page URL".toList, .url),
        ("stack".toList, "Stack trace".toList, .stackTrace)] := by
    decide +kernel
  exact (field_definitions_refine byteCollation sampleOperations (.reorder [] 7)
    (by rw [hrun]; decide)).1.trans hrun

/-- Of no definitions there is a permutation, and it is refused. -/
theorem empty_order_is_refused :
    ([] : List Str).Perm ((fieldDefinitions byteCollation (runFields byteCollation [])).map
      (·.key)) ∧
    reorderFieldDefinitions byteCollation [] 7 (runFields byteCollation []) =
      .error "Invalid field order" :=
  ⟨.nil, rfl⟩

end

end LadybirdReports.Admin.FieldDefinitions
