import LadybirdReports.Domain.Configuration
import LadybirdReports.Lib.StrRender
import Mathlib.Data.List.Lex
import Mathlib.Data.List.Nodup

/-!
# Changed settings

What `changed_configuration_paths` reports of two JSON values: the paths of what one of them lacks
and of what differs without being two objects, each with its keys joined by dots.

1. As lists of keys, the reported positions are those at which the values differ
   (`differs_of_mem`), none is below another (`eq_of_above`), and every position at which they
   differ has one above it (`exists_prefix`).
2. Keys that are not empty and have no dot are read off a path (`pathOf_injective`).

So every difference lies under one reported path, and equal values have none
(`changedPaths_exact`).
-/

namespace LadybirdReports

open Rust

/-! ## JSON -/

/-- `serde_json::Number`, as it is compared: a double, which is always finite, by its value. -/
inductive Number
  | integer (value : ℤ)
  | double (value : Rat)
  deriving DecidableEq

/-- `serde_json::Value`. The entries of an object are in the order of their keys. -/
inductive Json
  | null
  | bool (value : Bool)
  | number (value : Number)
  | string (text : Str)
  | array (items : List Json)
  | object (entries : List (Str × Json))

namespace Json

mutual

def beq : Json → Json → Bool
  | .null, .null => true
  | .bool a, .bool b => a = b
  | .number a, .number b => a = b
  | .string a, .string b => a = b
  | .array a, .array b => beqItems a b
  | .object a, .object b => beqEntries a b
  | _, _ => false

def beqItems : List Json → List Json → Bool
  | [], [] => true
  | a :: as, b :: bs => beq a b && beqItems as bs
  | _, _ => false

def beqEntries : List (Str × Json) → List (Str × Json) → Bool
  | [], [] => true
  | (key, a) :: as, (key', b) :: bs => key = key' && beq a b && beqEntries as bs
  | _, _ => false

end

mutual

theorem beq_iff : ∀ {a b : Json}, beq a b = true ↔ a = b
  | .null, b => by cases b <;> simp [beq]
  | .bool _, b => by cases b <;> simp [beq]
  | .number _, b => by cases b <;> simp [beq]
  | .string _, b => by cases b <;> simp [beq]
  | .array _, b => by cases b <;> simp [beq, beqItems_iff]
  | .object _, b => by cases b <;> simp [beq, beqEntries_iff]

theorem beqItems_iff : ∀ {as bs : List Json}, beqItems as bs = true ↔ as = bs
  | [], bs => by cases bs <;> simp [beqItems]
  | a :: as, bs => by cases bs <;> simp [beqItems, @beq_iff a, @beqItems_iff as]

theorem beqEntries_iff : ∀ {as bs : List (Str × Json)}, beqEntries as bs = true ↔ as = bs
  | [], bs => by cases bs <;> simp [beqEntries]
  | (key, a) :: as, bs => by
    cases bs <;> simp [beqEntries, @beq_iff a, @beqEntries_iff as, Prod.ext_iff]

end

instance : DecidableEq Json := fun _ _ => decidable_of_iff _ beq_iff

theorem mem_of_lookup {entries : List (Str × Json)} {key : Str} {value : Json}
    (h : entries.lookup key = some value) : (key, value) ∈ entries := by
  obtain ⟨before, after, rfl, -⟩ := List.lookup_eq_some_iff.mp h
  exact List.mem_append_right _ List.mem_cons_self

theorem sizeOf_lt_of_lookup {entries : List (Str × Json)} {key : Str} {value : Json}
    (h : entries.lookup key = some value) : sizeOf value < sizeOf (Json.object entries) := by
  have hlt := List.sizeOf_lt_of_mem (mem_of_lookup h)
  simp only [Json.object.sizeOf_spec, Prod.mk.sizeOf_spec] at hlt ⊢
  omega

/-- What holds of a value where it holds of the entries of an object holds of all. -/
theorem entryInduction {p : Json → Prop}
    (h : ∀ value, (∀ entries key entry, value = .object entries →
      entries.lookup key = some entry → p entry) → p value) (value : Json) : p value :=
  h value fun _ _ entry hobject hentry =>
    have : sizeOf entry < sizeOf value := hobject ▸ sizeOf_lt_of_lookup hentry
    entryInduction h entry
termination_by sizeOf value

/-! ## Reported paths -/

/-- The keys of two objects, in order. -/
def keysOfBoth (before after : List (Str × Json)) : List Str :=
  (before.map Prod.fst ++ after.map Prod.fst).dedup.insertionSort (· ≤ ·)

def keyPath (path key : Str) : Str := if path = [] then key else path ++ '.' :: key

/-- `collect` of `changed_configuration_paths`. -/
def collect : Json → Json → Str → List Str
  | .object before, .object after, path =>
    (keysOfBoth before after).flatMap fun key =>
      match _ : before.lookup key, after.lookup key with
      | some old, some new => collect old new (keyPath path key)
      | _, _ => [keyPath path key]
  | previous, current, path => if previous ≠ current then [path] else []
termination_by previous => sizeOf previous
decreasing_by exact sizeOf_lt_of_lookup ‹_›

def changedConfigurationPaths (previous current : Json) : List Str := collect previous current []

/-! ## Positions -/

inductive Segment
  | key (key : Str)
  | index (index : ℕ)

def child? : Json → Segment → Option Json
  | .object entries, .key key => entries.lookup key
  | .array items, .index index => items[index]?
  | _, _ => none

/-- The value at a position, which is a key of an object or an index of an array after another. -/
def at? : Json → List Segment → Option Json
  | value, [] => some value
  | value, segment :: position => (value.child? segment).bind (·.at? position)

/-- The values differ at a position, and not only inside two objects there. -/
def Differs (previous current : Json) (position : List Segment) : Prop :=
  previous.at? position ≠ current.at? position ∧
    ∀ before after, previous.at? position = some (.object before) →
      current.at? position ≠ some (.object after)

/-- Every object in a value. -/
def EveryObject (P : List (Str × Json) → Prop) (value : Json) : Prop :=
  ∀ position entries, value.at? position = some (.object entries) → P entries

/-- The entries of a `BTreeMap` whose keys are not empty and have no dot. -/
structure Plain (entries : List (Str × Json)) : Prop where
  sorted : entries.Pairwise fun entry next => entry.1 < next.1
  keys : ∀ entry ∈ entries, entry.1 ≠ [] ∧ '.' ∉ entry.1

def pathOf (keys : List Str) : Str := join ['.'] keys

def LiesUnder (position : List Segment) (path : Str) : Prop :=
  ∃ keys rest, position = keys.map .key ++ rest ∧ pathOf keys = path

/-- The paths are those of the differences of two values. -/
structure ReportsExactly (previous current : Json) (paths : List Str) : Prop where
  none_iff : paths = [] ↔ previous = current
  nodup : paths.Nodup
  once : ∀ position, Differs previous current position →
    ∃! path, path ∈ paths ∧ LiesUnder position path
  only : ∀ path ∈ paths, ∃ keys, path = pathOf keys ∧ Differs previous current (keys.map .key)

section

variable {before after entries : List (Str × Json)} {previous current value old new : Json}
  {key : Str} {keys : List Str} {position : List Segment}

/-! ## The positions of the differences -/

theorem isSome_lookup_iff : (entries.lookup key).isSome = true ↔ key ∈ entries.map Prod.fst := by
  rw [List.lookup_isSome_iff, List.mem_map]
  refine exists_congr fun entry => and_congr_right fun _ => ?_
  rw [beq_iff_eq, eq_comm]

theorem mem_keysOfBoth : key ∈ keysOfBoth before after ↔
    (before.lookup key).isSome = true ∨ (after.lookup key).isSome = true := by
  unfold keysOfBoth
  rw [List.mem_insertionSort, List.mem_dedup, List.mem_append, isSome_lookup_iff, isSome_lookup_iff]

theorem keysOfBoth_nodup : (keysOfBoth before after).Nodup :=
  (List.perm_insertionSort _ _).nodup_iff.mpr (List.nodup_dedup _)

/-- The keys that lead to the differences. -/
def changedPositions : Json → Json → List (List Str)
  | .object before, .object after =>
    (keysOfBoth before after).flatMap fun key =>
      match _ : before.lookup key, after.lookup key with
      | some old, some new => (changedPositions old new).map (key :: ·)
      | _, _ => [[key]]
  | previous, current => if previous ≠ current then [[]] else []
termination_by previous => sizeOf previous
decreasing_by exact sizeOf_lt_of_lookup ‹_›

/-- The differences at one key of two objects. -/
def positionsAt (before after : List (Str × Json)) (key : Str) : List (List Str) :=
  match before.lookup key, after.lookup key with
  | some old, some new => (changedPositions old new).map (key :: ·)
  | _, _ => [[key]]

theorem changedPositions_object : changedPositions (.object before) (.object after) =
    (keysOfBoth before after).flatMap (positionsAt before after) := by
  rw [changedPositions]
  refine List.flatMap_congr fun key _ => ?_
  unfold positionsAt
  split
  · rename_i hold hnew
    rw [hold, hnew]
  · rename_i hnone
    split
    · rename_i hold hnew
      exact (hnone _ _ hold hnew).elim
    · rfl

theorem changedPositions_of_not
    (h : ∀ before after, previous = .object before → current ≠ .object after) :
    changedPositions previous current = if previous ≠ current then [[]] else [] := by
  rw [changedPositions]
  exact h

/-- Two objects, or not. -/
theorem objects_cases (previous current : Json) :
    (∃ before after, previous = .object before ∧ current = .object after) ∨
      ∀ before after, previous = .object before → current ≠ .object after := by
  by_cases h : ∃ before after, previous = .object before ∧ current = .object after
  · exact .inl h
  · exact .inr fun before after hprevious hcurrent => h ⟨before, after, hprevious, hcurrent⟩

theorem mem_positionsAt {p : List Str} (hkey : key ∈ keysOfBoth before after) :
    p ∈ positionsAt before after key ↔
      (∃ old new q, before.lookup key = some old ∧ after.lookup key = some new ∧
        q ∈ changedPositions old new ∧ p = key :: q) ∨
      ((before.lookup key).isSome ≠ (after.lookup key).isSome ∧ p = [key]) := by
  rw [mem_keysOfBoth] at hkey
  unfold positionsAt
  cases hold : before.lookup key with
  | none =>
    rw [hold] at hkey
    have hnew : (after.lookup key).isSome = true := hkey.resolve_left (by decide)
    rw [hnew]
    simp
  | some old =>
    cases hnew : after.lookup key with
    | none => simp
    | some new =>
      simp only [List.mem_map, Option.some.injEq, Option.isSome_some, ne_eq, not_true_eq_false,
        false_and, or_false]
      constructor
      · rintro ⟨q, hq, rfl⟩
        exact ⟨old, new, q, rfl, rfl, hq, rfl⟩
      · rintro ⟨_, _, q, rfl, rfl, hq, rfl⟩
        exact ⟨q, hq, rfl⟩

theorem differs_nil_iff : Differs previous current [] ↔ previous ≠ current ∧
    ∀ before after, previous = .object before → current ≠ .object after := by
  unfold Differs at?
  simp only [ne_eq, Option.some.injEq]

/-- Below a key, the differences of two objects are those of its entries. -/
theorem differs_key_iff (hold : before.lookup key = some old) (hnew : after.lookup key = some new) :
    Differs (.object before) (.object after) (.key key :: position) ↔ Differs old new position := by
  unfold Differs
  rw [at?, at?, child?, child?, hold, hnew]
  exact Iff.rfl

theorem differs_of_mem {p : List Str} (h : p ∈ changedPositions previous current) :
    Differs previous current (p.map .key) := by
  induction previous using entryInduction generalizing current p with
  | h previous ih =>
    rcases objects_cases previous current with ⟨before, after, rfl, rfl⟩ | hother
    · rw [changedPositions_object] at h
      obtain ⟨key, hkey, h⟩ := List.mem_flatMap.mp h
      rcases (mem_positionsAt hkey).mp h with ⟨old, new, q, hold, hnew, hq, rfl⟩ | ⟨hone, rfl⟩
      · exact (differs_key_iff hold hnew).mpr (ih before key old rfl hold hq)
      · unfold Differs
        rw [List.map_singleton, at?, at?, child?, child?]
        cases hold : before.lookup key <;> cases hnew : after.lookup key <;>
          simp_all [at?]
    · rw [changedPositions_of_not hother] at h
      split_ifs at h with hne
      · rw [List.mem_singleton.mp h]
        exact differs_nil_iff.mpr ⟨hne, hother⟩
      · cases h

theorem positionsAt_of_ne (h : (before.lookup key).isSome ≠ (after.lookup key).isSome) :
    [key] ∈ changedPositions (.object before) (.object after) := by
  have hkey : key ∈ keysOfBoth before after := by
    rw [mem_keysOfBoth]
    revert h
    cases (before.lookup key).isSome <;> cases (after.lookup key).isSome <;> simp
  rw [changedPositions_object]
  exact List.mem_flatMap.mpr ⟨key, hkey, (mem_positionsAt hkey).mpr (.inr ⟨h, rfl⟩)⟩

theorem exists_prefix (h : Differs previous current position) :
    ∃ p ∈ changedPositions previous current, p.map .key <+: position := by
  induction previous using entryInduction generalizing current position with
  | h previous ih =>
    rcases objects_cases previous current with ⟨before, after, rfl, rfl⟩ | hother
    · cases position with
      | nil => exact absurd rfl ((differs_nil_iff.mp h).2 before after rfl)
      | cons segment position =>
        cases segment with
        | index index => exact absurd rfl h.1
        | key key =>
          by_cases hsome : (before.lookup key).isSome = (after.lookup key).isSome
          · cases hold : before.lookup key with
            | none =>
              rw [hold] at hsome
              have hnew : after.lookup key = none :=
                Option.isNone_iff_eq_none.mp (Option.isSome_eq_false_iff.mp hsome.symm)
              exact absurd (by rw [at?, at?, child?, child?, hold, hnew]) h.1
            | some old =>
              rw [hold] at hsome
              obtain ⟨new, hnew⟩ := Option.isSome_iff_exists.mp hsome.symm
              obtain ⟨q, hq, hprefix⟩ := ih before key old rfl hold
                ((differs_key_iff hold hnew).mp h)
              have hkey : key ∈ keysOfBoth before after :=
                mem_keysOfBoth.mpr (.inl (by rw [hold]; rfl))
              refine ⟨key :: q, ?_, List.cons_prefix_cons.mpr ⟨rfl, hprefix⟩⟩
              rw [changedPositions_object]
              exact List.mem_flatMap.mpr ⟨key, hkey,
                (mem_positionsAt hkey).mpr (.inl ⟨old, new, q, hold, hnew, hq, rfl⟩)⟩
          · exact ⟨[key], positionsAt_of_ne hsome,
              List.cons_prefix_cons.mpr ⟨rfl, List.nil_prefix⟩⟩
    · have hne : previous ≠ current := fun heq => h.1 (heq ▸ rfl)
      refine ⟨[], ?_, List.nil_prefix⟩
      rw [changedPositions_of_not hother, if_pos hne]
      exact List.mem_singleton_self _

/-- No difference is reported below another. -/
theorem eq_of_above {p q : List Str} (hp : p ∈ changedPositions previous current)
    (hq : q ∈ changedPositions previous current) (h : p <+: q) : p = q := by
  induction previous using entryInduction generalizing current p q with
  | h previous ih =>
    rcases objects_cases previous current with ⟨before, after, rfl, rfl⟩ | hother
    · rw [changedPositions_object] at hp hq
      obtain ⟨key, hkey, hp⟩ := List.mem_flatMap.mp hp
      obtain ⟨key', hkey', hq⟩ := List.mem_flatMap.mp hq
      obtain rfl : key = key' := by
        rcases (mem_positionsAt hkey).mp hp with ⟨_, _, _, -, -, -, rfl⟩ | ⟨-, rfl⟩ <;>
        rcases (mem_positionsAt hkey').mp hq with ⟨_, _, _, -, -, -, rfl⟩ | ⟨-, rfl⟩ <;>
        exact (List.cons_prefix_cons.mp h).1
      unfold positionsAt at hp hq
      split at hp
      · rename_i old new hold hnew
        rw [hold, hnew] at hq
        obtain ⟨p', hp', rfl⟩ := List.mem_map.mp hp
        obtain ⟨q', hq', rfl⟩ := List.mem_map.mp hq
        have hrest := (List.cons_prefix_cons.mp h).2
        exact congrArg (key :: ·) (ih before key old rfl hold hp' hq' hrest)
      · rename_i hnone
        split at hq
        · rename_i hold hnew
          exact (hnone _ _ hold hnew).elim
        · rw [List.mem_singleton.mp hp, List.mem_singleton.mp hq]
    · rw [changedPositions_of_not hother] at hp hq
      split_ifs at hp hq
      · rw [List.mem_singleton.mp hp, List.mem_singleton.mp hq]
      · cases hp

theorem changedPositions_nodup (previous current : Json) :
    (changedPositions previous current).Nodup := by
  induction previous using entryInduction generalizing current with
  | h previous ih =>
    rcases objects_cases previous current with ⟨before, after, rfl, rfl⟩ | hother
    · rw [changedPositions_object, List.nodup_flatMap]
      refine ⟨fun key _ => ?_, keysOfBoth_nodup.imp_of_mem fun hkey hkey' hne p hp hp' => ?_⟩
      · unfold positionsAt
        split
        · rename_i old new hold hnew
          exact (ih before key old rfl hold new).map (List.cons_injective)
        · exact List.nodup_singleton _
      · rcases (mem_positionsAt hkey).mp hp with ⟨_, _, _, -, -, -, rfl⟩ | ⟨-, rfl⟩ <;>
        rcases (mem_positionsAt hkey').mp hp' with ⟨_, _, _, -, -, -, heq⟩ | ⟨-, heq⟩ <;>
        exact hne (List.cons.inj heq).1
    · rw [changedPositions_of_not hother]
      split_ifs
      · exact List.nodup_singleton _
      · exact List.nodup_nil

theorem lookup_of_mem (hnodup : (entries.map Prod.fst).Nodup) (hmem : (key, value) ∈ entries) :
    entries.lookup key = some value := by
  obtain ⟨before, after, rfl⟩ := List.append_of_mem hmem
  refine List.lookup_eq_some_iff.mpr ⟨before, after, rfl, fun entry hentry => ?_⟩
  rw [List.map_append, List.nodup_append] at hnodup
  have hne := hnodup.2.2 entry.1 (List.mem_map_of_mem hentry) key
    (List.mem_map.mpr ⟨_, List.mem_cons_self, rfl⟩)
  exact bne_iff_ne.mpr hne.symm

theorem Plain.nodup (h : Plain entries) : (entries.map Prod.fst).Nodup :=
  List.pairwise_map.mpr (h.sorted.imp ne_of_lt)

/-- Objects whose entries are the same at every key are the same. -/
theorem eq_of_lookup (hbefore : Plain before) (hafter : Plain after)
    (h : ∀ key, before.lookup key = after.lookup key) : before = after := by
  have hperm : before.Perm after := by
    refine (List.perm_ext_iff_of_nodup hbefore.nodup.of_map hafter.nodup.of_map).mpr fun entry => ?_
    constructor
    · exact fun hmem => mem_of_lookup ((h entry.1).symm.trans (lookup_of_mem hbefore.nodup hmem))
    · exact fun hmem => mem_of_lookup ((h entry.1).trans (lookup_of_mem hafter.nodup hmem))
  refine hperm.eq_of_pairwise (fun a b _ _ hab hba => ?_) hbefore.sorted hafter.sorted
  exact absurd (lt_trans hab hba) (lt_irrefl a.1)

theorem EveryObject.self {P : List (Str × Json) → Prop} (h : EveryObject P (.object entries)) :
    P entries := h [] entries rfl

theorem EveryObject.of_lookup {P : List (Str × Json) → Prop} (h : EveryObject P (.object entries))
    (hvalue : entries.lookup key = some value) : EveryObject P value := by
  intro position inner hinner
  refine h (.key key :: position) inner ?_
  rw [at?, child?, hvalue]
  exact hinner

/-- Nothing is reported exactly of equal values. -/
theorem changedPositions_eq_nil_iff (hprevious : EveryObject Plain previous)
    (hcurrent : EveryObject Plain current) :
    changedPositions previous current = [] ↔ previous = current := by
  induction previous using entryInduction generalizing current with
  | h previous ih =>
    rcases objects_cases previous current with ⟨before, after, rfl, rfl⟩ | hother
    · rw [changedPositions_object, List.flatMap_eq_nil_iff, Json.object.injEq]
      constructor
      · refine fun h => eq_of_lookup hprevious.self hcurrent.self fun key => ?_
        cases hold : before.lookup key with
        | none =>
          cases hnew : after.lookup key with
          | none => rfl
          | some new =>
            have hkey : key ∈ keysOfBoth before after :=
              mem_keysOfBoth.mpr (.inr (by rw [hnew]; rfl))
            have hempty := h key hkey
            unfold positionsAt at hempty
            rw [hold, hnew] at hempty
            cases hempty
        | some old =>
          have hkey : key ∈ keysOfBoth before after := mem_keysOfBoth.mpr (.inl (by rw [hold]; rfl))
          have hempty := h key hkey
          unfold positionsAt at hempty
          cases hnew : after.lookup key with
          | none =>
            rw [hold, hnew] at hempty
            cases hempty
          | some new =>
            rw [hold, hnew] at hempty
            rw [(ih before key old rfl hold (hprevious.of_lookup hold)
              (hcurrent.of_lookup hnew)).mp (List.map_eq_nil_iff.mp hempty)]
      · rintro rfl key hkey
        have hsome : (before.lookup key).isSome = true := (mem_keysOfBoth.mp hkey).elim id id
        obtain ⟨old, hold⟩ := Option.isSome_iff_exists.mp hsome
        have hnone := (ih before key old rfl hold (hprevious.of_lookup hold)
          (hprevious.of_lookup hold)).mpr rfl
        unfold positionsAt
        rw [hold]
        exact List.map_eq_nil_iff.mpr hnone
    · rw [changedPositions_of_not hother]
      by_cases hsame : previous = current
      · rw [if_neg (not_not.mpr hsame)]
        exact iff_of_true rfl hsame
      · rw [if_pos hsame]
        exact iff_of_false (List.cons_ne_nil _ _) hsame

/-! ## Paths -/

def PlainKey (key : Str) : Prop := key ≠ [] ∧ '.' ∉ key

theorem pathOf_cons_ne_nil (hkey : PlainKey key) : pathOf (key :: keys) ≠ [] := by
  cases keys <;> simp [pathOf, join, List.intercalate, hkey.1]

theorem pathOf_injective {keys' : List Str} (hkeys : ∀ key ∈ keys, PlainKey key)
    (hkeys' : ∀ key ∈ keys', PlainKey key) (h : pathOf keys = pathOf keys') : keys = keys' := by
  cases keys with
  | nil =>
    cases keys' with
    | nil => rfl
    | cons key' keys' => exact absurd h.symm (pathOf_cons_ne_nil (hkeys' key' List.mem_cons_self))
  | cons key keys =>
    cases keys' with
    | nil => exact absurd h (pathOf_cons_ne_nil (hkeys key List.mem_cons_self))
    | cons key' keys' =>
      have hsplit := congrArg (split ['.']) h
      unfold pathOf at hsplit
      rwa [split_join fun key hkey => (hkeys key hkey).2,
        split_join fun key hkey => (hkeys' key hkey).2] at hsplit

theorem keyPath_pathOf (hkeys : ∀ key ∈ keys, PlainKey key) (key : Str) :
    keyPath (pathOf keys) key = pathOf (keys ++ [key]) := by
  have hjoin (first : Str) (keys : List Str) :
      pathOf (first :: keys ++ [key]) = pathOf (first :: keys) ++ '.' :: key := by
    induction keys generalizing first with
    | nil => simp [pathOf, join, List.intercalate]
    | cons next keys ih =>
      have hcons (keys : List Str) :
          pathOf (first :: next :: keys) = first ++ '.' :: pathOf (next :: keys) := by
        simp [pathOf, join, List.intercalate]
      rw [List.cons_append, List.cons_append, hcons, ← List.cons_append, ih, hcons,
        List.append_assoc, List.cons_append]
  unfold keyPath
  cases keys with
  | nil => simp [pathOf, join, List.intercalate]
  | cons first keys =>
    rw [if_neg (pathOf_cons_ne_nil (hkeys first List.mem_cons_self)), hjoin]

theorem collect_object (path : Str) : collect (.object before) (.object after) path =
    (keysOfBoth before after).flatMap fun key =>
      match before.lookup key, after.lookup key with
      | some old, some new => collect old new (keyPath path key)
      | _, _ => [keyPath path key] := by
  rw [collect]
  refine List.flatMap_congr fun key _ => ?_
  split
  · rename_i hold hnew
    rw [hold, hnew]
  · rename_i hnone
    split
    · rename_i hold hnew
      exact (hnone _ _ hold hnew).elim
    · rfl

theorem mem_collect_of_lookup {path changed : Str} (hold : before.lookup key = some old)
    (hnew : after.lookup key = some new) (h : changed ∈ collect old new (keyPath path key)) :
    changed ∈ collect (.object before) (.object after) path := by
  rw [collect_object]
  refine List.mem_flatMap.mpr ⟨key, mem_keysOfBoth.mpr (.inl (by rw [hold]; rfl)), ?_⟩
  rw [hold, hnew]
  exact h

theorem mem_collect_of_added {path : Str} (hold : before.lookup key = none)
    (hnew : after.lookup key = some new) :
    keyPath path key ∈ collect (.object before) (.object after) path := by
  rw [collect_object]
  refine List.mem_flatMap.mpr ⟨key, mem_keysOfBoth.mpr (.inr (by rw [hnew]; rfl)), ?_⟩
  rw [hold]
  exact List.mem_singleton_self _

theorem collect_of_not (h : ∀ before after, previous = .object before → current ≠ .object after)
    (path : Str) : collect previous current path = if previous ≠ current then [path] else [] := by
  rw [collect]
  exact h

theorem string_ne_object (text : Str) (entries : List (Str × Json)) :
    Json.string text ≠ .object entries := by
  intro h
  cases h

theorem collect_array (items : List Json) (current : Json) (path : Str) :
    collect (.array items) current path = if .array items ≠ current then [path] else [] := by
  refine collect_of_not ?_ path
  rintro before after ⟨⟩

theorem collect_string (previous : Json) (text path : Str) :
    collect previous (.string text) path = if previous ≠ .string text then [path] else [] := by
  exact collect_of_not (fun _ after _ h => absurd h (string_ne_object text after)) path

theorem prefix_keyPath (path key : Str) : path <+: keyPath path key := by
  unfold keyPath
  split_ifs with hempty
  · rw [hempty]
    exact List.nil_prefix
  · exact List.prefix_append path _

/-- What is reported of a part of a value lies in it. -/
theorem prefix_of_mem_collect {path changed : Str} (h : changed ∈ collect previous current path) :
    path <+: changed := by
  induction previous using entryInduction generalizing current path with
  | h previous ih =>
    rcases objects_cases previous current with ⟨before, after, rfl, rfl⟩ | hother
    · rw [collect_object] at h
      obtain ⟨key, -, h⟩ := List.mem_flatMap.mp h
      refine (prefix_keyPath path key).trans ?_
      split at h
      · rename_i old new hold hnew
        exact ih before key old rfl hold h
      · exact List.mem_singleton.mp h ▸ List.prefix_refl _
    · rw [collect_of_not hother] at h
      split_ifs at h
      · exact List.mem_singleton.mp h ▸ List.prefix_refl _
      · cases h

theorem plainKey_of_mem_keysOfBoth (hbefore : Plain before) (hafter : Plain after)
    (h : key ∈ keysOfBoth before after) : PlainKey key := by
  rcases mem_keysOfBoth.mp h with h | h
  · obtain ⟨value, hvalue⟩ := Option.isSome_iff_exists.mp h
    exact hbefore.keys _ (mem_of_lookup hvalue)
  · obtain ⟨value, hvalue⟩ := Option.isSome_iff_exists.mp h
    exact hafter.keys _ (mem_of_lookup hvalue)

/-- What `collect` reports are the paths of the positions. -/
theorem collect_eq (hprevious : EveryObject Plain previous) (hcurrent : EveryObject Plain current)
    (hkeys : ∀ key ∈ keys, PlainKey key) : collect previous current (pathOf keys) =
      (changedPositions previous current).map fun p => pathOf (keys ++ p) := by
  induction previous using entryInduction generalizing current keys with
  | h previous ih =>
    rcases objects_cases previous current with ⟨before, after, rfl, rfl⟩ | hother
    · rw [collect_object, changedPositions_object, List.map_flatMap]
      refine List.flatMap_congr fun key hkey => ?_
      have hplain := plainKey_of_mem_keysOfBoth hprevious.self hcurrent.self hkey
      rw [keyPath_pathOf hkeys]
      unfold positionsAt
      split
      · rename_i old new hold hnew
        rw [ih before key old rfl hold (hprevious.of_lookup hold) (hcurrent.of_lookup hnew)
          (List.forall_mem_append.mpr ⟨hkeys, List.forall_mem_singleton.mpr hplain⟩), List.map_map]
        refine List.map_congr_left fun p _ => ?_
        rw [List.append_assoc]
        rfl
      · rfl
    · rw [changedPositions_of_not hother, collect_of_not hother]
      split_ifs
      · rw [List.map_singleton, List.append_nil]
      · rfl

/-- The keys that lead to a value are keys of its objects. -/
theorem plainKeys_of_at? {rest : List Segment} (h : EveryObject Plain previous)
    (hvalue : previous.at? (keys.map .key ++ rest) = some value) : ∀ key ∈ keys, PlainKey key := by
  induction keys generalizing previous with
  | nil => nofun
  | cons key keys ih =>
    rw [List.map_cons, List.cons_append, at?] at hvalue
    obtain ⟨entry, hentry, hrest⟩ := Option.bind_eq_some_iff.mp hvalue
    cases previous with
    | object entries =>
      have hentry : entries.lookup key = some entry := hentry
      exact List.forall_mem_cons.mpr ⟨h.self.keys _ (mem_of_lookup hentry),
        ih (h.of_lookup hentry) hrest⟩
    | _ => cases hentry

theorem plainKeys_of_differs {rest : List Segment} (hprevious : EveryObject Plain previous)
    (hcurrent : EveryObject Plain current)
    (h : Differs previous current (keys.map .key ++ rest)) : ∀ key ∈ keys, PlainKey key := by
  cases hvalue : previous.at? (keys.map .key ++ rest) with
  | some value => exact plainKeys_of_at? hprevious hvalue
  | none =>
    cases hvalue' : current.at? (keys.map .key ++ rest) with
    | some value => exact plainKeys_of_at? hcurrent hvalue'
    | none => exact absurd (hvalue.trans hvalue'.symm) h.1

/-- Nothing is reported of equal values, and of others every difference once. -/
theorem changedPaths_exact (hprevious : EveryObject Plain previous)
    (hcurrent : EveryObject Plain current) :
    ReportsExactly previous current (previous.changedConfigurationPaths current) := by
  have hpaths : previous.changedConfigurationPaths current =
      (changedPositions previous current).map pathOf :=
    @collect_eq previous current [] hprevious hcurrent nofun
  have hplain (p : List Str) (hp : p ∈ changedPositions previous current) :
      ∀ key ∈ p, PlainKey key := by
    have hdiffers := differs_of_mem hp
    rw [← List.append_nil (p.map _)] at hdiffers
    exact plainKeys_of_differs hprevious hcurrent hdiffers
  rw [hpaths]
  refine ⟨?_, ?_, fun position hdiffers => ?_, fun path hpath => ?_⟩
  · rw [List.map_eq_nil_iff, changedPositions_eq_nil_iff hprevious hcurrent]
  · exact (changedPositions_nodup previous current).map_on fun p hp q hq h =>
      pathOf_injective (hplain p hp) (hplain q hq) h
  · obtain ⟨p, hp, rest, rfl⟩ := exists_prefix hdiffers
    refine ⟨pathOf p, ⟨List.mem_map_of_mem hp, p, rest, rfl, rfl⟩, ?_⟩
    rintro _ ⟨hmem, keys, rest', hposition, rfl⟩
    obtain ⟨q, hq, hpath⟩ := List.mem_map.mp hmem
    rw [hposition] at hdiffers
    obtain rfl := pathOf_injective (hplain q hq)
      (plainKeys_of_differs hprevious hcurrent hdiffers) hpath
    have hkeys : Function.Injective Segment.key := fun _ _ h => Segment.key.inj h
    rcases List.prefix_or_prefix_of_prefix ⟨rest, rfl⟩ ⟨rest', hposition.symm⟩ with h | h
    · rw [eq_of_above hp hq ((List.prefix_map_iff_of_injective hkeys).mp h)]
    · rw [eq_of_above hq hp ((List.prefix_map_iff_of_injective hkeys).mp h)]
  · obtain ⟨p, hp, rfl⟩ := List.mem_map.mp hpath
    exact ⟨p, rfl, differs_of_mem hp⟩

end

end Json

end LadybirdReports
