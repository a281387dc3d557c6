import LadybirdReports.Domain.Field
import LadybirdReports.Domain.States
import LadybirdReports.Lib.StrChars
import LadybirdReports.Lib.StrRender
import Mathlib.Data.List.Forall2

/-!
# Searching for reports

`ReportSearch.parse` cuts a query at white space, but not in quotes, and what has a colon is a
qualifier. `filterExpression` writes a qualifier so that it can be put into a query, in quotes if
need be.

1. The tokens of expressions joined by blanks are those of the expressions one by one
   (`tokenize_join`): what was quoted is one token, and the rest is the words of a text.
2. `filterExpression` quotes for the white space of ASCII, and `tokenize` cuts at all white space.
   What is cut is lost to the tokens, so that they cannot make up for it (`flatten_pairTokens`).

So expressions are read back exactly when no value is empty, and none that is written without quotes
has white space (`filter_expressions_round_trip_iff`).
-/

namespace LadybirdReports

open Rust

def maximumSearchBytes : ℕ := 512
def maximumSearchTerms : ℕ := 32

structure ReportQualifier where
  key : Str
  value : Str
  deriving DecidableEq, Repr

structure ReportSearch where
  terms : List Str
  qualifiers : List ReportQualifier
  deriving DecidableEq, Repr

def ReportSearch.default : ReportSearch := ⟨[], []⟩

def ReportState.asStr : ReportState → String
  | .triage => "triage"
  | .confirmed => "confirmed"
  | .resolved => "resolved"
  | .rejected => "rejected"

def ReportState.parse (value : Str) : Option ReportState :=
  [ReportState.triage, .confirmed, .resolved, .rejected].find? (·.asStr.toList = value)

/-! ## Writing -/

/-- `u8::is_ascii_whitespace`. -/
def isAsciiWhitespace (c : Char) : Bool :=
  c = ' ' || c = '\t' || c = '\n' || c = '\u000c' || c = '\r'

/-- The value may be written without quotes. -/
def isUnquoted (value : Str) : Bool :=
  value.all fun c => !isAsciiWhitespace c && !(c = '\x22' || c = '\\')

/-- `str::replace` of a character by a text. -/
def replaceWith (s : Str) (old : Char) (new : Str) : Str :=
  s.flatMap fun c => if c = old then new else [c]

def escape (value : Str) : Str :=
  replaceWith (replaceWith value '\\' ['\\', '\\']) '\x22' ['\\', '\x22']

def filterExpression (key value : Str) : Str :=
  if isUnquoted value then key ++ [':'] ++ toAsciiLowercase value
  else key ++ [':', '\x22'] ++ escape value ++ ['\x22']

/-! ## Reading -/

/-- The loop of `tokenize`. -/
def tokenizeFrom : Str → Bool → Bool → Str → Except String (List Str)
  | token, quoted, escaped, [] =>
    if quoted || escaped then .error "Unterminated quoted search value"
    else .ok (if token = [] then [] else [token])
  | token, quoted, true, c :: s => tokenizeFrom (token ++ [c]) quoted false s
  | token, quoted, false, c :: s =>
    if c = '\\' ∧ quoted then tokenizeFrom token quoted true s
    else if c = '\x22' then tokenizeFrom token (!quoted) false s
    else if isWhitespace c ∧ !quoted then
      ((if token = [] then [] else [token]) ++ ·) <$> tokenizeFrom [] quoted false s
    else tokenizeFrom (token ++ [c]) quoted false s

def tokenize (input : Str) : Except String (List Str) := tokenizeFrom [] false false input

def validateQualifier (key value : Str) : Except String Unit := do
  ensure (isValidFieldKey key && value ≠ []) "Invalid report search qualifier"
  ensure (!(eqIgnoreAsciiCase key "state".toList &&
    (ReportState.parse (toAsciiLowercase value)).isNone)) "Invalid report state filter"

/-- The loop over the tokens. -/
def collectTokens : List Str → ReportSearch → Except String ReportSearch
  | [], search => .ok search
  | token :: tokens, search =>
    match splitOnce? [':'] token with
    | some (key, value) => do
      validateQualifier key value
      collectTokens tokens
        { search with qualifiers := search.qualifiers ++ [⟨toAsciiLowercase key, value⟩] }
    | none => collectTokens tokens { search with terms := search.terms ++ [token] }

def ReportSearch.parse (input : Str) : Except String ReportSearch := do
  ensure (byteLen input ≤ maximumSearchBytes) "Report search is too long"
  let tokens ← tokenize input
  ensure (tokens.length ≤ maximumSearchTerms) "Too many report search terms"
  collectTokens tokens .default

/-! ## Tokens of an expression -/

section

variable {key value token s rest : Str} {c : Char}

/-- The words of a text after what was read of the first, and what is read of the last. -/
def wordsFrom : Str → Str → List Str × Str
  | token, [] => ([], token)
  | token, c :: s =>
    if isWhitespace c then
      ((if token = [] then [] else [token]) ++ (wordsFrom [] s).1, (wordsFrom [] s).2)
    else wordsFrom (token ++ [c]) s

/-- A token that is no text is none. -/
def lastToken (token : Str) : List Str := if token = [] then [] else [token]

theorem tokenizeFrom_words (hs : '\x22' ∉ s) :
    tokenizeFrom token false false (s ++ rest) = ((wordsFrom token s).1 ++ ·) <$>
      tokenizeFrom (wordsFrom token s).2 false false rest := by
  induction s generalizing token with
  | nil =>
    rw [List.nil_append, wordsFrom]
    cases tokenizeFrom token false false rest <;> rfl
  | cons c s ih =>
    rw [List.mem_cons, not_or] at hs
    rw [List.cons_append, tokenizeFrom, wordsFrom, if_neg (by simp), if_neg (Ne.symm hs.1)]
    by_cases hspace : isWhitespace c = true
    · rw [if_pos ⟨hspace, rfl⟩, if_pos hspace, ih hs.2]
      cases tokenizeFrom (wordsFrom [] s).2 false false rest with
      | error => rfl
      | ok tokens => simp [Functor.map, Except.map]
    · rw [if_neg (fun h => hspace h.1), if_neg hspace, ih hs.2]

/-- What was escaped is read as it was. -/
theorem tokenizeFrom_escape : tokenizeFrom token true false (escape value ++ '\x22' :: rest) =
    tokenizeFrom (token ++ value) false false rest := by
  induction value generalizing token with
  | nil =>
    rw [List.append_nil, show escape [] = [] from rfl, List.nil_append, tokenizeFrom,
      if_neg (by decide), if_pos rfl]
    rfl
  | cons c value ih =>
    have hcons : escape (c :: value) = (if c = '\\' then ['\\', '\\']
        else if c = '\x22' then ['\\', '\x22'] else [c]) ++ escape value := by
      unfold escape replaceWith
      rw [List.flatMap_cons, List.flatMap_append]
      congr 1
      split_ifs with hslash hquote
      · rfl
      · simp [hquote]
      · simp [hquote]
    have hread : tokenizeFrom token true false
        ((if c = '\\' then ['\\', '\\'] else if c = '\x22' then ['\\', '\x22'] else [c]) ++
          (escape value ++ '\x22' :: rest)) =
        tokenizeFrom (token ++ [c]) true false (escape value ++ '\x22' :: rest) := by
      split_ifs with hslash hquote
      · rw [List.cons_append, List.singleton_append, tokenizeFrom, if_pos ⟨rfl, rfl⟩, tokenizeFrom,
          hslash]
      · rw [List.cons_append, List.singleton_append, tokenizeFrom, if_pos ⟨rfl, rfl⟩, tokenizeFrom,
          hquote]
      · rw [List.singleton_append, tokenizeFrom, if_neg (fun h => hslash h.1), if_neg hquote,
          if_neg (by simp)]
    rw [hcons, List.append_assoc, hread, ih, List.append_assoc, List.singleton_append]

/-- The tokens of an expression. -/
def pairTokens (key value : Str) : List Str :=
  if isUnquoted value then
    let (finished, last) := wordsFrom [] (key ++ [':'] ++ toAsciiLowercase value)
    finished ++ lastToken last
  else [key ++ [':'] ++ value]

theorem tokenizeFrom_plain (hs : ∀ c ∈ s, c ≠ '\x22' ∧ isWhitespace c = false) :
    tokenizeFrom token false false (s ++ rest) = tokenizeFrom (token ++ s) false false rest := by
  induction s generalizing token with
  | nil => rw [List.nil_append, List.append_nil]
  | cons c s ih =>
    obtain ⟨hc, hs⟩ := List.forall_mem_cons.mp hs
    rw [List.cons_append, tokenizeFrom, if_neg (by simp), if_neg hc.1, if_neg (by simp [hc.2]),
      ih hs, List.append_assoc, List.singleton_append]

/-- What may follow an expression: nothing, or a blank. -/
def afterBlank (rest : Str) : Except String (List Str) :=
  match rest with
  | [] => .ok []
  | _ :: rest => tokenizeFrom [] false false rest

theorem tokenizeFrom_last (hrest : ∀ c ∈ rest.head?, c = ' ') :
    tokenizeFrom token false false rest = (lastToken token ++ ·) <$> afterBlank rest := by
  cases rest with
  | nil =>
    rw [tokenizeFrom, if_neg (by decide)]
    exact congrArg Except.ok (List.append_nil _).symm
  | cons c rest =>
    obtain rfl : c = ' ' := hrest c rfl
    rw [tokenizeFrom, if_neg (by decide), if_neg (by decide), if_pos (by decide)]
    rfl

theorem fieldKey_chars (h : isValidFieldKey key = true) :
    key ≠ [] ∧ ∀ c ∈ key, c ≠ ':' ∧ c ≠ '\x22' ∧ isWhitespace c = false := by
  unfold isValidFieldKey at h
  simp only [Bool.and_eq_true, decide_eq_true_eq] at h
  refine ⟨h.1.1, fun c hc => ?_⟩
  have hchar := List.all_eq_true.mp h.2 c hc
  simp only [Bool.or_eq_true] at hchar
  rcases hchar with hchar | hchar
  · unfold isAsciiAlphanumeric isAsciiDigit isAsciiAlphabetic at hchar
    simp only [Bool.or_eq_true, Bool.and_eq_true, decide_eq_true_eq, show '0'.toNat = 48 from rfl,
      show '9'.toNat = 57 from rfl, show 'a'.toNat = 97 from rfl, show 'z'.toNat = 122 from rfl,
      show 'A'.toNat = 65 from rfl, show 'Z'.toNat = 90 from rfl] at hchar
    refine ⟨?_, ?_, ?_⟩
    · rintro rfl
      have hcolon : ':'.toNat = 58 := rfl
      omega
    · rintro rfl
      have hquote : '\x22'.toNat = 34 := rfl
      omega
    · unfold isWhitespace
      simp only [Bool.or_eq_false_iff, Bool.and_eq_false_iff, decide_eq_false_iff_not,
        beq_eq_false_iff_ne]
      omega
  · have hlist : ∀ d ∈ "._-".toList, d ≠ ':' ∧ d ≠ '\x22' ∧ isWhitespace d = false :=
      forall_of_all (by decide)
    exact hlist c (List.contains_iff_mem.mp hchar)

/-- Lower-casing changes letters to letters. -/
theorem toLower_cases (c : Char) :
    c.toLower = c ∨ 65 ≤ c.toNat ∧ c.toNat ≤ 90 ∧ c.toLower.toNat = c.toNat + 32 := by
  unfold Char.toLower
  split
  · rename_i hupper
    refine .inr ⟨hupper.1, hupper.2, ?_⟩
    have hfirst : 65 ≤ c.val.toNat := hupper.1
    have hlast : c.val.toNat ≤ 90 := hupper.2
    change (c.val + ('a'.val - 'A'.val)).toNat = c.val.toNat + 32
    have hoffset : ('a'.val - 'A'.val).toNat = 32 := rfl
    rw [UInt32.toNat_add, hoffset]
    omega
  · exact .inl rfl

theorem isWhitespace_toLower (c : Char) : isWhitespace c.toLower = isWhitespace c := by
  rcases toLower_cases c with h | ⟨hfirst, hlast, h⟩
  · rw [h]
  · unfold isWhitespace
    rw [Bool.eq_iff_iff]
    simp only [h, Bool.or_eq_true, Bool.and_eq_true, decide_eq_true_eq, beq_iff_eq]
    omega

theorem quote_not_mem_toAsciiLowercase (h : '\x22' ∉ s) : '\x22' ∉ toAsciiLowercase s := by
  intro hmem
  obtain ⟨c, hc, hlower⟩ := List.mem_map.mp hmem
  rcases toLower_cases c with hsame | ⟨hfirst, hlast, hnat⟩
  · exact h (hlower ▸ hsame.symm ▸ hc)
  · rw [hlower] at hnat
    have hquote : '\x22'.toNat = 34 := rfl
    omega

theorem quote_not_mem_of_isUnquoted (h : isUnquoted value = true) : '\x22' ∉ value := by
  intro hmem
  have hchar := List.all_eq_true.mp h _ hmem
  simp at hchar

theorem tokenizeFrom_filterExpression (hkey : isValidFieldKey key = true)
    (hrest : ∀ c ∈ rest.head?, c = ' ') :
    tokenizeFrom [] false false (filterExpression key value ++ rest) =
      (pairTokens key value ++ ·) <$> afterBlank rest := by
  obtain ⟨hne, hchars⟩ := fieldKey_chars hkey
  have hkeyQuote : '\x22' ∉ key := fun hmem => (hchars _ hmem).2.1 rfl
  unfold filterExpression pairTokens
  by_cases hplain : isUnquoted value = true
  · rw [if_pos hplain, if_pos hplain, tokenizeFrom_words, tokenizeFrom_last hrest]
    · cases afterBlank rest with
      | error => rfl
      | ok tokens => simp [Functor.map, Except.map]
    · simp only [List.mem_append, not_or]
      exact ⟨⟨hkeyQuote, by decide⟩,
        quote_not_mem_toAsciiLowercase (quote_not_mem_of_isUnquoted hplain)⟩
  · rw [if_neg hplain, if_neg hplain]
    have hstart : key ++ [':', '\x22'] ++ escape value ++ ['\x22'] ++ rest =
        (key ++ [':']) ++ ('\x22' :: (escape value ++ '\x22' :: rest)) := by simp
    have hcolon : ∀ c ∈ key ++ [':'], c ≠ '\x22' ∧ isWhitespace c = false := by
      intro c hc
      rcases List.mem_append.mp hc with hc | hc
      · exact (hchars c hc).2
      · rw [List.mem_singleton.mp hc]
        decide
    rw [hstart, tokenizeFrom_plain hcolon, List.nil_append, tokenizeFrom, if_neg (by decide),
      if_pos rfl, Bool.not_false, tokenizeFrom_escape, tokenizeFrom_last hrest]
    unfold lastToken
    rw [if_neg (by simp)]

end

/-! ## Tokens of a query -/

section

variable {pairs : List (Str × Str)} {key value token s : Str}

/-- The expressions as a query. -/
def expressionsQuery (pairs : List (Str × Str)) : Str :=
  join [' '] (pairs.map fun pair => filterExpression pair.1 pair.2)

theorem tokenize_join (hkeys : ∀ pair ∈ pairs, isValidFieldKey pair.1 = true) :
    tokenize (expressionsQuery pairs) =
      .ok (pairs.flatMap fun pair => pairTokens pair.1 pair.2) := by
  unfold tokenize expressionsQuery
  induction pairs with
  | nil => rfl
  | cons pair pairs ih =>
    obtain ⟨hkey, hkeys⟩ := List.forall_mem_cons.mp hkeys
    cases pairs with
    | nil =>
      have hone := @tokenizeFrom_filterExpression pair.1 pair.2 [] hkey (by simp)
      rw [List.append_nil] at hone
      rw [List.map_singleton, show join [' '] [filterExpression pair.1 pair.2] =
        filterExpression pair.1 pair.2 by simp [join], hone]
      rfl
    | cons next pairs =>
      have hjoin : join [' '] ((pair :: next :: pairs).map fun pair =>
          filterExpression pair.1 pair.2) = filterExpression pair.1 pair.2 ++
            ' ' :: join [' '] ((next :: pairs).map fun pair => filterExpression pair.1 pair.2) := by
        simp [join, List.intercalate]
      rw [hjoin, tokenizeFrom_filterExpression hkey (by simp)]
      change _ <$> tokenizeFrom [] false false _ = _
      rw [ih hkeys]
      rfl

end

/-! ## What is cut out of a query -/

section

variable {pairs : List (Str × Str)} {key value token s : Str} {tokens : List Str}
  {search start : ReportSearch}

theorem flatten_wordsFrom (token s : Str) :
    (wordsFrom token s).1.flatten ++ (wordsFrom token s).2 =
      token ++ s.filter fun c => !isWhitespace c := by
  induction s generalizing token with
  | nil => rw [wordsFrom, List.filter_nil, List.append_nil]; rfl
  | cons c s ih =>
    rw [wordsFrom]
    by_cases hspace : isWhitespace c = true
    · rw [if_pos hspace, List.filter_cons_of_neg (by simp [hspace])]
      dsimp only
      rw [List.flatten_append, List.append_assoc, ih, List.nil_append]
      split_ifs with hempty
      · rw [hempty]
        rfl
      · simp
    · rw [if_neg hspace, List.filter_cons_of_pos (by simp [hspace]), ih, List.append_assoc,
        List.singleton_append]

theorem wordsFrom_plain (hs : ∀ c ∈ s, isWhitespace c = false) :
    wordsFrom token s = ([], token ++ s) := by
  induction s generalizing token with
  | nil => rw [wordsFrom, List.append_nil]
  | cons c s ih =>
    obtain ⟨hc, hs⟩ := List.forall_mem_cons.mp hs
    rw [wordsFrom, if_neg (by simp [hc]), ih hs, List.append_assoc, List.singleton_append]

theorem flatten_lastToken (token : Str) : (lastToken token).flatten = token := by
  unfold lastToken
  split_ifs with hempty
  · rw [hempty]
    rfl
  · simp

/-- White space in a text without quotes is lost. -/
theorem flatten_pairTokens : (pairTokens key value).flatten =
    if isUnquoted value then
      (key ++ [':'] ++ toAsciiLowercase value).filter fun c => !isWhitespace c
    else key ++ [':'] ++ value := by
  unfold pairTokens
  split_ifs with hplain
  · have hwords := flatten_wordsFrom [] (key ++ [':'] ++ toAsciiLowercase value)
    rw [List.nil_append] at hwords
    dsimp only
    rw [List.flatten_append, flatten_lastToken, hwords]
  · simp

theorem length_toAsciiLowercase (s : Str) : (toAsciiLowercase s).length = s.length :=
  List.length_map ..

theorem length_flatten_pairTokens_le (key value : Str) :
    (pairTokens key value).flatten.length ≤ (key ++ [':'] ++ value).length := by
  rw [flatten_pairTokens]
  split_ifs
  · refine (List.length_filter_le _ _).trans_eq ?_
    simp [length_toAsciiLowercase]
  · exact le_rfl

/-- The value is written in a way that it is read. -/
structure IsReadable (value : Str) : Prop where
  ne_nil : value ≠ []
  no_space : isUnquoted value = true → ∀ c ∈ value, isWhitespace c = false

theorem no_space_of_length
    (h : (pairTokens key value).flatten.length = (key ++ [':'] ++ value).length)
    (hplain : isUnquoted value = true) : ∀ c ∈ value, isWhitespace c = false := by
  rw [flatten_pairTokens, if_pos hplain] at h
  have hlength : (key ++ [':'] ++ toAsciiLowercase value).length =
      (key ++ [':'] ++ value).length := by simp [length_toAsciiLowercase]
  have hall := List.length_filter_eq_length_iff.mp (h.trans hlength.symm)
  intro c hc
  have hlower := hall c.toLower (List.mem_append_right _ (List.mem_map_of_mem hc))
  rw [isWhitespace_toLower] at hlower
  simpa using hlower

/-- What is shorter for no item is shorter for none if it is as long for all. -/
theorem length_flatMap_eq {α β : Type} {items : List α} {f g : α → List β}
    (hle : ∀ item ∈ items, (f item).length ≤ (g item).length)
    (h : (items.flatMap f).length = (items.flatMap g).length) :
    ∀ item ∈ items, (f item).length = (g item).length := by
  have htotal {items : List α} (hle : ∀ item ∈ items, (f item).length ≤ (g item).length) :
      (items.flatMap f).length ≤ (items.flatMap g).length := by
    induction items with
    | nil => exact le_rfl
    | cons item items ih =>
      obtain ⟨hitem, hitems⟩ := List.forall_mem_cons.mp hle
      rw [List.flatMap_cons, List.flatMap_cons, List.length_append, List.length_append]
      exact Nat.add_le_add hitem (ih hitems)
  induction items with
  | nil => simp
  | cons item items ih =>
    obtain ⟨hitem, hitems⟩ := List.forall_mem_cons.mp hle
    rw [List.flatMap_cons, List.flatMap_cons, List.length_append, List.length_append] at h
    have hrest := htotal hitems
    refine List.forall_mem_cons.mpr ⟨by omega, ih hitems (by omega)⟩

def ReportQualifier.text (qualifier : ReportQualifier) : Str :=
  qualifier.key ++ [':'] ++ qualifier.value

/-- Without free terms, all tokens are in the qualifiers. -/
theorem collectTokens_eq_ok (h : collectTokens tokens start = .ok search)
    (hterms : search.terms = []) : start.terms = [] ∧ ∃ qualifiers,
      search.qualifiers = start.qualifiers ++ qualifiers ∧
      (qualifiers.flatMap ReportQualifier.text).length = tokens.flatten.length ∧
      ∀ qualifier ∈ qualifiers, qualifier.value ≠ [] := by
  induction tokens generalizing start with
  | nil =>
    cases h
    exact ⟨hterms, [], by simp⟩
  | cons token tokens ih =>
    rw [collectTokens] at h
    cases hsplit : splitOnce? [':'] token with
    | none =>
      rw [hsplit] at h
      obtain ⟨hnone, -⟩ := ih h
      simp at hnone
    | some parts =>
      rw [hsplit] at h
      obtain ⟨key, value⟩ := parts
      obtain ⟨_, hvalid, h⟩ := bind_eq_ok.mp h
      obtain ⟨hnone, qualifiers, hqualifiers, hlength, hvalues⟩ := ih h
      unfold validateQualifier at hvalid
      obtain ⟨_, hkey, -⟩ := bind_eq_ok.mp hvalid
      have hvalue := ensure_eq_ok.mp hkey
      simp only [Bool.and_eq_true, decide_eq_true_eq] at hvalue
      refine ⟨hnone, ⟨toAsciiLowercase key, value⟩ :: qualifiers, ?_, ?_, ?_⟩
      · rw [hqualifiers]
        simp
      · rw [List.flatMap_cons, List.length_append, hlength, List.flatten_cons,
          List.length_append, splitOnce?_eq_some hsplit]
        simp [ReportQualifier.text, length_toAsciiLowercase]
      · exact List.forall_mem_cons.mpr ⟨hvalue.2, hvalues⟩

end

/-! ## The round trip -/

section

variable {pairs : List (Str × Str)} {key value : Str} {search : ReportSearch}

/-- The query is read as these qualifiers, and nothing else. -/
def IsReadBack (pairs : List (Str × Str)) : Prop :=
  ∃ search, ReportSearch.parse (expressionsQuery pairs) = .ok search ∧ search.terms = [] ∧
    List.Forall₂ (fun pair qualifier => qualifier.key = toAsciiLowercase pair.1 ∧
      eqIgnoreAsciiCase qualifier.value pair.2 = true) pairs search.qualifiers

theorem length_of_eqIgnoreAsciiCase {s t : Str} (h : eqIgnoreAsciiCase s t = true) :
    s.length = t.length := by
  have hlength := congrArg List.length (eq_of_beq h)
  rwa [length_toAsciiLowercase, length_toAsciiLowercase] at hlength

theorem length_texts_eq {qualifiers : List ReportQualifier}
    (h : List.Forall₂ (fun (pair : Str × Str) (qualifier : ReportQualifier) =>
      qualifier.key = toAsciiLowercase pair.1 ∧ eqIgnoreAsciiCase qualifier.value pair.2 = true)
      pairs qualifiers) :
    (qualifiers.flatMap ReportQualifier.text).length =
      (pairs.flatMap fun pair => pair.1 ++ [':'] ++ pair.2).length := by
  induction h with
  | nil => rfl
  | cons hone _ ih =>
    rw [List.flatMap_cons, List.flatMap_cons, List.length_append, List.length_append, ih]
    simp [ReportQualifier.text, hone.1, length_toAsciiLowercase, length_of_eqIgnoreAsciiCase hone.2]

theorem flatten_flatMap (f : Str × Str → List Str) :
    (pairs.flatMap f).flatten = pairs.flatMap fun pair => (f pair).flatten := by
  induction pairs with
  | nil => rfl
  | cons pair pairs ih =>
    rw [List.flatMap_cons, List.flatMap_cons, List.flatten_append, ih]

/-- What is read back was readable: the qualifiers would be longer than the tokens. -/
theorem isReadable_of_isReadBack (hkeys : ∀ pair ∈ pairs, isValidFieldKey pair.1 = true)
    (h : IsReadBack pairs) : ∀ pair ∈ pairs, IsReadable pair.2 := by
  obtain ⟨search, hparse, hterms, hqualifiers⟩ := h
  unfold ReportSearch.parse at hparse
  obtain ⟨_, -, hparse⟩ := bind_eq_ok.mp hparse
  rw [tokenize_join hkeys, ok_bind] at hparse
  obtain ⟨_, -, hcollect⟩ := bind_eq_ok.mp hparse
  obtain ⟨-, qualifiers, hsame, hlength, hvalues⟩ := collectTokens_eq_ok hcollect hterms
  rw [hsame,
    show ReportSearch.default.qualifiers ++ qualifiers = qualifiers from rfl] at hqualifiers
  have htexts := length_texts_eq hqualifiers
  rw [hlength, flatten_flatMap] at htexts
  have hpairs := length_flatMap_eq (fun pair _ => length_flatten_pairTokens_le pair.1 pair.2) htexts
  intro pair hpair
  refine ⟨?_, fun hplain => no_space_of_length (hpairs pair hpair) hplain⟩
  obtain ⟨i, hi, rfl⟩ := List.mem_iff_getElem.mp hpair
  obtain ⟨hcount, hget⟩ := List.forall₂_iff_get.mp hqualifiers
  intro hempty
  have hvalue := length_of_eqIgnoreAsciiCase (hget i hi (hcount ▸ hi)).2
  change _ = pairs[i].2.length at hvalue
  rw [hempty, List.length_nil, List.length_eq_zero_iff] at hvalue
  exact hvalues _ (List.get_mem qualifiers ⟨i, hcount ▸ hi⟩) hvalue

/-- What a token has of a value. -/
def written (value : Str) : Str := if isUnquoted value then toAsciiLowercase value else value

theorem toAsciiLowercase_idem (s : Str) :
    toAsciiLowercase (toAsciiLowercase s) = toAsciiLowercase s := by
  unfold toAsciiLowercase
  rw [List.map_map]
  refine List.map_congr_left fun c _ => ?_
  rcases toLower_cases c with h | ⟨hfirst, hlast, h⟩
  · exact congrArg Char.toLower h
  · rcases toLower_cases c.toLower with hagain | ⟨hfirst', hlast', -⟩
    · exact hagain
    · omega

theorem toAsciiLowercase_written (value : Str) :
    toAsciiLowercase (written value) = toAsciiLowercase value := by
  unfold written
  split_ifs
  · exact toAsciiLowercase_idem value
  · rfl

theorem written_ne_nil (h : value ≠ []) : written value ≠ [] := by
  unfold written
  split_ifs
  · exact fun hnil => h (List.map_eq_nil_iff.mp hnil)
  · exact h

/-- A value that is readable makes one token. -/
theorem pairTokens_of_isReadable (hkey : isValidFieldKey key = true) (h : IsReadable value) :
    pairTokens key value = [key ++ [':'] ++ written value] := by
  unfold pairTokens written
  split_ifs with hplain
  · have hspace : ∀ c ∈ key ++ [':'] ++ toAsciiLowercase value, isWhitespace c = false := by
      intro c hc
      rcases List.mem_append.mp hc with hc | hc
      · rcases List.mem_append.mp hc with hc | hc
        · exact ((fieldKey_chars hkey).2 c hc).2.2
        · rw [List.mem_singleton.mp hc]
          decide
      · obtain ⟨d, hd, rfl⟩ := List.mem_map.mp hc
        rw [isWhitespace_toLower]
        exact h.no_space hplain d hd
    rw [wordsFrom_plain hspace]
    dsimp only
    unfold lastToken
    rw [if_neg (by simp), List.nil_append, List.nil_append]
  · rfl

/-- A value of the key `state` names a state. -/
def IsStateFilter (pair : Str × Str) : Prop :=
  eqIgnoreAsciiCase pair.1 "state".toList = true →
    (ReportState.parse (toAsciiLowercase pair.2)).isSome = true

theorem validateQualifier_written (hkey : isValidFieldKey key = true) (h : IsReadable value)
    (hstate : IsStateFilter (key, value)) : validateQualifier key (written value) = .ok () := by
  unfold validateQualifier
  rw [hkey, toAsciiLowercase_written]
  have hvalue : (true && decide (written value ≠ [])) = true := by
    simp [written_ne_nil h.ne_nil]
  rw [hvalue]
  refine ensure_eq_ok.mpr ?_
  rw [Bool.not_eq_true', Bool.and_eq_false_iff]
  by_cases hkind : eqIgnoreAsciiCase key "state".toList = true
  · refine .inr ?_
    simpa using hstate hkind
  · exact .inl (Bool.eq_false_iff.mpr hkind)

theorem collectTokens_written (hkeys : ∀ pair ∈ pairs, isValidFieldKey pair.1 = true)
    (hvalues : ∀ pair ∈ pairs, IsReadable pair.2) (hstates : ∀ pair ∈ pairs, IsStateFilter pair)
    (start : ReportSearch) :
    collectTokens (pairs.map fun pair => pair.1 ++ [':'] ++ written pair.2) start =
      .ok { start with
        qualifiers := start.qualifiers ++
          pairs.map fun pair => ⟨toAsciiLowercase pair.1, written pair.2⟩ } := by
  induction pairs generalizing start with
  | nil => simp [collectTokens]
  | cons pair pairs ih =>
    obtain ⟨hkey, hkeys⟩ := List.forall_mem_cons.mp hkeys
    obtain ⟨hvalue, hvalues⟩ := List.forall_mem_cons.mp hvalues
    obtain ⟨hstate, hstates⟩ := List.forall_mem_cons.mp hstates
    have hcolon : ':' ∉ pair.1 := fun hmem => ((fieldKey_chars hkey).2 _ hmem).1 rfl
    rw [List.map_cons, collectTokens, splitOnce?_append hcolon]
    dsimp only
    rw [validateQualifier_written hkey hvalue hstate, ok_bind, ih hkeys hvalues hstates]
    simp

theorem isReadBack_of_isReadable (hcount : pairs.length ≤ maximumSearchTerms)
    (hkeys : ∀ pair ∈ pairs, isValidFieldKey pair.1 = true)
    (hbytes : byteLen (expressionsQuery pairs) ≤ maximumSearchBytes)
    (hstates : ∀ pair ∈ pairs, IsStateFilter pair)
    (hvalues : ∀ pair ∈ pairs, IsReadable pair.2) : IsReadBack pairs := by
  have htokens : (pairs.flatMap fun pair => pairTokens pair.1 pair.2) =
      pairs.map fun pair => pair.1 ++ [':'] ++ written pair.2 := by
    rw [List.map_eq_flatMap]
    exact List.flatMap_congr fun pair hpair =>
      pairTokens_of_isReadable (hkeys pair hpair) (hvalues pair hpair)
  have hparse : ReportSearch.parse (expressionsQuery pairs) =
      .ok ⟨[], pairs.map fun pair => ⟨toAsciiLowercase pair.1, written pair.2⟩⟩ := by
    have hlength : (pairs.map fun pair => pair.1 ++ [':'] ++ written pair.2).length ≤
        maximumSearchTerms := by rw [List.length_map]; exact hcount
    unfold ReportSearch.parse ensure
    rw [if_pos (decide_eq_true hbytes), ok_bind, tokenize_join hkeys, ok_bind, htokens,
      if_pos (decide_eq_true hlength), ok_bind, collectTokens_written hkeys hvalues hstates]
    rfl
  refine ⟨_, hparse, rfl, ?_⟩
  refine List.forall₂_map_right_iff.mpr (List.forall₂_same.mpr fun pair _ => ⟨rfl, ?_⟩)
  unfold eqIgnoreAsciiCase
  rw [beq_iff_eq]
  exact toAsciiLowercase_written pair.2

end

/-- The expressions of a search are read as they were meant, exactly if their values are readable:
none is empty, and none that is written without quotes has white space. -/
theorem filter_expressions_round_trip_iff {pairs : List (Str × Str)}
    (hcount : pairs.length ≤ maximumSearchTerms)
    (hkeys : ∀ pair ∈ pairs, isValidFieldKey pair.1 = true)
    (hbytes : byteLen (expressionsQuery pairs) ≤ maximumSearchBytes)
    (hstates : ∀ pair ∈ pairs, IsStateFilter pair) :
    IsReadBack pairs ↔ ∀ pair ∈ pairs, IsReadable pair.2 :=
  ⟨isReadable_of_isReadBack hkeys, isReadBack_of_isReadable hcount hkeys hbytes hstates⟩

/-! ## Values that are not read back -/

/-- An ideographic space is cut at, but not quoted. -/
theorem wide_space_is_not_read_back : ¬ IsReadBack [("platform".toList, "a\u3000b".toList)] := by
  rintro ⟨search, hparse, hterms, -⟩
  have hsearch : ReportSearch.parse (expressionsQuery [("platform".toList, "a\u3000b".toList)]) =
      .ok ⟨["b".toList], [⟨"platform".toList, "a".toList⟩]⟩ := by decide +kernel
  rw [hsearch] at hparse
  cases hparse
  cases hterms

theorem quoted_value_is_read_back :
    IsReadBack [("platform".toList, "Linux".toList), ("title".toList, "A \"b\" c".toList)] :=
  (filter_expressions_round_trip_iff (by decide) (by decide +kernel) (by decide +kernel)
    (by unfold IsStateFilter; decide +kernel)).mpr
    (List.forall_mem_cons.mpr ⟨⟨by decide, fun _ => forall_of_all (by decide)⟩,
      List.forall_mem_cons.mpr ⟨⟨by decide, fun h => absurd h (by decide +kernel)⟩, by simp⟩⟩)

end LadybirdReports
