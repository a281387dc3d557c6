import LadybirdReports.Lib.StrSearch
import LadybirdReports.Lib.Regex
import LadybirdReports.Lib.Words

/-!
# Quick filters

A pill above a list stands for a qualifier, and a click on it changes the query of the list: on the
server by the link of the pill (`plainClickQuery`), in the browser by a script (`queryAfterClick`).
The server reads the words of a query with a scanner, the script with a pattern.

1. Both are readers with the same three states: outside quotes, in quotes, and after a backslash in
   quotes (`tokens_eq_words`, `scriptTokens_eq_words`). They find the same words exactly if they
   break the query at the same characters, so they differ where one takes a character for white
   space and the other does not, and where a line ends after a backslash in quotes
   (`tokens_eq_scriptTokens_iff`).
2. A click does the same if the words are the same and lowercase letters do not make a difference
   between them (`ClickedAlike`, `plainClickQuery_eq_queryAfterClick`).
-/

namespace LadybirdReports

open Rust

/-! ## The server -/

/-- The loop of `tokens`, with the text from `start` on. -/
def tokensFrom : Option Str → Bool → Bool → Str → List Str
  | start, _, _, [] => start.toList
  | start, quoted, escaped, character :: rest =>
    if isWhitespace character && !quoted then start.toList ++ tokensFrom none quoted escaped rest
    else
      let start := some (start.getD [] ++ [character])
      if escaped then tokensFrom start quoted false rest
      else if character = '\\' && quoted then tokensFrom start quoted true rest
      else if character = '\x22' then tokensFrom start (!quoted) escaped rest
      else tokensFrom start quoted escaped rest

/-- The words of a query, with quoted values kept whole and as written. -/
def tokens (query : Str) : List Str := tokensFrom none false false query

def stripSuffix? (s pattern : Str) : Option Str :=
  if endsWith s pattern then some (s.take (s.length - pattern.length)) else none

/-- The key and value of a qualifier, lowercase and without the quotes around the value. -/
def qualifier (token : Str) : Option (Str × Str) :=
  match splitOnce? [':'] token with
  | none => none
  | some (key, value) =>
    let value := ((stripPrefix? value ['\x22']).bind (stripSuffix? · ['\x22'])).getD value
    some (toAsciiLowercase key, toAsciiLowercase value)

/-- `contains` of the filter bar. -/
def containsQualifier (query expression : Str) : Bool :=
  match qualifier expression with
  | none => false
  | some wanted => (tokens query).any fun token => (qualifier token).any (· = wanted)

/-- The query after a plain click on the pill of `expression`. -/
def plainClickQuery (query defaultQuery expression : Str) : Str :=
  match qualifier expression with
  | none => expression
  | some (key, value) =>
    if !containsQualifier query expression then expression
    else
      let ofKind (token : Str) : Bool := (qualifier token).any (·.1 = key)
      let kept := (tokens query).filter fun token => !ofKind token
      let othersOfKind :=
        (tokens query).any fun token => ofKind token && qualifier token ≠ some (key, value)
      if othersOfKind then join [' '] (kept ++ [expression])
      else join [' '] (kept ++ (tokens defaultQuery).filter ofKind)

/-! ## The script -/

/-- `\s` of a pattern. -/
def isScriptSpace (c : Char) : Bool :=
  let n := c.toNat
  (9 ≤ n && n ≤ 13) || n == 0x20 || n == 0xA0 || n == 0x1680 || (0x2000 ≤ n && n ≤ 0x200A) ||
    n == 0x2028 || n == 0x2029 || n == 0x202F || n == 0x205F || n == 0x3000 || n == 0xFEFF

/-- What `.` of a pattern does not match. -/
def isLineTerminator (c : Char) : Bool :=
  c.toNat == 0x0A || c.toNat == 0x0D || c.toNat == 0x2028 || c.toNat == 0x2029

/-- In quotes: what a backslash escapes, or a character that is no quote and no backslash. -/
def quotedPattern : Regex Char :=
  .alt (.seq (.one (· = '\\')) (.one fun c => !isLineTerminator c))
    (.one fun c => c ≠ '\x22' && c ≠ '\\')

/-- A part of a word: a character that is no white space and no quote, or a quote and what follows
it in quotes, with the quote at their end if there is one. -/
def partPattern : Regex Char :=
  .alt (.one fun c => !isScriptSpace c && c ≠ '\x22')
    (.seq (.one (· = '\x22')) (.seq (.star quotedPattern) (.opt (.one (· = '\x22')))))

/-- `tokens` of the script. -/
def scriptTokens (query : Str) : List Str := Regex.matchAll (.plus partPattern) query

/-- `String.prototype.length`: in UTF-16. -/
def utf16Length (s : Str) : ℕ := (s.map fun c => if c.toNat < 0x10000 then 1 else 2).sum

section

variable (toLowerCase : Str → Str)

/-- `qualifier` of the script. -/
def scriptQualifier (token : Str) : Option (Str × Str) :=
  match splitOnce? [':'] token with
  | none => none
  | some (key, value) =>
    let value := if utf16Length value ≥ 2 && startsWith value ['\x22'] &&
      endsWith value ['\x22'] then value.tail.dropLast else value
    some (toLowerCase key, toLowerCase value)

/-- `matches`, where `wanted` is not null. -/
def scriptMatches (token : Str) (wanted : Str × Str) : Bool :=
  match scriptQualifier toLowerCase token with
  | none => false
  | some found => found.1 = wanted.1 && found.2 = wanted.2

/-- `contains` of the script. -/
def scriptContains (query expression : Str) : Bool :=
  match scriptQualifier toLowerCase expression with
  | none => false
  | some wanted => (scriptTokens query).any (scriptMatches toLowerCase · wanted)

/-- Where `wanted` is null nothing is present, so that it is not read. -/
def queryAfterClick (query defaultQuery expression : Str) (additive : Bool) : Str :=
  let present := scriptContains toLowerCase query expression
  match scriptQualifier toLowerCase expression with
  | none => if additive then join [' '] (scriptTokens query ++ [expression]) else expression
  | some wanted =>
    if additive then
      join [' '] (if present
        then (scriptTokens query).filter fun token => !scriptMatches toLowerCase token wanted
        else scriptTokens query ++ [expression])
    else if !present then expression
    else
      let ofKind (token : Str) : Bool :=
        (scriptQualifier toLowerCase token).map Prod.fst = some wanted.1
      let ofOtherKinds := (scriptTokens query).filter fun token => !ofKind token
      let othersOfKind := (scriptTokens query).any fun token =>
        ofKind token && !scriptMatches toLowerCase token wanted
      if othersOfKind then join [' '] (ofOtherKinds ++ [expression])
      else join [' '] (ofOtherKinds ++ (scriptTokens defaultQuery).filter ofKind)

end

/-! ## Two readers -/

/-- Where a reader of a query is. -/
inductive QueryState
  | plain
  | quoted
  | escaped
  deriving DecidableEq, Repr

def queryReader : Reader Char QueryState where
  start := .plain
  next
    | .plain, c => if c = '\x22' then .quoted else .plain
    | .quoted, c => if c = '\\' then .escaped else if c = '\x22' then .plain else .quoted
    | .escaped, _ => .quoted

def serverBreaks (q : QueryState) (c : Char) : Bool := q = .plain && isWhitespace c

def scriptBreaks : QueryState → Char → Bool
  | .plain, c => isScriptSpace c
  | .quoted, _ => false
  | .escaped, c => isLineTerminator c

theorem tokensFrom_eq_scan (start : Option Str) (q : QueryState) (query : Str) :
    tokensFrom start (q ≠ .plain) (q = .escaped) query =
      queryReader.scan serverBreaks start q query := by
  induction query generalizing start q with
  | nil => rfl
  | cons c query ih =>
    have hplain : ∀ start, tokensFrom start false false query =
        queryReader.scan serverBreaks start .plain query := fun start => ih start .plain
    have hquoted : ∀ start, tokensFrom start true false query =
        queryReader.scan serverBreaks start .quoted query := fun start => ih start .quoted
    have hescaped : ∀ start, tokensFrom start true true query =
        queryReader.scan serverBreaks start .escaped query := fun start => ih start .escaped
    rw [tokensFrom, Reader.scan]
    cases q with
    | plain =>
      by_cases hspace : isWhitespace c = true
      · simp [hspace, serverBreaks, hplain, queryReader]
      · by_cases hquote : c = '\x22' <;>
          simp [hspace, hquote, serverBreaks, hplain, hquoted, queryReader]
    | quoted =>
      by_cases hslash : c = '\\'
      · simp [hslash, serverBreaks, hescaped, queryReader]
      · by_cases hquote : c = '\x22' <;>
          simp [hslash, hquote, serverBreaks, hplain, hquoted, queryReader]
    | escaped => simp [serverBreaks, hquoted, queryReader]

/-- The scanner of the server reads the words of its reader. -/
theorem tokens_eq_words (query : Str) : tokens query = queryReader.words serverBreaks query :=
  tokensFrom_eq_scan none .plain query

/-! ### The pattern -/

/-- What is left of a query after the part whose quotes were opened and the parts that follow. -/
def quotedRest (s : Str) : Option Str :=
  (Regex.first (.seq (.star quotedPattern) (.opt (.one (· = '\x22')))) s).bind
    (Regex.first (.star partPattern))

section

variable {c : Char} {s t : Str}

theorem consumes_quotedPattern : Regex.Consumes quotedPattern :=
  Regex.consumes_alt (Regex.consumes_seq (Regex.consumes_one _) _) (Regex.consumes_one _)

theorem consumes_partPattern : Regex.Consumes partPattern :=
  Regex.consumes_alt (Regex.consumes_one _) (Regex.consumes_seq (Regex.consumes_one _) _)

theorem first_quotedPattern_slash : Regex.first quotedPattern ('\\' :: c :: s) =
    if isLineTerminator c then none else some s := by
  unfold quotedPattern
  rw [Regex.first_alt, Regex.first_one_seq, Regex.first_one_cons, Regex.first_one_cons]
  cases isLineTerminator c <;> rfl

theorem first_quotedPattern_other (hslash : c ≠ '\\') : Regex.first quotedPattern (c :: s) =
    if c = '\x22' then none else some s := by
  unfold quotedPattern
  rw [Regex.first_alt, Regex.first_one_seq, Regex.first_one_cons]
  by_cases hquote : c = '\x22' <;> simp [hslash, hquote]

/-- In quotes the pattern goes on from what it takes. -/
theorem quotedRest_of_some (h : Regex.first quotedPattern s = some t) :
    quotedRest s = quotedRest t := by
  unfold quotedRest
  rw [Regex.first_seq (Regex.neverFails_opt _), Regex.first_seq (Regex.neverFails_opt _),
    Regex.first_star consumes_quotedPattern, h]

/-- Where it takes nothing the quotes are closed, if they are. -/
theorem quotedRest_of_none (h : Regex.first quotedPattern s = none) :
    quotedRest s = Regex.first (.star partPattern)
      ((Regex.first (.one (· = '\x22')) s).getD s) := by
  unfold quotedRest
  rw [Regex.first_seq (Regex.neverFails_opt _), Regex.first_star consumes_quotedPattern, h,
    Option.bind_some, Regex.first_opt, Option.bind_some]

theorem first_partPattern_quote : Regex.first partPattern ('\x22' :: s) =
    Regex.first (.seq (.star quotedPattern) (.opt (.one (· = '\x22')))) s := by
  unfold partPattern
  rw [Regex.first_alt, Regex.first_one_seq, Regex.first_one_cons]
  simp

theorem first_partPattern_other (hquote : c ≠ '\x22') : Regex.first partPattern (c :: s) =
    if isScriptSpace c then none else some s := by
  unfold partPattern
  rw [Regex.first_alt, Regex.first_one_seq, Regex.first_one_cons]
  cases isScriptSpace c <;> simp [hquote]

theorem first_parts_quote : Regex.first (.star partPattern) ('\x22' :: s) = quotedRest s := by
  rw [Regex.first_star consumes_partPattern, first_partPattern_quote]
  unfold quotedRest
  have hne : Regex.first (.seq (.star quotedPattern) (.opt (.one (· = '\x22')))) s ≠ none :=
    Regex.neverFails_seq (Regex.neverFails_star _) (Regex.neverFails_opt _) s
  obtain ⟨t, ht⟩ := Option.ne_none_iff_exists'.mp hne
  rw [ht]
  rfl

theorem first_parts_other (hquote : c ≠ '\x22') :
    Regex.first (.star partPattern) (c :: s) =
      if isScriptSpace c then some (c :: s) else Regex.first (.star partPattern) s := by
  rw [Regex.first_star consumes_partPattern, first_partPattern_other hquote]
  cases isScriptSpace c <;> rfl

theorem isScriptSpace_of_isLineTerminator (h : isLineTerminator c = true) :
    isScriptSpace c = true := by
  unfold isLineTerminator at h
  unfold isScriptSpace
  simp only [Bool.or_eq_true, Bool.and_eq_true, beq_iff_eq, decide_eq_true_eq] at h ⊢
  omega

/-- The pattern leaves what its reader leaves, outside quotes and in them. -/
theorem first_parts_eq (n : ℕ) (s : Str) (hn : s.length ≤ n) :
    Regex.first (.star partPattern) s = some (queryReader.rest scriptBreaks .plain s) ∧
      quotedRest s = some (queryReader.rest scriptBreaks .quoted s) := by
  have hnil : Regex.first (.star partPattern) [] = some [] := rfl
  induction n generalizing s with
  | zero =>
    rw [List.length_eq_zero_iff.mp (Nat.le_zero.mp hn)]
    exact ⟨rfl, rfl⟩
  | succ n ih =>
    cases s with
    | nil => exact ⟨rfl, rfl⟩
    | cons c s =>
      rw [List.length_cons] at hn
      obtain ⟨hplain, hquoted⟩ := ih s (by omega)
      constructor
      · by_cases hquote : c = '\x22'
        · rw [hquote, first_parts_quote, hquoted]
          rfl
        · rw [first_parts_other hquote, hplain, Reader.rest]
          by_cases hspace : isScriptSpace c = true
          · rw [if_pos hspace, if_pos (show scriptBreaks .plain c = true from hspace)]
          · rw [if_neg hspace, if_neg (show ¬ scriptBreaks .plain c = true from hspace)]
            simp [queryReader, hquote]
      · by_cases hslash : c = '\\'
        · rw [hslash]
          cases s with
          | nil => rfl
          | cons d s =>
            by_cases hline : isLineTerminator d = true
            · -- the quotes are left open, and the line ends the word
              have hspace := isScriptSpace_of_isLineTerminator hline
              have hbreak : scriptBreaks .plain d = true := hspace
              have hnone : Regex.first quotedPattern ('\\' :: d :: s) = none := by
                rw [first_quotedPattern_slash, if_pos hline]
              rw [quotedRest_of_none hnone, Regex.first_one_cons, if_neg (by decide),
                Option.getD_none, first_parts_other (by decide), if_neg (by decide), hplain,
                Reader.rest, if_pos hbreak, Reader.rest, if_neg (by decide)]
              exact congrArg some (if_pos hline).symm
            · have hsome : Regex.first quotedPattern ('\\' :: d :: s) = some s := by
                rw [first_quotedPattern_slash, if_neg hline]
              rw [List.length_cons] at hn
              rw [quotedRest_of_some hsome, (ih s (by omega)).2, Reader.rest,
                if_neg (by decide)]
              exact congrArg some (if_neg hline).symm
        · have hstep : queryReader.rest scriptBreaks .quoted (c :: s) =
              queryReader.rest scriptBreaks (if c = '\x22' then .plain else .quoted) s := by
            rw [Reader.rest, if_neg (by simp [scriptBreaks])]
            simp [queryReader, hslash]
          rw [hstep]
          by_cases hquote : c = '\x22'
          · have hnone : Regex.first quotedPattern (c :: s) = none := by
              rw [first_quotedPattern_other hslash, if_pos hquote]
            rw [quotedRest_of_none hnone, Regex.first_one_cons, if_pos (by simpa using hquote),
              Option.getD_some, if_pos hquote, hplain]
          · have hsome : Regex.first quotedPattern (c :: s) = some s := by
              rw [first_quotedPattern_other hslash, if_neg hquote]
            rw [quotedRest_of_some hsome, if_neg hquote, hquoted]

theorem scriptBreaks_start (q : QueryState) (c : Char) (h : scriptBreaks q c = true) :
    scriptBreaks queryReader.start c = true := by
  cases q with
  | plain => exact h
  | quoted => cases h
  | escaped => exact isScriptSpace_of_isLineTerminator h

/-- A word of the pattern is a word of its reader. -/
theorem first_word : Regex.first (.plus partPattern) (c :: s) =
    if isScriptSpace c then none else some (queryReader.rest scriptBreaks .plain (c :: s)) := by
  have hparts := (first_parts_eq _ (c :: s) le_rfl).1
  rw [Regex.first_star consumes_partPattern] at hparts
  rw [Regex.first_plus]
  by_cases hspace : isScriptSpace c = true
  · have hquote : c ≠ '\x22' := by
      rintro rfl
      revert hspace
      decide
    rw [first_partPattern_other hquote, if_pos hspace, if_pos hspace]
    rfl
  · rw [if_neg hspace]
    cases hfirst : Regex.first partPattern (c :: s) with
    | some t =>
      rw [hfirst] at hparts
      exact hparts
    | none =>
      exfalso
      by_cases hquote : c = '\x22'
      · rw [hquote, first_partPattern_quote] at hfirst
        exact Regex.neverFails_seq (Regex.neverFails_star _) (Regex.neverFails_opt _) s hfirst
      · rw [first_partPattern_other hquote, if_neg hspace] at hfirst
        cases hfirst

/-- The pattern of the script finds the words of its reader. -/
theorem scriptTokens_eq_words (query : Str) :
    scriptTokens query = queryReader.words scriptBreaks query := by
  have hconsumes : Regex.Consumes (.plus partPattern) :=
    Regex.consumes_seq consumes_partPattern _
  unfold scriptTokens
  induction hn : query.length using Nat.strong_induction_on generalizing query with
  | _ n ih =>
    cases query with
    | nil => exact Regex.matchAll_nil hconsumes
    | cons c query =>
      by_cases hspace : isScriptSpace c = true
      · rw [Regex.matchAll_of_none (by rw [first_word, if_pos hspace]),
          Reader.words_cons_of_break hspace]
        exact ih query.length (by rw [← hn]; exact Nat.lt_succ_self _) query rfl
      · have hfree : scriptBreaks queryReader.start c = false :=
          Bool.eq_false_iff.mpr hspace
        have hfirst : Regex.first (.plus partPattern) (c :: query) =
            some (queryReader.rest scriptBreaks .plain (c :: query)) := by
          rw [first_word, if_neg hspace]
        rw [Regex.matchAll_of_some hconsumes hfirst, Reader.words_cons scriptBreaks_start hfree]
        refine congrArg _ (ih _ ?_ _ rfl)
        rw [← hn]
        exact Regex.length_lt_of_first hconsumes hfirst

end

/-! ### The same words -/

/-- A character does not end a word for one of the two only. -/
def endsAlike : QueryState → Char → Bool
  | .plain, c => c.toNat ≠ 0x85 && c.toNat ≠ 0xFEFF
  | .quoted, _ => true
  | .escaped, c => !isLineTerminator c

/-- No character of a query does: there is no U+0085 or U+FEFF outside quotes, and in quotes no line
terminator after a backslash. -/
def ReadAlike : QueryState → Str → Bool
  | _, [] => true
  | q, c :: s => endsAlike q c && ReadAlike (queryReader.next q c) s

theorem isWhitespace_eq_isScriptSpace_iff (c : Char) :
    isWhitespace c = isScriptSpace c ↔ c.toNat ≠ 0x85 ∧ c.toNat ≠ 0xFEFF := by
  rw [Bool.eq_iff_iff]
  unfold isWhitespace isScriptSpace
  simp only [Bool.or_eq_true, Bool.and_eq_true, beq_iff_eq, decide_eq_true_eq]
  omega

theorem readAlike_iff (q : QueryState) (s : Str) :
    ReadAlike q s = true ↔ queryReader.SameBreaks serverBreaks scriptBreaks q s := by
  induction s generalizing q with
  | nil => exact iff_of_true rfl trivial
  | cons c s ih =>
    have hnext : (if serverBreaks q c then queryReader.start else queryReader.next q c) =
        queryReader.next q c := by
      split
      · rename_i hbreak
        obtain ⟨hq, hspace⟩ := Bool.and_eq_true_iff.mp hbreak
        have hquote : c ≠ '\x22' := by
          rintro rfl
          revert hspace
          decide
        rw [of_decide_eq_true hq]
        simp [queryReader, hquote]
      · rfl
    rw [ReadAlike, Reader.SameBreaks, hnext, Bool.and_eq_true, ih]
    refine and_congr_left fun _ => ?_
    cases q with
    | plain =>
      have hbreaks : serverBreaks .plain c = isWhitespace c := rfl
      rw [hbreaks, show scriptBreaks .plain c = isScriptSpace c from rfl,
        isWhitespace_eq_isScriptSpace_iff]
      simp [endsAlike]
    | quoted => exact iff_of_true rfl rfl
    | escaped =>
      change (!isLineTerminator c) = true ↔ false = isLineTerminator c
      cases isLineTerminator c <;> decide

/-- The server and the script find the same words exactly if they end them alike. -/
theorem tokens_eq_scriptTokens_iff (query : Str) :
    tokens query = scriptTokens query ↔ ReadAlike .plain query = true := by
  rw [tokens_eq_words, scriptTokens_eq_words, Reader.words_eq_iff, readAlike_iff]
  rfl

/-! ## A click -/

/-- A value without the quotes around it. -/
def unquoted (value : Str) : Str :=
  ((stripPrefix? value ['\x22']).bind (stripSuffix? · ['\x22'])).getD value

/-- The key and the value of a qualifier as they are written. -/
def writtenQualifier (token : Str) : Option (Str × Str) :=
  (splitOnce? [':'] token).map fun parts => (parts.1, unquoted parts.2)

section

variable {toLowerCase : Str → Str}

theorem qualifier_eq (token : Str) : qualifier token =
    (writtenQualifier token).map fun parts =>
      (toAsciiLowercase parts.1, toAsciiLowercase parts.2) := by
  unfold qualifier writtenQualifier unquoted
  cases splitOnce? [':'] token <;> rfl

theorem two_le_utf16Length (c d : Char) (s : Str) : 2 ≤ utf16Length (c :: d :: s) := by
  have hone : ∀ c : Char, 1 ≤ if c.toNat < 0x10000 then 1 else 2 := by
    intro c
    split <;> decide
  have hc := hone c
  have hd := hone d
  unfold utf16Length
  rw [List.map_cons, List.map_cons, List.sum_cons, List.sum_cons]
  omega

theorem unquoted_eq (value : Str) : unquoted value =
    if utf16Length value ≥ 2 && startsWith value ['\x22'] && endsWith value ['\x22'] then
      value.tail.dropLast
    else value := by
  have hsuffix : ∀ c d (s : Str), endsWith (c :: d :: s) ['\x22'] = endsWith (d :: s) ['\x22'] := by
    intro c d s
    unfold endsWith
    rw [Bool.eq_iff_iff, List.isSuffixOf_iff_suffix, List.isSuffixOf_iff_suffix,
      List.suffix_cons_iff]
    exact or_iff_right (by simp)
  unfold unquoted stripPrefix?
  match value with
  | [] => rfl
  | [c] =>
    by_cases hquote : '\x22' = c
    · rw [← hquote]
      rfl
    · simp [startsWith, hquote]
  | c :: d :: s =>
    by_cases hquote : '\x22' = c
    · have hlong : decide (utf16Length (c :: d :: s) ≥ 2) = true :=
        decide_eq_true (two_le_utf16Length c d s)
      have hstart : startsWith (c :: d :: s) ['\x22'] = true := by
        rw [← hquote]
        rfl
      rw [hstart, hlong, hsuffix, if_pos rfl]
      unfold stripSuffix?
      cases hend : endsWith (d :: s) ['\x22'] with
      | false => simp [hend]
      | true => simp [hend, List.dropLast_eq_take]
    · have hstart : startsWith (c :: d :: s) ['\x22'] = false := by
        change ('\x22' == c && _) = false
        rw [beq_eq_false_iff_ne.mpr hquote, Bool.false_and]
      rw [hstart]
      simp

theorem scriptQualifier_eq (token : Str) : scriptQualifier toLowerCase token =
    (writtenQualifier token).map fun parts => (toLowerCase parts.1, toLowerCase parts.2) := by
  unfold scriptQualifier writtenQualifier
  cases splitOnce? [':'] token with
  | none => rfl
  | some parts =>
    simp only [Option.map_some, unquoted_eq]

/-- Lowercase letters make no difference between the keys of a word and the pill. -/
def KeysAlike (toLowerCase : Str → Str) (expression token : Str) : Prop :=
  ∀ parts ∈ writtenQualifier token, ∀ wanted ∈ writtenQualifier expression,
    (toLowerCase parts.1 = toLowerCase wanted.1 ↔
      toAsciiLowercase parts.1 = toAsciiLowercase wanted.1)

/-- Lowercase letters make no difference between a word and the pill: neither between the keys nor,
if the keys are the same, between the values. -/
def ComparedAlike (toLowerCase : Str → Str) (expression token : Str) : Prop :=
  ∀ parts ∈ writtenQualifier token, ∀ wanted ∈ writtenQualifier expression,
    (toLowerCase parts.1 = toLowerCase wanted.1 ↔
      toAsciiLowercase parts.1 = toAsciiLowercase wanted.1) ∧
    (toAsciiLowercase parts.1 = toAsciiLowercase wanted.1 →
      (toLowerCase parts.2 = toLowerCase wanted.2 ↔
        toAsciiLowercase parts.2 = toAsciiLowercase wanted.2))

/-- The only active pill of its kind is clicked, which brings the default query back. -/
def restoresDefault (query expression : Str) : Bool :=
  match qualifier expression with
  | none => false
  | some wanted => containsQualifier query expression && !(tokens query).any fun token =>
      (qualifier token).any (·.1 = wanted.1) && qualifier token ≠ some wanted

/-- The words of the queries that a click reads end alike for both, and compare alike; those of the
default query by their keys, which are all that is read of them. -/
structure ClickedAlike (toLowerCase : Str → Str) (query defaultQuery expression : Str) : Prop where
  ends : ReadAlike .plain query = true
  words : ∀ token ∈ tokens query, ComparedAlike toLowerCase expression token
  defaultEnds : restoresDefault query expression = true → ReadAlike .plain defaultQuery = true
  defaultWords : restoresDefault query expression = true →
    ∀ token ∈ tokens defaultQuery, KeysAlike toLowerCase expression token

theorem ComparedAlike.keys {expression token : Str}
    (h : ComparedAlike toLowerCase expression token) : KeysAlike toLowerCase expression token :=
  fun parts hparts wanted hwanted => (h parts hparts wanted hwanted).1

/-- The words of a kind are the same for both. -/
theorem KeysAlike.ofKind_eq {expression token : Str} {wanted : Str × Str}
    (h : KeysAlike toLowerCase expression token)
    (hwanted : writtenQualifier expression = some wanted) :
    decide ((scriptQualifier toLowerCase token).map Prod.fst = some (toLowerCase wanted.1)) =
      (qualifier token).any (·.1 = toAsciiLowercase wanted.1) := by
  rw [scriptQualifier_eq, qualifier_eq]
  unfold KeysAlike at h
  cases hparts : writtenQualifier token with
  | none => rfl
  | some parts =>
    have hkeys := h parts hparts wanted hwanted
    simp only [Option.map_some, Option.any_some, Option.some.injEq, hkeys]

/-- The words that are the qualifier of the pill are the same for both. -/
theorem ComparedAlike.matches_eq {expression token : Str} {wanted : Str × Str}
    (h : ComparedAlike toLowerCase expression token)
    (hwanted : writtenQualifier expression = some wanted) :
    scriptMatches toLowerCase token (toLowerCase wanted.1, toLowerCase wanted.2) =
      (qualifier token).any
        (· = (toAsciiLowercase wanted.1, toAsciiLowercase wanted.2)) := by
  unfold scriptMatches
  rw [scriptQualifier_eq, qualifier_eq]
  unfold ComparedAlike at h
  cases hparts : writtenQualifier token with
  | none => rfl
  | some parts =>
    obtain ⟨hkeys, hvalues⟩ := h parts hparts wanted hwanted
    simp only [Option.map_some, Option.any_some, Prod.mk.injEq, Bool.decide_and, hkeys]
    by_cases hkey : toAsciiLowercase parts.1 = toAsciiLowercase wanted.1
    · simp [hkey, hvalues hkey]
    · simp [hkey]

theorem any_congr_of_mem {words : List Str} {p p' : Str → Bool}
    (h : ∀ word ∈ words, p word = p' word) : words.any p = words.any p' := by
  rw [Bool.eq_iff_iff, List.any_eq_true, List.any_eq_true]
  exact exists_congr fun word => and_congr_right fun hword => by rw [h word hword]

theorem ClickedAlike.contains_eq {query defaultQuery expression : Str}
    (h : ClickedAlike toLowerCase query defaultQuery expression) :
    scriptContains toLowerCase query expression = containsQualifier query expression := by
  unfold scriptContains containsQualifier
  rw [← (tokens_eq_scriptTokens_iff query).mpr h.ends, scriptQualifier_eq, qualifier_eq expression]
  cases hwanted : writtenQualifier expression with
  | none => rfl
  | some wanted =>
    exact any_congr_of_mem fun token htoken => (h.words token htoken).matches_eq hwanted

/-- A plain click does the same with the script and without it. -/
theorem plainClickQuery_eq_queryAfterClick {query defaultQuery expression : Str}
    (h : ClickedAlike toLowerCase query defaultQuery expression) :
    plainClickQuery query defaultQuery expression =
      queryAfterClick toLowerCase query defaultQuery expression false := by
  have htokens := (tokens_eq_scriptTokens_iff query).mpr h.ends
  unfold plainClickQuery queryAfterClick
  rw [h.contains_eq, scriptQualifier_eq, ← htokens]
  cases hwanted : writtenQualifier expression with
  | none =>
    rw [qualifier_eq, hwanted]
    rfl
  | some wanted =>
    have hexpression : qualifier expression =
        some (toAsciiLowercase wanted.1, toAsciiLowercase wanted.2) := by
      rw [qualifier_eq, hwanted]
      rfl
    have hkept : (tokens query).filter (fun token => !decide ((scriptQualifier toLowerCase
        token).map Prod.fst = some (toLowerCase wanted.1))) = (tokens query).filter
        fun token => !(qualifier token).any (·.1 = toAsciiLowercase wanted.1) :=
      List.filter_congr fun token htoken => by rw [(h.words token htoken).keys.ofKind_eq hwanted]
    have hothers : (tokens query).any (fun token => decide ((scriptQualifier toLowerCase
        token).map Prod.fst = some (toLowerCase wanted.1)) && !scriptMatches toLowerCase token
          (toLowerCase wanted.1, toLowerCase wanted.2)) = (tokens query).any fun token =>
        (qualifier token).any (·.1 = toAsciiLowercase wanted.1) && qualifier token ≠
          some (toAsciiLowercase wanted.1, toAsciiLowercase wanted.2) := by
      refine any_congr_of_mem fun token htoken => ?_
      rw [(h.words token htoken).keys.ofKind_eq hwanted, (h.words token htoken).matches_eq hwanted]
      cases qualifier token <;> simp
    rw [hexpression, Option.map_some]
    dsimp only
    rw [if_neg Bool.false_ne_true, hkept, hothers]
    cases hcontains : containsQualifier query expression with
    | false => rfl
    | true =>
      simp only [Bool.not_true, Bool.false_eq_true, if_false]
      split
      · rfl
      · rename_i hnone
        have hdefault : restoresDefault query expression = true := by
          unfold restoresDefault
          rw [hexpression, hcontains]
          dsimp only
          rw [Bool.true_and, Bool.not_eq_true']
          exact Bool.eq_false_iff.mpr hnone
        have hsame := (tokens_eq_scriptTokens_iff defaultQuery).mpr (h.defaultEnds hdefault)
        rw [← hsame]
        congr 2
        exact (List.filter_congr fun token htoken =>
          (h.defaultWords hdefault token htoken).ofKind_eq hwanted).symm

end

/-- The query that the list of reports starts with. -/
def sampleDefault : Str := "state:triage state:confirmed".toList

theorem quoted_version_is_clicked_alike :
    plainClickQuery "version:\"Ladybird Nightly\" state:triage".toList sampleDefault
        "state:triage".toList =
      queryAfterClick toAsciiLowercase "version:\"Ladybird Nightly\" state:triage".toList
        sampleDefault "state:triage".toList false :=
  plainClickQuery_eq_queryAfterClick
    { ends := by decide
      words := fun _ _ _ _ _ _ => ⟨Iff.rfl, fun _ => Iff.rfl⟩
      defaultEnds := fun _ => by decide
      defaultWords := fun _ _ _ _ _ _ _ => Iff.rfl }

/-- Two qualifiers with a next line character between them, which only the server takes for white
space. -/
def nextLineQuery : Str := "state:triage\u0085kind:crash".toList

/-- The link of the pill keeps the other qualifier, but the script does not find the pill's. -/
theorem next_line_is_clicked_differently : ¬ ∀ query defaultQuery expression : Str,
    plainClickQuery query defaultQuery expression =
      queryAfterClick toAsciiLowercase query defaultQuery expression false := by
  intro h
  have hserver : plainClickQuery nextLineQuery sampleDefault "state:triage".toList =
      "kind:crash state:triage state:confirmed".toList := by decide +kernel
  have hscript : queryAfterClick toAsciiLowercase nextLineQuery sampleDefault
      "state:triage".toList false = "state:triage".toList := by decide +kernel
  have hsame := h nextLineQuery sampleDefault "state:triage".toList
  rw [hserver, hscript] at hsame
  cases hsame

end LadybirdReports
