import LadybirdReports.Domain.ReportSearch
import LadybirdReports.Web.FilterBar

/-!
# Which pills are active

A pill is active if a word of the query is written as its expression is. The search reads the words:
without their quotes, and without the backslashes that escape in quotes.

1. The search and the filter bar cut a query into the same words, and the search is what is read of
   them one by one (`tokenize_eq`, `parse_eq_ok_iff`).
2. A click on an active pill drops words of its kind, which are read as qualifiers of its key. The
   other words are joined with closed words of that kind, and so are read again
   (`keepsRest_of_active`).
3. A word that is written as the pill is read as it, unless there is a backslash
   (`IsWritten.isRead`). But a word may be read as the pill and written in another way, so that the
   pill is active as it should be exactly if not all such words are (`pill_follows_search_iff`).
-/

namespace LadybirdReports

open Rust

/-! ## Reading a word -/

/-- The reader takes the character for a mark, not for text. -/
def isMark : QueryState → Char → Bool
  | .plain, c => c = '\x22'
  | .quoted, c => c = '\x22' || c = '\\'
  | .escaped, _ => false

/-- A text as it is read from a state on. -/
def readFrom : QueryState → Str → Str
  | _, [] => []
  | q, c :: s => (if isMark q c then [] else [c]) ++ readFrom (queryReader.next q c) s

/-- A word without its quotes and without the backslashes that escape in them. -/
def readWord (word : Str) : Str := readFrom .plain word

section

variable {q : QueryState} {query s t w : Str} {c : Char}

theorem readFrom_append (q : QueryState) (s t : Str) :
    readFrom q (s ++ t) = readFrom q s ++ readFrom (queryReader.final q s) t := by
  induction s generalizing q with
  | nil => rfl
  | cons c s ih =>
    rw [List.cons_append, readFrom, readFrom, ih, List.append_assoc]
    rfl

theorem final_of_break (h : serverBreaks q c = true) : queryReader.next q c = .plain := by
  unfold serverBreaks at h
  obtain ⟨hq, hspace⟩ := Bool.and_eq_true_iff.mp h
  rw [of_decide_eq_true hq]
  have hquote : c ≠ '\x22' := by
    rintro rfl
    exact absurd hspace (by decide)
  exact if_neg hquote

/-- The text of a word that is not empty. -/
def readToken (word : Str) : List Str := if readWord word = [] then [] else [readWord word]

/-- The search reads the words of the filter bar, and leaves out those that have no text. -/
theorem tokenizeFrom_eq_scan (word : Option Str) (q : QueryState)
    (hq : q = queryReader.final .plain (word.getD [])) (s : Str) :
    tokenizeFrom (readWord (word.getD [])) (q ≠ .plain) (q = .escaped) s =
      if queryReader.final q s = .plain then
        .ok ((queryReader.scan serverBreaks word q s).flatMap readToken)
      else .error "Unterminated quoted search value" := by
  induction s generalizing word q with
  | nil =>
    rw [tokenizeFrom, Reader.final_nil]
    have hword : (word.toList.flatMap readToken) = readToken (word.getD []) := by
      cases word with
      | none => rfl
      | some w => simp
    cases q with
    | plain =>
      rw [if_neg (by decide), if_pos rfl, Reader.scan, hword]
      rfl
    | quoted => rfl
    | escaped => rfl
  | cons c s ih =>
    rw [Reader.final_cons]
    -- The character is read on in a word.
    have hread (hbreak : serverBreaks q c = false) :
        tokenizeFrom (readWord (word.getD []) ++ if isMark q c then [] else [c])
            (queryReader.next q c ≠ .plain) (queryReader.next q c = .escaped) s =
          if queryReader.final (queryReader.next q c) s = .plain then
            .ok ((queryReader.scan serverBreaks word q (c :: s)).flatMap readToken)
          else .error "Unterminated quoted search value" := by
      have hnext := ih (some (word.getD [] ++ [c])) (queryReader.next q c) (by
        rw [Option.getD_some, Reader.final_append, ← hq]
        rfl)
      have htoken : readWord (word.getD [] ++ [c]) =
          readWord (word.getD []) ++ if isMark q c then [] else [c] := by
        unfold readWord
        rw [readFrom_append, ← hq, readFrom, readFrom, List.append_nil]
      rw [Option.getD_some, htoken] at hnext
      have hfree : ¬ serverBreaks q c = true := by
        rw [hbreak]
        decide
      rw [Reader.scan, if_neg hfree]
      exact hnext
    cases q with
    | plain =>
      rw [decide_eq_false (not_not.mpr rfl), decide_eq_false (by decide), tokenizeFrom,
        if_neg (by simp)]
      by_cases hquote : c = '\x22'
      · subst hquote
        rw [if_pos rfl]
        simpa [isMark, queryReader] using hread rfl
      · rw [if_neg hquote]
        by_cases hspace : isWhitespace c = true
        · have hbreak : serverBreaks .plain c = true := hspace
          have hnone := ih none .plain rfl
          rw [final_of_break hbreak, if_pos ⟨hspace, rfl⟩, Reader.scan, if_pos hbreak]
          change tokenizeFrom [] false false s = _ at hnone
          rw [hnone, List.flatMap_append]
          have hword : (if readWord (word.getD []) = [] then [] else [readWord (word.getD [])]) =
              word.toList.flatMap readToken := by
            cases word with
            | none => rfl
            | some w => exact (List.append_nil _).symm
          rw [hword]
          split_ifs <;> rfl
        · rw [if_neg (by simp [hspace])]
          simpa [isMark, queryReader, hquote] using hread (by simp [serverBreaks, hspace])
    | quoted =>
      rw [decide_eq_true (by decide), decide_eq_false (by decide), tokenizeFrom]
      by_cases hslash : c = '\\'
      · rw [if_pos ⟨hslash, rfl⟩]
        simpa [isMark, queryReader, hslash] using hread rfl
      · rw [if_neg (by simp [hslash])]
        by_cases hquote : c = '\x22'
        · rw [if_pos hquote]
          simpa [isMark, queryReader, hquote] using hread rfl
        · rw [if_neg hquote, if_neg (by simp)]
          simpa [isMark, queryReader, hslash, hquote] using hread rfl
    | escaped =>
      rw [decide_eq_true (by decide), decide_eq_true rfl, tokenizeFrom]
      simpa [isMark, queryReader] using hread rfl

/-- The tokens of a search are the words of the filter bar as they are read, if no quote is open at
the end. -/
theorem tokenize_eq (query : Str) : tokenize query =
    if queryReader.final .plain query = .plain then .ok ((tokens query).flatMap readToken)
    else .error "Unterminated quoted search value" := by
  rw [tokens_eq_words]
  exact tokenizeFrom_eq_scan none .plain rfl query

/-- A word whose quotes are closed. -/
structure IsClosedWord (w : Str) : Prop where
  isWord : queryReader.IsWord serverBreaks w
  closed : queryReader.final .plain w = .plain

theorem isClosedWord_of_mem_tokens (hclosed : queryReader.final .plain query = .plain)
    (h : w ∈ tokens query) : IsClosedWord w := by
  rw [tokens_eq_words] at h
  refine ⟨Reader.isWord_of_mem_words h,
    @Reader.final_of_mem_words _ _ queryReader serverBreaks query w (· = .plain) ?_ hclosed h⟩
  intro q c hbreak
  exact ⟨of_decide_eq_true (Bool.and_eq_true_iff.mp hbreak).1, final_of_break hbreak⟩

/-- Closed words that are joined by blanks are read again, and closed. -/
theorem tokens_join {ws : List Str} (h : ∀ w ∈ ws, IsClosedWord w) :
    tokens (join [' '] ws) = ws ∧ queryReader.final .plain (join [' '] ws) = .plain := by
  constructor
  · rw [tokens_eq_words]
    refine Reader.words_intercalate (fun w hw => (h w hw).isWord) fun w hw => ?_
    change serverBreaks (queryReader.final .plain w) ' ' = true
    rw [(h w hw).closed]
    rfl
  · induction ws with
    | nil => rfl
    | cons w ws ih =>
      obtain ⟨hw, h⟩ := List.forall_mem_cons.mp h
      cases ws with
      | nil =>
        rw [show join [' '] [w] = w by simp [join]]
        exact hw.closed
      | cons w' ws =>
        rw [join_cons_cons, Reader.final_append, Reader.final_append, hw.closed]
        exact ih h

/-! ## What a word is for the search -/

/-- The qualifier that a token is. -/
def tokenQualifier? (token : Str) : Option ReportQualifier :=
  (splitOnce? [':'] token).map fun parts => ⟨toAsciiLowercase parts.1, parts.2⟩

def wordQualifier? (word : Str) : Option ReportQualifier := tokenQualifier? (readWord word)

/-- The free term that a word is. -/
def wordTerm? (word : Str) : Option Str :=
  if readWord word = [] ∨ (splitOnce? [':'] (readWord word)).isSome then none
  else some (readWord word)

/-- If the word is a qualifier, the search accepts it. -/
def IsAcceptedWord (word : Str) : Prop :=
  ∀ parts ∈ splitOnce? [':'] (readWord word), validateQualifier parts.1 parts.2 = .ok ()

theorem collectTokens_eq_ok_iff {tokens : List Str} {start search : ReportSearch} :
    collectTokens tokens start = .ok search ↔
      (∀ token ∈ tokens, ∀ parts ∈ splitOnce? [':'] token,
        validateQualifier parts.1 parts.2 = .ok ()) ∧
      search = ⟨start.terms ++ tokens.filter fun token => (splitOnce? [':'] token).isNone,
        start.qualifiers ++ tokens.filterMap tokenQualifier?⟩ := by
  induction tokens generalizing start with
  | nil => simp [collectTokens, eq_comm]
  | cons token tokens ih =>
    rw [collectTokens, List.forall_mem_cons]
    cases hparts : splitOnce? [':'] token with
    | none =>
      have hqualifier : tokenQualifier? token = none := by
        unfold tokenQualifier?
        rw [hparts]
        rfl
      dsimp only
      rw [ih, List.filter_cons_of_pos (by rw [hparts]; rfl), List.filterMap_cons_none hqualifier]
      simp
    | some parts =>
      have hqualifier : tokenQualifier? token = some ⟨toAsciiLowercase parts.1, parts.2⟩ := by
        unfold tokenQualifier?
        rw [hparts]
        rfl
      dsimp only
      rw [List.filter_cons_of_neg (by rw [hparts]; exact Bool.false_ne_true),
        List.filterMap_cons_some hqualifier]
      simp only [bind_eq_ok, ih, Option.mem_def, Option.some.injEq, forall_eq',
        List.append_assoc, List.singleton_append]
      constructor
      · rintro ⟨_, hvalid, h⟩
        exact ⟨⟨hvalid, h.1⟩, h.2⟩
      · rintro ⟨⟨hvalid, h⟩, hsearch⟩
        exact ⟨(), hvalid, h, hsearch⟩

theorem splitOnce?_nil : splitOnce? [':'] [] = none := rfl

/-- A word without text is neither a term nor a qualifier. -/
theorem readTokens_eq (ws : List Str) :
    (ws.flatMap readToken).filter (fun token => (splitOnce? [':'] token).isNone) =
        ws.filterMap wordTerm? ∧
      (ws.flatMap readToken).filterMap tokenQualifier? = ws.filterMap wordQualifier? ∧
      ((∀ token ∈ ws.flatMap readToken, ∀ parts ∈ splitOnce? [':'] token,
        validateQualifier parts.1 parts.2 = .ok ()) ↔ ∀ w ∈ ws, IsAcceptedWord w) := by
  induction ws with
  | nil => exact ⟨rfl, rfl, by simp⟩
  | cons w ws ih =>
    obtain ⟨hterms, hqualifiers, haccepted⟩ := ih
    rw [List.flatMap_cons, List.filter_append, List.filterMap_append, hterms, hqualifiers,
      List.forall_mem_append, haccepted, List.forall_mem_cons]
    unfold IsAcceptedWord readToken
    by_cases hempty : readWord w = []
    · have hterm : wordTerm? w = none := if_pos (.inl hempty)
      have hqualifier : wordQualifier? w = none := by
        unfold wordQualifier?
        rw [hempty]
        rfl
      rw [if_pos hempty, hempty, List.filterMap_cons_none hterm,
        List.filterMap_cons_none hqualifier, splitOnce?_nil]
      exact ⟨rfl, rfl, and_congr_left fun _ => by simp⟩
    · rw [if_neg hempty]
      refine ⟨?_, ?_, and_congr_left fun _ => by simp⟩
      · cases hparts : splitOnce? [':'] (readWord w) with
        | none =>
          have hterm : wordTerm? w = some (readWord w) := if_neg (by simp [hempty, hparts])
          rw [List.filterMap_cons_some hterm, List.filter_cons_of_pos (by rw [hparts]; rfl)]
          rfl
        | some parts =>
          have hterm : wordTerm? w = none := if_pos (.inr (by simp [hparts]))
          rw [List.filterMap_cons_none hterm,
            List.filter_cons_of_neg (by rw [hparts]; exact Bool.false_ne_true)]
          rfl
      · rw [List.filterMap_cons, List.filterMap_cons]
        unfold wordQualifier?
        cases tokenQualifier? (readWord w) <;> rfl

/-- What a search is of the words of the filter bar. -/
theorem parse_eq_ok_iff {search : ReportSearch} : ReportSearch.parse query = .ok search ↔
    byteLen query ≤ maximumSearchBytes ∧ queryReader.final .plain query = .plain ∧
      ((tokens query).flatMap readToken).length ≤ maximumSearchTerms ∧
      (∀ w ∈ tokens query, IsAcceptedWord w) ∧
      search = ⟨(tokens query).filterMap wordTerm?, (tokens query).filterMap wordQualifier?⟩ := by
  obtain ⟨hterms, hqualifiers, haccepted⟩ := readTokens_eq (tokens query)
  unfold ReportSearch.parse
  simp only [bind_eq_ok, ensure_eq_ok, decide_eq_true_eq, tokenize_eq]
  constructor
  · rintro ⟨_, hbytes, read, hread, _, hcount, h⟩
    split_ifs at hread with hclosed
    cases hread
    obtain ⟨hvalid, hsearch⟩ := collectTokens_eq_ok_iff.mp h
    rw [hterms, hqualifiers] at hsearch
    exact ⟨hbytes, hclosed, hcount, haccepted.mp hvalid, hsearch⟩
  · rintro ⟨hbytes, hclosed, hcount, hvalid, hsearch⟩
    refine ⟨(), hbytes, _, if_pos hclosed, (), hcount, collectTokens_eq_ok_iff.mpr
      ⟨haccepted.mpr hvalid, ?_⟩⟩
    rw [hterms, hqualifiers]
    exact hsearch

/-! ## A word and the way it is written -/

theorem readFrom_sublist (q : QueryState) (s : Str) : List.Sublist (readFrom q s) s := by
  induction s generalizing q with
  | nil => exact .slnil
  | cons c s ih =>
    rw [readFrom]
    split
    · exact (ih _).cons _
    · exact (ih _).cons_cons _

/-- A text is cut at its first colon. -/
theorem colon_cases (s : Str) : ':' ∉ s ∧ splitOnce? [':'] s = none ∨
    ∃ a b, ':' ∉ a ∧ s = a ++ ':' :: b ∧ splitOnce? [':'] s = some (a, b) := by
  by_cases hmem : ':' ∈ s
  · obtain ⟨a, b, rfl, ha⟩ := List.eq_append_cons_of_mem hmem
    refine .inr ⟨a, b, ha, rfl, ?_⟩
    have hcut : splitOnce? [':'] (a ++ [':'] ++ b) = some (a, b) := splitOnce?_append ha
    rwa [List.append_assoc] at hcut
  · exact .inl ⟨hmem, splitOnce?_eq_none_of_not_mem hmem⟩

/-- A colon is read as text in any state, so that the first colon of a word is that of its text. -/
theorem splitOnce?_readWord (w : Str) : splitOnce? [':'] (readWord w) =
    (splitOnce? [':'] w).map fun parts => (readWord parts.1,
      readFrom (queryReader.next (queryReader.final .plain parts.1) ':') parts.2) := by
  rcases colon_cases w with ⟨hnone, hcut⟩ | ⟨a, b, ha, rfl, hcut⟩
  · have hread : ':' ∉ readWord w := fun h => hnone ((readFrom_sublist .plain w).mem h)
    rw [hcut, splitOnce?_eq_none_of_not_mem hread]
    rfl
  · rw [hcut, Option.map_some]
    have hcolon : ∀ q, isMark q ':' = false := by
      intro q
      cases q <;> decide
    unfold readWord
    rw [readFrom_append, readFrom, hcolon, if_neg Bool.false_ne_true, ← List.append_assoc]
    exact splitOnce?_append fun h => ha ((readFrom_sublist .plain a).mem h)

theorem toLower_eq_iff {d : Char} (hd : d.toNat < 65 ∨ 90 < d.toNat ∧ d.toNat < 97) :
    c.toLower = d ↔ c = d := by
  rcases toLower_cases c with h | ⟨hfirst, hlast, h⟩
  · rw [h]
  · constructor
    · rintro rfl
      omega
    · rintro rfl
      omega

theorem isMark_toLower (q : QueryState) (c : Char) : isMark q c.toLower = isMark q c := by
  have hquote : c.toLower = '\x22' ↔ c = '\x22' := toLower_eq_iff (by decide)
  have hslash : c.toLower = '\\' ↔ c = '\\' := toLower_eq_iff (by decide)
  cases q with
  | plain => simp only [isMark, hquote]
  | quoted => simp only [isMark, hquote, hslash]
  | escaped => rfl

theorem next_toLower (q : QueryState) (c : Char) :
    queryReader.next q c.toLower = queryReader.next q c := by
  have hquote : c.toLower = '\x22' ↔ c = '\x22' := toLower_eq_iff (by decide)
  have hslash : c.toLower = '\\' ↔ c = '\\' := toLower_eq_iff (by decide)
  cases q with
  | plain => simp only [queryReader, hquote]
  | quoted => simp only [queryReader, hquote, hslash]
  | escaped => rfl

/-- Upper and lower case letters are read alike. -/
theorem toAsciiLowercase_readFrom (q : QueryState) (s : Str) :
    toAsciiLowercase (readFrom q s) = readFrom q (toAsciiLowercase s) := by
  induction s generalizing q with
  | nil => rfl
  | cons c s ih =>
    change toAsciiLowercase _ = readFrom q (c.toLower :: toAsciiLowercase s)
    rw [readFrom, readFrom, isMark_toLower, next_toLower, ← ih]
    split <;> rfl

theorem next_ne_escaped (hq : q ≠ .escaped) (hc : c ≠ '\\') : queryReader.next q c ≠ .escaped := by
  cases q with
  | plain =>
    change (if c = '\x22' then QueryState.quoted else .plain) ≠ .escaped
    split <;> decide
  | quoted =>
    change (if c = '\\' then QueryState.escaped else if c = '\x22' then .plain else .quoted) ≠
      .escaped
    rw [if_neg hc]
    split <;> decide
  | escaped => exact absurd rfl hq

theorem final_ne_escaped (hq : q ≠ .escaped) (hslash : '\\' ∉ s) :
    queryReader.final q s ≠ .escaped := by
  induction s generalizing q with
  | nil => exact hq
  | cons c s ih =>
    rw [List.mem_cons, not_or] at hslash
    exact ih (next_ne_escaped hq fun h => hslash.1 h.symm) hslash.2

/-- What is written without a backslash is read without its quotes. -/
theorem readFrom_eq_filter (hq : q ≠ .escaped) (hslash : '\\' ∉ s) :
    readFrom q s = s.filter (· ≠ '\x22') := by
  induction s generalizing q with
  | nil => rfl
  | cons c s ih =>
    rw [List.mem_cons, not_or] at hslash
    have hc : c ≠ '\\' := fun h => hslash.1 h.symm
    have hmark : isMark q c = decide (c = '\x22') := by
      cases q with
      | plain => rfl
      | quoted => simp [isMark, hc]
      | escaped => exact absurd rfl hq
    rw [readFrom, ih (next_ne_escaped hq hc) hslash.2, hmark]
    by_cases hquote : c = '\x22'
    · simp [hquote]
    · simp [hquote]

/-- The quotes around a value are dropped if there are two. -/
theorem unquoted_cases (value : Str) :
    unquoted value = value ∨ value = '\x22' :: unquoted value ++ ['\x22'] := by
  unfold unquoted
  cases hprefix : stripPrefix? value ['\x22'] with
  | none => exact .inl rfl
  | some inner =>
    cases hsuffix : stripSuffix? inner ['\x22'] with
    | none =>
      rw [Option.bind_some, hsuffix]
      exact .inl rfl
    | some value' =>
      refine .inr ?_
      rw [Option.bind_some, hsuffix, Option.getD_some]
      unfold stripPrefix? at hprefix
      split_ifs at hprefix with hstart
      obtain ⟨rest, rfl⟩ := startsWith_iff.mp hstart
      cases hprefix
      unfold stripSuffix? at hsuffix
      split_ifs at hsuffix with hend
      obtain ⟨front, hfront⟩ := List.isSuffixOf_iff_suffix.mp hend
      cases hsuffix
      change front ++ ['\x22'] = rest at hfront
      subst hfront
      simp

theorem filter_unquoted (value : Str) :
    (unquoted value).filter (· ≠ '\x22') = value.filter (· ≠ '\x22') := by
  rcases unquoted_cases value with h | h
  · rw [h]
  · conv_rhs => rw [h]
    simp

theorem slash_mem_unquoted (h : '\\' ∈ s) : '\\' ∈ unquoted s := by
  rcases unquoted_cases s with hsame | hquoted
  · rwa [hsame]
  · rw [hquoted] at h
    simpa using h

theorem mem_lower {d : Char} (hd : d.toNat < 65 ∨ 90 < d.toNat ∧ d.toNat < 97) :
    d ∈ toAsciiLowercase s ↔ d ∈ s := by
  unfold toAsciiLowercase
  rw [List.mem_map]
  constructor
  · rintro ⟨c, hc, hlower⟩
    rwa [(toLower_eq_iff hd).mp hlower] at hc
  · exact fun h => ⟨d, h, (toLower_eq_iff hd).mpr rfl⟩

theorem slash_mem_lower : '\\' ∈ toAsciiLowercase s ↔ '\\' ∈ s := mem_lower (by decide)

theorem lower_filter_quote (s : Str) : toAsciiLowercase (s.filter (· ≠ '\x22')) =
    (toAsciiLowercase s).filter (· ≠ '\x22') := by
  unfold toAsciiLowercase
  rw [List.filter_map]
  congr 1
  refine List.filter_congr fun c _ => ?_
  have hquote : c.toLower = '\x22' ↔ c = '\x22' := toLower_eq_iff (by decide)
  simp only [Function.comp_apply, ne_eq, hquote]

/-! ## Pills -/

/-- The word is read as this qualifier, up to case. -/
def IsRead (qualifier : ReportQualifier) (word : Str) : Prop :=
  ∃ found ∈ wordQualifier? word, found.key = qualifier.key ∧
    eqIgnoreAsciiCase found.value qualifier.value = true

/-- The word is written as the expression is, up to case and to the quotes around its value. -/
def IsWritten (expression word : Str) : Prop :=
  ∃ parts ∈ writtenQualifier word, ∃ wanted ∈ writtenQualifier expression,
    eqIgnoreAsciiCase parts.1 wanted.1 = true ∧ eqIgnoreAsciiCase parts.2 wanted.2 = true

/-- An expression is one word, which the search reads as this qualifier. -/
structure IsPill (expression : Str) (qualifier : ReportQualifier) : Prop where
  parse : ReportSearch.parse expression = .ok ⟨[], [qualifier]⟩
  word : tokens expression = [expression]

/-- The search has the qualifier, up to case. -/
def ReportSearch.Has (search : ReportSearch) (qualifier : ReportQualifier) : Prop :=
  ∃ found ∈ search.qualifiers, found.key = qualifier.key ∧
    eqIgnoreAsciiCase found.value qualifier.value = true

def ReportSearch.otherQualifiers (search : ReportSearch) (key : Str) : List ReportQualifier :=
  search.qualifiers.filter (·.key ≠ key)

/-- The limits of a search. -/
structure IsWithinLimits (query : Str) : Prop where
  bytes : byteLen query ≤ maximumSearchBytes
  terms : ∀ found, tokenize query = .ok found → found.length ≤ maximumSearchTerms

/-- A query that is a search with the same free terms, and the same qualifiers of other keys. -/
def KeepsRest (search : ReportSearch) (key query : Str) : Prop :=
  ∃ after, ReportSearch.parse query = .ok after ∧ after.terms = search.terms ∧
    after.otherQualifiers key = search.otherQualifiers key

/-- If a word is read as the qualifier, some word is written as the pill. If the pill has a
backslash, it holds also the other way round: a backslash is one in quotes only. -/
structure WrittenAsRead (query expression : Str) (qualifier : ReportQualifier) : Prop where
  found : ∀ word ∈ tokens query, IsRead qualifier word → ∃ other ∈ tokens query,
    IsWritten expression other
  meant : '\\' ∈ expression → ∀ word ∈ tokens query, IsWritten expression word →
    ∃ other ∈ tokens query, IsRead qualifier other

section

variable {defaultQuery expression : Str} {search defaultSearch : ReportSearch}
  {found : ReportQualifier}

/-- A pill as it is written and as it is read. -/
theorem IsPill.parts (h : IsPill expression found) : ∃ key value, ':' ∉ key ∧
    splitOnce? [':'] expression = some (key, value) ∧ IsClosedWord expression ∧
    IsAcceptedWord expression ∧ found = ⟨toAsciiLowercase (readWord key),
      readFrom (queryReader.next (queryReader.final .plain key) ':') value⟩ := by
  obtain ⟨-, hclosed, -, haccepted, hsearch⟩ := parse_eq_ok_iff.mp h.parse
  have hmem : expression ∈ tokens expression := by
    rw [h.word]
    exact List.mem_cons_self
  rw [h.word] at haccepted hsearch
  have hqualifier : wordQualifier? expression = some found := by
    have hlist := congrArg ReportSearch.qualifiers hsearch
    change [found] = [expression].filterMap wordQualifier? at hlist
    cases hword : wordQualifier? expression with
    | none =>
      rw [List.filterMap_cons_none hword] at hlist
      cases hlist
    | some qualifier =>
      rw [List.filterMap_cons_some hword] at hlist
      rw [(List.cons.inj hlist).1]
  unfold wordQualifier? tokenQualifier? at hqualifier
  rw [splitOnce?_readWord] at hqualifier
  rcases colon_cases expression with ⟨-, hnone⟩ | ⟨key, value, hkey, -, hcut⟩
  · rw [hnone] at hqualifier
    cases hqualifier
  · rw [hcut] at hqualifier
    exact ⟨key, value, hkey, hcut, isClosedWord_of_mem_tokens hclosed hmem,
      haccepted expression List.mem_cons_self, (Option.some.inj hqualifier).symm⟩

theorem qualifier_of_parts {key value : Str} (h : splitOnce? [':'] w = some (key, value)) :
    qualifier w = some (toAsciiLowercase key, toAsciiLowercase (unquoted value)) := by
  rw [qualifier_eq]
  unfold writtenQualifier
  rw [h]
  rfl

/-- A word of the kind of a pill is a qualifier of the same key. -/
theorem wordQualifier?_of_kind (hpill : IsPill expression found)
    (hkind : (qualifier w).map Prod.fst = (qualifier expression).map Prod.fst) :
    ∃ value, wordQualifier? w = some ⟨found.key, value⟩ := by
  obtain ⟨key, value, -, hcut, -, -, rfl⟩ := hpill.parts
  rw [qualifier_of_parts hcut] at hkind
  rcases colon_cases w with ⟨-, hnone⟩ | ⟨key', value', -, -, hcut'⟩
  · rw [qualifier_eq] at hkind
    unfold writtenQualifier at hkind
    rw [hnone] at hkind
    cases hkind
  · rw [qualifier_of_parts hcut'] at hkind
    have hkey : toAsciiLowercase key' = toAsciiLowercase key := Option.some.inj hkind
    refine ⟨readFrom (queryReader.next (queryReader.final .plain key') ':') value', ?_⟩
    unfold wordQualifier? tokenQualifier?
    rw [splitOnce?_readWord, hcut', Option.map_some, Option.map_some]
    dsimp only
    unfold readWord
    rw [toAsciiLowercase_readFrom, toAsciiLowercase_readFrom, hkey]

/-- It is no free term. -/
theorem wordTerm?_of_kind (hpill : IsPill expression found)
    (hkind : (qualifier w).map Prod.fst = (qualifier expression).map Prod.fst) :
    wordTerm? w = none := by
  obtain ⟨value, hvalue⟩ := wordQualifier?_of_kind hpill hkind
  unfold wordQualifier? tokenQualifier? at hvalue
  obtain ⟨parts, hparts, -⟩ := Option.map_eq_some_iff.mp hvalue
  exact if_pos (.inr (by rw [hparts]; rfl))

/-- The query after a click on an active pill: the words of other kinds, and then words of the kind
of the pill that are searched for. -/
theorem plainClickQuery_of_active (hpill : IsPill expression found)
    (hdefault : ReportSearch.parse defaultQuery = .ok defaultSearch)
    (hactive : containsQualifier query expression = true) : ∃ added,
      plainClickQuery query defaultQuery expression = join [' '] ((tokens query).filter
        (fun w => decide ((qualifier w).map Prod.fst ≠ (qualifier expression).map Prod.fst)) ++
          added) ∧
      ∀ w ∈ added, IsClosedWord w ∧ IsAcceptedWord w ∧
        (qualifier w).map Prod.fst = (qualifier expression).map Prod.fst := by
  obtain ⟨key, value, -, hcut, hclosed, haccepted, -⟩ := hpill.parts
  obtain ⟨-, hdefaultClosed, -, hdefaultAccepted, -⟩ := parse_eq_ok_iff.mp hdefault
  have hexpression := qualifier_of_parts hcut
  have hkind (w : Str) : (qualifier w).any (·.1 = toAsciiLowercase key) =
      decide ((qualifier w).map Prod.fst = some (toAsciiLowercase key)) := by
    cases qualifier w with
    | none => rfl
    | some parts => simp
  unfold plainClickQuery
  rw [hexpression, hactive]
  dsimp only
  rw [Bool.not_true, if_neg Bool.false_ne_true]
  simp only [hkind, Option.map_some, ne_eq, decide_not]
  split_ifs
  · refine ⟨[expression], rfl, fun w hw => ?_⟩
    rw [List.mem_singleton.mp hw, hexpression]
    exact ⟨hclosed, haccepted, rfl⟩
  · refine ⟨_, rfl, fun w hw => ?_⟩
    obtain ⟨hw, hof⟩ := List.mem_filter.mp hw
    exact ⟨isClosedWord_of_mem_tokens hdefaultClosed hw, hdefaultAccepted w hw,
      of_decide_eq_true hof⟩

/-- A click on an active pill keeps the rest of the search. -/
theorem keepsRest_of_active (hquery : ReportSearch.parse query = .ok search)
    (hdefault : ReportSearch.parse defaultQuery = .ok defaultSearch)
    (hpill : IsPill expression found) (hactive : containsQualifier query expression = true)
    (hlimits : IsWithinLimits (plainClickQuery query defaultQuery expression)) :
    KeepsRest search found.key (plainClickQuery query defaultQuery expression) := by
  obtain ⟨added, hclick, hadded⟩ := plainClickQuery_of_active hpill hdefault hactive
  obtain ⟨-, hclosed, -, haccepted, rfl⟩ := parse_eq_ok_iff.mp hquery
  rw [hclick] at hlimits ⊢
  generalize hkept : (tokens query).filter (fun w =>
    decide ((qualifier w).map Prod.fst ≠ (qualifier expression).map Prod.fst)) = kept at *
  have hwords : ∀ w ∈ kept ++ added, IsClosedWord w ∧ IsAcceptedWord w := by
    intro w hw
    rcases List.mem_append.mp hw with hw | hw
    · rw [← hkept] at hw
      have hmem := List.mem_of_mem_filter hw
      exact ⟨isClosedWord_of_mem_tokens hclosed hmem, haccepted w hmem⟩
    · exact ⟨(hadded w hw).1, (hadded w hw).2.1⟩
  obtain ⟨htokens, hfinal⟩ := tokens_join fun w hw => (hwords w hw).1
  -- What reads nothing from the words of the kind reads the same from all words.
  have hsame {β : Type} (f : Str → Option β) (hf : ∀ w, (qualifier w).map Prod.fst =
      (qualifier expression).map Prod.fst → f w = none) :
      (kept ++ added).filterMap f = (tokens query).filterMap f := by
    have hnone : added.filterMap f = [] :=
      List.filterMap_eq_nil_iff.mpr fun w hw => hf w (hadded w hw).2.2
    rw [List.filterMap_append, hnone, List.append_nil, ← hkept, List.filterMap_filter]
    refine List.filterMap_congr fun w _ => ?_
    split_ifs with hother
    · rfl
    · rw [hf w (not_not.mp fun h => hother (decide_eq_true h))]
  refine ⟨_, parse_eq_ok_iff.mpr ⟨hlimits.bytes, hfinal, ?_, ?_, rfl⟩, ?_, ?_⟩
  · exact hlimits.terms _ ((tokenize_eq _).trans (if_pos hfinal))
  · rw [htokens]
    exact fun w hw => (hwords w hw).2
  · rw [htokens]
    exact hsame wordTerm? fun w hkind => wordTerm?_of_kind hpill hkind
  · unfold ReportSearch.otherQualifiers
    dsimp only
    rw [htokens, List.filter_filterMap, List.filter_filterMap]
    refine hsame _ fun w hkind => ?_
    obtain ⟨value, hvalue⟩ := wordQualifier?_of_kind hpill hkind
    rw [hvalue]
    simp

/-! ## Active pills -/

theorem containsQualifier_iff (hpill : IsPill expression found) :
    containsQualifier query expression = true ↔ ∃ w ∈ tokens query, IsWritten expression w := by
  obtain ⟨key, value, -, hcut, -, -, -⟩ := hpill.parts
  unfold containsQualifier IsWritten
  rw [qualifier_of_parts hcut]
  dsimp only
  rw [List.any_eq_true]
  refine exists_congr fun w => and_congr_right fun _ => ?_
  have hwanted : writtenQualifier expression = some (key, unquoted value) := by
    unfold writtenQualifier
    rw [hcut]
    rfl
  rw [qualifier_eq, hwanted]
  cases writtenQualifier w with
  | none => simp
  | some parts => simp [eqIgnoreAsciiCase]

theorem has_iff (hquery : ReportSearch.parse query = .ok search) :
    search.Has found ↔ ∃ w ∈ tokens query, IsRead found w := by
  obtain ⟨-, -, -, -, rfl⟩ := parse_eq_ok_iff.mp hquery
  unfold ReportSearch.Has IsRead
  simp only [List.mem_filterMap, Option.mem_def]
  constructor
  · rintro ⟨other, ⟨w, hw, hother⟩, hsame⟩
    exact ⟨w, hw, other, hother, hsame⟩
  · rintro ⟨w, hw, other, hother, hsame⟩
    exact ⟨other, ⟨w, hw, hother⟩, hsame⟩

/-- A word that is written as a pill without a backslash is read as it. -/
theorem IsWritten.isRead (hpill : IsPill expression found) (hslash : '\\' ∉ expression)
    (h : IsWritten expression w) : IsRead found w := by
  obtain ⟨key, value, hkey, hcut, -, -, rfl⟩ := hpill.parts
  obtain ⟨_, hparts, _, hwanted, hkeys, hvalues⟩ := h
  unfold writtenQualifier at hparts hwanted
  rw [hcut] at hwanted
  cases hwanted
  obtain ⟨⟨key', value'⟩, hcut', rfl⟩ := Option.map_eq_some_iff.mp hparts
  have hkeys : toAsciiLowercase key' = toAsciiLowercase key := eq_of_beq hkeys
  have hvalues : toAsciiLowercase (unquoted value') = toAsciiLowercase (unquoted value) :=
    eq_of_beq hvalues
  rw [splitOnce?_eq_some hcut] at hslash
  simp only [List.mem_append, not_or] at hslash
  have hkeySlash : '\\' ∉ key' := fun hmem =>
    hslash.1.1 (slash_mem_lower.mp (hkeys ▸ slash_mem_lower.mpr hmem))
  have hvalueSlash : '\\' ∉ value' := by
    intro hmem
    have hlower := slash_mem_lower.mpr (slash_mem_unquoted hmem)
    rw [hvalues, slash_mem_lower] at hlower
    refine hslash.2 ?_
    rcases unquoted_cases value with hsame | hquoted
    · rwa [hsame] at hlower
    · rw [hquoted]
      exact List.mem_append_left _ (List.mem_cons_of_mem _ hlower)
  have hstate : ∀ s, '\\' ∉ s →
      queryReader.next (queryReader.final .plain s) ':' ≠ .escaped :=
    fun s hs => next_ne_escaped (final_ne_escaped nofun hs) (by decide)
  refine ⟨⟨toAsciiLowercase (readWord key'),
    readFrom (queryReader.next (queryReader.final .plain key') ':') value'⟩, ?_, ?_, ?_⟩
  · unfold wordQualifier? tokenQualifier?
    rw [splitOnce?_readWord, hcut']
    rfl
  · dsimp only
    unfold readWord
    rw [toAsciiLowercase_readFrom, toAsciiLowercase_readFrom, hkeys]
  · rw [eqIgnoreAsciiCase, beq_iff_eq, readFrom_eq_filter (hstate _ hkeySlash) hvalueSlash,
      readFrom_eq_filter (hstate _ hslash.1.1) hslash.2, ← filter_unquoted value',
      ← filter_unquoted value, lower_filter_quote, lower_filter_quote, hvalues]

/-- The characters that are not read as they are written. -/
def marks : Str := ['\x22', '\\']

theorem forall_marks {P : Char → Prop} (hquote : P '\x22') (hslash : P '\\') : ∀ c ∈ marks, P c :=
  List.forall_mem_cons.mpr ⟨hquote, List.forall_mem_singleton.mpr hslash⟩

/-- The word is read as it is written, but for a pair of quotes around its value. -/
def IsPlain (word : Str) : Prop :=
  ∃ parts ∈ writtenQualifier word, ∀ c ∈ marks, c ∉ parts.1 ∧ c ∉ parts.2

theorem mem_iff_of_lower_eq {c : Char} (hc : c ∈ marks)
    (h : toAsciiLowercase s = toAsciiLowercase t) : c ∈ s ↔ c ∈ t := by
  have hrange : c.toNat < 65 ∨ 90 < c.toNat ∧ c.toNat < 97 :=
    forall_marks (P := fun c => c.toNat < 65 ∨ 90 < c.toNat ∧ c.toNat < 97) (by decide) (by decide)
      c hc
  rw [← mem_lower hrange, h, mem_lower hrange]

theorem filter_quote_of_plain (hs : ∀ c ∈ marks, c ∉ s) : s.filter (· ≠ '\x22') = s :=
  List.filter_eq_self.mpr fun _ hc =>
    decide_eq_true fun h => hs '\x22' List.mem_cons_self (h ▸ hc)

/-- A word that is read as a pill without marks is written as it where it is plain. -/
theorem isWritten_iff_isPlain (hpill : IsPill expression found)
    (hplain : ∀ c ∈ marks, c ∉ expression) (hread : IsRead found w) :
    IsWritten expression w ↔ IsPlain w := by
  obtain ⟨key, value, -, hcut, -, -, rfl⟩ := hpill.parts
  obtain ⟨other, hother, hkeys, hvalues⟩ := hread
  rcases colon_cases w with ⟨-, hnone⟩ | ⟨key', value', -, -, hcut'⟩
  · unfold wordQualifier? tokenQualifier? at hother
    rw [splitOnce?_readWord, hnone] at hother
    cases hother
  have hparts : writtenQualifier w = some (key', unquoted value') := by
    unfold writtenQualifier
    rw [hcut']
    rfl
  have hwanted : writtenQualifier expression = some (key, unquoted value) := by
    unfold writtenQualifier
    rw [hcut]
    rfl
  rw [splitOnce?_eq_some hcut] at hplain
  have hkey : ∀ c ∈ marks, c ∉ key := fun c hc hmem => hplain c hc (by simp [hmem])
  have hvalue : ∀ c ∈ marks, c ∉ value := fun c hc hmem => hplain c hc (by simp [hmem])
  have hunquoted : unquoted value = value := by
    refine (unquoted_cases value).resolve_right fun hquoted => ?_
    exact hvalue '\x22' List.mem_cons_self (by rw [hquoted]; exact List.mem_cons_self)
  unfold IsWritten IsPlain
  rw [hparts, hwanted, hunquoted]
  simp only [Option.mem_def, Option.some.injEq, exists_eq_left']
  constructor
  · rintro ⟨hsameKey, hsameValue⟩ c hc
    exact ⟨fun hmem => hkey c hc ((mem_iff_of_lower_eq hc (eq_of_beq hsameKey)).mp hmem),
      fun hmem => hvalue c hc ((mem_iff_of_lower_eq hc (eq_of_beq hsameValue)).mp hmem)⟩
  · intro hw
    have hslash : '\\' ∈ marks := List.mem_cons_of_mem _ List.mem_cons_self
    have hkey' : ∀ c ∈ marks, c ∉ key' := fun c hc => (hw c hc).1
    -- A text without marks is read as it is written, from outside quotes or in them.
    have hread {q : QueryState} {t : Str} (hq : q ≠ .escaped) (ht : ∀ c ∈ marks, c ∉ t) :
        readFrom q t = t := by
      rw [readFrom_eq_filter hq (ht _ hslash), filter_quote_of_plain ht]
    have hstate {t : Str} (ht : ∀ c ∈ marks, c ∉ t) :
        queryReader.next (queryReader.final .plain t) ':' ≠ .escaped :=
      next_ne_escaped (final_ne_escaped nofun (ht _ hslash)) (by decide)
    have hvalue' : readFrom (queryReader.next (queryReader.final .plain key') ':') value' =
        unquoted value' := by
      have hslashValue : '\\' ∉ value' := fun hmem => (hw _ hslash).2 (slash_mem_unquoted hmem)
      rw [readFrom_eq_filter (hstate hkey') hslashValue, ← filter_unquoted,
        filter_quote_of_plain fun c hc => (hw c hc).2]
    unfold wordQualifier? tokenQualifier? at hother
    rw [splitOnce?_readWord, hcut'] at hother
    obtain rfl := Option.some.inj hother
    dsimp only at hkeys hvalues
    unfold readWord at hkeys
    rw [hread (by decide) hkey', hread (by decide) hkey] at hkeys
    rw [hvalue', hread (hstate hkey) hvalue] at hvalues
    exact ⟨beq_iff_eq.mpr hkeys, hvalues⟩

/-- For a pill without quotes and backslashes, the query is to have some word that is read as it and
is plain, if it has one that is read as it. -/
theorem writtenAsRead_iff (hpill : IsPill expression found)
    (hplain : ∀ c ∈ marks, c ∉ expression) :
    WrittenAsRead query expression found ↔ ((∃ w ∈ tokens query, IsRead found w) →
      ∃ w ∈ tokens query, IsRead found w ∧ IsPlain w) := by
  have hslash : '\\' ∉ expression := hplain _ (by decide)
  constructor
  · rintro h ⟨w, hw, hread⟩
    obtain ⟨other, hother, hwritten⟩ := h.found w hw hread
    have hreadOther := hwritten.isRead hpill hslash
    exact ⟨other, hother, hreadOther, (isWritten_iff_isPlain hpill hplain hreadOther).mp hwritten⟩
  · intro h
    refine ⟨fun w hw hread => ?_, fun hmem => absurd hmem hslash⟩
    obtain ⟨other, hother, hreadOther, hplainOther⟩ := h ⟨w, hw, hread⟩
    exact ⟨other, hother, (isWritten_iff_isPlain hpill hplain hreadOther).mpr hplainOther⟩

/-- A pill is active exactly if the search has its qualifier, and a click on it keeps the rest of
the search, if and only if the query is written so that it is read as the filter bar takes it. -/
theorem pill_follows_search_iff (hquery : ReportSearch.parse query = .ok search)
    (hdefault : ReportSearch.parse defaultQuery = .ok defaultSearch)
    (hpill : IsPill expression found) :
    ((containsQualifier query expression = true ↔ search.Has found) ∧
      (containsQualifier query expression = true →
        IsWithinLimits (plainClickQuery query defaultQuery expression) →
        KeepsRest search found.key (plainClickQuery query defaultQuery expression))) ↔
      WrittenAsRead query expression found := by
  rw [and_iff_left fun hactive hlimits => keepsRest_of_active hquery hdefault hpill hactive hlimits,
    containsQualifier_iff hpill, has_iff hquery]
  constructor
  · intro h
    exact ⟨fun w hw hread => h.mpr ⟨w, hw, hread⟩, fun _ w hw hwritten => h.mp ⟨w, hw, hwritten⟩⟩
  · intro h
    refine ⟨fun ⟨w, hw, hwritten⟩ => ?_, fun ⟨w, hw, hread⟩ => h.found w hw hread⟩
    by_cases hslash : '\\' ∈ expression
    · exact h.meant hslash w hw hwritten
    · exact ⟨w, hw, hwritten.isRead hpill hslash⟩

end

end

/-- A qualifier in quotes as a whole. -/
def quotedQuery : Str := "\"state:triage\" crash".toList

def triagePill : Str := "state:triage".toList

theorem triagePill_isPill : IsPill triagePill ⟨"state".toList, "triage".toList⟩ :=
  ⟨by decide +kernel, by decide +kernel⟩

theorem quoted_qualifier_is_not_shown :
    ¬ ∀ query search defaultQuery defaultSearch expression found,
    ReportSearch.parse query = .ok search → ReportSearch.parse defaultQuery = .ok defaultSearch →
    IsPill expression found →
    ((containsQualifier query expression = true ↔ search.Has found) ∧
      (containsQualifier query expression = true →
        IsWithinLimits (plainClickQuery query defaultQuery expression) →
        KeepsRest search found.key (plainClickQuery query defaultQuery expression))) := by
  intro h
  have hquery : ReportSearch.parse quotedQuery =
      .ok ⟨["crash".toList], [⟨"state".toList, "triage".toList⟩]⟩ := by decide +kernel
  have hdefault : ReportSearch.parse sampleDefault = .ok ⟨[], [⟨"state".toList, "triage".toList⟩,
      ⟨"state".toList, "confirmed".toList⟩]⟩ := by decide +kernel
  have hactive := (h _ _ _ _ _ _ hquery hdefault triagePill_isPill).1.mpr
    ⟨_, List.mem_cons_self, rfl, by decide⟩
  exact absurd hactive (by decide +kernel)

/-- The only active pill, in a query whose value has quotes, and a click on it. -/
theorem pill_of_quoted_value_follows_search :
    (containsQualifier "crash state:\"TRIAGE\"".toList triagePill = true ↔
      ReportSearch.Has ⟨["crash".toList], [⟨"state".toList, "TRIAGE".toList⟩]⟩
        ⟨"state".toList, "triage".toList⟩) ∧
    KeepsRest ⟨["crash".toList], [⟨"state".toList, "TRIAGE".toList⟩]⟩ "state".toList
      (plainClickQuery "crash state:\"TRIAGE\"".toList sampleDefault triagePill) := by
  have hwritten : WrittenAsRead "crash state:\"TRIAGE\"".toList triagePill
      ⟨"state".toList, "triage".toList⟩ :=
    (writtenAsRead_iff triagePill_isPill (forall_marks (by decide) (by decide))).mpr fun _ =>
      ⟨"state:\"TRIAGE\"".toList, by decide +kernel,
        ⟨_, (by decide +kernel : _ = some (⟨"state".toList, "TRIAGE".toList⟩ : ReportQualifier)),
          rfl, by decide⟩, ("state".toList, "TRIAGE".toList), rfl,
        forall_marks (by decide) (by decide)⟩
  have hquery : ReportSearch.parse "crash state:\"TRIAGE\"".toList =
      .ok ⟨["crash".toList], [⟨"state".toList, "TRIAGE".toList⟩]⟩ := by decide +kernel
  have hdefault : ReportSearch.parse sampleDefault = .ok ⟨[], [⟨"state".toList, "triage".toList⟩,
      ⟨"state".toList, "confirmed".toList⟩]⟩ := by decide +kernel
  obtain ⟨hactive, hclick⟩ :=
    (pill_follows_search_iff hquery hdefault triagePill_isPill).mpr hwritten
  have hafter : plainClickQuery "crash state:\"TRIAGE\"".toList sampleDefault triagePill =
      "crash state:triage state:confirmed".toList := by decide +kernel
  have htokens : tokenize "crash state:triage state:confirmed".toList =
      .ok ["crash".toList, "state:triage".toList, "state:confirmed".toList] := by decide +kernel
  refine ⟨hactive, hclick (by decide +kernel) ⟨by rw [hafter]; decide +kernel, fun found h => ?_⟩⟩
  rw [hafter, htokens] at h
  cases h
  decide

end LadybirdReports
