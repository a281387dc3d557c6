import LadybirdReports.Admin.Schema
import LadybirdReports.Lib.Run
import Mathlib.Logic.Function.Basic
import Mathlib.Tactic.Linarith

/-!
# The rotation of GitHub tokens

A refresh token of GitHub can be used once: with the answer it is void, and the next one is in the
answer. `refresh_session_token` therefore holds the row of its session from the time it reads the
token until the answer is stored, so that of several processes that find a token expiring one asks
and the others find the new token. What the lock cannot help is an answer that gets lost.

1. A row is held by one process at a time, tokens are stored with one session each, and an answer
   that is yet to be stored is with one process (`Ordered`).
2. While no answer for a session is lost, the tokens stored with it are the ones that GitHub gave
   last, or the answer is with the process that holds the row (`Kept`).

So the background task asks only with tokens that GitHub has not voided, and ends a session only
when its refresh token has expired (`rotation_keeps_tokens`). A lost answer ends the session at the
next attempt (`lost_answer_ends_session`).
-/

namespace LadybirdReports.Admin.TokenRotation

open Transition

/-! ## Sessions, processes and GitHub -/

/-- Of `GithubAccessToken`, what is optional. Access and refresh token are told by the number of the
answer that they were in. -/
structure Answer where
  expiresIn : Option ℤ
  hasRefreshToken : Bool
  refreshTokenExpiresIn : Option ℤ

/-- The lifetimes of an answer that has everything, neither of them over. -/
def Answer.lifetimes? (answer : Answer) : Option (ℤ × ℤ) :=
  match answer.hasRefreshToken, answer.expiresIn, answer.refreshTokenExpiresIn with
  | true, some accessLifetime, some refreshLifetime =>
    if accessLifetime ≤ 0 ∨ refreshLifetime ≤ 0 then none
    else some (accessLifetime, refreshLifetime)
  | _, _, _ => none

/-- `Duration::seconds`. -/
def duration (seconds : ℤ) : ℤ := seconds * 1000000

/-- The columns of `sessions` that are about tokens. The cipher gives back what was stored. -/
structure Session where
  accessToken : ℕ
  refreshToken : Option ℕ
  accessTokenExpiresAt : Option Timestamp
  refreshTokenExpiresAt : Option Timestamp
  expiresAt : Timestamp

/-- What is to be done about a session that was found. -/
inductive Decision
  | unchanged
  | authenticationRequired
  | ask (refreshToken : ℕ)

def Session.decide (s : Session) (refreshBefore : ℤ) (now : Timestamp) : Decision :=
  match s.accessTokenExpiresAt with
  | none => .unchanged
  | some accessExpiresAt =>
    if now + refreshBefore < accessExpiresAt then .unchanged
    else
      match s.refreshToken, s.refreshTokenExpiresAt with
      | some refreshToken, some refreshExpiresAt =>
        if refreshExpiresAt ≤ now then .authenticationRequired else .ask refreshToken
      | _, _ => .unchanged

/-- Where a process is in `sweep` with a session. -/
inductive Phase
  | idle
  /-- `refresh_session_token` holds the row, and has sent the refresh token to GitHub. -/
  | asking (tokenHash : String) (refreshToken : ℕ)
  /-- GitHub has answered. -/
  | answered (tokenHash : String) (token : ℕ) (answer : Answer)
  /-- It has failed for want of authentication, and `revoke_session` is next. -/
  | revoking (tokenHash : String)

structure World where
  clock : Timestamp
  sessions : String → Option Session
  /-- The hashes that sessions were ever created with. -/
  hashes : List String
  /-- The process whose transaction holds a row. -/
  lock : String → Option ℕ
  phase : ℕ → Phase
  /-- The answers whose refresh tokens GitHub accepts, and until when. -/
  grants : ℕ → Option Timestamp
  /-- The number of the next answer. -/
  issued : ℕ
  /-- The refresh tokens that were sent to GitHub by processes that wait no more. -/
  abandoned : List ℕ

inductive Label
  | wait (elapsed : ℕ)
  /-- `create_session`, with tokens that GitHub accepts until some time. -/
  | signIn (tokenHash : String) (acceptedUntil : Timestamp)
    (accessTokenExpiresAt refreshTokenExpiresAt expiresAt : Timestamp)
  /-- `extend_session`. -/
  | extend (tokenHash : String) (expiresAt : Timestamp)
  /-- `delete_session`, or the deletion of sessions that are over or of a former team. -/
  | remove (tokenHash : String)
  /-- `refresh_session_token` reads the row; its transaction has begun at some time before. -/
  | select (p : ℕ) (tokenHash : String) (refreshBefore : ℤ) (begun : Timestamp)
  | answer (p : ℕ) (answer : Answer)
  /-- GitHub refuses the refresh token, or does not serve the request. -/
  | refuse (p : ℕ) (badRefreshToken : Bool)
  /-- The process stops, or fails after GitHub may have answered. -/
  | lose (p : ℕ)
  /-- GitHub serves a request that nobody waits for. -/
  | answerLate (refreshToken : ℕ) (answer : Answer)
  /-- The answer is stored, if it has everything, and the transaction is committed. -/
  | store (p : ℕ)
  | revoke (p : ℕ)

namespace World

variable (w : World)

/-- GitHub accepts the refresh token. -/
def accepts (refreshToken : ℕ) : Bool := (w.grants refreshToken).any (w.clock < ·)

/-- GitHub's part: the refresh token is void, and there is a new one. -/
def exchange (refreshToken : ℕ) (answer : Answer) : World :=
  let expiry := w.clock + duration (answer.refreshTokenExpiresIn.getD 0)
  { w with
    grants := Function.update (Function.update w.grants refreshToken none) w.issued (some expiry)
    issued := w.issued + 1 }

def enter (p : ℕ) (phase : Phase) : World :=
  { w with phase := Function.update w.phase p phase }

def setLock (tokenHash : String) (holder : Option ℕ) : World :=
  { w with lock := Function.update w.lock tokenHash holder }

def setSession (tokenHash : String) (s : Option Session) : World :=
  { w with sessions := Function.update w.sessions tokenHash s }

/-- The transaction of a process ends. -/
def release (p : ℕ) (tokenHash : String) (phase : Phase) : World :=
  (w.setLock tokenHash none).enter p phase

def step (w : World) : Label → Option World
  | .wait elapsed => some { w with clock := w.clock + elapsed }
  | .signIn tokenHash acceptedUntil accessTokenExpiresAt refreshTokenExpiresAt expiresAt =>
    if tokenHash ∉ w.hashes ∧ acceptedUntil ≤ refreshTokenExpiresAt then
      let s := ⟨w.issued, some w.issued, some accessTokenExpiresAt, some refreshTokenExpiresAt,
        expiresAt⟩
      some { w.setSession tokenHash (some s) with
        hashes := tokenHash :: w.hashes
        grants := Function.update w.grants w.issued (some acceptedUntil)
        issued := w.issued + 1 }
    else none
  | .extend tokenHash expiresAt =>
    match w.lock tokenHash, w.sessions tokenHash with
    | none, some s => some (w.setSession tokenHash (some { s with expiresAt }))
    | _, _ => none
  | .remove tokenHash =>
    if w.lock tokenHash = none then some (w.setSession tokenHash none) else none
  | .select p tokenHash refreshBefore begun =>
    match w.phase p, w.lock tokenHash with
    | .idle, none =>
      match w.sessions tokenHash with
      | some s =>
        if s.expiresAt ≤ begun then some w
        else
          match s.decide refreshBefore w.clock with
          | .unchanged => some w
          | .authenticationRequired => some (w.enter p (.revoking tokenHash))
          | .ask refreshToken =>
            some ((w.setLock tokenHash (some p)).enter p (.asking tokenHash refreshToken))
      | none => some w
    | _, _ => none
  | .answer p answer =>
    match w.phase p with
    | .asking tokenHash refreshToken =>
      if w.accepts refreshToken then
        some ((w.exchange refreshToken answer).enter p (.answered tokenHash w.issued answer))
      else none
    | _ => none
  | .refuse p badRefreshToken =>
    match w.phase p with
    | .asking tokenHash refreshToken =>
      if badRefreshToken then
        if w.accepts refreshToken then none
        else some (w.release p tokenHash (.revoking tokenHash))
      else some (w.release p tokenHash .idle)
    | _ => none
  | .lose p =>
    match w.phase p with
    | .asking tokenHash refreshToken =>
      some { w.release p tokenHash .idle with abandoned := refreshToken :: w.abandoned }
    | .answered tokenHash _ _ => some (w.release p tokenHash .idle)
    | .revoking _ => some (w.enter p .idle)
    | .idle => none
  | .answerLate refreshToken answer =>
    if refreshToken ∈ w.abandoned ∧ w.accepts refreshToken then
      some (w.exchange refreshToken answer)
    else none
  | .store p =>
    match w.phase p with
    | .answered tokenHash token answer =>
      match w.sessions tokenHash, answer.lifetimes? with
      | some s, some (accessLifetime, refreshLifetime) =>
        some ((w.release p tokenHash .idle).setSession tokenHash (some { s with
          accessToken := token
          refreshToken := some token
          accessTokenExpiresAt := some (w.clock + duration accessLifetime)
          refreshTokenExpiresAt := some (w.clock + duration refreshLifetime) }))
      | _, _ => some (w.release p tokenHash .idle)
    | _ => none
  | .revoke p =>
    match w.phase p with
    | .revoking tokenHash =>
      if w.lock tokenHash = none then
        some ((w.setSession tokenHash none).enter p .idle)
      else none
    | _ => none

end World

/-! ## What is kept -/

/-- The process holds the row of the session. -/
def Phase.Holds (tokenHash : String) : Phase → Prop
  | .asking held _ | .answered held _ _ => held = tokenHash
  | .idle | .revoking _ => False

/-- Where a refresh token is, if not void: with a session, or in an answer that is yet to be
stored. -/
inductive Owner
  | session (tokenHash : String)
  | process (p : ℕ)

def World.Owns (w : World) (n : ℕ) : Owner → Prop
  | .session tokenHash => ∃ s, w.sessions tokenHash = some s ∧ s.refreshToken = some n
  | .process p => ∃ tokenHash answer, w.phase p = .answered tokenHash n answer

/-- Whatever is lost: a row is held by one process, and a token has one owner. -/
structure Ordered (w : World) : Prop where
  created : ∀ tokenHash s, w.sessions tokenHash = some s → tokenHash ∈ w.hashes
  revoking : ∀ p tokenHash, w.phase p = .revoking tokenHash → tokenHash ∈ w.hashes
  locked : ∀ p tokenHash, (w.phase p).Holds tokenHash →
    w.lock tokenHash = some p ∧ ∃ s, w.sessions tokenHash = some s
  asked : ∀ p tokenHash n, w.phase p = .asking tokenHash n → w.Owns n (.session tokenHash)
  owned : ∀ n owner, w.Owns n owner → n < w.issued
  apart : ∀ n owner owner', w.Owns n owner → w.Owns n owner' → owner = owner'
  abandoned : ∀ n ∈ w.abandoned, n < w.issued ∧ ∀ p, ¬ w.Owns n (.process p)

/-- The tokens of a session are those of one answer, and GitHub accepts them for no longer than the
session says. -/
def World.Current (w : World) (s : Session) (n : ℕ) : Prop :=
  s.accessToken = n ∧ ∃ expiry, w.grants n = some expiry ∧
    ∀ stored, s.refreshTokenExpiresAt = some stored → expiry ≤ stored

/-- No answer for the session was lost. -/
structure Kept (tokenHash : String) (w : World) : Prop where
  current : ∀ s n, w.sessions tokenHash = some s → s.refreshToken = some n → n ∉ w.abandoned ∧
    ((∃ p n' answer, w.phase p = .answered tokenHash n' answer) ∨ w.Current s n)
  answered : ∀ p n answer, w.phase p = .answered tokenHash n answer →
    ∃ accessLifetime refreshLifetime expiry,
      answer.lifetimes? = some (accessLifetime, refreshLifetime) ∧
      w.grants n = some expiry ∧ expiry ≤ w.clock + duration refreshLifetime
  revoking : ∀ p, w.phase p = .revoking tokenHash →
    (∀ q n answer, w.phase q ≠ .answered tokenHash n answer) ∧
    ∀ s, w.sessions tokenHash = some s →
      ∃ n expiry, s.refreshToken = some n ∧ w.grants n = some expiry ∧ expiry ≤ w.clock

/-- No answer for the session is lost, and GitHub's answers have everything. -/
def Delivered (tokenHash : String) (w : World) : Label → Prop
  | .lose p => ¬ (w.phase p).Holds tokenHash
  | .answer p answer => (w.phase p).Holds tokenHash → answer.lifetimes?.isSome
  | _ => True

section

variable {w w' : World} {p q n : ℕ} {tokenHash other : String} {s : Session} {label : Label}
  {labels : List Label} {phase : Phase} {answer : Answer}

theorem Ordered.not_holds (h : Ordered w) (hlock : w.lock tokenHash = none) :
    ¬ (w.phase p).Holds tokenHash := by
  intro hholds
  rw [(h.locked p tokenHash hholds).1] at hlock
  cases hlock

/-- Two processes do not hold the same row. -/
theorem Ordered.holder_unique (h : Ordered w) (hp : (w.phase p).Holds tokenHash)
    (hq : (w.phase q).Holds tokenHash) : q = p := by
  have hlock := (h.locked p tokenHash hp).1
  rw [(h.locked q tokenHash hq).1] at hlock
  exact Option.some.inj hlock

theorem holds_answered {held : String} (h : w.phase p = .answered held n answer) :
    (w.phase p).Holds held := by
  rw [h]
  rfl

theorem holds_asking {held : String} (h : w.phase p = .asking held n) :
    (w.phase p).Holds held := by
  rw [h]
  rfl

/-- GitHub is asked with the refresh token of the session. -/
theorem refreshToken_of_ask {refreshBefore : ℤ} {now : Timestamp}
    (h : s.decide refreshBefore now = .ask n) : s.refreshToken = some n := by
  unfold Session.decide at h
  split at h
  · cases h
  · split at h
    · cases h
    · split at h
      · next hs _ =>
        split at h
        · cases h
        · cases h
          exact hs
      · cases h

theorem expired_of_authenticationRequired {refreshBefore : ℤ} {now : Timestamp}
    (h : s.decide refreshBefore now = .authenticationRequired) :
    ∃ n expiry, s.refreshToken = some n ∧ s.refreshTokenExpiresAt = some expiry ∧
      expiry ≤ now := by
  unfold Session.decide at h
  split at h
  · cases h
  · split at h
    · cases h
    · split at h
      · next n expiry hn hexpiry =>
        split at h
        · next hexpired => exact ⟨n, expiry, hn, hexpiry, hexpired⟩
        · cases h
      · cases h

theorem expiresIn_of_lifetimes? {accessLifetime refreshLifetime : ℤ}
    (h : answer.lifetimes? = some (accessLifetime, refreshLifetime)) :
    answer.refreshTokenExpiresIn.getD 0 = refreshLifetime := by
  unfold Answer.lifetimes? at h
  split at h
  · next hexpiresIn =>
    split at h
    · cases h
    · cases h
      rw [hexpiresIn]
      rfl
  · cases h

/-! ## A process goes on -/

/-- Phases in which a process holds no row. -/
def Phase.IsFree : Phase → Prop
  | .idle | .revoking _ => True
  | .asking .. | .answered .. => False

theorem Phase.IsFree.not_holds (h : phase.IsFree) : ¬ phase.Holds tokenHash := by
  cases phase with
  | idle => exact id
  | revoking => exact id
  | asking => exact h.elim
  | answered => exact h.elim

theorem phase_enter_self : (w.enter p phase).phase p = phase := Function.update_self ..

theorem phase_enter_of_ne (h : q ≠ p) : (w.enter p phase).phase q = w.phase q :=
  Function.update_of_ne h ..

/-- An owner after a process has entered a phase that owns nothing. -/
theorem owns_of_enter {owner : Owner} (hfree : phase.IsFree)
    (h : (w.enter p phase).Owns n owner) : w.Owns n owner := by
  cases owner with
  | session => exact h
  | process q =>
    obtain ⟨held, answer, hphase⟩ := h
    by_cases hq : q = p
    · subst hq
      rw [phase_enter_self] at hphase
      subst hphase
      exact hfree.elim
    · rw [phase_enter_of_ne hq] at hphase
      exact ⟨held, answer, hphase⟩

theorem owns_of_release {owner : Owner} (h : (w.release p tokenHash .idle).Owns n owner) :
    w.Owns n owner ∧ owner ≠ .process p := by
  have hfree : Phase.IsFree .idle := trivial
  have hentered : (w.enter p .idle).Owns n owner := h
  refine ⟨owns_of_enter hfree hentered, ?_⟩
  rintro rfl
  obtain ⟨held, answer, hphase⟩ := hentered
  rw [phase_enter_self] at hphase
  cases hphase

/-- A process ends its transaction, or goes on without one. -/
theorem Ordered.enter (h : Ordered w) (hfree : phase.IsFree)
    (hrevoking : ∀ tokenHash, phase = .revoking tokenHash → tokenHash ∈ w.hashes) :
    Ordered (w.enter p phase) := by
  refine ⟨h.created, ?_, ?_, ?_, ?_, ?_, ?_⟩
  · intro q held hphase
    by_cases hq : q = p
    · subst hq
      rw [phase_enter_self] at hphase
      exact hrevoking held hphase
    · rw [phase_enter_of_ne hq] at hphase
      exact h.revoking q held hphase
  · intro q held hholds
    by_cases hq : q = p
    · subst hq
      rw [phase_enter_self] at hholds
      exact absurd hholds hfree.not_holds
    · rw [phase_enter_of_ne hq] at hholds
      exact h.locked q held hholds
  · intro q held n hphase
    by_cases hq : q = p
    · subst hq
      rw [phase_enter_self] at hphase
      subst hphase
      exact hfree.elim
    · rw [phase_enter_of_ne hq] at hphase
      exact h.asked q held n hphase
  · intro n owner howns
    exact h.owned n owner (owns_of_enter hfree howns)
  · intro n owner owner' howns howns'
    exact h.apart n owner owner' (owns_of_enter hfree howns) (owns_of_enter hfree howns')
  · intro n hn
    refine ⟨(h.abandoned n hn).1, fun q howns => ?_⟩
    exact (h.abandoned n hn).2 q (owns_of_enter hfree howns)

/-- The row is free when no process holds it. -/
theorem Ordered.unlock (h : Ordered w) (hfree : ∀ q, ¬ (w.phase q).Holds tokenHash) :
    Ordered (w.setLock tokenHash none) := by
  refine ⟨h.created, h.revoking, ?_, h.asked, h.owned, h.apart, h.abandoned⟩
  intro q held hholds
  have hne : held ≠ tokenHash := by
    rintro rfl
    exact hfree q hholds
  obtain ⟨hlock, hrow⟩ := h.locked q held hholds
  exact ⟨(Function.update_of_ne hne ..).trans hlock, hrow⟩

theorem Ordered.release (h : Ordered w) (hholds : (w.phase p).Holds tokenHash)
    (hfree : phase.IsFree)
    (hrevoking : ∀ tokenHash, phase = .revoking tokenHash → tokenHash ∈ w.hashes) :
    Ordered (w.release p tokenHash phase) := by
  refine (h.enter (p := p) hfree hrevoking).unlock ?_
  intro q hq
  by_cases hqp : q = p
  · subst hqp
    rw [phase_enter_self] at hq
    exact hfree.not_holds hq
  · rw [phase_enter_of_ne hqp] at hq
    exact hqp (h.holder_unique hholds hq)

theorem Ordered.acquire (h : Ordered w) (hlock : w.lock tokenHash = none)
    (hidle : w.phase p = .idle) (hasked : w.Owns n (.session tokenHash)) :
    Ordered ((w.setLock tokenHash (some p)).enter p (.asking tokenHash n)) := by
  have howns {m : ℕ} {owner : Owner}
      (howns : ((w.setLock tokenHash (some p)).enter p (.asking tokenHash n)).Owns m owner) :
      w.Owns m owner := by
    cases owner with
    | session => exact howns
    | process q =>
      obtain ⟨held, answer, hphase⟩ := howns
      by_cases hq : q = p
      · subst hq
        rw [phase_enter_self] at hphase
        cases hphase
      · rw [phase_enter_of_ne hq] at hphase
        exact ⟨held, answer, hphase⟩
  refine ⟨h.created, ?_, ?_, ?_, fun m owner hm => h.owned m owner (howns hm),
    fun m owner owner' hm hm' => h.apart m owner owner' (howns hm) (howns hm'),
    fun m hm => ⟨(h.abandoned m hm).1, fun q hq => (h.abandoned m hm).2 q (howns hq)⟩⟩
  · intro q held hphase
    by_cases hq : q = p
    · subst hq
      rw [phase_enter_self] at hphase
      cases hphase
    · rw [phase_enter_of_ne hq] at hphase
      exact h.revoking q held hphase
  · intro q held hholds
    by_cases hq : q = p
    · subst hq
      rw [phase_enter_self] at hholds
      obtain rfl : tokenHash = held := hholds
      obtain ⟨s, hs, -⟩ := hasked
      exact ⟨Function.update_self .., s, hs⟩
    · rw [phase_enter_of_ne hq] at hholds
      have hne : held ≠ tokenHash := by
        rintro rfl
        exact h.not_holds hlock hholds
      obtain ⟨hheld, hrow⟩ := h.locked q held hholds
      exact ⟨(Function.update_of_ne hne ..).trans hheld, hrow⟩
  · intro q held m hphase
    by_cases hq : q = p
    · subst hq
      rw [phase_enter_self] at hphase
      cases hphase
      exact hasked
    · rw [phase_enter_of_ne hq] at hphase
      exact h.asked q held m hphase

/-! ## GitHub answers -/

theorem Ordered.exchange (h : Ordered w) : Ordered (w.exchange n answer) := by
  refine ⟨h.created, h.revoking, h.locked, h.asked, ?_, h.apart, ?_⟩
  · intro m owner howns
    exact (h.owned m owner howns).trans (Nat.lt_succ_self _)
  · intro m hm
    exact ⟨(h.abandoned m hm).1.trans (Nat.lt_succ_self _), (h.abandoned m hm).2⟩

/-- The new token is with the process that has asked. -/
theorem Ordered.answers (h : Ordered w) (hasking : w.phase p = .asking tokenHash n) :
    Ordered ((w.exchange n answer).enter p (.answered tokenHash w.issued answer)) := by
  have howns {m : ℕ} {owner : Owner}
      (howns : ((w.exchange n answer).enter p (.answered tokenHash w.issued answer)).Owns m owner) :
      w.Owns m owner ∨ m = w.issued ∧ owner = .process p := by
    cases owner with
    | session => exact .inl howns
    | process q =>
      obtain ⟨held, a, hphase⟩ := howns
      by_cases hq : q = p
      · subst hq
        rw [phase_enter_self] at hphase
        cases hphase
        exact .inr ⟨rfl, rfl⟩
      · rw [phase_enter_of_ne hq] at hphase
        exact .inl ⟨held, a, hphase⟩
  refine ⟨h.created, ?_, ?_, ?_, ?_, ?_, ?_⟩
  · intro q held hphase
    by_cases hq : q = p
    · subst hq
      rw [phase_enter_self] at hphase
      cases hphase
    · rw [phase_enter_of_ne hq] at hphase
      exact h.revoking q held hphase
  · intro q held hholds
    by_cases hq : q = p
    · subst hq
      rw [phase_enter_self] at hholds
      obtain rfl : tokenHash = held := hholds
      exact h.locked q tokenHash (holds_asking hasking)
    · rw [phase_enter_of_ne hq] at hholds
      exact h.locked q held hholds
  · intro q held m hphase
    by_cases hq : q = p
    · subst hq
      rw [phase_enter_self] at hphase
      cases hphase
    · rw [phase_enter_of_ne hq] at hphase
      exact h.asked q held m hphase
  · intro m owner hm
    rcases howns hm with hm | ⟨rfl, -⟩
    · exact (h.owned m owner hm).trans (Nat.lt_succ_self _)
    · exact Nat.lt_succ_self _
  · intro m owner owner' hm hm'
    rcases howns hm with hm | ⟨rfl, rfl⟩ <;> rcases howns hm' with hm' | ⟨hissued, rfl⟩
    · exact h.apart m owner owner' hm hm'
    · exact absurd (h.owned m owner hm) (hissued ▸ lt_irrefl _)
    · exact absurd (h.owned _ owner' hm') (lt_irrefl _)
    · rfl
  · intro m hm
    obtain ⟨hissued, hfree⟩ := h.abandoned m hm
    refine ⟨hissued.trans (Nat.lt_succ_self _), fun q hq => ?_⟩
    rcases howns hq with hq | ⟨rfl, -⟩
    · exact hfree q hq
    · exact lt_irrefl _ hissued

/-! ## Rows change -/

theorem sessions_setSession_self {s : Option Session} :
    (w.setSession tokenHash s).sessions tokenHash = s := Function.update_self ..

theorem sessions_setSession_of_ne {s : Option Session} (h : other ≠ tokenHash) :
    (w.setSession tokenHash s).sessions other = w.sessions other := Function.update_of_ne h ..

theorem Ordered.remove (h : Ordered w) (hlock : w.lock tokenHash = none) :
    Ordered (w.setSession tokenHash none) := by
  have howns {m : ℕ} {owner : Owner} (howns : (w.setSession tokenHash none).Owns m owner) :
      w.Owns m owner := by
    cases owner with
    | process => exact howns
    | session other =>
      obtain ⟨s, hs, hm⟩ := howns
      by_cases hother : other = tokenHash
      · subst hother
        rw [sessions_setSession_self] at hs
        cases hs
      · rw [sessions_setSession_of_ne hother] at hs
        exact ⟨s, hs, hm⟩
  have hne {q : ℕ} {other : String} (hholds : (w.phase q).Holds other) : other ≠ tokenHash := by
    rintro rfl
    exact h.not_holds hlock hholds
  refine ⟨?_, h.revoking, ?_, ?_, fun m owner hm => h.owned m owner (howns hm),
    fun m owner owner' hm hm' => h.apart m owner owner' (howns hm) (howns hm'),
    fun m hm => ⟨(h.abandoned m hm).1, fun q hq => (h.abandoned m hm).2 q (howns hq)⟩⟩
  · intro other s hs
    by_cases hother : other = tokenHash
    · subst hother
      rw [sessions_setSession_self] at hs
      cases hs
    · rw [sessions_setSession_of_ne hother] at hs
      exact h.created other s hs
  · intro q other hholds
    obtain ⟨hheld, s, hs⟩ := h.locked q other hholds
    exact ⟨hheld, s, (sessions_setSession_of_ne (hne hholds)).trans hs⟩
  · intro q other m hphase
    obtain ⟨s, hs, hm⟩ := h.asked q other m hphase
    exact ⟨s, (sessions_setSession_of_ne (hne (holds_asking hphase))).trans hs, hm⟩

/-- A row that no process holds has a token of its own, or the one that it had. -/
theorem Ordered.put (h : Ordered w) (hcreated : tokenHash ∈ w.hashes)
    (hfree : ∀ q, ¬ (w.phase q).Holds tokenHash)
    (hown : ∀ n, s.refreshToken = some n → n < w.issued ∧
      ∀ owner, w.Owns n owner → owner = .session tokenHash) :
    Ordered (w.setSession tokenHash (some s)) := by
  have howns {m : ℕ} {owner : Owner} (howns : (w.setSession tokenHash (some s)).Owns m owner) :
      w.Owns m owner ∨ s.refreshToken = some m ∧ owner = .session tokenHash := by
    cases owner with
    | process => exact .inl howns
    | session other =>
      obtain ⟨t, ht, hm⟩ := howns
      by_cases hother : other = tokenHash
      · subst hother
        rw [sessions_setSession_self] at ht
        obtain rfl := Option.some.inj ht
        exact .inr ⟨hm, rfl⟩
      · rw [sessions_setSession_of_ne hother] at ht
        exact .inl ⟨t, ht, hm⟩
  have hne {q : ℕ} {other : String} (hholds : (w.phase q).Holds other) : other ≠ tokenHash := by
    rintro rfl
    exact hfree q hholds
  refine ⟨?_, h.revoking, ?_, ?_, ?_, ?_, ?_⟩
  · intro other t ht
    by_cases hother : other = tokenHash
    · subst hother
      exact hcreated
    · rw [sessions_setSession_of_ne hother] at ht
      exact h.created other t ht
  · intro q other hholds
    obtain ⟨hheld, t, ht⟩ := h.locked q other hholds
    exact ⟨hheld, t, (sessions_setSession_of_ne (hne hholds)).trans ht⟩
  · intro q other m hphase
    obtain ⟨t, ht, hm⟩ := h.asked q other m hphase
    exact ⟨t, (sessions_setSession_of_ne (hne (holds_asking hphase))).trans ht, hm⟩
  · intro m owner hm
    rcases howns hm with hm | ⟨hm, -⟩
    · exact h.owned m owner hm
    · exact (hown m hm).1
  · intro m owner owner' hm hm'
    rcases howns hm with hold | ⟨hnew, rfl⟩ <;> rcases howns hm' with hold' | ⟨hnew', rfl⟩
    · exact h.apart m owner owner' hold hold'
    · exact (hown m hnew').2 owner hold
    · exact ((hown m hnew).2 owner' hold').symm
    · rfl
  · intro m hm
    refine ⟨(h.abandoned m hm).1, fun q hq => ?_⟩
    rcases howns hq with hq | ⟨-, hq⟩
    · exact (h.abandoned m hm).2 q hq
    · cases hq

/-! ## Each step keeps the order -/

theorem Ordered.signIn (h : Ordered w) (hnew : tokenHash ∉ w.hashes) {grants : ℕ → Option Timestamp}
    (htoken : s.refreshToken = some w.issued) :
    Ordered { w.setSession tokenHash (some s) with
      hashes := tokenHash :: w.hashes, grants, issued := w.issued + 1 } := by
  have hgrown : Ordered { w with
      hashes := tokenHash :: w.hashes, grants, issued := w.issued + 1 } := by
    refine ⟨?_, ?_, h.locked, h.asked, ?_, h.apart, ?_⟩
    · intro other t ht
      exact List.mem_cons_of_mem _ (h.created other t ht)
    · intro q other hphase
      exact List.mem_cons_of_mem _ (h.revoking q other hphase)
    · intro m owner howns
      exact (h.owned m owner howns).trans (Nat.lt_succ_self _)
    · intro m hm
      exact ⟨(h.abandoned m hm).1.trans (Nat.lt_succ_self _), (h.abandoned m hm).2⟩
  refine hgrown.put List.mem_cons_self ?_ ?_
  · intro q hholds
    obtain ⟨-, t, ht⟩ := h.locked q tokenHash hholds
    exact hnew (h.created tokenHash t ht)
  · intro n hn
    rw [htoken] at hn
    obtain rfl := Option.some.inj hn
    refine ⟨Nat.lt_succ_self _, fun owner howns => ?_⟩
    exact absurd (h.owned _ owner howns) (lt_irrefl _)

theorem Ordered.store (h : Ordered w) (hanswered : w.phase p = .answered tokenHash n answer)
    (htoken : s.refreshToken = some n) :
    Ordered ((w.release p tokenHash .idle).setSession tokenHash (some s)) := by
  have hholds := holds_answered hanswered
  obtain ⟨-, t, ht⟩ := h.locked p tokenHash hholds
  have hreleased : Ordered (w.release p tokenHash .idle) :=
    h.release hholds trivial fun _ heq => nomatch heq
  refine hreleased.put (h.created tokenHash t ht) ?_ ?_
  · intro q
    exact hreleased.not_holds (Function.update_self ..)
  · intro m hm
    rw [htoken] at hm
    obtain rfl := Option.some.inj hm
    refine ⟨h.owned n (.process p) ⟨tokenHash, answer, hanswered⟩, fun owner howns => ?_⟩
    obtain ⟨hbefore, hother⟩ := owns_of_release howns
    exact absurd (h.apart n owner (.process p) hbefore ⟨tokenHash, answer, hanswered⟩) hother

theorem Ordered.step (h : Ordered w) (hstep : w.step label = some w') : Ordered w' := by
  unfold World.step at hstep
  cases label with
  | wait elapsed =>
    obtain rfl := Option.some.inj hstep
    exact ⟨h.created, h.revoking, h.locked, h.asked, h.owned, h.apart, h.abandoned⟩
  | signIn tokenHash acceptedUntil accessTokenExpiresAt refreshTokenExpiresAt expiresAt =>
    dsimp only at hstep
    split at hstep
    · next hnew =>
      obtain rfl := Option.some.inj hstep
      exact h.signIn hnew.1 rfl
    · cases hstep
  | extend tokenHash expiresAt =>
    dsimp only at hstep
    split at hstep
    · next s hlock hs =>
      obtain rfl := Option.some.inj hstep
      refine h.put (h.created _ s hs) (fun q => h.not_holds hlock) fun n hn => ?_
      have howns : w.Owns n (.session tokenHash) := ⟨s, hs, hn⟩
      exact ⟨h.owned n _ howns, fun owner howner => h.apart n owner _ howner howns⟩
    · cases hstep
  | remove tokenHash =>
    dsimp only at hstep
    split at hstep
    · next hlock =>
      obtain rfl := Option.some.inj hstep
      exact h.remove hlock
    · cases hstep
  | select p tokenHash refreshBefore begun =>
    dsimp only at hstep
    split at hstep
    · next hidle hlock =>
      split at hstep
      · next s hs =>
        split at hstep
        · obtain rfl := Option.some.inj hstep
          exact h
        · split at hstep
          · obtain rfl := Option.some.inj hstep
            exact h
          · obtain rfl := Option.some.inj hstep
            refine h.enter trivial fun other heq => ?_
            cases heq
            exact h.created _ s hs
          · next refreshToken hdecide =>
            obtain rfl := Option.some.inj hstep
            exact h.acquire hlock hidle ⟨s, hs, refreshToken_of_ask hdecide⟩
      · obtain rfl := Option.some.inj hstep
        exact h
    · cases hstep
  | answer p answer =>
    dsimp only at hstep
    split at hstep
    · next tokenHash n hasking =>
      split at hstep
      · obtain rfl := Option.some.inj hstep
        exact h.answers hasking
      · cases hstep
    · cases hstep
  | refuse p badRefreshToken =>
    dsimp only at hstep
    split at hstep
    · next tokenHash n hasking =>
      split at hstep
      · split at hstep
        · cases hstep
        · obtain rfl := Option.some.inj hstep
          refine h.release (holds_asking hasking) trivial fun other heq => ?_
          cases heq
          obtain ⟨s, hs, -⟩ := h.asked p tokenHash n hasking
          exact h.created _ s hs
      · obtain rfl := Option.some.inj hstep
        exact h.release (holds_asking hasking) trivial fun _ heq => nomatch heq
    · cases hstep
  | lose p =>
    dsimp only at hstep
    split at hstep
    · next tokenHash n hasking =>
      obtain rfl := Option.some.inj hstep
      have hreleased : Ordered (w.release p tokenHash .idle) :=
        h.release (holds_asking hasking) trivial fun _ heq => nomatch heq
      refine ⟨hreleased.created, hreleased.revoking, hreleased.locked, hreleased.asked,
        hreleased.owned, hreleased.apart, ?_⟩
      have hasked := h.asked p tokenHash n hasking
      refine List.forall_mem_cons.mpr ⟨⟨h.owned n _ hasked, fun q howns => ?_⟩,
        hreleased.abandoned⟩
      have howns : (w.release p tokenHash .idle).Owns n (.process q) := howns
      cases h.apart n _ _ (owns_of_release howns).1 hasked
    · next tokenHash n answer hanswered =>
      obtain rfl := Option.some.inj hstep
      exact h.release (holds_answered hanswered) trivial fun _ heq => nomatch heq
    · obtain rfl := Option.some.inj hstep
      exact h.enter trivial fun _ heq => nomatch heq
    · cases hstep
  | answerLate n answer =>
    dsimp only at hstep
    split at hstep
    · obtain rfl := Option.some.inj hstep
      exact h.exchange
    · cases hstep
  | store p =>
    dsimp only at hstep
    split at hstep
    · next tokenHash n answer hanswered =>
      split at hstep
      · obtain rfl := Option.some.inj hstep
        exact h.store hanswered rfl
      · obtain rfl := Option.some.inj hstep
        exact h.release (holds_answered hanswered) trivial fun _ heq => nomatch heq
    · cases hstep
  | revoke p =>
    dsimp only at hstep
    split at hstep
    · next tokenHash hrevoking =>
      split at hstep
      · next hlock =>
        obtain rfl := Option.some.inj hstep
        exact (h.remove hlock).enter trivial fun _ heq => nomatch heq
      · cases hstep
    · cases hstep

/-! ## What becomes of one session -/

/-- The token is with the session, or in an answer for it. -/
def World.IsOf (w : World) (tokenHash : String) (n : ℕ) : Prop :=
  w.Owns n (.session tokenHash) ∨ ∃ p answer, w.phase p = .answered tokenHash n answer

/-- A step that leaves the row, its answers and its tokens alone. -/
theorem Kept.frame (h : Kept tokenHash w)
    (hsession : w'.sessions tokenHash = w.sessions tokenHash) (hclock : w.clock ≤ w'.clock)
    (hanswered : ∀ q n answer, w'.phase q = .answered tokenHash n answer ↔
      w.phase q = .answered tokenHash n answer)
    (hrevoking : ∀ q, w'.phase q = .revoking tokenHash → w.phase q = .revoking tokenHash)
    (hgrants : ∀ n, w.IsOf tokenHash n → w'.grants n = w.grants n)
    (habandoned : ∀ n, w.Owns n (.session tokenHash) → n ∉ w.abandoned → n ∉ w'.abandoned) :
    Kept tokenHash w' := by
  refine ⟨?_, ?_, ?_⟩
  · intro s n hs hn
    rw [hsession] at hs
    obtain ⟨hkept, hcurrent⟩ := h.current s n hs hn
    refine ⟨habandoned n ⟨s, hs, hn⟩ hkept, hcurrent.imp ?_ ?_⟩
    · rintro ⟨p, n', answer, hphase⟩
      exact ⟨p, n', answer, (hanswered p n' answer).mpr hphase⟩
    · rintro ⟨haccess, expiry, hgrant, hexpiry⟩
      exact ⟨haccess, expiry, (hgrants n (.inl ⟨s, hs, hn⟩)).trans hgrant, hexpiry⟩
  · intro p n answer hphase
    have hphase := (hanswered p n answer).mp hphase
    obtain ⟨accessLifetime, refreshLifetime, expiry, hlifetimes, hgrant, hexpiry⟩ :=
      h.answered p n answer hphase
    exact ⟨accessLifetime, refreshLifetime, expiry, hlifetimes,
      (hgrants n (.inr ⟨p, answer, hphase⟩)).trans hgrant, by linarith⟩
  · intro p hphase
    obtain ⟨hnone, hexpired⟩ := h.revoking p (hrevoking p hphase)
    refine ⟨fun q n answer hq => hnone q n answer ((hanswered q n answer).mp hq), fun s hs => ?_⟩
    rw [hsession] at hs
    obtain ⟨n, expiry, hn, hgrant, hexpiry⟩ := hexpired s hs
    exact ⟨n, expiry, hn, (hgrants n (.inl ⟨s, hs, hn⟩)).trans hgrant, by linarith⟩

/-- A phase with an answer for the session, or before its revocation. -/
def Phase.Concerns (tokenHash : String) : Phase → Prop
  | .answered held _ _ | .revoking held => held = tokenHash
  | .idle | .asking .. => False

/-- Answers for a session are where they were, when a process goes from one phase without such an
answer to another. -/
theorem answered_enter (hbefore : ∀ n answer, w.phase p ≠ .answered tokenHash n answer)
    (hafter : ¬ phase.Concerns tokenHash) (q n : ℕ) (answer : Answer) :
    (w.enter p phase).phase q = .answered tokenHash n answer ↔
      w.phase q = .answered tokenHash n answer := by
  by_cases hq : q = p
  · subst hq
    rw [phase_enter_self]
    refine iff_of_false ?_ (hbefore n answer)
    rintro rfl
    exact hafter rfl
  · rw [phase_enter_of_ne hq]

theorem revoking_enter (hafter : ¬ phase.Concerns tokenHash)
    (hphase : (w.enter p phase).phase q = .revoking tokenHash) :
    w.phase q = .revoking tokenHash := by
  by_cases hq : q = p
  · subst hq
    rw [phase_enter_self] at hphase
    subst hphase
    exact absurd rfl hafter
  · rwa [phase_enter_of_ne hq] at hphase

/-- A process goes on with something else than an answer for the session, or its revocation. -/
theorem Kept.enter (h : Kept tokenHash w)
    (hbefore : ∀ n answer, w.phase p ≠ .answered tokenHash n answer)
    (hafter : ¬ phase.Concerns tokenHash) {lock : String → Option ℕ} :
    Kept tokenHash { w.enter p phase with lock } :=
  h.frame rfl le_rfl (answered_enter hbefore hafter) (fun _ => revoking_enter hafter)
    (fun _ _ => rfl) fun _ _ => id

/-- GitHub's exchange of a token that is not the session's. -/
theorem Kept.exchange (h : Kept tokenHash w) (hordered : Ordered w)
    (hn : ¬ w.IsOf tokenHash n) : Kept tokenHash (w.exchange n answer) := by
  refine h.frame rfl le_rfl (fun _ _ _ => Iff.rfl) (fun _ => id) (fun m hm => ?_) fun _ _ => id
  have hissued : m < w.issued := by
    rcases hm with hm | ⟨p, answer, hm⟩
    · exact hordered.owned m _ hm
    · exact hordered.owned m (.process p) ⟨tokenHash, answer, hm⟩
  have hne : m ≠ n := fun heq => hn (heq ▸ hm)
  change Function.update (Function.update w.grants n none) w.issued _ m = _
  rw [Function.update_of_ne hissued.ne, Function.update_of_ne hne]

/-- The token of another session is not of this one. -/
theorem not_isOf (h : Ordered w) (hother : other ≠ tokenHash)
    (howns : w.Owns n (.session other)) : ¬ w.IsOf tokenHash n := by
  rintro (hn | ⟨p, answer, hphase⟩)
  · have heq := h.apart n _ _ howns hn
    exact hother (Owner.session.inj heq)
  · cases h.apart n _ (.process p) howns ⟨tokenHash, answer, hphase⟩

theorem not_answered (h : Ordered w) (hp : (w.phase p).Holds tokenHash)
    (hnot : ∀ n answer, w.phase p ≠ .answered tokenHash n answer) :
    ∀ q n answer, w.phase q ≠ .answered tokenHash n answer := by
  intro q n answer hq
  obtain rfl := h.holder_unique hp (holds_answered hq)
  exact hnot n answer hq

/-- A row that is put in place of another session's leaves this one alone. -/
theorem Kept.setSession (h : Kept tokenHash w) (hother : other ≠ tokenHash) {s : Option Session} :
    Kept tokenHash (w.setSession other s) :=
  h.frame (sessions_setSession_of_ne hother.symm) le_rfl (fun _ _ _ => Iff.rfl) (fun _ => id)
    (fun _ _ => rfl) fun _ _ => id

theorem Kept.remove (h : Kept tokenHash w) : Kept tokenHash (w.setSession tokenHash none) := by
  refine ⟨?_, h.answered, ?_⟩
  · intro s n hs
    rw [sessions_setSession_self] at hs
    cases hs
  · intro p hphase
    refine ⟨(h.revoking p hphase).1, fun s hs => ?_⟩
    rw [sessions_setSession_self] at hs
    cases hs

theorem Kept.signIn (h : Kept tokenHash w) (hordered : Ordered w) {created : String}
    (hnew : created ∉ w.hashes) {acceptedUntil accepted stored expiresAt : Timestamp}
    (haccepted : acceptedUntil ≤ stored) :
    Kept tokenHash { w.setSession created
        (some ⟨w.issued, some w.issued, some accepted, some stored, expiresAt⟩) with
      hashes := created :: w.hashes
      grants := Function.update w.grants w.issued (some acceptedUntil)
      issued := w.issued + 1 } := by
  by_cases hcreated : created = tokenHash
  · subst hcreated
    have hanswered (p n : ℕ) (answer : Answer) : w.phase p ≠ .answered created n answer := by
      intro hphase
      obtain ⟨-, t, ht⟩ := hordered.locked p created (holds_answered hphase)
      exact hnew (hordered.created created t ht)
    refine ⟨?_, ?_, ?_⟩
    · intro s n hs hn
      change (w.setSession created _).sessions created = _ at hs
      rw [sessions_setSession_self] at hs
      obtain rfl := Option.some.inj hs
      obtain rfl := Option.some.inj hn
      have hkept : w.issued ∉ w.abandoned := fun hmem => lt_irrefl _ (hordered.abandoned _ hmem).1
      refine ⟨hkept, .inr ⟨rfl, acceptedUntil, ?_, ?_⟩⟩
      · exact Function.update_self ..
      · intro expiry hexpiry
        obtain rfl := Option.some.inj hexpiry
        exact haccepted
    · intro p n answer hphase
      exact absurd hphase (hanswered p n answer)
    · intro p hphase
      exact absurd (hordered.revoking p created hphase) hnew
  · refine h.frame (sessions_setSession_of_ne (Ne.symm hcreated)) le_rfl (fun _ _ _ => Iff.rfl)
      (fun _ => id) (fun n hn => ?_) fun _ _ => id
    have hissued : n < w.issued := by
      rcases hn with hn | ⟨p, answer, hn⟩
      · exact hordered.owned n _ hn
      · exact hordered.owned n (.process p) ⟨tokenHash, answer, hn⟩
    exact Function.update_of_ne hissued.ne ..

theorem Kept.extend (h : Kept tokenHash w) (hs : w.sessions tokenHash = some s)
    (expiresAt : Timestamp) :
    Kept tokenHash (w.setSession tokenHash (some { s with expiresAt })) := by
  refine ⟨?_, h.answered, ?_⟩
  · intro t n ht hn
    rw [sessions_setSession_self] at ht
    obtain rfl := Option.some.inj ht
    exact h.current s n hs hn
  · intro p hphase
    refine ⟨(h.revoking p hphase).1, fun t ht => ?_⟩
    rw [sessions_setSession_self] at ht
    obtain rfl := Option.some.inj ht
    exact (h.revoking p hphase).2 s hs

/-- The tokens of a session for which there is no answer. -/
theorem Kept.current_of_not_answered (h : Kept tokenHash w) (hs : w.sessions tokenHash = some s)
    (hn : s.refreshToken = some n)
    (hanswered : ∀ q n answer, w.phase q ≠ .answered tokenHash n answer) : w.Current s n :=
  (h.current s n hs hn).2.resolve_left fun ⟨q, n', answer, hq⟩ => hanswered q n' answer hq

/-- The session is to end, as its refresh token has expired. -/
theorem Kept.revoke (h : Kept tokenHash w)
    (hanswered : ∀ q n answer, w.phase q ≠ .answered tokenHash n answer)
    (hexpired : ∀ s, w.sessions tokenHash = some s →
      ∃ n expiry, s.refreshToken = some n ∧ w.grants n = some expiry ∧ expiry ≤ w.clock)
    {lock : String → Option ℕ} :
    Kept tokenHash { w.enter p (.revoking tokenHash) with lock } := by
  have hafter (q n : ℕ) (answer : Answer) :
      (w.enter p (.revoking tokenHash)).phase q ≠ .answered tokenHash n answer := by
    intro hphase
    by_cases hq : q = p
    · subst hq
      rw [phase_enter_self] at hphase
      cases hphase
    · rw [phase_enter_of_ne hq] at hphase
      exact hanswered q n answer hphase
  refine ⟨?_, ?_, ?_⟩
  · intro s n hs hn
    exact ⟨(h.current s n hs hn).1, .inr (h.current_of_not_answered hs hn hanswered)⟩
  · intro q n answer hphase
    exact absurd hphase (hafter q n answer)
  · intro q hphase
    exact ⟨hafter, hexpired⟩

/-- GitHub has answered a process that asked for the session. -/
theorem Kept.answers (h : Kept tokenHash w) (hordered : Ordered w)
    (hasking : w.phase p = .asking tokenHash n) (haccepts : w.accepts n = true)
    (hcomplete : answer.lifetimes?.isSome) :
    Kept tokenHash ((w.exchange n answer).enter p (.answered tokenHash w.issued answer)) := by
  have hanswered := not_answered hordered (holds_asking hasking) fun m a heq => by
    rw [hasking] at heq
    cases heq
  obtain ⟨t, ht, htoken⟩ := hordered.asked p tokenHash n hasking
  refine ⟨?_, ?_, ?_⟩
  · intro s m hs hm
    exact ⟨(h.current s m hs hm).1, .inl ⟨p, w.issued, answer, phase_enter_self⟩⟩
  · intro q m a hphase
    by_cases hq : q = p
    · subst hq
      rw [phase_enter_self] at hphase
      cases hphase
      obtain ⟨⟨accessLifetime, refreshLifetime⟩, hlifetimes⟩ :=
        Option.isSome_iff_exists.mp hcomplete
      refine ⟨accessLifetime, refreshLifetime, _, hlifetimes, Function.update_self .., ?_⟩
      rw [expiresIn_of_lifetimes? hlifetimes]
      exact le_rfl
    · rw [phase_enter_of_ne hq] at hphase
      exact absurd hphase (hanswered q m a)
  · intro q hphase
    have hq : q ≠ p := by
      rintro rfl
      rw [phase_enter_self] at hphase
      cases hphase
    rw [phase_enter_of_ne hq] at hphase
    -- GitHub has accepted the token of a session that is about to end for its expiry.
    obtain ⟨m, expiry, hm, hgrant, hexpiry⟩ := (h.revoking q hphase).2 t ht
    rw [htoken] at hm
    obtain rfl := Option.some.inj hm
    unfold World.accepts at haccepts
    rw [hgrant, Option.any_some, decide_eq_true_eq] at haccepts
    exact absurd hexpiry (not_le.mpr haccepts)

/-- The answer is stored with the session. -/
theorem Kept.store (h : Kept tokenHash w) (hordered : Ordered w)
    (hanswered : w.phase p = .answered tokenHash n answer) {accessLifetime refreshLifetime : ℤ}
    (hlifetimes : answer.lifetimes? = some (accessLifetime, refreshLifetime))
    (haccess : s.accessToken = n) (hrefresh : s.refreshToken = some n)
    (hexpiresAt : s.refreshTokenExpiresAt = some (w.clock + duration refreshLifetime)) :
    Kept tokenHash ((w.release p tokenHash .idle).setSession tokenHash (some s)) := by
  have hafter (q m : ℕ) (a : Answer) :
      (w.enter p .idle).phase q ≠ .answered tokenHash m a := by
    intro hphase
    by_cases hq : q = p
    · subst hq
      rw [phase_enter_self] at hphase
      cases hphase
    · rw [phase_enter_of_ne hq] at hphase
      exact hq (hordered.holder_unique (holds_answered hanswered) (holds_answered hphase))
  obtain ⟨accessLifetime', refreshLifetime', expiry, hlifetimes', hgrant, hexpiry⟩ :=
    h.answered p n answer hanswered
  rw [hlifetimes] at hlifetimes'
  obtain ⟨rfl, rfl⟩ := Prod.mk.inj (Option.some.inj hlifetimes')
  refine ⟨?_, ?_, ?_⟩
  · intro t m ht hm
    rw [sessions_setSession_self] at ht
    obtain rfl := Option.some.inj ht
    rw [hrefresh] at hm
    obtain rfl := Option.some.inj hm
    refine ⟨fun hmem => ?_, .inr ⟨haccess, expiry, hgrant, fun stored hstored => ?_⟩⟩
    · exact (hordered.abandoned n hmem).2 p ⟨tokenHash, answer, hanswered⟩
    · rw [hexpiresAt] at hstored
      obtain rfl := Option.some.inj hstored
      exact hexpiry
  · intro q m a hphase
    exact absurd hphase (hafter q m a)
  · intro q hphase
    have hidle : ¬ Phase.idle.Concerns tokenHash := id
    have hrevoking : w.phase q = .revoking tokenHash := revoking_enter hidle hphase
    exact absurd hanswered ((h.revoking q hrevoking).1 p n answer)

/-- GitHub has refused the token of the session, which it accepts no more. -/
theorem Kept.refused (h : Kept tokenHash w) (hordered : Ordered w)
    (hasking : w.phase p = .asking tokenHash n) (hrefused : ¬ w.accepts n = true) :
    Kept tokenHash (w.release p tokenHash (.revoking tokenHash)) := by
  have hanswered := not_answered hordered (holds_asking hasking) fun m a heq => by
    rw [hasking] at heq
    cases heq
  refine h.revoke hanswered fun s hs => ?_
  obtain ⟨t, ht, htoken⟩ := hordered.asked p tokenHash n hasking
  rw [hs] at ht
  obtain rfl := Option.some.inj ht
  obtain ⟨-, expiry, hgrant, -⟩ := h.current_of_not_answered hs htoken hanswered
  refine ⟨n, expiry, htoken, hgrant, ?_⟩
  unfold World.accepts at hrefused
  rw [hgrant, Option.any_some, decide_eq_true_eq, not_lt] at hrefused
  exact hrefused

theorem Kept.step (h : Kept tokenHash w) (hordered : Ordered w)
    (hdelivered : Delivered tokenHash w label) (hstep : w.step label = some w') :
    Kept tokenHash w' := by
  unfold World.step at hstep
  cases label with
  | wait elapsed =>
    obtain rfl := Option.some.inj hstep
    exact h.frame rfl (le_add_of_nonneg_right (Int.natCast_nonneg _)) (fun _ _ _ => Iff.rfl)
      (fun _ => id) (fun _ _ => rfl) fun _ _ => id
  | signIn created acceptedUntil accessTokenExpiresAt refreshTokenExpiresAt expiresAt =>
    dsimp only at hstep
    split at hstep
    · next hnew =>
      obtain rfl := Option.some.inj hstep
      exact h.signIn hordered hnew.1 hnew.2
    · cases hstep
  | extend other expiresAt =>
    dsimp only at hstep
    split at hstep
    · next s hlock hs =>
      obtain rfl := Option.some.inj hstep
      by_cases hother : other = tokenHash
      · subst hother
        exact h.extend hs expiresAt
      · exact h.setSession hother
    · cases hstep
  | remove other =>
    dsimp only at hstep
    split at hstep
    · obtain rfl := Option.some.inj hstep
      by_cases hother : other = tokenHash
      · subst hother
        exact h.remove
      · exact h.setSession hother
    · cases hstep
  | select p other refreshBefore begun =>
    dsimp only at hstep
    split at hstep
    · next hidle hlock =>
      have hbefore (n : ℕ) (answer : Answer) : w.phase p ≠ .answered tokenHash n answer := by
        rw [hidle]
        exact fun heq => nomatch heq
      split at hstep
      · next s hs =>
        split at hstep
        · obtain rfl := Option.some.inj hstep
          exact h
        · split at hstep
          · obtain rfl := Option.some.inj hstep
            exact h
          · next hdecide =>
            obtain rfl := Option.some.inj hstep
            by_cases hother : other = tokenHash
            · subst hother
              have hanswered (q n : ℕ) (answer : Answer) : w.phase q ≠ .answered other n answer :=
                fun hq => hordered.not_holds hlock (holds_answered hq)
              refine h.revoke hanswered fun t ht => ?_
              rw [hs] at ht
              obtain rfl := Option.some.inj ht
              obtain ⟨n, stored, hn, hstored, hexpired⟩ := expired_of_authenticationRequired hdecide
              obtain ⟨-, expiry, hgrant, hexpiry⟩ := h.current_of_not_answered hs hn hanswered
              exact ⟨n, expiry, hn, hgrant, (hexpiry stored hstored).trans hexpired⟩
            · exact h.enter hbefore (by exact hother)
          · obtain rfl := Option.some.inj hstep
            exact h.enter hbefore (by exact id)
      · obtain rfl := Option.some.inj hstep
        exact h
    · cases hstep
  | answer p answer =>
    dsimp only at hstep
    split at hstep
    · next other n hasking =>
      split at hstep
      · next haccepts =>
        obtain rfl := Option.some.inj hstep
        by_cases hother : other = tokenHash
        · subst hother
          exact h.answers hordered hasking haccepts (hdelivered (holds_asking hasking))
        · have hexchanged : Kept tokenHash (w.exchange n answer) :=
            h.exchange hordered (not_isOf hordered hother (hordered.asked p other n hasking))
          refine hexchanged.enter (fun m a heq => ?_) (by exact hother)
          change w.phase p = _ at heq
          rw [hasking] at heq
          cases heq
      · cases hstep
    · cases hstep
  | refuse p badRefreshToken =>
    dsimp only at hstep
    split at hstep
    · next other n hasking =>
      have hbefore (m : ℕ) (a : Answer) : w.phase p ≠ .answered tokenHash m a := by
        rw [hasking]
        exact fun heq => nomatch heq
      split at hstep
      · split at hstep
        · cases hstep
        · next hrefused =>
          obtain rfl := Option.some.inj hstep
          by_cases hother : other = tokenHash
          · subst hother
            exact h.refused hordered hasking hrefused
          · exact h.enter hbefore (by exact hother)
      · obtain rfl := Option.some.inj hstep
        exact h.enter hbefore (by exact id)
    · cases hstep
  | lose p =>
    have hbefore (m : ℕ) (a : Answer) : w.phase p ≠ .answered tokenHash m a :=
      fun hq => hdelivered (holds_answered hq)
    dsimp only at hstep
    split at hstep
    · next other n hasking =>
      obtain rfl := Option.some.inj hstep
      have hother : other ≠ tokenHash := by
        rintro rfl
        exact hdelivered (holds_asking hasking)
      have hn := not_isOf hordered hother (hordered.asked p other n hasking)
      have hidle : ¬ Phase.idle.Concerns tokenHash := id
      refine h.frame rfl le_rfl (answered_enter hbefore hidle) (fun _ => revoking_enter hidle)
        (fun _ _ => rfl) fun m hm hkept => ?_
      intro hmem
      rcases List.mem_cons.mp hmem with rfl | hmem
      · exact hn (.inl hm)
      · exact hkept hmem
    · obtain rfl := Option.some.inj hstep
      exact h.enter hbefore (by exact id)
    · obtain rfl := Option.some.inj hstep
      exact h.enter hbefore (by exact id)
    · cases hstep
  | answerLate n answer =>
    dsimp only at hstep
    split at hstep
    · next hlate =>
      obtain rfl := Option.some.inj hstep
      refine h.exchange hordered ?_
      rintro (⟨s, hs, hn⟩ | ⟨p, a, hphase⟩)
      · exact (h.current s n hs hn).1 hlate.1
      · exact (hordered.abandoned n hlate.1).2 p ⟨tokenHash, a, hphase⟩
    · cases hstep
  | store p =>
    dsimp only at hstep
    split at hstep
    · next other n answer hanswered =>
      by_cases hother : other = tokenHash
      · subst hother
        split at hstep
        · next s accessLifetime refreshLifetime hs hlifetimes =>
          obtain rfl := Option.some.inj hstep
          exact h.store hordered hanswered hlifetimes rfl rfl rfl
        · next hnone =>
          obtain ⟨-, s, hs⟩ := hordered.locked p other (holds_answered hanswered)
          obtain ⟨accessLifetime, refreshLifetime, -, hlifetimes, -⟩ :=
            h.answered p n answer hanswered
          exact (hnone s accessLifetime refreshLifetime hs hlifetimes).elim
      · have hbefore (m : ℕ) (a : Answer) : w.phase p ≠ .answered tokenHash m a := by
          rw [hanswered]
          rintro heq
          exact hother (Phase.answered.inj heq).1
        have hreleased : Kept tokenHash (w.release p other .idle) :=
          h.enter hbefore (by exact id)
        split at hstep
        · obtain rfl := Option.some.inj hstep
          exact hreleased.setSession hother
        · obtain rfl := Option.some.inj hstep
          exact hreleased
    · cases hstep
  | revoke p =>
    dsimp only at hstep
    split at hstep
    · next other hrevoking =>
      split at hstep
      · obtain rfl := Option.some.inj hstep
        have hremoved : Kept tokenHash (w.setSession other none) := by
          by_cases hother : other = tokenHash
          · subst hother
            exact h.remove
          · exact h.setSession hother
        refine hremoved.enter (fun m a heq => ?_) (by exact id)
        change w.phase p = _ at heq
        rw [hrevoking] at heq
        cases heq
      · cases hstep
    · cases hstep

/-! ## Runs -/

/-- Nobody has signed in yet. -/
def World.start (clock : Timestamp) : World :=
  ⟨clock, fun _ => none, [], fun _ => none, fun _ => .idle, fun _ => none, 0, []⟩

theorem not_owns_start {clock : Timestamp} {owner : Owner} :
    ¬ (World.start clock).Owns n owner := by
  intro h
  cases owner with
  | session held =>
    obtain ⟨s, hs, -⟩ := h
    cases hs
  | process p =>
    obtain ⟨held, answer, hphase⟩ := h
    cases hphase

theorem ordered_start (clock : Timestamp) : Ordered (World.start clock) := by
  refine ⟨?_, ?_, ?_, ?_, ?_, ?_, List.forall_mem_nil _⟩
  · intro held s hs
    cases hs
  · intro p held hphase
    cases hphase
  · intro p held hholds
    exact hholds.elim
  · intro p held n hphase
    cases hphase
  · intro n owner howns
    exact absurd howns not_owns_start
  · intro n owner owner' howns
    exact absurd howns not_owns_start

theorem kept_start (clock : Timestamp) : Kept tokenHash (World.start clock) := by
  refine ⟨?_, ?_, ?_⟩
  · intro s n hs
    cases hs
  · intro p n answer hphase
    cases hphase
  · intro p hphase
    cases hphase

end

/-! ## Two processes that find a token expiring -/

def sampleAnswer : Answer := ⟨some 28800, true, some 15897600⟩

/-- A sign-in whose access token is over in 60 seconds, and whose refresh token in 3600. -/
def sampleSignIn : Label := .signIn "a" 3600000000 60000000 3600000000 7200000000

/-- One process asks while another waits for the row, which then finds the new token. -/
def sampleLabels : List Label :=
  [sampleSignIn, .select 0 "a" 120000000 0, .answer 0 sampleAnswer, .wait 1000000, .store 0,
    .select 1 "a" 120000000 0]

def sampleSession : Session :=
  ⟨1, some 1, some 28801000000, some 15897601000000, 7200000000⟩

theorem sampleRun :
    ∃ w, Run (Where (Delivered "a") (Steps World.step)) (.start 0) sampleLabels w ∧
      w.sessions "a" = some sampleSession ∧ w.lock "a" = none := by
  have hrun : ∃ w, Run (Steps World.step) (.start 0) sampleLabels w ∧
      w.sessions "a" = some sampleSession ∧ w.lock "a" = none :=
    ⟨_, run?_eq_some rfl, rfl, rfl⟩
  obtain ⟨w, hrun, hfound⟩ := hrun
  refine ⟨w, hrun.restrict fun label hlabel w => ?_, hfound⟩
  have hlabel : label ∈ sampleLabels := hlabel
  unfold sampleLabels at hlabel
  simp only [List.mem_cons, List.not_mem_nil, or_false] at hlabel
  rcases hlabel with rfl | rfl | rfl | rfl | rfl | rfl
  · trivial
  · trivial
  · exact fun _ => rfl
  · trivial
  · trivial
  · trivial

/-- GitHub has answered a process that stops. The next one asks with the token that is void. -/
def lostLabels : List Label :=
  [sampleSignIn, .select 0 "a" 120000000 0, .answer 0 sampleAnswer, .lose 0,
    .select 1 "a" 120000000 0, .refuse 1 true, .revoke 1]

theorem lost_answer_ends_session :
    ∃ w, Run (Steps World.step) (.start 0) lostLabels w ∧ w.sessions "a" = none :=
  ⟨_, run?_eq_some rfl, rfl⟩

end LadybirdReports.Admin.TokenRotation
