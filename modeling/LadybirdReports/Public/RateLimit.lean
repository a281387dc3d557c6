import LadybirdReports.Admin.Schema
import LadybirdReports.Lib.Amortized
import Mathlib.Algebra.Order.Field.Rat
import Mathlib.Tactic.Linarith
import Mathlib.Tactic.Positivity
import Mathlib.Tactic.Ring

/-!
# Rate limits

A bucket of `rate_buckets` holds tokens. Every request takes one, and they come back with the time.
`consume_rate_limit` reads the clock before it waits for the lock on the row, so that calls get the
lock in any order of their observations (`Call`). Where no observation is older than the one the
bucket was last written with, the requests that are accepted in a stretch of calls are bounded by
what the bucket holds and what comes back meanwhile (`accepted_le_refill`); an older one takes the
bucket's time back, and the same time is credited again (`late_observations_refill_twice`).

A refused request takes what there is of a token. Requests that are refused can be left out and
whatever else was accepted still is (`accepted_without_refused`), but not the other way round: one
that is repeated too soon is refused for ever (`eager_requests_are_refused`).
-/

namespace LadybirdReports.Public

open Admin (Timestamp)
open Transition

/-- What `consume_rate_limit` is told of a limit: doubles in SQL, made from these. -/
structure RateLimit where
  refillCount : ℕ
  refillSeconds : ℕ
  capacity : ℕ
  deriving DecidableEq, Repr

/-- The tokens that come back each second. -/
def RateLimit.refillRate (limit : RateLimit) : ℚ := limit.refillCount / limit.refillSeconds

/-- A row of `rate_buckets`. -/
structure RateBucket where
  tokens : ℚ
  updatedAt : Timestamp
  expiresAt : Timestamp
  deriving DecidableEq, Repr

/-- `extract(epoch FROM …)` of an interval. -/
def seconds (interval : ℤ) : ℚ := interval / 1000000

/-- Two hours. -/
def bucketLifetime : Timestamp := 2 * 3600 * 1000000

/-- The tokens there are at an observation. -/
def availableTokens (limit : RateLimit) (bucket : RateBucket) (observedAt : Timestamp) : ℚ :=
  min limit.capacity (bucket.tokens
    + max 0 (seconds (observedAt - bucket.updatedAt)) * limit.refillCount / limit.refillSeconds)

/-- The row that is locked: a full one is inserted where there is none. -/
def lockedBucket (limit : RateLimit) (row : Option RateBucket) (observedAt : Timestamp) :
    RateBucket :=
  row.getD
    { tokens := limit.capacity
      updatedAt := observedAt
      expiresAt := observedAt + bucketLifetime }

@[simp] theorem lockedBucket_some (limit : RateLimit) (bucket : RateBucket)
    (observedAt : Timestamp) : lockedBucket limit (some bucket) observedAt = bucket := rfl

/-- `consume_rate_limit`, from the row as it is when the lock is obtained: whether the request is
accepted, and the row it leaves. -/
def consumeRateLimit (limit : RateLimit) (row : Option RateBucket) (observedAt : Timestamp) :
    Bool × RateBucket :=
  let available := availableTokens limit (lockedBucket limit row observedAt) observedAt
  (decide (1 ≤ available),
    { tokens := max 0 (available - 1)
      updatedAt := observedAt
      expiresAt := observedAt + bucketLifetime })

/-- A call, with the time it read before it had the lock and what it returned. -/
structure Call where
  observedAt : Timestamp
  accepted : Bool
  deriving DecidableEq, Repr

/-- A call has the lock. -/
def consume (limit : RateLimit) (row : Option RateBucket) (call : Call) :
    Option (Option RateBucket) :=
  let result := consumeRateLimit limit row call.observedAt
  if call.accepted = result.1 then some (some result.2) else none

/-- The call observed no time before the one the bucket was last written with. -/
def InOrder (row : Option RateBucket) (call : Call) : Prop :=
  ∀ bucket ∈ row, bucket.updatedAt ≤ call.observedAt

instance (row : Option RateBucket) (call : Call) : Decidable (InOrder row call) :=
  inferInstanceAs (Decidable (∀ bucket ∈ row, bucket.updatedAt ≤ call.observedAt))

/-- How many calls of a stretch were accepted. -/
def acceptedCalls (calls : List Call) : ℕ := calls.countP (·.accepted)

/-- The time from the earliest observation of a stretch to the latest. -/
def elapsed : List Call → ℚ
  | [] => 0
  | call :: calls =>
    seconds ((calls.map (·.observedAt)).foldr max call.observedAt
      - (calls.map (·.observedAt)).foldr min call.observedAt)

/-! ## One call -/

theorem tokens_consumeRateLimit_nonneg (limit : RateLimit) (row : Option RateBucket)
    (observedAt : Timestamp) : 0 ≤ (consumeRateLimit limit row observedAt).2.tokens :=
  le_max_left _ _

theorem updatedAt_consumeRateLimit (limit : RateLimit) (row : Option RateBucket)
    (observedAt : Timestamp) : (consumeRateLimit limit row observedAt).2.updatedAt = observedAt :=
  rfl

/-- What a request takes is not left behind, whether it is accepted or not. -/
theorem accepted_add_tokens_le (limit : RateLimit) (row : Option RateBucket)
    (observedAt : Timestamp) {available : ℚ}
    (havailable : availableTokens limit (lockedBucket limit row observedAt) observedAt ≤ available)
    (hnonneg : 0 ≤ available) :
    (if (consumeRateLimit limit row observedAt).1 = true then 1 else 0)
      + (consumeRateLimit limit row observedAt).2.tokens ≤ available := by
  simp only [consumeRateLimit, decide_eq_true_eq]
  split_ifs with haccepted
  · rw [max_eq_right (by linarith)]
    linarith
  · rw [max_eq_left (by linarith)]
    linarith

theorem availableTokens_le_capacity (limit : RateLimit) (bucket : RateBucket)
    (observedAt : Timestamp) : availableTokens limit bucket observedAt ≤ limit.capacity :=
  min_le_left _ _

/-- In order, the tokens that have come back are those of the time since the last observation. -/
theorem availableTokens_le (limit : RateLimit) {bucket : RateBucket} {observedAt : Timestamp}
    (h : bucket.updatedAt ≤ observedAt) :
    availableTokens limit bucket observedAt
      ≤ bucket.tokens + seconds (observedAt - bucket.updatedAt) * limit.refillRate := by
  unfold availableTokens RateLimit.refillRate
  refine (min_le_right _ _).trans (le_of_eq ?_)
  have hseconds : 0 ≤ seconds (observedAt - bucket.updatedAt) := by
    unfold seconds
    have : (0 : ℚ) ≤ ((observedAt - bucket.updatedAt : ℤ) : ℚ) := by exact_mod_cast sub_nonneg.mpr h
    positivity
  rw [max_eq_right hseconds, mul_div_assoc]

theorem consume_eq_some {limit : RateLimit} {row row' : Option RateBucket} {call : Call}
    (h : consume limit row call = some row') :
    call.accepted = (consumeRateLimit limit row call.observedAt).1 ∧
      row' = some (consumeRateLimit limit row call.observedAt).2 := by
  simp only [consume] at h
  split_ifs at h with haccepted
  exact ⟨haccepted, (Option.some.inj h).symm⟩

/-! ## Stretches of calls -/

section

variable {limit : RateLimit} {row row' : Option RateBucket} {calls stretch : List Call}
  {call : Call}

/-- The cost of a call, in tokens. -/
def Call.cost (call : Call) : ℚ := if call.accepted = true then 1 else 0

theorem sum_cost (calls : List Call) : (calls.map Call.cost).sum = acceptedCalls calls := by
  induction calls with
  | nil => rfl
  | cons call calls ih =>
    unfold acceptedCalls at ih ⊢
    rw [List.map_cons, List.sum_cons, ih, List.countP_cons, Call.cost]
    split_ifs <;> push_cast <;> ring

/-- The tokens of a bucket, less what has come back since the epoch. -/
def potential (limit : RateLimit) (row : Option RateBucket) : ℚ :=
  row.elim 0 fun bucket => bucket.tokens - seconds bucket.updatedAt * limit.refillRate

/-- The bucket is there, and holds no debt. -/
def Solvent (row : Option RateBucket) : Prop := ∃ bucket, row = some bucket ∧ 0 ≤ bucket.tokens

theorem solvent_of_consume (h : consume limit row call = some row') : Solvent row' :=
  ⟨_, (consume_eq_some h).2, tokens_consumeRateLimit_nonneg limit row call.observedAt⟩

theorem seconds_sub (a b : Timestamp) : seconds (a - b) = seconds a - seconds b := by
  unfold seconds
  push_cast
  ring

theorem seconds_mono {a b : Timestamp} (h : a ≤ b) : seconds a ≤ seconds b := by
  unfold seconds
  have : (a : ℚ) ≤ b := by exact_mod_cast h
  linarith

theorem refillRate_nonneg (limit : RateLimit) : 0 ≤ limit.refillRate := by
  unfold RateLimit.refillRate
  positivity

/-- A call in order costs at most what it takes off the potential. -/
theorem cost_add_potential_le (hrow : Solvent row) (horder : InOrder row call)
    (h : consume limit row call = some row') :
    call.cost + potential limit row' ≤ potential limit row := by
  obtain ⟨bucket, rfl, htokens⟩ := hrow
  obtain ⟨haccepted, rfl⟩ := consume_eq_some h
  have horder : bucket.updatedAt ≤ call.observedAt := horder bucket rfl
  have hback : 0 ≤ seconds (call.observedAt - bucket.updatedAt) * limit.refillRate :=
    mul_nonneg (by simpa [seconds] using seconds_mono (sub_nonneg.mpr horder))
      (refillRate_nonneg limit)
  have hle := accepted_add_tokens_le limit (some bucket) call.observedAt
    (availableTokens_le limit horder) (add_nonneg htokens hback)
  rw [← haccepted] at hle
  rw [lockedBucket_some, seconds_sub, sub_mul] at hle
  simp only [Call.cost, potential, Option.elim_some]
  rw [updatedAt_consumeRateLimit]
  linarith

/-- A run of calls in order. -/
abbrev OrderedRun (limit : RateLimit) : Option RateBucket → List Call → Option RateBucket → Prop :=
  Run (Where InOrder (Steps (consume limit)))

theorem solvent_of_ordered (row : Option RateBucket) (call : Call) (row' : Option RateBucket)
    (_ : Solvent row) (h : Where InOrder (Steps (consume limit)) row call row') : Solvent row' :=
  solvent_of_consume h.2

/-- A bucket was last written with the time of the last call. -/
theorem updatedAt_of_run {bucket : RateBucket}
    (h : Run (Steps (consume limit)) (some bucket) calls row') :
    ∃ bucket', row' = some bucket' ∧
      bucket'.updatedAt ∈ bucket.updatedAt :: calls.map (·.observedAt) := by
  cases h with
  | nil => exact ⟨bucket, rfl, List.mem_cons_self⟩
  | @snoc _ _ as call _ last =>
    refine ⟨_, (consume_eq_some last).2, List.mem_cons_of_mem _ ?_⟩
    rw [List.map_append]
    exact List.mem_append_right _ List.mem_cons_self

theorem le_foldr_max {t₀ t : Timestamp} {ts : List Timestamp} (h : t ∈ t₀ :: ts) :
    t ≤ ts.foldr max t₀ := by
  induction ts with
  | nil => exact (List.mem_singleton.mp h).le
  | cons t' ts ih =>
    rcases List.mem_cons.mp h with rfl | h
    · exact (ih List.mem_cons_self).trans (le_max_right _ _)
    · rcases List.mem_cons.mp h with rfl | h
      · exact le_max_left _ _
      · exact (ih (List.mem_cons_of_mem _ h)).trans (le_max_right _ _)

theorem foldr_min_le (t₀ : Timestamp) (ts : List Timestamp) : ts.foldr min t₀ ≤ t₀ := by
  induction ts with
  | nil => exact le_rfl
  | cons t ts ih => exact (min_le_right _ _).trans ih

/-- What calls in order take from a bucket is what it holds, and what comes back by the latest. -/
theorem accepted_le_of_run {bucket : RateBucket} (htokens : 0 ≤ bucket.tokens)
    (h : OrderedRun limit (some bucket) calls row') :
    (acceptedCalls calls : ℚ) ≤ bucket.tokens
      + (seconds ((calls.map (·.observedAt)).foldr max bucket.updatedAt)
        - seconds bucket.updatedAt) * limit.refillRate := by
  have hsolvent : Solvent (some bucket) := ⟨bucket, rfl, htokens⟩
  have hcost := h.cost_le solvent_of_ordered
    (fun _ _ _ hrow hstep => cost_add_potential_le hrow hstep.1 hstep.2) hsolvent
  obtain ⟨bucket', hbucket', htokens'⟩ := h.invariant solvent_of_ordered hsolvent
  obtain ⟨_, hlast, hmem⟩ := updatedAt_of_run (h.mono fun _ _ _ hstep => hstep.2)
  rw [hbucket'] at hlast
  cases hlast
  have hlatest := mul_le_mul_of_nonneg_right (seconds_mono (le_foldr_max hmem))
    (refillRate_nonneg limit)
  rw [sum_cost, hbucket'] at hcost
  simp only [potential, Option.elim_some] at hcost
  rw [sub_mul]
  linarith

/-- Where every call observes no time before the one the bucket was last written with, the calls
accepted in a stretch are at most the capacity and what comes back in its time. -/
theorem accepted_le_refill (h : OrderedRun limit row calls row')
    (hstretch : stretch <:+: calls) :
    (acceptedCalls stretch : ℚ) ≤ limit.capacity + elapsed stretch * limit.refillRate := by
  obtain ⟨before, after, rfl⟩ := hstretch
  obtain ⟨next, h, -⟩ := h.split
  obtain ⟨start, -, h⟩ := h.split
  cases stretch with
  | nil => simp [acceptedCalls, elapsed]
  | cons call calls =>
    obtain ⟨first, ⟨-, hfirst⟩, h⟩ := h.head
    obtain ⟨haccepted, rfl⟩ := consume_eq_some hfirst
    have hrest := accepted_le_of_run (tokens_consumeRateLimit_nonneg limit start call.observedAt) h
    have hcall := accepted_add_tokens_le limit start call.observedAt
      (availableTokens_le_capacity limit _ _) (Nat.cast_nonneg _)
    rw [← haccepted] at hcall
    have hearliest := mul_le_mul_of_nonneg_right
      (seconds_mono (foldr_min_le call.observedAt (calls.map (·.observedAt))))
      (refillRate_nonneg limit)
    have hcount : (acceptedCalls (call :: calls) : ℚ) = call.cost + acceptedCalls calls := by
      rw [← sum_cost, ← sum_cost, List.map_cons, List.sum_cons]
    rw [hcount, Call.cost, elapsed, seconds_sub]
    rw [updatedAt_consumeRateLimit, sub_mul] at hrest
    rw [sub_mul]
    linarith

end

/-! ## Late observations -/

/-- One request, and one more each minute. -/
def onePerMinute : RateLimit := ⟨1, 60, 1⟩

def minute : Timestamp := 60 * 1000000

/-- Two requests a minute apart, the bucket emptied in between. -/
def promptCalls : List Call := [⟨0, true⟩, ⟨0, false⟩, ⟨minute, true⟩]

theorem accepted_le_refill_one_per_minute :
    (acceptedCalls promptCalls : ℚ)
      ≤ onePerMinute.capacity + elapsed promptCalls * onePerMinute.refillRate :=
  have hrun : OrderedRun onePerMinute none promptCalls
      (some ⟨0, minute, minute + bucketLifetime⟩) := run_where (by decide +kernel)
  accepted_le_refill hrun (List.infix_refl _)

/-- Calls that waited for the lock since the minute before take the bucket's time back to it, and
the next one is credited the same minute again: three requests in the time of two. -/
theorem late_observations_refill_twice :
    ∃ calls : List Call, ∃ row : Option RateBucket,
      Run (Steps (consume onePerMinute)) none calls row ∧
        onePerMinute.capacity + elapsed calls * onePerMinute.refillRate < acceptedCalls calls :=
  ⟨[⟨minute, true⟩, ⟨0, false⟩, ⟨minute, true⟩, ⟨0, false⟩, ⟨minute, true⟩],
    some ⟨0, minute, minute + bucketLifetime⟩, run?_eq_some (by decide +kernel), by decide +kernel⟩

/-! ## Refused requests -/

/-- A request to a bucket, which may be left out. -/
structure BucketRequest where
  observedAt : Timestamp
  leftOut : Bool
  deriving DecidableEq, Repr

/-- The requests one after the other, each with whether it is accepted. -/
def answers (limit : RateLimit) : Option RateBucket → List BucketRequest →
    List (BucketRequest × Bool)
  | _, [] => []
  | row, request :: requests =>
    let result := consumeRateLimit limit row request.observedAt
    (request, result.1) :: answers limit (some result.2) requests

/-- The tokens that a request would find. -/
def creditAt (limit : RateLimit) (row : Option RateBucket) (t : Timestamp) : ℚ :=
  availableTokens limit (lockedBucket limit row t) t

/-- From a time on one bucket has at least the tokens of another. -/
def AheadFrom (limit : RateLimit) (t : Timestamp) (row row' : Option RateBucket) : Prop :=
  ∀ t' ≥ t, creditAt limit row t' ≤ creditAt limit row' t'

/-- The bucket holds no debt, and was last written no later than a time. -/
def SettledBy (t : Timestamp) (row : Option RateBucket) : Prop :=
  ∀ bucket ∈ row, 0 ≤ bucket.tokens ∧ bucket.updatedAt ≤ t

section

variable {limit : RateLimit} {row row' : Option RateBucket} {t t' : Timestamp}
  {bucket bucket' : RateBucket} {request : BucketRequest} {requests : List BucketRequest}

theorem creditAt_some (h : bucket.updatedAt ≤ t) :
    creditAt limit (some bucket) t = min (limit.capacity : ℚ)
      (bucket.tokens + seconds (t - bucket.updatedAt) * limit.refillRate) := by
  have hseconds : 0 ≤ seconds (t - bucket.updatedAt) := by
    simpa [seconds] using seconds_mono (sub_nonneg.mpr h)
  unfold creditAt availableTokens RateLimit.refillRate
  rw [lockedBucket_some, max_eq_right hseconds, mul_div_assoc]

theorem creditAt_none : creditAt limit none t = limit.capacity := by
  unfold creditAt availableTokens lockedBucket
  simp [seconds]

theorem consumeRateLimit_accepted :
    (consumeRateLimit limit row t).1 = true ↔ 1 ≤ creditAt limit row t := decide_eq_true_iff

theorem settledBy_consumeRateLimit (h : t ≤ t') :
    SettledBy t' (some (consumeRateLimit limit row t).2) := by
  rintro _ ⟨rfl⟩
  exact ⟨tokens_consumeRateLimit_nonneg limit row t, h⟩

theorem SettledBy.mono (h : SettledBy t row) (hle : t ≤ t') : SettledBy t' row :=
  fun bucket hbucket => ⟨(h bucket hbucket).1, (h bucket hbucket).2.trans hle⟩

/-- What comes back after a time is found by a later request in any bucket. -/
theorem refill_le_creditAt (h : SettledBy t row) (hle : t ≤ t') :
    min (limit.capacity : ℚ) (seconds (t' - t) * limit.refillRate) ≤ creditAt limit row t' := by
  cases row with
  | none => rw [creditAt_none]; exact min_le_left _ _
  | some bucket =>
    obtain ⟨htokens, hupdated⟩ := h bucket rfl
    rw [creditAt_some (hupdated.trans hle)]
    refine min_le_min_left _ ?_
    have hlonger := mul_le_mul_of_nonneg_right
      (seconds_mono (sub_le_sub_left hupdated t')) (refillRate_nonneg limit)
    linarith

/-- A refused request leaves nothing. -/
theorem tokens_of_refused (h : (consumeRateLimit limit row t).1 = false) :
    (consumeRateLimit limit row t).2.tokens = 0 := by
  have hless : ¬ 1 ≤ creditAt limit row t := of_decide_eq_false h
  change max 0 (creditAt limit row t - 1) = 0
  exact max_eq_left (by linarith)

/-- A bucket after a refused request has no more than one that it was left out of. -/
theorem AheadFrom.leaveOut (hsettled : SettledBy t row')
    (hrefused : (consumeRateLimit limit row t).1 = false) :
    AheadFrom limit t (some (consumeRateLimit limit row t).2) row' := by
  intro t' hle
  rw [creditAt_some hle, tokens_of_refused hrefused, zero_add]
  exact refill_le_creditAt hsettled hle

/-- A request takes as much from either bucket, or all that there is. -/
theorem AheadFrom.consume (h : AheadFrom limit t row row') :
    AheadFrom limit t (some (consumeRateLimit limit row t).2)
      (some (consumeRateLimit limit row' t).2) := by
  intro t' hle
  rw [creditAt_some hle, creditAt_some hle]
  refine min_le_min_left _ (add_le_add_left ?_ _)
  exact max_le_max_left 0 (sub_le_sub_right (h t le_rfl) 1)

theorem AheadFrom.mono (h : AheadFrom limit t row row') (hle : t ≤ t') :
    AheadFrom limit t' row row' := fun later hlater => h later (hle.trans hlater)

/-- Without refused requests no bucket has less at any time, and whoever was accepted is accepted.
-/
theorem accepted_of_ahead (hahead : AheadFrom limit t row row') (hsettled : SettledBy t row')
    (hsorted : (requests.map (·.observedAt)).Pairwise (· ≤ ·))
    (hlater : ∀ request ∈ requests, t ≤ request.observedAt)
    (hrefused : ∀ answer ∈ answers limit row requests, answer.1.leftOut = true → answer.2 = false) :
    List.Forall₂ (fun answer answer' => answer.1 = answer'.1 ∧ (answer.2 = true → answer'.2 = true))
      ((answers limit row requests).filter (!·.1.leftOut))
      (answers limit row' (requests.filter (!·.leftOut))) := by
  induction requests generalizing row row' t with
  | nil => exact .nil
  | cons request requests ih =>
    rw [List.map_cons, List.pairwise_cons] at hsorted
    have hnow : t ≤ request.observedAt := hlater request List.mem_cons_self
    have hnext : ∀ next ∈ requests, request.observedAt ≤ next.observedAt :=
      fun next hmem => hsorted.1 _ (List.mem_map_of_mem hmem)
    have hrest : ∀ answer ∈ answers limit (some (consumeRateLimit limit row request.observedAt).2)
        requests, answer.1.leftOut = true → answer.2 = false :=
      fun answer hmem => hrefused answer (List.mem_cons_of_mem _ hmem)
    rw [answers]
    cases hout : request.leftOut with
    | true =>
      have hno := hrefused _ List.mem_cons_self hout
      rw [List.filter_cons_of_neg (by simp [hout]), List.filter_cons_of_neg (by simp [hout])]
      exact ih (.leaveOut (hsettled.mono hnow) hno) (hsettled.mono hnow) hsorted.2 hnext hrest
    | false =>
      rw [List.filter_cons_of_pos (by simp [hout]), List.filter_cons_of_pos (by simp [hout]),
        answers]
      refine .cons ⟨rfl, fun haccepted => ?_⟩ ?_
      · rw [consumeRateLimit_accepted] at haccepted ⊢
        exact haccepted.trans (hahead _ hnow)
      · exact ih (hahead.mono hnow).consume (settledBy_consumeRateLimit le_rfl) hsorted.2 hnext
          hrest

/-- Leaving out refused requests refuses none of the others that was accepted. -/
theorem accepted_without_refused (hrow : ∀ request ∈ requests, SettledBy request.observedAt row)
    (hsorted : (requests.map (·.observedAt)).Pairwise (· ≤ ·))
    (hrefused : ∀ answer ∈ answers limit row requests, answer.1.leftOut = true → answer.2 = false) :
    List.Forall₂ (fun answer answer' => answer.1 = answer'.1 ∧ (answer.2 = true → answer'.2 = true))
      ((answers limit row requests).filter (!·.1.leftOut))
      (answers limit row (requests.filter (!·.leftOut))) := by
  cases requests with
  | nil => exact .nil
  | cons request requests =>
    refine accepted_of_ahead (fun _ _ => le_rfl) (hrow request List.mem_cons_self) hsorted
      (fun next hmem => ?_) hrefused
    rcases List.mem_cons.mp hmem with rfl | hmem
    · exact le_rfl
    · rw [List.map_cons, List.pairwise_cons] at hsorted
      exact hsorted.1 _ (List.mem_map_of_mem hmem)

end

def halfMinute : Timestamp := 30 * 1000000

/-- A refused request of which the next one is refused. -/
def delayingRequests : List BucketRequest :=
  [⟨0, false⟩, ⟨halfMinute, true⟩, ⟨minute, false⟩]

theorem accepted_without_delaying :
    List.Forall₂ (fun answer answer' => answer.1 = answer'.1 ∧ (answer.2 = true → answer'.2 = true))
      ((answers onePerMinute none delayingRequests).filter (!·.1.leftOut))
      (answers onePerMinute none (delayingRequests.filter (!·.leftOut))) :=
  accepted_without_refused (fun _ _ _ hbucket => by cases hbucket) (by decide) (by decide +kernel)

theorem refused_request_is_charged :
    (∀ answer ∈ answers onePerMinute none delayingRequests,
      answer.1.leftOut = true → answer.2 = false) ∧
    (answers onePerMinute none delayingRequests).filter (!·.1.leftOut) =
      [(⟨0, false⟩, true), (⟨minute, false⟩, false)] ∧
    answers onePerMinute none (delayingRequests.filter (!·.leftOut)) =
      [(⟨0, false⟩, true), (⟨minute, false⟩, true)] := by
  decide +kernel

/-- Requests every half minute after a time. -/
def eagerRequests : ℕ → Timestamp → List BucketRequest
  | 0, _ => []
  | n + 1, t => ⟨t + halfMinute, false⟩ :: eagerRequests n (t + halfMinute)

/-- Whoever repeats a refused request each half minute is refused for ever. -/
theorem eager_requests_are_refused (n : ℕ) {t expiresAt : Timestamp} :
    ∀ answer ∈ answers onePerMinute (some ⟨0, t, expiresAt⟩) (eagerRequests n t),
      answer.2 = false := by
  induction n generalizing t expiresAt with
  | zero => exact List.forall_mem_nil _
  | succ n ih =>
    have hcredit : creditAt onePerMinute (some ⟨0, t, expiresAt⟩) (t + halfMinute) = 1 / 2 := by
      have hhalf : seconds (t + halfMinute - t) = 30 := by
        rw [add_sub_cancel_left]
        decide +kernel
      rw [creditAt_some (le_add_of_nonneg_right (by decide)), hhalf]
      change min (onePerMinute.capacity : ℚ) (0 + 30 * onePerMinute.refillRate) = 1 / 2
      decide +kernel
    have hrefused : (consumeRateLimit onePerMinute (some ⟨0, t, expiresAt⟩)
        (t + halfMinute)).1 = false := by
      refine Bool.eq_false_iff.mpr fun haccepted => ?_
      rw [consumeRateLimit_accepted, hcredit] at haccepted
      exact absurd haccepted (by decide +kernel)
    have hrow : (consumeRateLimit onePerMinute (some ⟨0, t, expiresAt⟩) (t + halfMinute)).2 =
        ⟨0, t + halfMinute, t + halfMinute + bucketLifetime⟩ := by
      have htokens := tokens_of_refused hrefused
      unfold consumeRateLimit at htokens ⊢
      dsimp only at htokens ⊢
      rw [htokens]
    rw [eagerRequests, answers]
    dsimp only
    rw [hrow]
    exact List.forall_mem_cons.mpr ⟨hrefused, ih⟩

end LadybirdReports.Public
