import LadybirdReports.Ingestion.Limits
import LadybirdReports.Ingestion.ReportManifest
import LadybirdReports.Ingestion.Receiving
import LadybirdReports.Lib.Base64
import LadybirdReports.Lib.StrRender
import LadybirdReports.Lib.Uuid
import Mathlib.Tactic.Linarith

/-!
# Challenge tokens

A challenge is given to a client as a token: its claims as JSON in Base64, a dot, and the code of
that text under the key of the service in Base64. The service keeps no claims of its own. What a
submission is checked against is what its token says.

1. A token is accepted exactly if it is at most 2048 bytes and the signed form of a payload that can
   be read (`verifyChallenge_eq_ok`). Base64 is decoded strictly, so a payload has one token only.
2. The token of an issued challenge is short enough (`byteLen_signChallenge_le`).

So an issued token is accepted with its own claims, and a submission passes with it exactly if its
nonce is a proof and its manifest has the digest that the token was issued for, for its lifetime
(`issued_challenge_is_met`).
-/

namespace LadybirdReports.Ingestion.ChallengeTokens

open Admin (AppError Timestamp)
open Rust

/-! ## What the service relies on -/

/-- `URL_SAFE_NO_PAD`, which decodes only what it would encode. -/
structure Base64Engine where
  encode : Bytes → Str
  decode : Str → Option Bytes
  decode_encode : ∀ bytes, decode (encode bytes) = some bytes
  encode_decode : ∀ text bytes, decode text = some bytes → encode bytes = text
  length_encode : ∀ bytes, (encode bytes).length = (4 * bytes.length + 2) / 3
  isAscii_encode : ∀ bytes, ∀ c ∈ encode bytes, c.utf8Size = 1 ∧ c ≠ '.'

/-- `Hmac<Sha256>` under the key of the service. -/
structure Hmac where
  code : Bytes → Bytes
  length_code : ∀ message, (code message).length = 32

structure ChallengeClaims where
  version : ℕ
  id : Uuid
  manifestDigest : Str
  expiresAtUnix : ℤ
  expectedWork : ℕ

/-- The decimal text of an integer. -/
def integerText : ℤ → Str
  | .ofNat n => digits n
  | .negSucc n => '-' :: digits (n + 1)

/-- A JSON string. There is nothing to escape in an identifier or the digits of a digest. -/
def quoted (s : Str) : Str := '"' :: s ++ ['"']

/-- A member of a JSON object. -/
def member (key : String) (value : Str) : Str := quoted key.toList ++ ':' :: value

/-- `serde_json::to_vec`. -/
def ChallengeClaims.text (claims : ChallengeClaims) : Str :=
  '\x7b' :: member "version" (digits claims.version) ++
    ',' :: member "id" (quoted claims.id.text) ++
    ',' :: member "manifest_digest" (quoted claims.manifestDigest) ++
    ',' :: member "expires_at_unix" (integerText claims.expiresAtUnix) ++
    ',' :: member "expected_work" (digits claims.expectedWork) ++ ['\x7d']

/-- The values that the types of the fields have room for, with a digest. -/
structure ChallengeClaims.Fits (claims : ChallengeClaims) : Prop where
  version : claims.version < 2 ^ 32
  manifestDigest : isSha256Hex claims.manifestDigest = true
  expiresAtUnix : -2 ^ 63 ≤ claims.expiresAtUnix ∧ claims.expiresAtUnix < 2 ^ 63
  expectedWork : claims.expectedWork < 2 ^ 64

/-- The service: its cryptography, and how `serde_json` reads claims. -/
structure Service where
  base64 : Base64Engine
  hmac : Hmac
  sha256 : Bytes → Bytes
  readClaims : Bytes → Option ChallengeClaims

/-! ## Signing and verifying -/

section

variable (service : Service)

/-- The token of a payload. -/
def signed (payload : Bytes) : Str :=
  let encodedPayload := service.base64.encode payload
  encodedPayload ++ ['.'] ++ service.base64.encode (service.hmac.code (bytes encodedPayload))

def signChallenge (claims : ChallengeClaims) : Str := signed service (bytes claims.text)

def invalidToken : AppError := .invalidRequest "Invalid challenge token"

def verifyChallenge (token : Str) : Except AppError ChallengeClaims := do
  ensure (byteLen token ≤ 2048) invalidToken
  let (encodedPayload, encodedSignature) ← okOr (splitOnce? ['.'] token) invalidToken
  let signature ← okOr (service.base64.decode encodedSignature) invalidToken
  ensure (service.hmac.code (bytes encodedPayload) = signature) invalidToken
  let payload ← okOr (service.base64.decode encodedPayload) invalidToken
  okOr (service.readClaims payload) invalidToken

/-! ## Proofs of work -/

/-- `to_le_bytes` of a `u64`. -/
def toLeBytes (n : ℕ) : Bytes := (List.range 8).map fun i => UInt8.ofNat (n / 256 ^ i)

/-- `from_be_bytes`. -/
def fromBeBytes (bytes : Bytes) : ℕ := bytes.foldl (fun n byte => 256 * n + byte.toNat) 0

def proofIsValid (token : Str) (nonce expectedWork : ℕ) : Bool :=
  if expectedWork = 0 then false
  else
    let seed := service.sha256 (bytes token)
    let candidate := service.sha256 (seed ++ toLeBytes nonce)
    let leading := fromBeBytes (candidate.take 8)
    let target := (2 ^ 64 - 1) / expectedWork
    decide (leading ≤ target)

def sha256Hex (message : Bytes) : Str :=
  (service.sha256 message).flatMap fun byte => Uuid.byteText ⟨byte.toNat, byte.toNat_lt⟩

/-! ## Issuing and meeting a challenge -/

structure IssuedChallenge where
  token : Str
  expiresAtUnix : ℤ
  expectedWork : ℕ

/-- `DateTime::timestamp`: whole seconds. -/
def timestamp (t : Timestamp) : ℤ := t / 1000000

/-- The claims of a challenge that is issued now. -/
def issuedClaims (configuration : ProofOfWorkConfiguration) (id : Uuid) (now : Timestamp)
    (manifestDigest : Str) : ChallengeClaims :=
  let expiry := now + configuration.challengeLifetimeSeconds * 1000000
  ⟨1, id, manifestDigest, timestamp expiry, configuration.expectedWork⟩

def issueChallenge (configuration : ProofOfWorkConfiguration) (id : Uuid) (now : Timestamp)
    (manifestDigest : Str) : Except AppError IssuedChallenge := do
  ensure (isSha256Hex manifestDigest) (.invalidRequest "Invalid manifest digest")
  let claims := issuedClaims configuration id now manifestDigest
  pure ⟨signChallenge service claims, claims.expiresAtUnix, claims.expectedWork⟩

/-- `prepare_submission`, to where it reads the manifest. -/
def checkSubmission (challengeToken : Str) (nonce : ℕ) (manifestBytes : Bytes) :
    Except AppError ChallengeClaims := do
  let claims ← verifyChallenge service challengeToken
  ensure (claims.version = 1) (.invalidRequest "Unsupported proof-of-work version")
  ensure (proofIsValid service challengeToken nonce claims.expectedWork)
    (.invalidRequest "Invalid proof of work")
  ensure (sha256Hex service manifestBytes = claims.manifestDigest)
    (.invalidRequest "Manifest digest does not match challenge")
  pure claims

/-- `prepare_submission`, where there is no receipt of the submission. -/
def checkExpiry (claims : ChallengeClaims) (now : Timestamp) : Except AppError Unit :=
  ensure (!(claims.expiresAtUnix ≤ timestamp now)) (.conflict "Challenge expired")

end

section

variable {service : Service} {claims : ChallengeClaims} {token : Str} {payload : Bytes}

/-! ## Accepted tokens -/

theorem dot_not_mem_encode (engine : Base64Engine) (bytes : Bytes) : '.' ∉ engine.encode bytes :=
  fun h => (engine.isAscii_encode bytes '.' h).2 rfl

theorem splitOnce?_signed (payload : Bytes) :
    splitOnce? ['.'] (signed service payload) = some (service.base64.encode payload,
      service.base64.encode (service.hmac.code (bytes (service.base64.encode payload)))) :=
  splitOnce?_append (dot_not_mem_encode _ _)

/-- A token is accepted exactly if it is the signed form of a payload that can be read. -/
theorem verifyChallenge_eq_ok : verifyChallenge service token = .ok claims ↔
    byteLen token ≤ 2048 ∧ ∃ payload, service.readClaims payload = some claims ∧
      token = signed service payload := by
  unfold verifyChallenge
  constructor
  · intro h
    obtain ⟨_, hlength, h⟩ := bind_eq_ok.mp h
    obtain ⟨⟨encodedPayload, encodedSignature⟩, hsplit, h⟩ := bind_eq_ok.mp h
    obtain ⟨signature, hsignature, h⟩ := bind_eq_ok.mp h
    obtain ⟨_, hcode, h⟩ := bind_eq_ok.mp h
    obtain ⟨payload, hpayload, h⟩ := bind_eq_ok.mp h
    have hsignature := service.base64.encode_decode _ _ (okOr_eq_ok.mp hsignature)
    have hpayload := service.base64.encode_decode _ _ (okOr_eq_ok.mp hpayload)
    have hcode := of_decide_eq_true (ensure_eq_ok.mp hcode)
    refine ⟨of_decide_eq_true (ensure_eq_ok.mp hlength), payload, okOr_eq_ok.mp h, ?_⟩
    rw [splitOnce?_eq_some (okOr_eq_ok.mp hsplit)]
    unfold signed
    dsimp only
    rw [hpayload, hcode, hsignature]
  · rintro ⟨hlength, payload, hread, rfl⟩
    refine bind_eq_ok.mpr ⟨(), ensure_eq_ok.mpr (decide_eq_true hlength), ?_⟩
    refine bind_eq_ok.mpr ⟨_, okOr_eq_ok.mpr (splitOnce?_signed payload), ?_⟩
    refine bind_eq_ok.mpr ⟨_, okOr_eq_ok.mpr (service.base64.decode_encode _), ?_⟩
    refine bind_eq_ok.mpr ⟨(), ensure_eq_ok.mpr (decide_eq_true rfl), ?_⟩
    refine bind_eq_ok.mpr ⟨_, okOr_eq_ok.mpr (service.base64.decode_encode _), ?_⟩
    exact okOr_eq_ok.mpr hread

theorem signed_injective : Function.Injective (signed service) := by
  intro payload payload' h
  have hsplit := congrArg (splitOnce? ['.']) h
  rw [splitOnce?_signed, splitOnce?_signed] at hsplit
  have hencoded := congrArg service.base64.decode (congrArg Prod.fst (Option.some.inj hsplit))
  dsimp only at hencoded
  rw [service.base64.decode_encode, service.base64.decode_encode] at hencoded
  exact Option.some.inj hencoded

/-- Of all texts that a client may send, one at most is a token of the same payload: a change of any
character is a change of the payload, or is refused. -/
theorem one_token_per_payload {token' : Str} {claims' : ChallengeClaims}
    (h : verifyChallenge service token = .ok claims)
    (h' : verifyChallenge service token' = .ok claims') :
    ∃ payload payload', service.readClaims payload = some claims ∧
      service.readClaims payload' = some claims' ∧ token = signed service payload ∧
      token' = signed service payload' ∧ (token = token' ↔ payload = payload') := by
  obtain ⟨-, payload, hread, rfl⟩ := verifyChallenge_eq_ok.mp h
  obtain ⟨-, payload', hread', rfl⟩ := verifyChallenge_eq_ok.mp h'
  exact ⟨payload, payload', hread, hread', rfl, rfl, signed_injective.eq_iff⟩

/-! ## The length of a token -/

theorem byteLen_le (s : Str) : byteLen s ≤ 4 * s.length := by
  induction s with
  | nil => exact le_rfl
  | cons c s ih =>
    have hc := c.utf8Size_le_four
    rw [byteLen_cons, List.length_cons]
    omega

theorem byteLen_encode (engine : Base64Engine) (bytes : Bytes) :
    byteLen (engine.encode bytes) = (4 * bytes.length + 2) / 3 := by
  rw [byteLen_of_ascii fun c hc => (engine.isAscii_encode bytes c hc).1, engine.length_encode]

theorem byteLen_signed (payload : Bytes) :
    byteLen (signed service payload) = (4 * payload.length + 2) / 3 + 44 := by
  unfold signed
  dsimp only
  rw [byteLen_append, byteLen_append, byteLen_encode, byteLen_encode, service.hmac.length_code]
  rfl

theorem length_digits_le {n : ℕ} (h : n < 2 ^ 64) : (digits n).length ≤ 20 :=
  (length_digits_le_iff (by decide)).mpr (h.trans (by decide))

theorem length_integerText_le {n : ℤ} (h : -2 ^ 63 ≤ n ∧ n < 2 ^ 63) :
    (integerText n).length ≤ 21 := by
  cases n with
  | ofNat n =>
    have hn : (n : ℤ) < 2 ^ 63 := h.2
    exact (length_digits_le (by omega)).trans (by decide)
  | negSucc n => exact Nat.succ_le_succ (length_digits_le (by omega))

theorem length_text (u : Uuid) : u.text.length = 36 := rfl

theorem length_quoted (s : Str) : (quoted s).length = s.length + 2 := by
  unfold quoted
  rw [List.cons_append, List.length_cons, List.length_append]
  rfl

theorem length_member (key : String) (value : Str) :
    (member key value).length = key.toList.length + 3 + value.length := by
  unfold member
  rw [List.length_append, length_quoted, List.length_cons]
  omega

theorem length_text_le (h : claims.Fits) : claims.text.length ≤ 250 := by
  have hversion := length_digits_le (h.version.trans (by decide))
  have hdigest : claims.manifestDigest.length ≤ 64 := by
    have hvalid := (Bool.and_eq_true_iff.mp h.manifestDigest).1
    exact (length_le_byteLen _).trans_eq (of_decide_eq_true hvalid)
  have hexpiry := length_integerText_le h.expiresAtUnix
  have hwork := length_digits_le h.expectedWork
  unfold ChallengeClaims.text
  simp only [List.cons_append, List.length_append, List.length_cons, List.length_nil, length_quoted,
    length_text, length_member]
  have hkeys : "version".toList.length + "id".toList.length + "manifest_digest".toList.length +
      "expires_at_unix".toList.length + "expected_work".toList.length = 52 := rfl
  omega

/-- A token of the service is short enough. -/
theorem byteLen_signChallenge_le (h : claims.Fits) :
    byteLen (signChallenge service claims) ≤ 2048 := by
  have hlength : (bytes claims.text).length ≤ 4 * 250 := by
    rw [bytes_length]
    exact (byteLen_le _).trans (Nat.mul_le_mul_left 4 (length_text_le h))
  unfold signChallenge
  rw [byteLen_signed]
  omega

theorem verifyChallenge_signChallenge (h : claims.Fits)
    (hread : service.readClaims (bytes claims.text) = some claims) :
    verifyChallenge service (signChallenge service claims) = .ok claims :=
  verifyChallenge_eq_ok.mpr ⟨byteLen_signChallenge_le h, _, hread, rfl⟩

/-! ## Issued challenges -/

/-- With a token of the service, a submission passes exactly if it is what its claims ask for. -/
theorem checkSubmission_signChallenge (h : claims.Fits)
    (hread : service.readClaims (bytes claims.text) = some claims) (hversion : claims.version = 1)
    (nonce : ℕ) (manifestBytes : Bytes) :
    checkSubmission service (signChallenge service claims) nonce manifestBytes = .ok claims ↔
      proofIsValid service (signChallenge service claims) nonce claims.expectedWork = true ∧
        sha256Hex service manifestBytes = claims.manifestDigest := by
  unfold checkSubmission
  rw [verifyChallenge_signChallenge h hread, ok_bind]
  constructor
  · intro hchecked
    obtain ⟨_, -, hchecked⟩ := bind_eq_ok.mp hchecked
    obtain ⟨_, hproof, hchecked⟩ := bind_eq_ok.mp hchecked
    obtain ⟨_, hdigest, -⟩ := bind_eq_ok.mp hchecked
    exact ⟨ensure_eq_ok.mp hproof, of_decide_eq_true (ensure_eq_ok.mp hdigest)⟩
  · rintro ⟨hproof, hdigest⟩
    refine bind_eq_ok.mpr ⟨(), ensure_eq_ok.mpr (decide_eq_true hversion), ?_⟩
    refine bind_eq_ok.mpr ⟨(), ensure_eq_ok.mpr hproof, ?_⟩
    exact bind_eq_ok.mpr ⟨(), ensure_eq_ok.mpr (decide_eq_true hdigest), rfl⟩

/-- Claims expire in the first second that begins no earlier than they say. -/
theorem checkExpiry_eq_ok {now : Timestamp} :
    checkExpiry claims now = .ok () ↔ now < claims.expiresAtUnix * 1000000 := by
  unfold checkExpiry timestamp
  rw [ensure_eq_ok, Bool.not_eq_true', decide_eq_false_iff_not, not_le]
  exact Int.ediv_lt_iff_lt_mul (by decide)

end

section

variable {service : Service} {configuration : ProofOfWorkConfiguration} {id : Uuid}
  {now later : Timestamp} {manifestDigest : Str} {issued : IssuedChallenge}

theorem issueChallenge_eq_ok :
    issueChallenge service configuration id now manifestDigest = .ok issued ↔
      isSha256Hex manifestDigest = true ∧
        issued = ⟨signChallenge service (issuedClaims configuration id now manifestDigest),
          (issuedClaims configuration id now manifestDigest).expiresAtUnix,
          configuration.expectedWork⟩ := by
  unfold issueChallenge
  rw [bind_eq_ok]
  constructor
  · rintro ⟨_, hdigest, hissued⟩
    exact ⟨ensure_eq_ok.mp hdigest, (pure_eq_ok.mp hissued).symm⟩
  · rintro ⟨hdigest, hissued⟩
    exact ⟨(), ensure_eq_ok.mpr hdigest, pure_eq_ok.mpr hissued.symm⟩

/-- A challenge can be met until a second before the end of its lifetime. -/
theorem checkExpiry_of_le
    (h : later + 1000000 ≤ now + configuration.challengeLifetimeSeconds * 1000000) :
    checkExpiry (issuedClaims configuration id now manifestDigest) later = .ok () := by
  rw [checkExpiry_eq_ok]
  change later < (now + configuration.challengeLifetimeSeconds * 1000000) / 1000000 * 1000000
  have hsecond := Int.lt_ediv_add_one_mul_self
    (now + configuration.challengeLifetimeSeconds * 1000000) (b := 1000000) (by decide)
  linarith

theorem checkExpiry_of_ge
    (h : now + configuration.challengeLifetimeSeconds * 1000000 ≤ later) :
    checkExpiry (issuedClaims configuration id now manifestDigest) later =
      .error (.conflict "Challenge expired") := by
  have hsecond := Int.ediv_mul_le
    (now + configuration.challengeLifetimeSeconds * 1000000) (b := 1000000) (by decide)
  have hexpired : ¬ checkExpiry (issuedClaims configuration id now manifestDigest) later =
      .ok () := by
    rw [checkExpiry_eq_ok, not_lt]
    exact hsecond.trans h
  unfold checkExpiry ensure at hexpired ⊢
  split at hexpired
  · exact absurd rfl hexpired
  · next hcondition => rw [if_neg hcondition]

/-- The token of an issued challenge is accepted with claims of its own. A submission passes with it
exactly if its nonce is a proof and its manifest has the digest that was given, for the lifetime of
a challenge but for its last second, and no longer. -/
theorem issued_challenge_is_met (hwork : configuration.expectedWork < 2 ^ 64)
    (hexpiry : -2 ^ 63 ≤ issued.expiresAtUnix ∧ issued.expiresAtUnix < 2 ^ 63)
    (hread : service.readClaims (bytes (issuedClaims configuration id now manifestDigest).text) =
      some (issuedClaims configuration id now manifestDigest))
    (hissued : issueChallenge service configuration id now manifestDigest = .ok issued) :
    ∃ claims, verifyChallenge service issued.token = .ok claims ∧
      (∀ nonce manifestBytes,
        checkSubmission service issued.token nonce manifestBytes = .ok claims ↔
          proofIsValid service issued.token nonce configuration.expectedWork = true ∧
            sha256Hex service manifestBytes = manifestDigest) ∧
      (∀ later, later + 1000000 ≤ now + configuration.challengeLifetimeSeconds * 1000000 →
        checkExpiry claims later = .ok ()) ∧
      ∀ later, now + configuration.challengeLifetimeSeconds * 1000000 ≤ later →
        checkExpiry claims later = .error (.conflict "Challenge expired") := by
  obtain ⟨hdigest, rfl⟩ := issueChallenge_eq_ok.mp hissued
  have hfits : (issuedClaims configuration id now manifestDigest).Fits :=
    ⟨show 1 < 2 ^ 32 by decide, hdigest, hexpiry, hwork⟩
  refine ⟨_, verifyChallenge_signChallenge hfits hread, ?_, ?_, ?_⟩
  · intro nonce manifestBytes
    exact checkSubmission_signChallenge hfits hread rfl nonce manifestBytes
  · intro later hlater
    exact checkExpiry_of_le hlater
  · intro later hlater
    exact checkExpiry_of_ge hlater

end

/-! ## The challenge of an empty manifest -/

theorem isAscii_alphabet :
    (Base64.alphabet.all fun c => c.utf8Size == 1 && c != '.') = true := by
  decide +kernel

def urlSafeNoPad : Base64Engine where
  encode := Base64.encode
  decode := Base64.decode
  decode_encode := Base64.decode_encode
  encode_decode _ _ h := Base64.encode_decode h
  length_encode := Base64.length_encode
  isAscii_encode _ c h := by
    have hc := List.all_eq_true.mp isAscii_alphabet c (Base64.mem_encode h)
    rwa [Bool.and_eq_true_iff, beq_iff_eq, bne_iff_ne] at hc

def emptyDigest : Str :=
  "e3b0c44298fc1c149afbf4c8996fb92427ae41e4649b934ca495991b7852b855".toList

def sampleProofOfWork : ProofOfWorkConfiguration := ⟨10, 300⟩

def sampleNow : Timestamp := 1799999700 * 1000000

def sampleClaims : ChallengeClaims :=
  issuedClaims sampleProofOfWork sampleUuid sampleNow emptyDigest

/-- The code of these claims under a key of 32 bytes 7. -/
def sampleHmac : Hmac where
  code message :=
    if message = bytes (Base64.encode (bytes sampleClaims.text)) then
      [82, 104, 86, 80, 183, 84, 232, 69, 96, 87, 231, 63, 81, 81, 59, 217,
        60, 195, 40, 225, 29, 147, 225, 228, 113, 138, 9, 17, 242, 137, 203, 119]
    else List.replicate 32 0
  length_code message := by
    split
    · rfl
    · exact List.length_replicate

def sampleService : Service where
  base64 := urlSafeNoPad
  hmac := sampleHmac
  sha256 message :=
    if message = [] then
      [227, 176, 196, 66, 152, 252, 28, 20, 154, 251, 244, 200, 153, 111, 185, 36,
        39, 174, 65, 228, 100, 155, 147, 76, 164, 149, 153, 27, 120, 82, 184, 85]
    else List.replicate 32 0
  readClaims payload :=
    if payload = bytes sampleClaims.text then some sampleClaims else none

def sampleIssued : IssuedChallenge :=
  ⟨signChallenge sampleService sampleClaims, sampleClaims.expiresAtUnix, 10⟩

theorem isSha256Hex_emptyDigest : isSha256Hex emptyDigest = true := by
  decide +kernel

theorem fits_sampleClaims : sampleClaims.Fits :=
  ⟨show 1 < 2 ^ 32 by decide, isSha256Hex_emptyDigest, by decide, show 10 < 2 ^ 64 by decide⟩

theorem readClaims_sample :
    sampleService.readClaims (bytes sampleClaims.text) = some sampleClaims := by
  unfold sampleService
  dsimp only
  rw [if_pos rfl]

theorem verifyChallenge_sample :
    verifyChallenge sampleService (signChallenge sampleService sampleClaims) = .ok sampleClaims :=
  verifyChallenge_signChallenge fits_sampleClaims readClaims_sample

theorem one_token_per_payload_sample :
    ∃ payload payload', sampleService.readClaims payload = some sampleClaims ∧
      sampleService.readClaims payload' = some sampleClaims ∧ payload = payload' := by
  obtain ⟨payload, payload', hread, hread', -, -, heq⟩ :=
    one_token_per_payload verifyChallenge_sample verifyChallenge_sample
  exact ⟨payload, payload', hread, hread', heq.mp rfl⟩

theorem issued_challenge_is_met_sample :
    ∃ claims, verifyChallenge sampleService sampleIssued.token = .ok claims ∧
      ∀ nonce, checkSubmission sampleService sampleIssued.token nonce [] = .ok claims ↔
        proofIsValid sampleService sampleIssued.token nonce 10 = true := by
  obtain ⟨claims, hverified, hchecked, -, -⟩ :=
    @issued_challenge_is_met sampleService sampleProofOfWork sampleUuid sampleNow emptyDigest
      sampleIssued (show 10 < 2 ^ 64 by decide) fits_sampleClaims.expiresAtUnix
      readClaims_sample (issueChallenge_eq_ok.mpr ⟨isSha256Hex_emptyDigest, rfl⟩)
  refine ⟨claims, hverified, fun nonce => (hchecked nonce []).trans (and_iff_left ?_)⟩
  decide +kernel

end LadybirdReports.Ingestion.ChallengeTokens
