import Mathlib.Data.List.Permutation
import Machbus.Tim.Authentication
/-!
# TIM authentication — both sides of a handshake

A client and a server that agreed on a secret challenge each other. In
whatever order the challenges are issued and heard, the two derive the same
pair of keys, each expects the code that the other computes, and both end
authenticated. Each direction has a key of its own, so where the halves of
derived keys never coincide and codes tell keys apart, no side takes a code
that it could have computed itself.
-/

namespace Machbus.Tim

namespace Primitives

variable (P : Primitives)

/-- The lengths of digests and codes. -/
structure Sized : Prop where
  sha256 : ∀ d, (P.sha256 d).length = 32
  cmac : ∀ key d, (P.cmac key d).length = cmacLen

/-- **Free halves and codes.** No lower half of a derived key is an upper
half, and codes of different keys differ. -/
structure Free : Prop where
  halves : ∀ a b, (P.sha256 a).take 16 ≠ (P.sha256 b).drop 16
  codes : ∀ key key' d d', key.length = 16 → key'.length = 16 →
    P.cmac key d = P.cmac key' d' → key = key'

end Primitives

def TimRole.peer : TimRole → TimRole
  | .client => .server
  | .server => .client

/-! ## The derived keys -/

section

variable (P : Primitives) (r : TimRole) (shared : List UInt8) {own peer : List UInt8}

/-- **The sides derive each other's keys.** -/
theorem deriveKeys_peer (h : own ≠ peer) :
    deriveKeys P r.peer shared peer own = (deriveKeys P r shared own peer).swap := by
  have horder : (if peer < own then (peer, own) else (own, peer)) =
      if own < peer then (own, peer) else (peer, own) := by
    by_cases hlt : own < peer
    · rw [if_pos hlt, if_neg (List.lt_asymm hlt)]
    · rw [if_neg hlt, if_pos]
      by_contra hle
      exact h (List.le_antisymm hle hlt)
  unfold deriveKeys
  rw [horder]
  cases r <;> rfl

/-- No code is one of a key for sending and one of a key for receiving in
the same role. -/
theorem cmac_deriveKeys_ne (hP : P.Sized) (hfree : P.Free)
    (shared' own peer own' peer' d d' : List UInt8) :
    P.cmac (deriveKeys P r shared own peer).1 d ≠
      P.cmac (deriveKeys P r shared' own' peer').2 d' := by
  intro h
  have hkeys := hfree.codes _ _ _ _ (by cases r <;> simp [deriveKeys, hP.sha256])
    (by cases r <;> simp [deriveKeys, hP.sha256]) h
  cases r with
  | client => exact hfree.halves _ _ hkeys
  | server => exact hfree.halves _ _ hkeys.symm

end

namespace TimAuthentication

variable {P : Primitives} {s t : TimAuthentication} {response : List UInt8}

/-! ## Reflection -/

/-- The keys come from the challenges a side holds. -/
theorem directionalKeys_eq_ok {keys : List UInt8 × List UInt8}
    (h : s.directionalKeys P = .ok keys) :
    ∃ shared, keys = deriveKeys P s.role shared s.ownChallenge s.peerChallenge := by
  simp only [directionalKeys, given_then_eq_ok, require_then_eq_ok] at h
  obtain ⟨shared, -, -, -, h⟩ := h
  exact ⟨shared, (Except.ok.inj h).symm⟩

/-- A call that was carried out passed its checks. -/
theorem of_attempt {r : Except AuthError TimAuthentication} (h : (s.attempt r).2 = .ok ()) :
    r = .ok (s.attempt r).1 := by
  cases r with
  | ok t => rfl
  | error e => cases h

/-- Whoever accepts a response has computed it with the key for receiving. -/
theorem of_verifyResponse (h : s.Succeeds P (.verifyResponse response)) : ∃ shared, response =
      P.cmac (deriveKeys P s.role shared s.ownChallenge s.peerChallenge).2 s.ownChallenge := by
  obtain ⟨-, hchecks⟩ := require_then_eq_ok.mp (of_attempt h)
  obtain ⟨expected, hexpected, hchecks⟩ := bind_eq_ok.mp hchecks
  obtain ⟨⟨-, heq⟩, -⟩ := require_then_eq_ok.mp hchecks
  rw [← constantTimeEq_iff.mp heq]
  obtain ⟨keys, hkeys, hcmac⟩ := bind_eq_ok.mp hexpected
  obtain ⟨shared, rfl⟩ := directionalKeys_eq_ok hkeys
  exact ⟨shared, (Except.ok.inj hcmac).symm⟩

/-- **A code of one's own is not accepted**, whenever it was computed. -/
theorem not_reflected (hP : P.Sized) (hfree : P.Free) (hrole : s.role = t.role)
    (h : s.computeResponse P = .ok response) : ¬t.Succeeds P (.verifyResponse response) := by
  intro hok
  obtain ⟨keys, hkeys, hcmac⟩ := bind_eq_ok.mp h
  obtain ⟨shared, rfl⟩ := directionalKeys_eq_ok hkeys
  obtain ⟨shared', hresponse⟩ := of_verifyResponse hok
  rw [← Except.ok.inj hcmac, ← hrole] at hresponse
  exact cmac_deriveKeys_ne P s.role shared hP hfree shared' _ _ _ _ _ _ hresponse

/-! ## A client and a server -/

/-- **Each side has a secret and the public key of the other's**, and the
values they come to are the same. -/
structure Keyed (P : Primitives) (σ : TimRole → TimAuthentication) : Prop where
  role : ∀ r, (σ r).role = r
  keys : ∃ secret : TimRole → List UInt8, ∀ r, (σ r).secret = some (secret r) ∧
    (σ r).peerEcdhPublic = some (P.publicKey (secret r.peer)) ∧
    P.diffieHellman (secret r) (P.publicKey (secret r.peer)) =
      P.diffieHellman (secret r.peer) (P.publicKey (secret r))

/-- A side that has issued a challenge and heard the other one. -/
def challenged (challenge : TimRole → List UInt8) (shared : List UInt8) (r : TimRole)
    (s : TimAuthentication) : TimAuthentication :=
  { s with
    shared := some shared
    ownChallenge := challenge r
    peerChallenge := challenge r.peer
    state := .challengeIssued }

/-- The response of a side. -/
def code (P : Primitives) (challenge : TimRole → List UInt8) (shared : List UInt8) (r : TimRole) :
    List UInt8 :=
  P.cmac (deriveKeys P r shared (challenge r) (challenge r.peer)).1 (challenge r.peer)

variable {challenge : TimRole → List UInt8} {shared : List UInt8} {r : TimRole}
  {σ : TimRole → TimAuthentication}

/-- The agreement gives both the same secret. -/
theorem Keyed.step (h : Keyed P σ) (hok : ∀ r, (σ r).Succeeds P .completeKeyAgreement) :
    ∃ shared, ∀ r, step P (σ r) .completeKeyAgreement =
      { σ r with shared := some shared, state := .keyAgreed } := by
  obtain ⟨secret, hkeys⟩ := h.keys
  refine ⟨P.diffieHellman (secret .client) (P.publicKey (secret .server)), fun r => ?_⟩
  have hchecks := of_attempt (hok r)
  simp only [require_then_eq_ok, given_then_eq_ok] at hchecks
  obtain ⟨-, own, hown, key, hkey, -, hchecks⟩ := hchecks
  rw [(hkeys r).1] at hown
  rw [(hkeys r).2.1] at hkey
  cases hown
  cases hkey
  refine (Except.ok.inj hchecks).symm.trans ?_
  cases r with
  | client => rfl
  | server => rw [(hkeys .server).2.2]; rfl

section

variable (hlegal : ∀ r, validChallenge (challenge r) = .ok ())
include hlegal

/-- The order of the challenges makes no difference. -/
theorem run_challenges {calls : List AuthCall} (hcalls : calls.Perm
      [.issueChallenge (challenge r), .acceptPeerChallenge (challenge r.peer)]) :
    run (step P) { s with shared := some shared, state := .keyAgreed } calls =
      challenged challenge shared r s := by
  rcases List.perm_pair.mp hcalls with rfl | rfl
  all_goals
    simp only [run_cons, step, call, issueChallenge, acceptPeerChallenge, hlegal]
    rfl

/-! ## Responses -/

variable (hrole : s.role = r) (hne : challenge r ≠ challenge r.peer)
include hrole hne

theorem directionalKeys_challenged : (challenged challenge shared r s).directionalKeys P =
    .ok (deriveKeys P r shared (challenge r) (challenge r.peer)) := by
  have hpos : ∀ r, challenge r ≠ [] := fun r hnil => by
    have := hlegal r
    rw [hnil] at this
    cases this
  simp [directionalKeys, challenged, hrole, hpos, hne, given, require]
  rfl

theorem computeResponse_challenged : (challenged challenge shared r s).computeResponse P =
    .ok (code P challenge shared r) := by
  rw [computeResponse, directionalKeys_challenged hlegal hrole hne]
  rfl

/-- **One side expects what the other computes.** -/
theorem verifyResponse_challenged (hP : P.Sized) :
    (challenged challenge shared r s).verifyResponse P (code P challenge shared r.peer) =
      ({ challenged challenge shared r s with state := .authenticated }, .ok ()) := by
  have hexpected : (challenged challenge shared r s).expectedPeerResponse P =
      .ok (code P challenge shared r.peer) := by
    have hpeer : r.peer.peer = r := by cases r <;> rfl
    rw [expectedPeerResponse, directionalKeys_challenged hlegal hrole hne, code, hpeer,
      deriveKeys_peer P r shared hne]
    rfl
  have hstate : (challenged challenge shared r s).state = .challengeIssued := rfl
  rw [verifyResponse, require_bind_of hstate, hexpected]
  exact congrArg _ (require_bind_of ⟨hP.cmac _ _, constantTimeEq_iff.mpr rfl⟩ _)

end

/-! ## Handshakes -/

/-- **Both sides of a handshake end authenticated**, whether a side issues
its challenge first or hears the other's first: each response is computed,
before or after its side is authenticated itself, and accepted. And no
response is accepted in the role it was computed in. -/
theorem handshake_agreement (hP : P.Sized) {σ₀ σ : TimRole → TimAuthentication}
    (hkeyed : Keyed P σ₀) (hagreed : ∀ r, (σ₀ r).Succeeds P .completeKeyAgreement)
    {challenge : TimRole → List UInt8} (hlegal : ∀ r, validChallenge (challenge r) = .ok ())
    (hne : challenge .client ≠ challenge .server) {calls : TimRole → List AuthCall}
    (hcalls : ∀ r, (calls r).Perm
      [.issueChallenge (challenge r), .acceptPeerChallenge (challenge r.peer)])
    (hσ : ∀ r, σ r = Machbus.run (step P) (σ₀ r) (.completeKeyAgreement :: calls r)) :
    (∃ response : TimRole → List UInt8, ∀ r,
      (∀ state, { σ r with state := state }.computeResponse P = .ok (response r)) ∧
      (σ r).verifyResponse P (response r.peer) = ({ σ r with state := .authenticated }, .ok ())) ∧
    (P.Free → ∀ s t : TimAuthentication, s.role = t.role → ∀ response,
      s.computeResponse P = .ok response → ¬t.Succeeds P (.verifyResponse response)) := by
  obtain ⟨shared, hshared⟩ := hkeyed.step hagreed
  have hdiff : ∀ r, challenge r ≠ challenge r.peer
    | .client => hne
    | .server => hne.symm
  have hmet : ∀ r, σ r = challenged challenge shared r (σ₀ r) := by
    intro r
    rw [hσ, run_cons, hshared, run_challenges hlegal (hcalls r)]
  refine ⟨⟨code P challenge shared, fun r => ?_⟩, fun hfree s t hrole response =>
    not_reflected hP hfree hrole⟩
  rw [hmet]
  exact ⟨fun _ => computeResponse_challenged hlegal (hkeyed.role r) (hdiff r),
    verifyResponse_challenged hlegal (hkeyed.role r) (hdiff r) hP⟩

/-- The first bytes, filled up with zeros. -/
def fit (n : ℕ) (l : List UInt8) : List UInt8 := (l ++ List.replicate n 0).take n

/-- Functions with halves of their own for each direction. -/
def halved : Primitives where
  verifyLink _ _ := true
  publicKey secret := secret
  diffieHellman secret key := secret.zipWith (· ^^^ ·) key
  wasContributory _ := true
  sha256 data := 0 :: fit 15 (data.drop 4) ++ 1 :: fit 15 data.reverse
  cmac key _ := fit 16 key

theorem halved_sized : halved.Sized :=
  ⟨fun _ => by simp [halved, fit], fun _ _ => by simp [halved, fit, cmacLen]⟩

theorem halved_free : halved.Free := by
  constructor
  · intro a b h
    simp [halved, fit] at h
  · intro key key' d d' hkey hkey' h
    simpa [halved, fit, List.take_append_of_le_length, hkey, hkey'] using h

/-- The keys and the challenges of the sides. -/
def keyOf : TimRole → List UInt8
  | .client => keyA
  | .server => keyB

def challengeOf : TimRole → List UInt8
  | .client => ours
  | .server => theirs

/-- Two sides that have exchanged certificates. -/
def introduced (r : TimRole) : TimAuthentication :=
  run (step halved) (withRole r)
    [.acceptChain (chainOf (keyOf r.peer)) [1] [], .beginKeyAgreement (keyOf r)]

/-- The client hears a challenge before it has issued its own. -/
def crossing : TimRole → List AuthCall
  | .client => [.acceptPeerChallenge theirs, .issueChallenge ours]
  | .server => [.issueChallenge theirs, .acceptPeerChallenge ours]

theorem handshake_agreement_halved :
    (∃ response : TimRole → List UInt8, ∀ r, (Machbus.run (step halved) (introduced r)
      (.completeKeyAgreement :: crossing r ++ [.verifyResponse (response r.peer)])).state =
        .authenticated) ∧
    ∀ s t : TimAuthentication, s.role = t.role → ∀ response,
      s.computeResponse halved = .ok response → ¬t.Succeeds halved (.verifyResponse response) := by
  have hkeyed : Keyed halved introduced :=
    ⟨by intro r; cases r <;> rfl, keyOf, by intro r; cases r <;> decide +kernel⟩
  have hlegal : ∀ r, validChallenge (challengeOf r) = .ok () := by intro r; cases r <;> rfl
  obtain ⟨⟨response, hall⟩, hfree⟩ := handshake_agreement halved_sized hkeyed
    (by intro r; cases r <;> decide +kernel) hlegal (by decide)
    (show ∀ r, (crossing r).Perm _ by intro r; cases r <;> decide) fun _ => rfl
  refine ⟨⟨response, fun r => ?_⟩, hfree halved_free⟩
  rw [run_concat, step, call, (hall r).2]

end TimAuthentication

end Machbus.Tim
