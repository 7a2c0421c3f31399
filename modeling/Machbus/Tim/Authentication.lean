import Machbus.Common.Run
import Machbus.Tim.Model.Auth
/-!
# TIM authentication — what it rests on

A peer that is authenticated has answered a challenge under a secret that
was agreed on with the key of the chain accepted last. The secret is kept
when another chain is accepted and when a call fails, though, and so are
our key pair and the peer's challenge; a challenge may be issued whenever
there is a secret, and what is authenticated then is whoever agreed on the
old one. In a run that issues challenges only once the keys are agreed,
and uses no key pair and no challenge of the peer from before,
authentication rests on what happened since the last failure.
-/

namespace Machbus.Tim

open List

/-! ## Tags -/

theorem foldl_diff_eq_zero (l : List (UInt8 × UInt8)) (d : UInt8) :
    l.foldl (fun diff (x, y) => diff ||| (x ^^^ y)) d = 0 ↔ d = 0 ∧ ∀ e ∈ l, e.1 = e.2 := by
  induction l generalizing d with
  | nil => simp
  | cons e l ih =>
    rw [foldl_cons, ih, UInt8.or_eq_zero_iff, UInt8.xor_eq_zero_iff, forall_mem_cons, and_assoc]

/-- **Comparing without an early exit is comparing.** -/
theorem constantTimeEq_iff {a b : List UInt8} : constantTimeEq a b = true ↔ a = b := by
  rw [constantTimeEq]
  split
  next hlen => exact iff_of_false (by decide) fun h => hlen (congrArg length h)
  rename_i hlen
  rw [beq_iff_eq, foldl_diff_eq_zero]
  constructor
  · rintro ⟨-, h⟩
    refine ext_getElem (not_not.mp hlen) fun i hi hi' => ?_
    have hmem : (a[i], b[i]) ∈ a.zip b :=
      mem_iff_getElem.mpr ⟨i, by rw [length_zip]; omega, getElem_zip⟩
    exact h _ hmem
  · rintro rfl
    refine ⟨rfl, fun e he => ?_⟩
    obtain ⟨i, hi, rfl⟩ := mem_iff_getElem.mp he
    rw [getElem_zip]

namespace TimAuthentication

variable (P : Primitives)

/-! ## Evidence -/

section

variable (s : TimAuthentication)

/-- The call is carried out. -/
def Succeeds (a : AuthCall) : Prop := (s.call P a).2 = .ok ()

instance (s : TimAuthentication) (a : AuthCall) : Decidable (s.Succeeds P a) :=
  match h : (s.call P a).2 with
  | .ok () => .isTrue h
  | .error _ => .isFalse fun hok => by rw [Succeeds, h] at hok; cases hok

/-- A call that starts over: a chain is presented, or the handshake is
abandoned. -/
def startsOver : AuthCall → Bool
  | .acceptChain .. | .reset => true
  | _ => false

/-- A call after which earlier steps do not count: it starts over, or it
fails. -/
def Ends (a : AuthCall) : Prop := startsOver a = true ∨ ¬s.Succeeds P a

instance (s : TimAuthentication) (a : AuthCall) : Decidable (s.Ends P a) :=
  inferInstanceAs (Decidable (_ ∨ _))

/-- The handshake together with the calls since the last one that ended
it. -/
def watch (h : TimAuthentication × List AuthCall) (a : AuthCall) :
    TimAuthentication × List AuthCall :=
  (h.1.step P a, if h.1.Ends P a then [] else h.2 ++ [a])

/-- The calls since the last one that failed or started over. -/
def recent (calls : List AuthCall) : List AuthCall := (run (watch P) (s, []) calls).2

/-- How far a handshake has come. -/
inductive Stage
  /-- The device key of the chain accepted last. -/
  | certified (key : List UInt8)
  /-- The secret agreed on with it. -/
  | agreed (shared : List UInt8)
  /-- A challenge after that. -/
  | challenged (shared challenge : List UInt8)
  | attested

/-- **What has happened since the last call that failed or started over**,
in the order the handshake asks for. Our key pair and the challenge of the
peer are from then too. -/
inductive Evidence (s : TimAuthentication) : List AuthCall → Stage → Prop
  | accepted {calls chain trustAnchor revoked key}
      (hok : (run (step P) s calls).Succeeds P (.acceptChain chain trustAnchor revoked))
      (hkey : chain.deviceX25519PublicKey = .ok key) :
      Evidence s (calls ++ [.acceptChain chain trustAnchor revoked]) (.certified key)
  | agreed {calls key secret} (h : Evidence s calls (.certified key))
      (hok : (run (step P) s calls).Succeeds P .completeKeyAgreement)
      (hsecret : (run (step P) s calls).secret = some secret)
      (hbegun : .beginKeyAgreement secret ∈ recent P s calls) :
      Evidence s (calls ++ [.completeKeyAgreement]) (.agreed (P.diffieHellman secret key))
  | challenged {calls shared challenge} (h : Evidence s calls (.agreed shared))
      (hok : (run (step P) s calls).Succeeds P (.issueChallenge challenge)) :
      Evidence s (calls ++ [.issueChallenge challenge]) (.challenged shared challenge)
  | attested {calls shared challenge peer response}
      (h : Evidence s calls (.challenged shared challenge))
      (hok : (run (step P) s calls).Succeeds P (.verifyResponse response))
      (hpeer : .acceptPeerChallenge peer ∈ recent P s calls)
      (hresponse : response = P.cmac (deriveKeys P s.role shared challenge peer).2 challenge) :
      Evidence s (calls ++ [.verifyResponse response]) .attested
  | later {calls stage a} (h : Evidence s calls stage)
      (ha : ¬(run (step P) s calls).Ends P a) : Evidence s (calls ++ [a]) stage

end

/-- **Nothing from before a failure is used.** A challenge is issued once
the keys are agreed, and not after a failure or with another chain
accepted since; the key pair that an agreement takes and the challenge of
the peer that a response is checked with are among the recent calls. -/
def Orderly (h : TimAuthentication × List AuthCall) : AuthCall → Prop
  | .completeKeyAgreement => ∀ secret ∈ h.1.secret, .beginKeyAgreement secret ∈ h.2
  | .issueChallenge _ =>
    h.1.state = .keyAgreed ∨ h.1.state = .challengeIssued ∨ h.1.state = .authenticated
  | .verifyResponse _ =>
    h.1.peerChallenge = [] ∨ .acceptPeerChallenge h.1.peerChallenge ∈ h.2
  | _ => True

instance (h : TimAuthentication × List AuthCall) (a : AuthCall) : Decidable (Orderly h a) := by
  unfold Orderly
  split <;> infer_instance

/-! ## Calls -/

variable {P} {s s₀ t : TimAuthentication} {calls : List AuthCall} {a : AuthCall}

/-- Watching changes nothing. -/
theorem run_watch (calls : List AuthCall) :
    run (watch P) (s, []) calls = (run (step P) s calls, recent P s calls) := by
  have h (h : TimAuthentication × List AuthCall) :
      (run (watch P) h calls).1 = run (step P) h.1 calls := by
    induction calls generalizing h with
    | nil => rfl
    | cons a calls ih => exact ih _
  exact Prod.ext (h _) rfl

/-- **Evidence for the state a handshake is in.** -/
structure Supported (P : Primitives) (s₀ : TimAuthentication) (calls : List AuthCall)
    (s : TimAuthentication) : Prop where
  role : s.role = s₀.role
  certified : s.state = .certificatesExchanged ∨ s.state = .keyAgreed ∨
    s.state = .challengeIssued ∨ s.state = .authenticated →
      ∃ key, s.peerEcdhPublic = some key ∧ Evidence P s₀ calls (.certified key)
  agreed : s.state = .keyAgreed ∨ s.state = .challengeIssued ∨ s.state = .authenticated →
    ∃ shared, s.shared = some shared ∧ Evidence P s₀ calls (.agreed shared)
  challenged : s.state = .challengeIssued → ∃ shared, s.shared = some shared ∧
    Evidence P s₀ calls (.challenged shared s.ownChallenge)
  attested : s.state = .authenticated → Evidence P s₀ calls .attested

/-- A state that claims nothing. -/
theorem Supported.of_none (hrole : t.role = s₀.role)
    (ht : t.state = .unauthenticated ∨ ∃ e, t.state = .failed e) : Supported P s₀ calls t := by
  have hnot : t.state ≠ .certificatesExchanged ∧ t.state ≠ .keyAgreed ∧ t.state ≠ .challengeIssued ∧
      t.state ≠ .authenticated := by
    rcases ht with h | ⟨e, h⟩ <;> rw [h] <;> exact ⟨nofun, nofun, nofun, nofun⟩
  obtain ⟨h₁, h₂, h₃, h₄⟩ := hnot
  exact ⟨hrole, fun h => by tauto, fun h => by tauto, fun h => absurd h h₃, fun h => absurd h h₄⟩

/-- A call that is carried out and touches none of it. -/
theorem Supported.later (h : Supported P s₀ calls s) (ha : ¬(run (step P) s₀ calls).Ends P a)
    (hrole : t.role = s.role) (hstate : t.state = s.state) (hshared : t.shared = s.shared)
    (hown : t.ownChallenge = s.ownChallenge) (hkey : t.peerEcdhPublic = s.peerEcdhPublic) :
    Supported P s₀ (calls ++ [a]) t := by
  refine ⟨hrole.trans h.role, ?_, ?_, ?_, ?_⟩ <;> rw [hstate]
  · rw [hkey]
    exact fun hs => (h.certified hs).imp fun _ h => ⟨h.1, h.2.later ha⟩
  · rw [hshared]
    exact fun hs => (h.agreed hs).imp fun _ h => ⟨h.1, h.2.later ha⟩
  · rw [hshared, hown]
    exact fun hs => (h.challenged hs).imp fun _ h => ⟨h.1, h.2.later ha⟩
  · exact fun hs => (h.attested hs).later ha

theorem not_ends (hover : startsOver a = false) (hok : s.Succeeds P a) : ¬s.Ends P a := by
  rintro (h | h)
  · rw [hover] at h
    cases h
  · exact h hok

/-- A call that fails supports nothing; otherwise its checks have passed. -/
theorem Supported.attempt (h : Supported P s₀ calls s) {r : Except AuthError TimAuthentication}
    (hcall : s.call P a = s.attempt r)
    (hok : ∀ t, r = .ok t → s.Succeeds P a → Supported P s₀ (calls ++ [a]) t) :
    Supported P s₀ (calls ++ [a]) (step P s a) := by
  rw [step, hcall]
  cases r with
  | ok t => exact hok t rfl (by rw [Succeeds, hcall]; rfl)
  | error e => exact .of_none h.role (.inr ⟨e, rfl⟩)

theorem Supported.step (h : Supported P s₀ calls (run (step P) s₀ calls))
    (ha : Orderly (run (.step P) s₀ calls, recent P s₀ calls) a) :
    Supported P s₀ (calls ++ [a]) (.step P (run (.step P) s₀ calls) a) := by
  cases a with
  | acceptChain chain trustAnchor revoked =>
    refine h.attempt rfl fun t ht hok => ?_
    obtain ⟨-, ht⟩ := require_then_eq_ok.mp ht
    obtain ⟨-, -, ht⟩ := bind_eq_ok.mp ht
    obtain ⟨-, -, ht⟩ := bind_eq_ok.mp ht
    split at ht
    · cases ht
    obtain ⟨key, hkey, ht⟩ := bind_eq_ok.mp ht
    cases ht
    exact ⟨h.role, fun _ => ⟨key, rfl, .accepted hok hkey⟩, by simp, by simp, by simp⟩
  | beginKeyAgreement privateBytes => exact h.later (not_ends rfl rfl) rfl rfl rfl rfl rfl
  | completeKeyAgreement =>
    refine h.attempt rfl fun t ht hok => ?_
    simp only [require_then_eq_ok, given_then_eq_ok] at ht
    obtain ⟨hstate, secret, hsecret, peerPublic, hpublic, -, ht⟩ := ht
    cases ht
    obtain ⟨key, hkey, hcertified⟩ := h.certified (by tauto)
    obtain rfl : peerPublic = key := Option.some.inj (hpublic.symm.trans hkey)
    exact ⟨h.role, fun _ => ⟨peerPublic, hkey, hcertified.later (not_ends rfl hok)⟩,
      fun _ => ⟨_, rfl, .agreed hcertified hok hsecret (ha _ hsecret)⟩, by simp, by simp⟩
  | issueChallenge challenge =>
    refine h.attempt rfl fun t ht hok => ?_
    simp only [validChallenge, require_then_eq_ok] at ht
    obtain ⟨-, -, ht⟩ := ht
    cases ht
    obtain ⟨key, hkey, hcertified⟩ := h.certified (.inr ha)
    obtain ⟨shared, hshared, hagreed⟩ := h.agreed ha
    exact ⟨h.role, fun _ => ⟨key, hkey, hcertified.later (not_ends rfl hok)⟩,
      fun _ => ⟨shared, hshared, hagreed.later (not_ends rfl hok)⟩,
      fun _ => ⟨shared, hshared, .challenged hagreed hok⟩, by simp⟩
  | acceptPeerChallenge challenge =>
    refine h.attempt rfl fun t ht hok => ?_
    simp only [validChallenge, require_then_eq_ok] at ht
    obtain ⟨-, -, ht⟩ := ht
    cases ht
    exact h.later (not_ends rfl hok) rfl rfl rfl rfl rfl
  | verifyResponse response =>
    refine h.attempt rfl fun t ht hok => ?_
    obtain ⟨hstate, ht⟩ := require_then_eq_ok.mp ht
    obtain ⟨expected, hexpected, ht⟩ := bind_eq_ok.mp ht
    obtain ⟨⟨-, heq⟩, ht⟩ := require_then_eq_ok.mp ht
    cases ht
    obtain ⟨key, hkey, hcertified⟩ := h.certified (by tauto)
    obtain ⟨shared, hshared, hagreed⟩ := h.agreed (by tauto)
    obtain ⟨shared', hshared', hchallenged⟩ := h.challenged hstate
    refine ⟨h.role, fun _ => ⟨key, hkey, hcertified.later (not_ends rfl hok)⟩,
      fun _ => ⟨shared, hshared, hagreed.later (not_ends rfl hok)⟩, by simp, fun _ => ?_⟩
    obtain ⟨keys, hkeys, hcmac⟩ := bind_eq_ok.mp hexpected
    simp only [directionalKeys, given_then_eq_ok, require_then_eq_ok] at hkeys
    obtain ⟨shared'', hshared'', hgiven, -, hkeys⟩ := hkeys
    cases hkeys
    cases hcmac
    obtain rfl : shared' = shared'' := Option.some.inj (hshared'.symm.trans hshared'')
    refine .attested hchallenged hok (ha.resolve_left fun hnone => hgiven (.inr hnone)) ?_
    rw [← constantTimeEq_iff.mp heq, h.role]
  | reset => exact .of_none h.role (.inl rfl)

/-! ## Runs -/

variable (P)

/-- **A handshake in order is bound to the chain it accepted**: whenever
the peer is authenticated, since the last call that failed or started over
a chain was accepted, the key it certifies was agreed with under a key
pair made since, a challenge was issued, and its code under the key of
that secret and of a challenge of the peer received since came back. -/
theorem authenticated_is_attested (role : TimRole) {calls : List AuthCall}
    (hcalls : Along (watch P) Orderly (withRole role, []) calls) :
    ∀ pre, pre <+: calls → (Machbus.run (step P) (withRole role) pre).state = .authenticated →
      Evidence P (withRole role) pre .attested := by
  rintro pre ⟨post, rfl⟩
  have hpre := ((along_append _).mp hcalls).1
  suffices h : Supported P (withRole role) pre (run (step P) (withRole role) pre) from
    h.attested
  clear hcalls
  induction pre using reverseRecOn with
  | nil => exact .of_none rfl (.inl rfl)
  | append_singleton pre a ih =>
    rw [along_concat, run_watch] at hpre
    rw [run_concat]
    exact (ih hpre.1).step hpre.2

/-! ### Two peers -/

/-- Functions that tell keys and challenges apart. -/
def plain : Primitives where
  verifyLink _ _ := true
  publicKey secret := secret
  diffieHellman secret key := secret ++ key
  wasContributory _ := true
  sha256 data := (data.drop 4).take 64
  cmac key data := (key.reverse ++ data).take 16

/-- A chain of one certificate that is trusted and has the key. -/
def chainOf (key : List UInt8) : CertificateChain :=
  [⟨[], [], [], [1], CertificateChain.oidX25519, some key⟩]

def keyA : List UInt8 := List.replicate 32 0xA
def keyB : List UInt8 := List.replicate 32 0xB
def ownSecret : List UInt8 := List.replicate 32 0x5
def ours : List UInt8 := List.replicate 16 0xC
def theirs : List UInt8 := List.replicate 16 0xD

/-- The code that the owner of `keyA` can compute. -/
def codeA : List UInt8 :=
  plain.cmac (deriveKeys plain .client (plain.diffieHellman ownSecret keyA) ours theirs).2 ours

/-- A handshake with one peer. -/
def onePeer : List AuthCall :=
  [.acceptChain (chainOf keyA) [1] [], .beginKeyAgreement ownSecret, .completeKeyAgreement,
    .issueChallenge ours, .acceptPeerChallenge theirs, .verifyResponse codeA]

theorem attested_one_peer :
    (Machbus.run (step plain) (withRole .client) onePeer).state = .authenticated ∧
      Evidence plain (withRole .client) onePeer .attested :=
  ⟨by decide +kernel, @authenticated_is_attested plain .client onePeer (by decide +kernel) _
    (prefix_refl _) (by decide +kernel)⟩

variable {P}

/-- Whatever comes behind the agreement on a key, it is behind the last
chain too. -/
theorem Evidence.completed {stage : Stage} (h : Evidence P s calls stage)
    (hstage : ∀ key, stage ≠ .certified key) :
    ∃ pre post, calls = pre ++ .completeKeyAgreement :: post ∧
      ∀ a ∈ post, startsOver a = false := by
  induction h with
  | accepted => exact absurd rfl (hstage _)
  | @agreed calls key secret => exact ⟨calls, [], rfl, by simp⟩
  | @challenged _ _ c _ _ ih =>
    obtain ⟨pre, post, rfl, hpost⟩ := ih nofun
    exact ⟨pre, post ++ [.issueChallenge c], by simp,
      by simpa [or_imp, forall_and] using ⟨hpost, rfl⟩⟩
  | @attested _ _ _ _ r _ _ _ _ ih =>
    obtain ⟨pre, post, rfl, hpost⟩ := ih nofun
    exact ⟨pre, post ++ [.verifyResponse r], by simp,
      by simpa [or_imp, forall_and] using ⟨hpost, rfl⟩⟩
  | @later calls stage a _ ha ih =>
    obtain ⟨pre, post, rfl, hpost⟩ := ih hstage
    have hover : startsOver a = false := by
      rw [Ends, not_or, Bool.not_eq_true] at ha
      exact ha.1
    exact ⟨pre, post ++ [a], by simp, by simpa [or_imp, forall_and] using ⟨hpost, hover⟩⟩

/-- The keys are agreed with one peer, another presents its chain, and the
first one answers the challenge. -/
def twoPeers : List AuthCall :=
  [.acceptChain (chainOf keyA) [1] [], .beginKeyAgreement ownSecret, .completeKeyAgreement,
    .acceptChain (chainOf keyB) [1] [], .issueChallenge ours, .acceptPeerChallenge theirs,
    .verifyResponse codeA]

/-- **The second peer is authenticated**, with nothing to show for it. -/
theorem authenticated_not_attested :
    (Machbus.run (step plain) (withRole .client) twoPeers).state = .authenticated ∧
      (Machbus.run (step plain) (withRole .client) twoPeers).peerEcdhPublic = some keyB ∧
      ¬Evidence plain (withRole .client) twoPeers .attested := by
  refine ⟨by decide +kernel, by decide +kernel, fun h => ?_⟩
  obtain ⟨pre, post, heq, hpost⟩ := h.completed nofun
  have hover : .acceptChain (chainOf keyB) [1] [] ∈ post := by
    unfold twoPeers at heq
    rcases pre with _ | ⟨a, _ | ⟨b, _ | ⟨c, _ | ⟨d, _ | ⟨e, _ | ⟨f, _ | ⟨g, pre⟩⟩⟩⟩⟩⟩⟩ <;>
      simp at heq
    obtain ⟨-, -, rfl⟩ := heq
    exact mem_cons_self
  exact absurd (hpost _ hover) (by decide)

end TimAuthentication

end Machbus.Tim
