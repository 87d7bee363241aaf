import Autograph.Signer.ContentSignaturePki

/-!
# What the content-signature signer guarantees

**Construction.** `New` refuses a configuration of another type, one without an ID or a
private key, and an issuer key that is not ECDSA. It never checks the mode
`getModeFromCurve` derives: for a curve other than P-256, P-384 and P-521 the mode is `""`,
and when the helpers succeed the signer is returned all the same
(`new_accepts_unsupported_curve`). Its signatures then carry `Len = -1`, and `SignData`
records `sha256`, the hash `makeTemplatedHash` falls back to, where `getSignatureHash ""`
is `""`.

**Signing.** The digest `makeTemplatedHash` makes always passes `SignHash`'s length check
(`makeTemplatedHash_length`). But `SignData` asserts `SignHash`'s result to be a
`*ContentSignature` before it looks at the error: whenever the issuer key's primitive fails
or its output does not parse, `SignData` panics instead of returning the error
(`signData_panics_iff`).
-/

namespace Autograph.Signer.ContentSignaturePki

/-! ## Modes and digests -/

/-- The mode of a supported curve; `""` for any other. -/
theorem getModeFromCurve_eq_empty {c : String} (hc : c ≠ "P-256" ∧ c ≠ "P-384" ∧ c ≠ "P-521") :
    getModeFromCurve c = "" := by
  simp [getModeFromCurve, hc]

section
variable (H : Hashes)

/-- The digest is 32, 48 or 64 bytes long, whatever the input and the mode. -/
theorem makeTemplatedHash_length (d : List UInt8) (mode : String) :
    (makeTemplatedHash H d mode).2.length = 32 ∨ (makeTemplatedHash H d mode).2.length = 48 ∨
      (makeTemplatedHash H d mode).2.length = 64 := by
  unfold makeTemplatedHash; split_ifs <;> simp only [List.length_ofFn] <;> decide

/-- For an unknown mode, `makeTemplatedHash` falls back to SHA-256. -/
theorem makeTemplatedHash_fst_empty (d : List UInt8) : (makeTemplatedHash H d "").1 = "sha256" :=
  rfl

end

/-! ## Signing -/

section
variable {H : Hashes} {u : List UInt8 → Except String EcdsaAsn1Signature} {s : ContentSigner}
  {input d : List UInt8}

/-- `SignHash` succeeds exactly when the digest has a signable length, the primitive signs it
and its output parses; the signature then carries the signer's mode, length, x5u and ID. -/
theorem signHash_eq_ok {sig : ContentSignature} :
    signHash u s d = .ok sig ↔ (d.length = 32 ∨ d.length = 48 ∨ d.length = 64) ∧
      ∃ der rs, s.issuerPriv d = .ok der ∧ u der = .ok rs ∧
        sig = ⟨getSignatureLen s.mode, s.mode, s.x5u, s.id, rs.r, rs.s, true, ""⟩ := by
  unfold signHash
  by_cases hl : d.length ≠ 32 ∧ d.length ≠ 48 ∧ d.length ≠ 64
  · simp only [if_pos hl, reduceCtorEq, false_iff, not_and]
    omega
  · rw [if_neg hl]
    have hl' : d.length = 32 ∨ d.length = 48 ∨ d.length = 64 := by omega
    simp only [hl', true_and]
    cases hp : s.issuerPriv d <;> simp only [reduceCtorEq, false_and, exists_false,
      Except.ok.injEq, exists_and_left, exists_eq_left']
    split <;> simp_all [eq_comm]

/-- `SignHash` fails on a digest of signable length exactly when the primitive fails or its
output does not parse. -/
theorem signHash_error_iff (hd : d.length = 32 ∨ d.length = 48 ∨ d.length = 64) :
    (∃ e, signHash u s d = .error e) ↔
      (∃ e, s.issuerPriv d = .error e) ∨ ∃ der e, s.issuerPriv d = .ok der ∧ u der = .error e := by
  unfold signHash
  rw [if_neg (by omega)]
  cases hp : s.issuerPriv d <;> simp only [Except.error.injEq, exists_eq', reduceCtorEq,
    exists_false, Except.ok.injEq, false_and, true_or, false_or, exists_and_left, exists_eq_left']
  split <;> simp_all

/-- `SignData` on an input of at least 10 bytes: `SignHash` on the templated digest, then
the assertion on its result. -/
theorem signData_of_le (hl : 10 ≤ input.length) :
    signData H u s input =
      match signHash u s (makeTemplatedHash H input s.mode).2 with
      | .ok sig => .ret (.ok (sig.storeHashName (makeTemplatedHash H input s.mode).1))
      | .error _ => .panicked
        "interface conversion: signer.Signature is nil, not *contentsignaturepki.ContentSignature" := by
  unfold signData
  exact (if_neg (by omega)).trans (by cases makeTemplatedHash H input s.mode; rfl)

/-- What `SignData` returns when it returns a signature. -/
theorem signData_eq_ok {sig : ContentSignature} (h : signData H u s input = .ret (.ok sig)) :
    10 ≤ input.length ∧ sig.len = getSignatureLen s.mode ∧ sig.mode = s.mode ∧
      sig.x5u = s.x5u ∧ sig.id = s.id ∧ sig.finished = true ∧
      sig.hashName = (makeTemplatedHash H input s.mode).1 := by
  by_cases hl : input.length < 10
  · simp [signData, hl] at h
  rw [signData_of_le (by omega)] at h
  split at h
  · rename_i sig' hsig
    cases h
    obtain ⟨-, der, rs, -, -, rfl⟩ := signHash_eq_ok.mp hsig
    exact ⟨by omega, rfl, rfl, rfl, rfl, rfl, rfl⟩
  · cases h

/-- **`SignData` panics exactly when signing fails.** On an input of at least 10 bytes,
whenever the issuer key's primitive fails on the templated digest or its output does not
parse as an ASN.1 `{R, S}` pair, `SignData` panics on the nil signature instead of
returning `SignHash`'s error; it panics in no other case. -/
theorem signData_panics_iff :
    (∃ msg, signData H u s input = .panicked msg) ↔ 10 ≤ input.length ∧
      ((∃ e, s.issuerPriv (makeTemplatedHash H input s.mode).2 = .error e) ∨
        ∃ der e, s.issuerPriv (makeTemplatedHash H input s.mode).2 = .ok der ∧ u der = .error e) := by
  rw [← signHash_error_iff (makeTemplatedHash_length H input s.mode)]
  by_cases hl : input.length < 10
  · simp [signData, hl]
  · rw [signData_of_le (by omega)]
    split <;> simp_all

/-- A signer on P-256 whose HSM fails to sign: `SignData` on ten bytes panics. -/
theorem signData_panics_when_primitive_fails :
    ∃ msg, signData ⟨fun _ _ => 0, fun _ _ => 0, fun _ _ => 0⟩ (fun _ => .ok ⟨1, 1⟩)
      ⟨"ee", type, p256ecdsa, "key", "", "x5u", 0, fun _ => .error "hsm: sign failed",
        .ecdsa "P-256"⟩ (List.replicate 10 0) = .panicked msg :=
  signData_panics_iff.mpr ⟨by simp, .inl ⟨_, rfl⟩⟩

end

/-! ## Construction -/

section
variable (X : Helpers)

theorem findOrMakeEE_eq_ok {conf : Configuration} {s s' : ContentSigner}
    (h : findOrMakeEE X conf s = .ok s') : s' = { s with x5u := s'.x5u } := by
  unfold findOrMakeEE at h
  split at h
  · cases h; rfl
  · split at h
    · cases h
    · split at h <;> cases h; rfl
  · cases h

theorem checkX5U_eq_ok {s s' : ContentSigner} (h : checkX5U X s = .ok s') :
    s' = { s with x5u := s'.x5u } := by
  unfold checkX5U at h
  split at h
  · cases h; rfl
  · split at h
    · split at h <;> cases h; rfl
    · cases h

/-- **What `New` returns.** A signer built from the configuration and an ECDSA issuer key,
whose mode is derived from the key's curve; only its x5u comes from the helpers. -/
theorem new_eq_ok {conf : Configuration} {s : ContentSigner} (h : new X conf = .ok s) :
    conf.type = type ∧ conf.id ≠ "" ∧ conf.privateKey ≠ "" ∧ ∃ priv c,
      X.getKeysAndRand conf = .ok (priv, .ecdsa c) ∧
      s = ⟨conf.id, conf.type, getModeFromCurve c, conf.privateKey, conf.publicKey, s.x5u,
        conf.validity, priv, .ecdsa c⟩ := by
  unfold new at h
  split_ifs at h with h1 h2 h3
  split at h
  · cases h
  rename_i priv pub hk
  cases pub with
  | other => cases h
  | ecdsa c =>
    refine ⟨not_not.mp h1, h2, h3, priv, c, hk, ?_⟩
    simp only [Except.bind] at h
    split at h
    · cases h
    · rename_i s₁ hf
      rw [checkX5U_eq_ok X h, findOrMakeEE_eq_ok X hf]

/-- `New` on a valid configuration and an ECDSA issuer key, when `findEE` finds an
end-entity whose x5u verifies. -/
theorem new_of_found {conf : Configuration} {priv : SignFn} {c x5u : String}
    (hconf : conf.type = type ∧ conf.id ≠ "" ∧ conf.privateKey ≠ "")
    (hkeys : X.getKeysAndRand conf = .ok (priv, .ecdsa c))
    (hfind : X.findEE conf.withDefaultValidity = .ok x5u) (hverify : X.verifyX5U x5u = none) :
    new X conf = .ok ⟨conf.id, conf.type, getModeFromCurve c, conf.privateKey, conf.publicKey,
      x5u, conf.validity, priv, .ecdsa c⟩ := by
  obtain ⟨ht, hi, hp⟩ := hconf
  simp [new, ht, hi, hp, hkeys, findOrMakeEE, hfind, Except.bind, checkX5U, hverify]

/--
**`New` accepts any ECDSA curve.** For a valid configuration and an ECDSA issuer key on a
curve other than P-256, P-384 and P-521, when `findEE` finds an end-entity whose x5u
verifies, `New` returns a signer without error. Its mode is `""`; every signature
`SignData` issues with it has `Len = -1` and records the hash name `sha256`, while
`getSignatureHash` of its mode is `""`.
-/
theorem new_accepts_unsupported_curve (H : Hashes)
    (u : List UInt8 → Except String EcdsaAsn1Signature) {conf : Configuration} {priv : SignFn}
    {c x5u : String} (hconf : conf.type = type ∧ conf.id ≠ "" ∧ conf.privateKey ≠ "")
    (hkeys : X.getKeysAndRand conf = .ok (priv, .ecdsa c))
    (hc : c ≠ "P-256" ∧ c ≠ "P-384" ∧ c ≠ "P-521")
    (hfind : X.findEE conf.withDefaultValidity = .ok x5u) (hverify : X.verifyX5U x5u = none) :
    ∃ s, new X conf = .ok s ∧ s.issuerPub = .ecdsa c ∧ s.mode = "" ∧
      ∀ input sig, signData H u s input = .ret (.ok sig) →
        sig.len = -1 ∧ sig.hashName = "sha256" ∧ getSignatureHash sig.mode = "" := by
  refine ⟨_, new_of_found X hconf hkeys hfind hverify, rfl, getModeFromCurve_eq_empty hc,
    fun input sig h => ?_⟩
  obtain ⟨-, hlen, hmode, -, -, -, hname⟩ := signData_eq_ok h
  simp only [getModeFromCurve_eq_empty hc] at hlen hmode hname
  refine ⟨hlen, hname.trans (makeTemplatedHash_fst_empty H input), ?_⟩
  rw [hmode]; rfl

/-- A configuration of this signer's type with an ID and a private key. -/
def eeConf : Configuration := ⟨"ee", type, "key", "", "", 0⟩

theorem eeConf_valid : eeConf.type = type ∧ eeConf.id ≠ "" ∧ eeConf.privateKey ≠ "" :=
  ⟨rfl, by decide, by decide⟩

/-- Helpers whose key loader returns an ECDSA issuer key on `curve` that signs by returning
its input, and under which `findEE` finds an end-entity whose x5u verifies. -/
def foundHelpers (curve : String) : Helpers :=
  ⟨fun _ => .ok (fun d => .ok d, .ecdsa curve), fun _ => .ok "x5u", fun _ _ => none,
    fun _ => .ok "x5u", fun _ => none⟩

/-- Hash functions whose every output byte is zero. -/
def zeroHashes : Hashes := ⟨fun _ _ => 0, fun _ _ => 0, fun _ _ => 0⟩

theorem new_accepts_p224 : ∃ s, new (foundHelpers "P-224") eeConf = .ok s ∧ s.mode = "" := by
  obtain ⟨s, hs, -, hm, -⟩ := new_accepts_unsupported_curve (foundHelpers "P-224") zeroHashes
    (fun _ => .ok ⟨1, 1⟩) eeConf_valid rfl ⟨by decide, by decide, by decide⟩ rfl rfl
  exact ⟨s, hs, hm⟩

end

end Autograph.Signer.ContentSignaturePki
