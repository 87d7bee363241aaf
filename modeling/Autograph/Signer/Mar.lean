import Mathlib.Data.List.Basic
import Autograph.Go.Fmt

/-!
# The MAR signer

`New` loads the signing key and fixes the signer's default signature algorithm from the
key's type and curve. `SignData` hashes a MAR file's signable bytes and `SignHash` signs
the hash, both with the algorithm the options ask for, or the default when they ask for
none. `SignFile` parses a MAR file, drops its signatures, has the MAR library prepare and
finalize a new one, and writes the file out again.

The MAR library (`go.mozilla.org/mar`), the key loader, `x509.MarshalPKIXPublicKey` with
its base64 encoding, and the JSON round trip of `GetOptions` are not in the repository:
they are parameters (`Lib`), as is `strconv.IsPrint` above U+00FF, which `%q` reads. The
library's `SigAlg` constants are a parameter too (`SigAlgs`), known only to be non-zero.

The lemmas below describe each function's outcome as a whole: the default algorithm follows
the key table, and any other curve or key type is refused (`new_sigAlg_table`); a request is
hashed and signed with one algorithm, its own or the default (`signData_alg`); `SignFile`
returns bytes only when every stage succeeded, from a file whose old signatures were dropped
(`signFile_eq_ok`).
-/

namespace Autograph.Signer.Mar

/-- `Type`. -/
def type : String := "mar"

/-- The `SigAlg` constants of the MAR library that `New` uses. -/
structure SigAlgs where
  rsaPkcs1Sha384 : UInt32
  ecdsaP256Sha256 : UInt32
  ecdsaP384Sha384 : UInt32
  rsaPkcs1Sha384_ne : rsaPkcs1Sha384 ≠ 0
  ecdsaP256Sha256_ne : ecdsaP256Sha256 ≠ 0
  ecdsaP384Sha384_ne : ecdsaP384Sha384 ≠ 0

/-- A signing key, by its Go type. -/
inductive PrivateKey where
  | rsa
  /-- `*crypto11.PKCS11PrivateKeyRSA`, in an HSM. -/
  | pkcs11RSA
  /-- `*ecdsa.PrivateKey`, on the curve named `curveName`. -/
  | ecdsa (curveName : String)
  /-- `*crypto11.PKCS11PrivateKeyECDSA`, in an HSM. -/
  | pkcs11ECDSA (curveName : String)
  /-- Any other type, by its `%T` name. -/
  | other (typeName : String)
  deriving DecidableEq, Repr

/-- The random source `New` hands to the signing primitive. -/
inductive Rand where
  /-- `crypto/rand.Reader`. -/
  | reader
  /-- `new(crypto11.PKCS11RandReader)`. -/
  | pkcs11
  deriving DecidableEq, Repr

/-- The fields of `signer.Configuration` that `New` reads. -/
structure Configuration where
  id : String
  type : String
  privateKey : String
  deriving DecidableEq, Repr

/-- `MARSigner`. -/
structure MARSigner where
  id : String
  type : String
  privateKey : String
  publicKey : String
  signingKey : PrivateKey
  rand : Rand
  defaultSigAlg : UInt32
  deriving DecidableEq, Repr

/-- `Options`. -/
structure Options where
  sigAlg : UInt32
  deriving DecidableEq, Repr

/-- A signature block entry of a MAR file. -/
structure MarSignature where
  algorithmID : UInt32
  data : List UInt8
  deriving DecidableEq, Repr

/-- `margo.File`: its signatures header's count, its signatures, and the rest (`R`). -/
structure File (R : Type) where
  numSignatures : UInt32
  signatures : List MarSignature
  rest : R

/-- The code the signer calls that is not in the repository, for MAR files whose other
parts are `R` and options given as `O`. -/
structure Lib (R O : Type) where
  /-- `conf.GetPrivateKey()`. -/
  getPrivateKey : Configuration → Except String PrivateKey
  /-- `x509.MarshalPKIXPublicKey` of the key's public half, base64-encoded. -/
  marshalPublicKey : PrivateKey → Except String String
  /-- `GetOptions`: the JSON round trip of the options. -/
  getOptions : O → Except String Options
  /-- `margo.Hash(data, sigAlg)`. -/
  hash : List UInt8 → UInt32 → Except String (List UInt8)
  /-- `margo.Sign(key, rand, hashed, sigAlg)`. -/
  sign : PrivateKey → Rand → List UInt8 → UInt32 → Except String (List UInt8)
  /-- `margo.Unmarshal`. -/
  unmarshal : List UInt8 → Except String (File R)
  /-- `marFile.PrepareSignature(key, publicKey)`. -/
  prepareSignature : File R → PrivateKey → Except String (File R)
  /-- `marFile.FinalizeSignatures()`. -/
  finalizeSignatures : File R → Except String (File R)
  /-- `marFile.Marshal()`. -/
  marshal : File R → Except String (List UInt8)
  /-- `strconv.IsPrint` on runes above U+00FF, Unicode's tables. -/
  isPrint : Char → Bool

/-- `errors.Wrap(cause, msg)`. -/
def wrap (msg : String) (cause : String) : String := msg ++ ": " ++ cause

section
variable {R O : Type} (A : SigAlgs) (L : Lib R O)

/-- The default algorithm of an ECDSA key on `curveName`, or `New`'s error. -/
def ecdsaSigAlg (curveName : String) : Except String UInt32 :=
  if curveName = "P-256" then .ok A.ecdsaP256Sha256
  else if curveName = "P-384" then .ok A.ecdsaP384Sha384
  else .error ("mar: elliptic curve " ++ Autograph.Go.quote L.isPrint curveName ++
    " is not supported")

/-- The key table of `New`: the public key, the random source and the default algorithm of
a signing key. -/
def keyInfo (k : PrivateKey) : Except String (String × Rand × UInt32) :=
  match k with
  | .rsa => do
    let pub ← (L.marshalPublicKey k).mapError (wrap "mar: failed to asn1 marshal rsa public key")
    pure (pub, .reader, A.rsaPkcs1Sha384)
  | .pkcs11RSA => do
    let pub ← (L.marshalPublicKey k).mapError
      (wrap "mar: failed to asn1 marshal crypto11 rsa public key")
    pure (pub, .pkcs11, A.rsaPkcs1Sha384)
  | .ecdsa c => do
    let pub ← (L.marshalPublicKey k).mapError (wrap "mar: failed to asn1 marshal ecdsa public key")
    let alg ← ecdsaSigAlg A L c
    pure (pub, .reader, alg)
  | .pkcs11ECDSA c => do
    let pub ← (L.marshalPublicKey k).mapError
      (wrap "mar: failed to asn1 marshal crypto11 ecdsa public key")
    let alg ← ecdsaSigAlg A L c
    pure (pub, .pkcs11, alg)
  | .other t => .error ("mar: unsupported public key type " ++ t)

/-- `New`. -/
def new (conf : Configuration) : Except String MARSigner :=
  if conf.type ≠ type then
    .error ("mar: invalid type " ++ Autograph.Go.quote L.isPrint conf.type ++ ", must be " ++
      Autograph.Go.quote L.isPrint type)
  else if conf.id = "" then .error "mar: missing signer ID in signer configuration"
  else if conf.privateKey = "" then .error "mar: missing private key in signer configuration"
  else do
    let k ← (L.getPrivateKey conf).mapError (wrap "mar: failed to parse private key")
    let (pub, rand, alg) ← keyInfo A L k
    pure ⟨conf.id, conf.type, conf.privateKey, pub, k, rand, alg⟩

/-- The algorithm a request resolves to: the options', or the signer's default when the
options ask for none. -/
def resolveSigAlg (s : MARSigner) (opt : Options) : UInt32 :=
  if opt.sigAlg = 0 then s.defaultSigAlg else opt.sigAlg

/-- `SignHash`. -/
def signHash (s : MARSigner) (hashed : List UInt8) (options : O) : Except String (List UInt8) := do
  let opt ← (L.getOptions options).mapError (wrap "mar: failed to get options")
  (L.sign s.signingKey s.rand hashed (resolveSigAlg s opt)).mapError (wrap "mar: failed to sign")

/-- `SignData`. -/
def signData (s : MARSigner) (data : List UInt8) (options : O) : Except String (List UInt8) := do
  let opt ← (L.getOptions options).mapError (wrap "mar: failed to get options")
  let hashed ← (L.hash data (resolveSigAlg s opt)).mapError (wrap "mar: failed to hash input")
  signHash L s hashed options

/-- `SignFile`. -/
def signFile (s : MARSigner) (input : List UInt8) : Except String (List UInt8) := do
  let marFile ← (L.unmarshal input).mapError (wrap "mar: failed to unmarshal input file")
  let marFile := { marFile with numSignatures := 0, signatures := [] }
  let marFile ← (L.prepareSignature marFile s.signingKey).mapError
    (wrap "mar: failed to prepare signature")
  let marFile ← (L.finalizeSignatures marFile).mapError (wrap "mar: failed to finalize signature")
  (L.marshal marFile).mapError (wrap "mar: failed to marshal signed file")

end

/-! ## Construction -/

section
variable {R O : Type} {A : SigAlgs} {L : Lib R O}

/-- The key table: the public key is the marshalled one, and the algorithm is the one of the
key's type and curve. -/
theorem keyInfo_eq_ok {k : PrivateKey} {pub : String} {rand : Rand} {alg : UInt32}
    (h : keyInfo A L k = .ok (pub, rand, alg)) :
    L.marshalPublicKey k = .ok pub ∧
      ((k = .rsa ∨ k = .pkcs11RSA) ∧ alg = A.rsaPkcs1Sha384 ∨
       (∃ c, (k = .ecdsa c ∨ k = .pkcs11ECDSA c) ∧
         (c = "P-256" ∧ alg = A.ecdsaP256Sha256 ∨ c = "P-384" ∧ alg = A.ecdsaP384Sha384))) := by
  have hecdsa : ∀ {c : String} {a : UInt32}, ecdsaSigAlg A L c = .ok a →
      c = "P-256" ∧ a = A.ecdsaP256Sha256 ∨ c = "P-384" ∧ a = A.ecdsaP384Sha384 := by
    intro c a ha
    unfold ecdsaSigAlg at ha
    split_ifs at ha with h1 h2 <;> cases ha
    exacts [.inl ⟨h1, rfl⟩, .inr ⟨h2, rfl⟩]
  cases k with
  | other t => cases h
  | rsa | pkcs11RSA =>
    cases hm : L.marshalPublicKey _ <;>
      simp [keyInfo, hm, Except.mapError, bind, Except.bind, pure, Except.pure] at h
    obtain ⟨rfl, -, rfl⟩ := h
    exact ⟨rfl, .inl ⟨by simp, rfl⟩⟩
  | ecdsa c | pkcs11ECDSA c =>
    cases hm : L.marshalPublicKey _ <;> cases ha : ecdsaSigAlg A L c <;>
      simp [keyInfo, hm, ha, Except.mapError, bind, Except.bind, pure, Except.pure] at h
    obtain ⟨rfl, -, rfl⟩ := h
    exact ⟨rfl, .inr ⟨c, by simp, hecdsa ha⟩⟩

/-- Every row of the key table has a non-zero algorithm. -/
theorem keyInfo_alg_ne_zero {k : PrivateKey} {pub : String} {rand : Rand} {alg : UInt32}
    (h : keyInfo A L k = .ok (pub, rand, alg)) : alg ≠ 0 := by
  rcases (keyInfo_eq_ok h).2 with ⟨-, rfl⟩ | ⟨c, -, ⟨-, rfl⟩ | ⟨-, rfl⟩⟩
  exacts [A.rsaPkcs1Sha384_ne, A.ecdsaP256Sha256_ne, A.ecdsaP384Sha384_ne]

/-- What `New` checks and loads: the signer carries the configuration's ID, the loaded key,
and that key's row of the key table. -/
theorem new_eq_ok {conf : Configuration} {s : MARSigner} (h : new A L conf = .ok s) :
    conf.type = type ∧ conf.id ≠ "" ∧ conf.privateKey ≠ "" ∧ s.id = conf.id ∧
      L.getPrivateKey conf = .ok s.signingKey ∧
      keyInfo A L s.signingKey = .ok (s.publicKey, s.rand, s.defaultSigAlg) := by
  unfold new at h
  split_ifs at h with h1 h2 h3
  cases hk : L.getPrivateKey conf with
  | error e => simp [hk, Except.mapError, bind, Except.bind] at h
  | ok k =>
    cases hi : keyInfo A L k with
    | error e => simp [hk, hi, Except.mapError, bind, Except.bind] at h
    | ok info =>
      obtain ⟨pub, rand, alg⟩ := info
      simp only [hk, hi, Except.mapError, bind, Except.bind, pure, Except.pure,
        Except.ok.injEq] at h
      subst h
      exact ⟨not_not.mp h1, h2, h3, rfl, rfl, hi⟩

/-- What `New` returns: a signer for a configuration of type `mar` with an ID and a private
key, carrying the loaded key, whose default algorithm is RSA-PKCS1-SHA384 for an RSA key
(in software or an HSM) and ECDSA-P256-SHA256 or ECDSA-P384-SHA384 for an ECDSA key on
P-256 or P-384; any other curve or key type is refused. The default is never `0`.
-/
theorem new_sigAlg_table {conf : Configuration} {s : MARSigner} (h : new A L conf = .ok s) :
    conf.type = type ∧ conf.id ≠ "" ∧ conf.privateKey ≠ "" ∧ s.id = conf.id ∧
      L.getPrivateKey conf = .ok s.signingKey ∧ s.defaultSigAlg ≠ 0 ∧
      ((s.signingKey = .rsa ∨ s.signingKey = .pkcs11RSA) ∧ s.defaultSigAlg = A.rsaPkcs1Sha384 ∨
       (∃ c, (s.signingKey = .ecdsa c ∨ s.signingKey = .pkcs11ECDSA c) ∧
         (c = "P-256" ∧ s.defaultSigAlg = A.ecdsaP256Sha256 ∨
          c = "P-384" ∧ s.defaultSigAlg = A.ecdsaP384Sha384))) := by
  obtain ⟨htype, hid, hkey, hsid, hk, hi⟩ := new_eq_ok h
  exact ⟨htype, hid, hkey, hsid, hk, keyInfo_alg_ne_zero hi, (keyInfo_eq_ok hi).2⟩

/-! ## Signing -/

/-- The resolved algorithm of a signer with a non-zero default is never `0`. -/
theorem resolveSigAlg_ne_zero {s : MARSigner} (hs : s.defaultSigAlg ≠ 0) (opt : Options) :
    resolveSigAlg s opt ≠ 0 := by
  unfold resolveSigAlg; split_ifs with h <;> assumption

theorem signHash_eq_ok {s : MARSigner} {hashed sig : List UInt8} {options : O} :
    signHash L s hashed options = .ok sig ↔ ∃ opt, L.getOptions options = .ok opt ∧
      L.sign s.signingKey s.rand hashed (resolveSigAlg s opt) = .ok sig := by
  unfold signHash
  cases L.getOptions options <;> simp [Except.mapError, bind, Except.bind]
  split <;> simp_all

/-- `SignData` hashes and signs with one algorithm: for a signer `New` returned, when
`SignData` succeeds it hashed the data and signed the hash with the same algorithm, the one
the options name, or the signer's default when they name none; never with `0`.
-/
theorem signData_alg {conf : Configuration} {s : MARSigner} {data sig : List UInt8}
    {options : O} (hs : new A L conf = .ok s) (h : signData L s data options = .ok sig) :
    ∃ opt hashed, L.getOptions options = .ok opt ∧
      L.hash data (resolveSigAlg s opt) = .ok hashed ∧
      L.sign s.signingKey s.rand hashed (resolveSigAlg s opt) = .ok sig ∧
      resolveSigAlg s opt ≠ 0 := by
  unfold signData at h
  cases ho : L.getOptions options with
  | error e => simp [ho, Except.mapError, bind, Except.bind] at h
  | ok opt =>
    cases hh : L.hash data (resolveSigAlg s opt) with
    | error e => simp [ho, hh, Except.mapError, bind, Except.bind] at h
    | ok hashed =>
      simp only [ho, hh, Except.mapError, bind, Except.bind] at h
      obtain ⟨opt', ho', hsign⟩ := signHash_eq_ok.mp h
      rw [ho, Except.ok.injEq] at ho'; subst ho'
      exact ⟨opt, hashed, rfl, hh, hsign, resolveSigAlg_ne_zero
        (keyInfo_alg_ne_zero (new_eq_ok hs).2.2.2.2.2) opt⟩

/-- `SignFile` writes a file only when every stage succeeds: it returns bytes exactly when
the input parses, the library prepares a signature on the parsed file with its signatures
dropped, finalizes it, and marshals the result; those bytes are what the marshalling wrote.
-/
theorem signFile_eq_ok {s : MARSigner} {input out : List UInt8} :
    signFile L s input = .ok out ↔ ∃ f f₁ f₂, L.unmarshal input = .ok f ∧
      L.prepareSignature { f with numSignatures := 0, signatures := [] } s.signingKey = .ok f₁ ∧
      L.finalizeSignatures f₁ = .ok f₂ ∧ L.marshal f₂ = .ok out := by
  unfold signFile
  cases hu : L.unmarshal input with
  | error e => simp [Except.mapError, bind, Except.bind]
  | ok f =>
    cases hp : L.prepareSignature { f with numSignatures := 0, signatures := [] } s.signingKey with
    | error e => simp [hp, Except.mapError, bind, Except.bind]
    | ok f₁ =>
      cases hf : L.finalizeSignatures f₁ with
      | error e => simp [hp, hf, Except.mapError, bind, Except.bind]
      | ok f₂ =>
        cases hm : L.marshal f₂ <;> simp [hp, hf, hm, Except.mapError, bind, Except.bind]

end

end Autograph.Signer.Mar
