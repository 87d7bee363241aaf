import Mathlib.Data.List.OfFn
import Autograph.Go.Fmt

/-!
# The content-signature PKI signer

`New` builds a `ContentSigner` from its configuration; `SignData` templates, hashes and
signs an input with it, through `SignHash`. Everything these functions call outside the
package's own code is a parameter, so that every result holds for every behaviour it can
have:

* the key loader `conf.GetKeysAndRand()` and the end-entity helpers `findEE`, `makeEE`,
  `makeChainAndX5U` and `verifyX5U`, whose code is not in the repository (`Helpers`);
* SHA-256, SHA-384 and SHA-512, of which only their output lengths are fixed (`Hashes`);
* the issuer key's signing primitive `crypto.Signer.Sign`, a field of the signer;
* `asn1.Unmarshal` of the primitive's output into an `{R, S}` pair.

A Go call either returns or panics; `Go` records which. Errors are values of the
package's error types, each with the text the Go code builds for it; `%q` in those texts is
`strconv.Quote`, whose `strconv.IsPrint` above U+00FF is a parameter of the text.
-/

namespace Autograph.Signer.ContentSignaturePki

/-- How a Go call ends: it returns `a`, or it panics with a message. -/
inductive Go (α : Type) where
  | ret (a : α)
  | panicked (msg : String)
  deriving DecidableEq, Repr

/-! ## Constants -/

/-- `Type`. -/
def type : String := "contentsignaturepki"

def p256ecdsa : String := "p256ecdsa"
def p256ecdsaByteSize : Int := 64
def p384ecdsa : String := "p384ecdsa"
def p384ecdsaByteSize : Int := 96
def p521ecdsa : String := "p521ecdsa"
def p521ecdsaByteSize : Int := 132

/-- `SignaturePrefix`, prepended to the input before hashing. -/
def signaturePrefix : String := "Content-Signature:\x00"

/-- `720 * time.Hour`, in nanoseconds. -/
def defaultValidity : Int := 720 * 3600 * 1000000000

/-! ## Keys, configuration and the signer -/

/-- An issuer public key, as far as `New` and `getModeFromCurve` look at it. -/
inductive PublicKey where
  /-- `*ecdsa.PublicKey` on the curve named `curveName` (`Params().Name`). -/
  | ecdsa (curveName : String)
  /-- A key of any other type. -/
  | other
  deriving DecidableEq, Repr

/-- The issuer private key's `crypto.Signer.Sign` on a digest: DER bytes, or an error. -/
abbrev SignFn := List UInt8 → Except String (List UInt8)

/-- The fields of `signer.Configuration` that `New` reads. -/
structure Configuration where
  id : String
  type : String
  privateKey : String
  publicKey : String
  x5u : String
  /-- `Validity`, a `time.Duration` in nanoseconds. -/
  validity : Int
  deriving DecidableEq, Repr

/-- `ContentSigner`: the fields the modelled functions read or set. -/
structure ContentSigner where
  id : String
  type : String
  mode : String
  privateKey : String
  publicKey : String
  x5u : String
  validity : Int
  issuerPriv : SignFn
  issuerPub : PublicKey

/-- `database.ErrNoSuitableEEFound`, or any other error of `findEE`. -/
inductive FindEEError where
  | noSuitableEEFound
  | other (msg : String)
  deriving DecidableEq, Repr

/-- The code `New` calls that is not in the repository. On success `findEE` and
`makeChainAndX5U` hand back the x5u they set on the signer. -/
structure Helpers where
  /-- `conf.GetKeysAndRand()`: the issuer key pair. -/
  getKeysAndRand : Configuration → Except String (SignFn × PublicKey)
  /-- `s.findEE(conf)`. -/
  findEE : Configuration → Except FindEEError String
  /-- `s.makeEE(conf, s.issuerPub)`: `none` when it succeeds. -/
  makeEE : Configuration → PublicKey → Option String
  /-- `s.makeChainAndX5U()`. -/
  makeChainAndX5U : ContentSigner → Except String String
  /-- `verifyX5U(s.X5U)`: `none` when it succeeds, else the error's text. -/
  verifyX5U : String → Option String

/-- The hash functions `makeTemplatedHash` uses, each with its output length. -/
structure Hashes where
  sha256 : List UInt8 → Fin 32 → UInt8
  sha384 : List UInt8 → Fin 48 → UInt8
  sha512 : List UInt8 → Fin 64 → UInt8

/-! ## Errors -/

/-- `errors.Wrap(cause, msg)`. -/
def wrap (msg cause : String) : String := msg ++ ": " ++ cause

/-- The errors `New` returns. -/
inductive NewError where
  | invalidType (type : String)
  | missingID
  | missingPrivateKey
  | retrieveSigner (privateKey cause : String)
  | notEcdsa
  | makeEE (cause : String)
  | makeChain (cause : String)
  | findEE (cause : String)
  | verifyX5U (cause : String)
  deriving DecidableEq, Repr

/-- The text of a `New` error, with `strconv.IsPrint` above U+00FF given as `isPrint`. -/
def NewError.message (isPrint : Char → Bool) : NewError → String
  | .invalidType t => "contentsignaturepki: invalid type " ++ Autograph.Go.quote isPrint t ++
      ", must be " ++ Autograph.Go.quote isPrint type
  | .missingID => "contentsignaturepki: missing signer ID in signer configuration"
  | .missingPrivateKey => "contentsignaturepki: missing private key in signer configuration"
  | .retrieveSigner k e =>
    wrap ("contentsignaturepki: failed to retrieve signer " ++ Autograph.Go.quote isPrint k) e
  | .notEcdsa => "contentsignaturepki: invalid key for CA cert, must be ecdsa"
  | .makeEE e => wrap "contentsignaturepki: failed to make suitable end-entity" e
  | .makeChain e => wrap "contentsignaturepki: failed to make chain and x5u for end-entity" e
  | .findEE e => wrap "contentsignaturepki: failed to find suitable end-entity" e
  | .verifyX5U e => wrap "contentsignaturepki: failed to verify x5u" e

/-- The errors `SignData` and `SignHash` return. -/
inductive SignError where
  | shortInput
  | hashLength (n : Nat)
  | signHash (cause : String)
  | parseSignature (cause : String)
  deriving DecidableEq, Repr

/-- The text of a signing error. -/
def SignError.message : SignError → String
  | .shortInput => "contentsignaturepki: refusing to sign input data shorter than 10 bytes"
  | .hashLength n => "contentsignaturepki: refusing to sign input hash. length " ++ toString n ++
      ", expected 32, 48 or 64"
  | .signHash e => wrap "contentsignaturepki: failed to sign hash" e
  | .parseSignature e => wrap "contentsignaturepki: failed to parse signature" e

/-! ## Modes -/

/-- `getSignatureLen`: the signature length of a mode, or `-1`. -/
def getSignatureLen (mode : String) : Int :=
  if mode = p256ecdsa then p256ecdsaByteSize
  else if mode = p384ecdsa then p384ecdsaByteSize
  else if mode = p521ecdsa then p521ecdsaByteSize
  else -1

/-- `getSignatureHash`: the hash function of a mode, or `""`. -/
def getSignatureHash (mode : String) : String :=
  if mode = p256ecdsa then "sha256"
  else if mode = p384ecdsa then "sha384"
  else if mode = p521ecdsa then "sha512"
  else ""

/-- `ContentSigner.getModeFromCurve`, on the curve name of the `*ecdsa.PublicKey` it asserts
the issuer key to be (`New` calls it only after checking that type). -/
def getModeFromCurve (curveName : String) : String :=
  if curveName = "P-256" then p256ecdsa
  else if curveName = "P-384" then p384ecdsa
  else if curveName = "P-521" then p521ecdsa
  else ""

/-! ## Construction -/

section
variable (X : Helpers)

/-- The end-entity step of `New`: find one, or make one and its chain. -/
def findOrMakeEE (conf : Configuration) (s : ContentSigner) : Except NewError ContentSigner :=
  match X.findEE conf with
  | .ok x5u => .ok { s with x5u := x5u }
  | .error .noSuitableEEFound =>
    match X.makeEE conf s.issuerPub with
    | some e => .error (.makeEE e)
    | none =>
      match X.makeChainAndX5U s with
      | .ok x5u => .ok { s with x5u := x5u }
      | .error e => .error (.makeChain e)
  | .error (.other e) => .error (.findEE e)

/-- The x5u step of `New`: a chain that cannot be retrieved is made again, once. -/
def checkX5U (s : ContentSigner) : Except NewError ContentSigner :=
  match X.verifyX5U s.x5u with
  | none => .ok s
  | some e =>
    if e.startsWith "failed to retrieve x5u" then
      match X.makeChainAndX5U s with
      | .ok x5u => .ok { s with x5u := x5u }
      | .error e => .error (.makeChain e)
    else .error (.verifyX5U e)

/-- `New`'s 30-day default for a configuration without a validity. -/
def Configuration.withDefaultValidity (conf : Configuration) : Configuration :=
  if conf.validity = 0 then { conf with validity := defaultValidity } else conf

/-- `New`. The default validity is written to `conf` after `s.validity` was copied from
it, so only `findEE` and `makeEE` see it. -/
def new (conf : Configuration) : Except NewError ContentSigner :=
  if conf.type ≠ type then .error (.invalidType conf.type)
  else if conf.id = "" then .error .missingID
  else if conf.privateKey = "" then .error .missingPrivateKey
  else
    match X.getKeysAndRand conf with
    | .error e => .error (.retrieveSigner conf.privateKey e)
    | .ok (issuerPriv, issuerPub) =>
      match issuerPub with
      | .other => .error .notEcdsa
      | .ecdsa curveName =>
        let s : ContentSigner :=
          { id := conf.id, type := conf.type, mode := getModeFromCurve curveName,
            privateKey := conf.privateKey, publicKey := conf.publicKey, x5u := conf.x5u,
            validity := conf.validity, issuerPriv := issuerPriv, issuerPub := issuerPub }
        (findOrMakeEE X conf.withDefaultValidity s).bind (checkX5U X)

end

/-! ## Signing -/

/-- A `ContentSignature`: what `SignHash` fills in, and the hash name `SignData` stores. -/
structure ContentSignature where
  len : Int
  mode : String
  x5u : String
  id : String
  r : Int
  s : Int
  finished : Bool
  hashName : String
  deriving DecidableEq, Repr

/-- `storeHashName` (its body is not in the repository): records the hash's name. -/
def ContentSignature.storeHashName (sig : ContentSignature) (alg : String) : ContentSignature :=
  { sig with hashName := alg }

/-- `ecdsaAsn1Signature`. -/
structure EcdsaAsn1Signature where
  r : Int
  s : Int
  deriving DecidableEq, Repr

section
variable (H : Hashes) (asn1Unmarshal : List UInt8 → Except String EcdsaAsn1Signature)

/-- `makeTemplatedHash`: the hash's name and the digest of the prefixed input. -/
def makeTemplatedHash (data : List UInt8) (curvename : String) : String × List UInt8 :=
  let templated := signaturePrefix.toUTF8.toList ++ data
  if curvename = p384ecdsa then ("sha384", List.ofFn (H.sha384 templated))
  else if curvename = p521ecdsa then ("sha512", List.ofFn (H.sha512 templated))
  else ("sha256", List.ofFn (H.sha256 templated))

/-- `ContentSigner.SignHash`. -/
def signHash (s : ContentSigner) (input : List UInt8) : Except SignError ContentSignature :=
  if input.length ≠ 32 ∧ input.length ≠ 48 ∧ input.length ≠ 64 then
    .error (.hashLength input.length)
  else
    let csig : ContentSignature :=
      { len := getSignatureLen s.mode, mode := s.mode, x5u := s.x5u, id := s.id,
        r := 0, s := 0, finished := false, hashName := "" }
    match s.issuerPriv input with
    | .error e => .error (.signHash e)
    | .ok asn1Sig =>
      match asn1Unmarshal asn1Sig with
      | .error e => .error (.parseSignature e)
      | .ok ecdsaSig => .ok { csig with r := ecdsaSig.r, s := ecdsaSig.s, finished := true }

/-- `ContentSigner.SignData`. It asserts `sig.(*ContentSignature)` before looking at `err`:
when `SignHash` fails, `sig` is a nil interface and the assertion panics. -/
def signData (s : ContentSigner) (input : List UInt8) : Go (Except SignError ContentSignature) :=
  if input.length < 10 then .ret (.error .shortInput)
  else
    let (alg, hash) := makeTemplatedHash H input s.mode
    match signHash asn1Unmarshal s hash with
    | .ok sig => .ret (.ok (sig.storeHashName alg))
    | .error _ => .panicked
      "interface conversion: signer.Signature is nil, not *contentsignaturepki.ContentSignature"

end

end Autograph.Signer.ContentSignaturePki
