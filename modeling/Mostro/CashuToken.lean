import Mathlib.Algebra.Order.Ring.Nat
import Mathlib.Data.Finset.Card

set_option autoImplicit false

/-!
Escrow tokens of the Cashu backend: the secrets of a token with their NUT-10 tags, the checks
`verify_escrow_token` makes before a token is taken as the locked funds, and the NUT-11 rule a mint
spends a proof by.
-/

namespace Mostro.CashuToken

abbrev PublicKey := Nat
abbrev Secret := String
abbrev KeysetId := Nat
abbrev ShortKeysetId := Nat
abbrev MintUrl := String
abbrev Timestamp := Nat

inductive CurrencyUnit where
  | sat
  | msat
  | other (name : String)
  deriving DecidableEq, Repr

structure Proof where
  amount : Nat
  keysetId : ShortKeysetId
  secret : Secret
  c : PublicKey
  dleq : Nat
  deriving DecidableEq, Repr

/-- The entries of a version 4 token share a keyset, those of a version 3 token a mint. -/
inductive Token where
  | v3 (unit : Option CurrencyUnit) (token : List (MintUrl × List Proof))
  | v4 (unit : CurrencyUnit) (mintUrl : MintUrl) (token : List (ShortKeysetId × List Proof))
  deriving DecidableEq, Repr

def Token.proofs : Token → List Proof
  | .v3 _ token => token.flatMap (·.2)
  | .v4 _ _ token => token.flatMap fun entry => entry.2.map fun p => { p with keysetId := entry.1 }

def Token.tokenSecrets (t : Token) : List Secret := t.proofs.map (·.secret)

def Token.unit : Token → Option CurrencyUnit
  | .v3 unit _ => unit
  | .v4 unit _ _ => some unit

/-- None for a version 3 token of several mints or of none. -/
def Token.mintUrl : Token → Option MintUrl
  | .v3 _ token =>
    match (token.map (·.1)).dedup with
    | [url] => some url
    | _ => none
  | .v4 _ url _ => some url

def Token.value (t : Token) : Option Nat :=
  let total := (t.proofs.map (·.amount)).sum
  if total < 2 ^ 64 then some total else none

inductive Kind where
  | p2pk
  | htlc
  deriving DecidableEq, Repr

abbrev Tag := List String

structure Nut10Secret where
  kind : Kind
  data : String
  tags : Option (List Tag)
  deriving DecidableEq, Repr

inductive TagKind where
  | sigFlag
  | nSigs
  | locktime
  | refund
  | pubkeys
  | nSigsRefund
  | custom (name : String)
  deriving DecidableEq, Repr

def TagKind.ofString : String → TagKind
  | "sigflag" => .sigFlag
  | "n_sigs" => .nSigs
  | "locktime" => .locktime
  | "refund" => .refund
  | "pubkeys" => .pubkeys
  | "n_sigs_refund" => .nSigsRefund
  | name => .custom name

def TagKind.isCustom : TagKind → Bool
  | .custom _ => true
  | _ => false

def tagKind (tag : Tag) : Option TagKind := tag.head?.map TagKind.ofString

inductive SigFlag where
  | sigInputs
  | sigAll
  deriving DecidableEq, Repr

structure Conditions where
  locktime : Option Timestamp
  pubkeys : Option (List PublicKey)
  refundKeys : Option (List PublicKey)
  numSigs : Option Nat
  sigFlag : SigFlag
  numSigsRefund : Option Nat
  deriving DecidableEq, Repr

inductive SpendingConditions where
  | p2pkConditions (data : PublicKey) (conditions : Option Conditions)
  | htlcConditions
  deriving DecidableEq, Repr

structure Codec where
  token : String → Option Token
  secret : Secret → Option Nut10Secret
  key : String → Option PublicKey
  number : String → Option Nat
  hashToCurve : Secret → Option PublicKey

abbrev TagReader := List Tag → TagKind → Option Tag

def firstTag : TagReader := fun tags kind => tags.find? (tagKind · = some kind)

def parseSigFlag : String → Option SigFlag
  | "SIG_INPUTS" => some .sigInputs
  | "SIG_ALL" => some .sigAll
  | _ => none

def tagValue {α : Type} (read : TagReader) (tags : List Tag) (kind : TagKind)
    (parse : List String → Option α) : Option (Option α) :=
  match read tags kind with
  | none => some none
  | some tag => (parse tag.tail).map some

def Codec.one {α : Type} (parse : String → Option α) (values : List String) : Option α :=
  values.head?.bind parse

def Conditions.ofTags (codec : Codec) (read : TagReader) (tags : List Tag) : Option Conditions := do
  let locktime ← tagValue read tags .locktime (Codec.one codec.number)
  let pubkeys ← tagValue read tags .pubkeys (·.mapM codec.key)
  let refundKeys ← tagValue read tags .refund (·.mapM codec.key)
  let numSigs ← tagValue read tags .nSigs (Codec.one codec.number)
  let sigFlag ← tagValue read tags .sigFlag (Codec.one parseSigFlag)
  let numSigsRefund ← tagValue read tags .nSigsRefund (Codec.one codec.number)
  return { locktime, pubkeys, refundKeys, numSigs,
           sigFlag := sigFlag.getD .sigInputs, numSigsRefund }

def SpendingConditions.ofSecret (codec : Codec) (read : TagReader) (secret : Nut10Secret) :
    Option SpendingConditions :=
  match secret.kind with
  | .htlc => some .htlcConditions
  | .p2pk => (codec.key secret.data).map fun data =>
      .p2pkConditions data (secret.tags.bind (Conditions.ofTags codec read))

/-! ### Verification -/

inductive TokenError where
  | malformed
  | noSecrets
  | mintUrl
  | mintMismatch (found configured : MintUrl)
  | duplicateSecret
  | unit (found : Option CurrencyUnit)
  | value
  | amountMismatch (found expected : Nat)
  | unknownKeyset
  | keysetUnit (found : CurrencyUnit)
  | unknownAmount
  | invalidDleq
  | proofY
  | stateCount (found expected : Nat)
  | notUnspent
  deriving DecidableEq, Repr

inductive ConditionError where
  | keysNotDistinct
  | malformed
  | duplicateTag (kind : TagKind)
  | notP2pk
  | noTags
  | sigFlag (found : SigFlag)
  | numSigs
  | repeatedPubkey
  | pubkeysMismatch
  | noLocktime
  | refundKeys
  | numSigsRefund (found : Nat)
  | locktimeBelowFloor (found floor : Timestamp)
  deriving DecidableEq, Repr

inductive Error where
  | token (e : TokenError)
  | condition (e : ConditionError)
  | mintConnection
  deriving DecidableEq, Repr

def require (ok : Bool) (e : Error) : Except Error Unit := if ok then .ok () else .error e

def orError {α : Type} (x : Option α) (e : Error) : Except Error α :=
  match x with
  | some a => .ok a
  | none => .error e

def rejectRepeats {α : Type} [DecidableEq α] (repeated : α → Error) :
    List α → List α → Except Error Unit
  | _, [] => .ok ()
  | seen, a :: rest =>
    if a ∈ seen then .error (repeated a) else rejectRepeats repeated (a :: seen) rest

def standardKinds (tags : List Tag) : List TagKind :=
  (tags.filterMap tagKind).filter (!·.isCustom)

def rejectDuplicateStandardTags (secret : Nut10Secret) : Except Error Unit :=
  match secret.tags with
  | none => .ok ()
  | some tags => rejectRepeats (.condition ∘ .duplicateTag) [] (standardKinds tags)

def rejectDuplicateProofs (token : Token) : Except Error Unit :=
  rejectRepeats (fun _ => .token .duplicateSecret) [] token.tokenSecrets

def verifySecret (codec : Codec) (pB pS pM : PublicKey) (secret : Secret) : Except Error Unit := do
  let nut10 ← orError (codec.secret secret) (.condition .malformed)
  rejectDuplicateStandardTags nut10
  let spending ← orError (SpendingConditions.ofSecret codec firstTag nut10) (.condition .malformed)
  match spending with
  | .htlcConditions => .error (.condition .notP2pk)
  | .p2pkConditions data conditions =>
    let conditions ← orError conditions (.condition .noTags)
    require (conditions.sigFlag == .sigInputs) (.condition (.sigFlag conditions.sigFlag))
    require (conditions.numSigs == some 2) (.condition .numSigs)
    let signing := data :: conditions.pubkeys.getD []
    require (signing.toFinset.card == signing.length) (.condition .repeatedPubkey)
    require (signing.toFinset == {pB, pS, pM}) (.condition .pubkeysMismatch)
    require conditions.locktime.isSome (.condition .noLocktime)
    require (conditions.refundKeys == some [pS]) (.condition .refundKeys)
    match conditions.numSigsRefund with
    | some n => require (n == 1) (.condition (.numSigsRefund n))
    | none => .ok ()

def verify2of3Condition (codec : Codec) (token : String) (pB pS pM : PublicKey) :
    Except Error Token := do
  let token ← orError (codec.token token) (.token .malformed)
  require (!token.tokenSecrets.isEmpty) (.token .noSecrets)
  require (({pB, pS, pM} : Finset PublicKey).card == 3) (.condition .keysNotDistinct)
  token.tokenSecrets.forM (verifySecret codec pB pS pM)
  return token

def secretLocktime (codec : Codec) (secret : Secret) : Option Timestamp := do
  let nut10 ← codec.secret secret
  match ← SpendingConditions.ofSecret codec firstTag nut10 with
  | .p2pkConditions _ conditions => (← conditions).locktime
  | .htlcConditions => none

def verifyEscrowConditions (codec : Codec) (token : String) (pB pS pM : PublicKey)
    (minLocktime : Timestamp) : Except Error Token := do
  let token ← verify2of3Condition codec token pB pS pM
  token.tokenSecrets.forM fun secret => do
    let locktime ← orError (secretLocktime codec secret) (.condition .noLocktime)
    require (minLocktime ≤ locktime) (.condition (.locktimeBelowFloor locktime minLocktime))
  return token

inductive ProofState where
  | unspent
  | pending
  | spent
  deriving DecidableEq, Repr

structure KeySet where
  id : KeysetId
  unit : CurrencyUnit
  keys : Nat → Option PublicKey

/-- What the node hears from its mint: none is a request that fails or times out. -/
structure MintAnswers where
  keysets : Option (List KeySet)
  states : List PublicKey → Option (List ProofState)
  shortId : KeysetId → ShortKeysetId
  verifyDleq : Proof → PublicKey → Bool

def verifyProofDleq (mint : MintAnswers) (keysets : List KeySet) (proof : Proof) :
    Except Error Unit := do
  let keyset ← orError (keysets.find? fun k => mint.shortId k.id == proof.keysetId)
    (.token .unknownKeyset)
  require (keyset.unit == .sat) (.token (.keysetUnit keyset.unit))
  let mintPubkey ← orError (keyset.keys proof.amount) (.token .unknownAmount)
  require (mint.verifyDleq proof mintPubkey) (.token .invalidDleq)

def verifyTokenDleq (mint : MintAnswers) (token : Token) : Except Error Unit := do
  let keysets ← orError mint.keysets .mintConnection
  token.proofs.forM (verifyProofDleq mint keysets)

def verifyEscrowToken (codec : Codec) (mint : MintAnswers) (mintUrl : MintUrl) (token : String)
    (pB pS pM : PublicKey) (expectedAmount : Nat) (minLocktime : Timestamp) :
    Except Error Token := do
  let token ← verifyEscrowConditions codec token pB pS pM minLocktime
  let tokenMint ← orError token.mintUrl (.token .mintUrl)
  require (tokenMint == mintUrl) (.token (.mintMismatch tokenMint mintUrl))
  rejectDuplicateProofs token
  require (token.unit == some .sat) (.token (.unit token.unit))
  let value ← orError token.value (.token .value)
  require (value == expectedAmount) (.token (.amountMismatch value expectedAmount))
  verifyTokenDleq mint token
  let ys ← orError (token.tokenSecrets.mapM codec.hashToCurve) (.token .proofY)
  let states ← orError (mint.states ys) .mintConnection
  require (states.length == ys.length) (.token (.stateCount states.length ys.length))
  require (states.all (· == .unspent)) (.token .notUnspent)
  return token

/-- Whether signatures of a set of keys spend a proof at a time.  Without a refund key anyone can
spend once the locktime has passed. -/
def Conditions.spendable (conditions : Conditions) (data : PublicKey) (signers : Finset PublicKey)
    (now : Timestamp) : Prop :=
  conditions.numSigs.getD 1 ≤
      ((data :: conditions.pubkeys.getD []).toFinset ∩ signers).card ∨
    ∃ locktime, conditions.locktime = some locktime ∧ locktime < now ∧
      ((conditions.refundKeys.getD []) = [] ∨
        conditions.numSigsRefund.getD 1 ≤ ((conditions.refundKeys.getD []).toFinset ∩ signers).card)

def SpendingConditions.spendable : SpendingConditions → Finset PublicKey → Timestamp → Prop
  | .p2pkConditions data (some conditions), signers, now => conditions.spendable data signers now
  | .p2pkConditions data none, signers, _ => data ∈ signers
  | .htlcConditions, _, _ => True

/-- A reader takes a tag of the kind it is asked for, whenever there is one. -/
structure TagReader.Honest (read : TagReader) : Prop where
  mem : ∀ {tags kind tag}, read tags kind = some tag → tag ∈ tags ∧ tagKind tag = some kind
  found : ∀ {tags kind tag}, tag ∈ tags → tagKind tag = some kind → (read tags kind).isSome

/-- What the mint did: `worth` is the unit and amount it signed a proof for, `stateOf` the state it
keeps of a point. -/
structure Mint where
  answers : MintAnswers
  worth : Proof → Option (CurrencyUnit × Nat)
  stateOf : PublicKey → ProofState
  reader : TagReader

/-- Keys, DLEQ proofs and states are what the mint says they are. -/
structure Mint.Honest (mint : Mint) : Prop where
  dleq : ∀ {keysets keyset proof key}, mint.answers.keysets = some keysets → keyset ∈ keysets →
    keyset.keys proof.amount = some key → mint.answers.verifyDleq proof key →
    mint.worth proof = some (keyset.unit,proof.amount)
  states : ∀ {ys states}, mint.answers.states ys = some states → states.length = ys.length →
    states = ys.map mint.stateOf
  reader : mint.reader.Honest

end Mostro.CashuToken
