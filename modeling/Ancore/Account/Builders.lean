import Ancore.Account.Abi

/-! # The builders of invocations

Three builders call `execute` and `add_session_key` of an account: `AccountContract`
and `TransactionBuilder` of the account-abstraction package, and
`AccountTransactionBuilder` of the core SDK.  What they take from the Stellar SDK is a
parameter, with what it documents of it.
-/

namespace Ancore.Account

open Ancore.Library Ancore.Soroban

/-! ## The Stellar SDK -/

/-- Values of JavaScript that the builders convert. -/
inductive Native where
  | null
  | undefined
  | number (value : Int)
  | bigint (value : Int)
  | string (value : String)
  | bytes (value : Bytes)
  | array (items : List Native)
  | object (entries : List (String × Native))
  | scVal (value : Val)

/-- The option `type` of `nativeToScVal`. -/
inductive ScType where
  | u32
  | u64
  | i128
  | symbol
  | option
  | bytes

/-- What the builders call of the Stellar SDK; `none` where it throws. -/
structure StellarSdk where
  addressFromString : String → Option Address
  decodeEd25519PublicKey : String → Option (BytesN 32)
  nativeToScVal : Native → Option ScType → Option Val

/-- What the SDK documents. -/
structure StellarSdk.Documented (sdk : StellarSdk) : Prop where
  /-- Accounts and contracts are written with a leading `G` or `C`. -/
  address : ∀ text address, sdk.addressFromString text = some address →
    text.toList.head? = some 'G' ∨ text.toList.head? = some 'C'
  publicKey : ∀ text key, sdk.decodeEd25519PublicKey text = some key →
    text.toList.head? = some 'G'
  null : sdk.nativeToScVal .null (some .option) = some .void
  /-- An `ScVal` is left as it is. -/
  scVal : ∀ value type, sdk.nativeToScVal (.scVal value) type = some value
  u32 : ∀ value : UInt32, sdk.nativeToScVal (.number value.toNat) (some .u32) = some (.u32 value)
  u64 : ∀ value : UInt64, sdk.nativeToScVal (.number value.toNat) (some .u64) = some (.u64 value)
  i128 : ∀ value : Int128, sdk.nativeToScVal (.bigint value.val) (some .i128) = some (.i128 value)
  symbol : ∀ value : Symbol,
    sdk.nativeToScVal (.string (String.ofList value.name)) (some .symbol) = some (.symbol value)
  bytes : ∀ value, sdk.nativeToScVal (.bytes value) (some .bytes) = some (.bytes value)
  /-- A plain object becomes a map. -/
  object : ∀ entries type value, sdk.nativeToScVal (.object entries) type = some value →
    ∃ pairs, value = .map pairs

/-! ## What a caller asks for -/

def maxSafeInteger : Nat := 2 ^ 53 - 1

/-- A number that is a safe integer, and not negative. -/
structure SafeInteger where
  value : Nat
  safe : value ≤ maxSafeInteger

def SafeInteger.toUInt64 (number : SafeInteger) : UInt64 := UInt64.ofNat number.value

/-- The text of an address. -/
structure AddressText (sdk : StellarSdk) where
  text : String
  address : Address
  parses : sdk.addressFromString text = some address

/-- The text of a public key. -/
structure KeyText (sdk : StellarSdk) where
  text : String
  key : PublicKey
  parses : sdk.decodeEd25519PublicKey text = some key

/-- The caller of `execute`, with the session key that is passed beside it. -/
inductive CallerArgument (sdk : StellarSdk) where
  | owner (sessionPubKey : Option (KeyText sdk))
  | sessionKey (sessionPubKey : KeyText sdk)
  | quorum (signers : List (AddressText sdk)) (sessionPubKey : Option (KeyText sdk))

def CallerArgument.sessionPubKey {sdk : StellarSdk} : CallerArgument sdk → Option (KeyText sdk)
  | owner sessionPubKey => sessionPubKey
  | sessionKey sessionPubKey => some sessionPubKey
  | quorum _ sessionPubKey => sessionPubKey

def CallerArgument.asked {sdk : StellarSdk} : CallerArgument sdk → CallerIdentity
  | owner _ => .owner
  | sessionKey sessionPubKey => .sessionKey sessionPubKey.key
  | quorum signers _ => .quorum (signers.map (·.address))

structure ExecuteArguments (sdk : StellarSdk) where
  caller : CallerArgument sdk
  target : AddressText sdk
  function : Symbol
  args : List Val
  expectedNonce : SafeInteger
  signature : Option (BytesN 64)
  signaturePayload : Option Bytes

/-- The parameters that the caller asks for. -/
def ExecuteArguments.asked {sdk : StellarSdk} (arguments : ExecuteArguments sdk) :
    ExecuteRequest where
  caller := arguments.caller.asked
  target := arguments.target.address
  function := arguments.function
  args := arguments.args
  expectedNonce := arguments.expectedNonce.toUInt64
  sessionPubKey := arguments.caller.sessionPubKey.map (·.key)
  signature := arguments.signature
  signaturePayload := arguments.signaturePayload

/-- `publicKeyHex` is the text that `TransactionBuilder` takes. -/
structure SessionKeyArguments (sdk : StellarSdk) where
  publicKey : KeyText sdk
  publicKeyHex : String
  expiresAt : SafeInteger
  permissions : List UInt32
  allowedContracts : Option (List (AddressText sdk))
  maxAmountPerCall : Option Int128
  cumulativeLimit : Option Int128
  spendWindowSeconds : SafeInteger

def SessionKeyArguments.asked {sdk : StellarSdk} (arguments : SessionKeyArguments sdk) :
    SessionKeyRequest where
  publicKey := arguments.publicKey.key
  expiresAt := arguments.expiresAt.toUInt64
  permissions := arguments.permissions
  allowedContracts := arguments.allowedContracts.map (·.map (·.address))
  maxAmountPerCall := arguments.maxAmountPerCall
  cumulativeLimit := arguments.cumulativeLimit
  spendWindowSeconds := arguments.spendWindowSeconds.toUInt64

/-! ## Conversions -/

section Conversions

variable (sdk : StellarSdk)

def toScAddress (address : String) : Option Val :=
  if address.toList.head? = some 'G' ∨ address.toList.head? = some 'C' then
    (sdk.addressFromString address).map .address
  else none

def toScBytesN32 (publicKey : String) : Option Val :=
  if publicKey.toList.head? = some 'G' then
    (sdk.decodeEd25519PublicKey publicKey).bind fun rawBytes =>
      sdk.nativeToScVal (.bytes rawBytes.val) (some .bytes)
  else none

def toScU64 (value : Nat) : Option Val :=
  if maxSafeInteger < value then none else sdk.nativeToScVal (.number value) (some .u64)

def toScU32 (value : Nat) : Option Val :=
  if 0xffffffff < value then none else sdk.nativeToScVal (.number value) (some .u32)

def toScPermissionsVec (permissions : List Nat) : Option Val :=
  (permissions.mapM (toScU32 sdk)).map .vec

def toScOption {α : Type} (value : Option α) (converter : α → Option Val) : Option Val :=
  match value with
  | none => sdk.nativeToScVal .null (some .option)
  | some value =>
    (converter value).bind fun scVal => sdk.nativeToScVal (.scVal scVal) (some .option)

def toScAddressVec (addresses : List String) : Option Val :=
  (addresses.mapM fun address => (sdk.addressFromString address).map Val.address).map .vec

def toScI128 (value : Int) : Option Val := sdk.nativeToScVal (.bigint value) (some .i128)

def toScBytes (bytes : Bytes) : Option Val := some (.bytes bytes)

/-- The enumeration `CallerIdentity` of the core SDK. -/
inductive CallerKind where
  | owner
  | sessionKey
  | quorum

def toScCallerIdentity (identity : CallerKind) (data : Option Val) : Option Val :=
  match identity, data with
  | .owner, _ =>
    sdk.nativeToScVal (.object [("tag", .string "Owner"), ("values", .undefined)]) (some .symbol)
  | .sessionKey, some data =>
    (sdk.nativeToScVal (.string "SessionKey") (some .symbol)).map fun name => .vec [name, data]
  | .quorum, some data =>
    (sdk.nativeToScVal (.string "Quorum") (some .symbol)).map fun name => .vec [name, data]
  | _, none => none

def publicKeyToBytes32ScVal (publicKey : String) : Option Val :=
  (sdk.decodeEd25519PublicKey publicKey).map fun bytes => .bytes bytes.val

def u64ToScVal (value : Nat) : Option Val := sdk.nativeToScVal (.bigint value) none

end Conversions

/-! ## The builders -/

inductive Builder where
  | accountContract
  | transactionBuilder
  | accountTransactionBuilder
  deriving DecidableEq

section Builders

variable {sdk : StellarSdk} (account : Address)

/-- `AccountContract.addSessionKey` -/
def AccountContract.addSessionKey (arguments : SessionKeyArguments sdk) : Option Invocation := do
  let publicKey ← publicKeyToBytes32ScVal sdk arguments.publicKey.text
  let expiresAt ← u64ToScVal sdk arguments.expiresAt.value
  let permissions := Val.vec (arguments.permissions.map .u32)
  pure ⟨account, "add_session_key", [publicKey, expiresAt, permissions]⟩

/-- `AccountContract.execute` -/
def AccountContract.execute (arguments : ExecuteArguments sdk) : Option Invocation := do
  let target ← (sdk.addressFromString arguments.target.text).map Val.address
  let expectedNonce ← u64ToScVal sdk arguments.expectedNonce.value
  let sessionPubKey ← match arguments.caller.sessionPubKey with
    | none => some Val.void
    | some sessionPubKey => publicKeyToBytes32ScVal sdk sessionPubKey.text
  let signature := match arguments.signature with
    | none => Val.void
    | some signature => .bytes signature.val
  pure ⟨account, "execute", [target, .symbol arguments.function, .vec arguments.args,
    expectedNonce, sessionPubKey, signature]⟩

/-- `/^[0-9a-fA-F]\x7b64\x7d$/` -/
def isHexKey (text : String) : Bool :=
  text.toList.length = 64 && text.toList.all fun letter =>
    ('0' ≤ letter && letter ≤ '9') || ('a' ≤ letter && letter ≤ 'f') ||
      ('A' ≤ letter && letter ≤ 'F')

/-- `TransactionBuilder.addSessionKey`, and what `buildOperation` makes of it -/
def TransactionBuilder.addSessionKey (arguments : SessionKeyArguments sdk) : Option Invocation :=
  if isHexKey arguments.publicKeyHex then do
    let publicKey ← sdk.nativeToScVal (.string arguments.publicKeyHex) none
    let expiresAt ← sdk.nativeToScVal (.number arguments.expiresAt.value) (some .u64)
    let permissions ← sdk.nativeToScVal
      (.array (arguments.permissions.map fun permission => .number permission.toNat)) none
    pure ⟨account, "add_session_key", [publicKey, expiresAt, permissions]⟩
  else none

/-- `new Contract(contractId)` takes the address of a contract. -/
def newContract (contractId : String) : Option Address :=
  (sdk.addressFromString contractId).bind fun address =>
    match address with
    | .contract _ => some address
    | .account _ => none

/-- `TransactionBuilder.execute` of one operation, and what `buildOperation` makes of it -/
def TransactionBuilder.execute (arguments : ExecuteArguments sdk) : Option Invocation :=
  match arguments.caller.sessionPubKey with
  | none => none
  | some sessionKey =>
    if sessionKey.text = "" then none
    else do
      let contract ← @newContract sdk arguments.target.text
      let args ← arguments.args.mapM fun value => sdk.nativeToScVal (.scVal value) none
      pure ⟨contract, String.ofList arguments.function.name, args⟩

/-- `AccountTransactionBuilder.addSessionKey` -/
def AccountTransactionBuilder.addSessionKey (arguments : SessionKeyArguments sdk) :
    Option Invocation := do
  let publicKey ← toScBytesN32 sdk arguments.publicKey.text
  let expiresAt ← toScU64 sdk arguments.expiresAt.value
  let permissions ← toScPermissionsVec sdk (arguments.permissions.map (·.toNat))
  let allowedContracts ←
    toScOption sdk (arguments.allowedContracts.map (·.map (·.text))) (toScAddressVec sdk)
  let maxAmountPerCall ← toScOption sdk (arguments.maxAmountPerCall.map (·.val)) (toScI128 sdk)
  let cumulativeLimit ← toScOption sdk (arguments.cumulativeLimit.map (·.val)) (toScI128 sdk)
  let spendWindowSeconds ← toScU64 sdk arguments.spendWindowSeconds.value
  pure ⟨account, "add_session_key", [publicKey, expiresAt, permissions, allowedContracts,
    maxAmountPerCall, cumulativeLimit, spendWindowSeconds]⟩

/-- The value of the parameter `caller`. -/
def AccountTransactionBuilder.caller (arguments : ExecuteArguments sdk) : Option Val :=
  match arguments.caller with
  | .owner _ => toScCallerIdentity sdk .owner none
  | .sessionKey sessionPubKey =>
    (toScBytesN32 sdk sessionPubKey.text).bind fun data =>
      toScCallerIdentity sdk .sessionKey (some data)
  -- 'Invalid caller identity configuration'
  | .quorum _ _ => none

/-- `AccountTransactionBuilder.execute` -/
def AccountTransactionBuilder.execute (arguments : ExecuteArguments sdk) : Option Invocation := do
  let caller ← AccountTransactionBuilder.caller arguments
  let target ← toScAddress sdk arguments.target.text
  let function ← sdk.nativeToScVal (.string (String.ofList arguments.function.name)) (some .symbol)
  let expectedNonce ← toScU64 sdk arguments.expectedNonce.value
  let sessionPubKey ←
    toScOption sdk (arguments.caller.sessionPubKey.map (·.text)) (toScBytesN32 sdk)
  let signature ← toScOption sdk (arguments.signature.map (·.val)) toScBytes
  let signaturePayload ← toScOption sdk arguments.signaturePayload toScBytes
  pure ⟨account, "execute", [caller, target, function, .vec arguments.args, expectedNonce,
    sessionPubKey, signature, signaturePayload]⟩

def Builder.addSessionKey (builder : Builder) (arguments : SessionKeyArguments sdk) :
    Option Invocation :=
  match builder with
  | accountContract => AccountContract.addSessionKey account arguments
  | transactionBuilder => TransactionBuilder.addSessionKey account arguments
  | accountTransactionBuilder => AccountTransactionBuilder.addSessionKey account arguments

def Builder.execute (builder : Builder) (arguments : ExecuteArguments sdk) : Option Invocation :=
  match builder with
  | accountContract => AccountContract.execute account arguments
  | transactionBuilder => TransactionBuilder.execute arguments
  | accountTransactionBuilder => AccountTransactionBuilder.execute account arguments

end Builders

end Ancore.Account
