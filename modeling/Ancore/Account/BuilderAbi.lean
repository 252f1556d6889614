import Ancore.Account.Builders

/-! # Which builders speak the contract's language

`add_session_key` takes seven parameters and `execute` eight.  The builder of the core
SDK passes those of `add_session_key` as they are asked for, and those of `execute`
where a session key calls; the two others pass fewer.
-/

namespace Ancore.Account

open Ancore.Library Ancore.Soroban

/-- A value that may be absent. -/
def optional {α : Type} (write : α → Val) : Option α → Val
  | none => .void
  | some value => write value

section Conversions

variable {sdk : StellarSdk} (documented : sdk.Documented)

include documented

theorem toScBytesN32_text (key : KeyText sdk) :
    toScBytesN32 sdk key.text = some (.bytes key.key.val) := by
  rw [toScBytesN32, if_pos (documented.publicKey _ _ key.parses), key.parses, Option.bind_some,
    documented.bytes]

theorem toScAddress_text (address : AddressText sdk) :
    toScAddress sdk address.text = some (.address address.address) := by
  rw [toScAddress, if_pos (documented.address _ _ address.parses), address.parses]
  rfl

theorem toScU64_value (number : SafeInteger) :
    toScU64 sdk number.value = some (.u64 number.toUInt64) := by
  have safe := number.safe
  have same : number.toUInt64.toNat = number.value := by
    rw [SafeInteger.toUInt64, UInt64.toNat_ofNat_of_lt']
    rw [maxSafeInteger] at safe
    change number.value < 2 ^ 64
    omega
  rw [toScU64, if_neg (Nat.not_lt.mpr safe), ← same, documented.u64]

theorem toScPermissionsVec_map (permissions : List UInt32) :
    toScPermissionsVec sdk (permissions.map (·.toNat)) = some (.vec (permissions.map .u32)) := by
  have each (permission : UInt32) : toScU32 sdk permission.toNat = some (.u32 permission) := by
    have bound := permission.toNat_lt
    rw [toScU32, if_neg (by omega), documented.u32]
  rw [toScPermissionsVec, mapM_map each]
  rfl

omit documented in
theorem toScAddressVec_map (addresses : List (AddressText sdk)) :
    toScAddressVec sdk (addresses.map (·.text)) =
      some (.vec (addresses.map fun address => .address address.address)) := by
  have each (address : AddressText sdk) :
      (sdk.addressFromString address.text).map Val.address =
        some (.address address.address) := by
    rw [address.parses]
    rfl
  have listed := @mapM_map _ _ _ (fun text => (sdk.addressFromString text).map Val.address)
    (fun address : AddressText sdk => address.text) (fun address => Val.address address.address)
    each addresses
  rw [toScAddressVec, listed]
  rfl

theorem toScI128_val (value : Int128) : toScI128 sdk value.val = some (.i128 value) :=
  documented.i128 value

theorem toScOption_map {α β : Type} {converter : β → Option Val} {text : α → β} {write : α → Val}
    (converts : ∀ value, converter (text value) = some (write value)) (value : Option α) :
    toScOption sdk (value.map text) converter = some (optional write value) := by
  cases value with
  | none => exact documented.null
  | some value =>
    rw [Option.map_some, toScOption, converts, Option.bind_some, documented.scVal]
    rfl

end Conversions

/-! ## What is read of the vectors -/

theorem asOption_optional {α β : Type} {read : Val → Option β} {write : α → Val} {value : α → β}
    (reads : ∀ item, read (write item) = some (value item))
    (present : ∀ item, write item ≠ .void) (item : Option α) :
    Val.asOption read (optional write item) = some (item.map value) := by
  cases item with
  | none => rfl
  | some item =>
    have written : optional write (some item) = write item := rfl
    have notVoid := present item
    rw [written, Val.asOption]
    · rw [reads]
      rfl
    · exact notVoid

theorem asAddresses_map {sdk : StellarSdk} (addresses : List (AddressText sdk)) :
    Val.asVec Val.asAddress (.vec (addresses.map fun address => .address address.address)) =
      some (addresses.map (·.address)) := by
  have each (address : AddressText sdk) :
      Val.asAddress (.address address.address) = some address.address := rfl
  exact Val.asVec_map each addresses

/-- The account reads what is asked for of the seven values. -/
theorem addSessionKey?_of_vector {sdk : StellarSdk} (account : Address)
    (arguments : SessionKeyArguments sdk) :
    Invocation.addSessionKey? account ⟨account, "add_session_key",
      [.bytes arguments.publicKey.key.val, .u64 arguments.expiresAt.toUInt64,
        .vec (arguments.permissions.map .u32),
        optional (fun addresses : List (AddressText sdk) =>
          .vec (addresses.map fun address => .address address.address)) arguments.allowedContracts,
        optional .i128 arguments.maxAmountPerCall, optional .i128 arguments.cumulativeLimit,
        .u64 arguments.spendWindowSeconds.toUInt64]⟩ = some arguments.asked := by
  have permission (value : UInt32) : Val.asU32 (.u32 value) = some (id value) := rfl
  have amount (value : Int128) : Val.asI128 (.i128 value) = some (id value) := rfl
  have permissions := Val.asVec_map permission arguments.permissions
  have amounts (value : Option Int128) :=
    asOption_optional amount (fun _ => by simp) value
  have allowedContracts := asOption_optional asAddresses_map (fun _ => by simp)
    arguments.allowedContracts
  rw [Invocation.addSessionKey?, if_pos ⟨rfl, rfl⟩]
  simp only [SessionKeyRequest.ofArgs, Val.asBytesN_bytes, Val.asU64, permissions,
    allowedContracts, amounts, Option.bind_eq_bind, Option.bind_some, Option.pure_def, List.map_id,
    Option.map_id]
  rfl

/-- The account reads what is asked for of the eight values. -/
theorem execute?_of_vector {sdk : StellarSdk} (account : Address)
    {arguments : ExecuteArguments sdk} {key : KeyText sdk}
    (caller : arguments.caller = .sessionKey key) :
    Invocation.execute? account ⟨account, "execute",
      [.vec [.symbol sessionKeyName, .bytes key.key.val], .address arguments.target.address,
        .symbol arguments.function, .vec arguments.args, .u64 arguments.expectedNonce.toUInt64,
        optional (fun key : KeyText sdk => .bytes key.key.val) arguments.caller.sessionPubKey,
        optional (fun value : BytesN 64 => .bytes value.val) arguments.signature,
        optional .bytes arguments.signaturePayload]⟩ = some arguments.asked := by
  have identity : CallerIdentity.ofVal (.vec [.symbol sessionKeyName, .bytes key.key.val]) =
      some arguments.caller.asked := by
    rw [caller, CallerIdentity.ofVal, if_pos rfl, Val.asBytesN_bytes]
    rfl
  have keyRead (key : KeyText sdk) : Val.asBytesN 32 (.bytes key.key.val) = some key.key :=
    Val.asBytesN_bytes key.key
  have signatureRead (value : BytesN 64) : Val.asBytesN 64 (.bytes value.val) = some (id value) :=
    Val.asBytesN_bytes value
  have bytesRead (value : Bytes) : Val.asBytes (.bytes value) = some (id value) := rfl
  have sessionPubKey := asOption_optional keyRead (fun _ => by simp) arguments.caller.sessionPubKey
  have signature := asOption_optional signatureRead (fun _ => by simp) arguments.signature
  have signaturePayload := asOption_optional bytesRead (fun _ => by simp)
    arguments.signaturePayload
  rw [Invocation.execute?, if_pos ⟨rfl, rfl⟩]
  simp only [ExecuteRequest.ofArgs, identity, Val.asAddress, Val.asSymbol, Val.asItems, Val.asU64,
    sessionPubKey, signature, signaturePayload, Option.bind_eq_bind, Option.bind_some,
    Option.pure_def, Option.map_id]
  rfl

section Vectors

variable {sdk : StellarSdk} (documented : sdk.Documented) (account : Address)

include documented

theorem accountTransactionBuilder_addSessionKey (arguments : SessionKeyArguments sdk) :
    (AccountTransactionBuilder.addSessionKey account arguments).bind (·.addSessionKey? account) =
      some arguments.asked := by
  have publicKey := toScBytesN32_text documented arguments.publicKey
  have expiresAt := toScU64_value documented arguments.expiresAt
  have permissions := toScPermissionsVec_map documented arguments.permissions
  have allowedContracts := toScOption_map documented toScAddressVec_map
    arguments.allowedContracts
  have maxAmountPerCall := toScOption_map documented (toScI128_val documented)
    arguments.maxAmountPerCall
  have cumulativeLimit := toScOption_map documented (toScI128_val documented)
    arguments.cumulativeLimit
  have spendWindowSeconds := toScU64_value documented arguments.spendWindowSeconds
  simp only [AccountTransactionBuilder.addSessionKey, publicKey, expiresAt, permissions,
    allowedContracts, maxAmountPerCall, cumulativeLimit, spendWindowSeconds, Option.bind_eq_bind,
    Option.bind_some, Option.pure_def]
  exact addSessionKey?_of_vector account arguments

/-- The name of a session key that calls, with its key. -/
theorem caller_of_sessionKey (key : KeyText sdk) :
    (toScBytesN32 sdk key.text).bind
        (fun data => toScCallerIdentity sdk .sessionKey (some data)) =
      some (.vec [.symbol sessionKeyName, .bytes key.key.val]) := by
  have name : sdk.nativeToScVal (.string "SessionKey") (some .symbol) =
      some (.symbol sessionKeyName) := documented.symbol sessionKeyName
  rw [toScBytesN32_text documented key, Option.bind_some, toScCallerIdentity, name]
  rfl

theorem accountTransactionBuilder_execute {arguments : ExecuteArguments sdk} {key : KeyText sdk}
    (caller : arguments.caller = .sessionKey key) :
    (AccountTransactionBuilder.execute account arguments).bind (·.execute? account) =
      some arguments.asked := by
  have identity : AccountTransactionBuilder.caller arguments =
      some (.vec [.symbol sessionKeyName, .bytes key.key.val]) := by
    rw [AccountTransactionBuilder.caller, caller]
    exact caller_of_sessionKey documented key
  have target := toScAddress_text documented arguments.target
  have function := documented.symbol arguments.function
  have expectedNonce := toScU64_value documented arguments.expectedNonce
  have sessionPubKey := toScOption_map documented (toScBytesN32_text documented)
    arguments.caller.sessionPubKey
  have bytes (value : Bytes) : toScBytes (id value) = some (.bytes value) := rfl
  have bytesN (value : BytesN 64) : toScBytes value.val = some (.bytes value.val) := rfl
  have signature := toScOption_map documented bytesN arguments.signature
  have signaturePayload := @toScOption_map sdk documented _ _ toScBytes id .bytes bytes
    arguments.signaturePayload
  rw [Option.map_id, id_eq] at signaturePayload
  simp only [AccountTransactionBuilder.execute, identity, target, function, expectedNonce,
    sessionPubKey, signature, signaturePayload, Option.bind_eq_bind, Option.bind_some,
    Option.pure_def]
  exact execute?_of_vector account caller

/-- The account reads no caller but a session key of what is built. -/
theorem caller_of_decoded {arguments : ExecuteArguments sdk} {request : ExecuteRequest}
    (decoded : (AccountTransactionBuilder.execute account arguments).bind (·.execute? account) =
      some request) : ∃ key, arguments.caller = .sessionKey key := by
  obtain ⟨invocation, built, decoded⟩ := Option.bind_eq_some_iff.mp decoded
  simp only [AccountTransactionBuilder.execute, Option.bind_eq_bind, Option.bind_eq_some_iff,
    Option.pure_def, Option.some.injEq] at built
  obtain ⟨caller, identity, _, _, _, _, _, _, _, _, _, _, _, _, rfl⟩ := built
  rw [AccountTransactionBuilder.caller] at identity
  cases given : arguments.caller with
  | sessionKey key => exact ⟨key, rfl⟩
  | quorum signers =>
    rw [given] at identity
    cases identity
  | owner =>
    rw [given] at identity
    -- the name of the owner is a map, which is no variant of the enumeration
    obtain ⟨pairs, rfl⟩ := documented.object _ _ _ identity
    rw [Invocation.execute?, if_pos ⟨rfl, rfl⟩] at decoded
    cases decoded

/-- What is built of an operation calls its target with the arguments alone. -/
theorem not_decoded_transactionBuilder (arguments : ExecuteArguments sdk) :
    (TransactionBuilder.execute arguments).bind (·.execute? account) ≠ some arguments.asked := by
  intro decoded
  obtain ⟨invocation, built, decoded⟩ := Option.bind_eq_some_iff.mp decoded
  unfold TransactionBuilder.execute at built
  split at built
  · cases built
  · split at built
    · cases built
    · simp only [Option.bind_eq_bind, Option.bind_eq_some_iff, Option.pure_def,
        Option.some.injEq] at built
      obtain ⟨_, _, args, passed, rfl⟩ := built
      have unchanged (value : Val) : sdk.nativeToScVal (.scVal (id value)) none =
          some (id value) := documented.scVal value none
      have copied := @mapM_map _ _ _ (fun value => sdk.nativeToScVal (.scVal value) none)
        id id unchanged arguments.args
      rw [List.map_id, passed, Option.some.injEq] at copied
      unfold Invocation.execute? at decoded
      split at decoded
      · exact ExecuteRequest.args_ne_of_ofArgs decoded copied
      · cases decoded

end Vectors

/-! ## Lengths -/

section Lengths

variable {sdk : StellarSdk} {account : Address} {invocation : Invocation}

theorem length_accountContract_execute {arguments : ExecuteArguments sdk}
    (built : AccountContract.execute account arguments = some invocation) :
    invocation.args.length = 6 := by
  simp only [AccountContract.execute, Option.bind_eq_bind, Option.bind_eq_some_iff,
    Option.pure_def] at built
  obtain ⟨_, _, _, _, built⟩ := built
  split at built
  · cases built
    rfl
  · obtain ⟨_, _, found⟩ := Option.bind_eq_some_iff.mp built
    cases found
    rfl

theorem length_accountTransactionBuilder_execute {arguments : ExecuteArguments sdk}
    (built : AccountTransactionBuilder.execute account arguments = some invocation) :
    invocation.args.length = 8 := by
  simp only [AccountTransactionBuilder.execute, Option.bind_eq_bind, Option.bind_eq_some_iff,
    Option.pure_def, Option.some.injEq] at built
  obtain ⟨_, _, _, _, _, _, _, _, _, _, _, _, _, _, rfl⟩ := built
  rfl

theorem length_accountContract_addSessionKey {arguments : SessionKeyArguments sdk}
    (built : AccountContract.addSessionKey account arguments = some invocation) :
    invocation.args.length = 3 := by
  simp only [AccountContract.addSessionKey, Option.bind_eq_bind, Option.bind_eq_some_iff,
    Option.pure_def, Option.some.injEq] at built
  obtain ⟨_, _, _, _, rfl⟩ := built
  rfl

theorem length_transactionBuilder_addSessionKey {arguments : SessionKeyArguments sdk}
    (built : TransactionBuilder.addSessionKey account arguments = some invocation) :
    invocation.args.length = 3 := by
  unfold TransactionBuilder.addSessionKey at built
  split at built
  · simp only [Option.bind_eq_bind, Option.bind_eq_some_iff, Option.pure_def,
      Option.some.injEq] at built
    obtain ⟨_, _, _, _, _, _, rfl⟩ := built
    rfl
  · cases built

theorem length_of_execute? {request : ExecuteRequest}
    (decoded : invocation.execute? account = some request) : invocation.args.length = 8 := by
  unfold Invocation.execute? at decoded
  split at decoded
  · exact ExecuteRequest.length_of_ofArgs decoded
  · cases decoded

theorem length_of_addSessionKey? {request : SessionKeyRequest}
    (decoded : invocation.addSessionKey? account = some request) : invocation.args.length = 7 := by
  unfold Invocation.addSessionKey? at decoded
  split at decoded
  · exact SessionKeyRequest.length_of_ofArgs decoded
  · cases decoded

end Lengths

/-! ## The contract's language -/

/-- The builder of the core SDK speaks the contract's language in `add_session_key`, and in
`execute` where a session key calls; the others never do, and no request has one vector with all
three. -/
theorem speaks_abi_iff {sdk : StellarSdk} (documented : sdk.Documented) (account : Address) :
    (∀ (builder : Builder) (arguments : SessionKeyArguments sdk),
      (builder.addSessionKey account arguments).bind (·.addSessionKey? account) =
          some arguments.asked ↔ builder = .accountTransactionBuilder) ∧
    (∀ (builder : Builder) (arguments : ExecuteArguments sdk),
      (builder.execute account arguments).bind (·.execute? account) = some arguments.asked ↔
        builder = .accountTransactionBuilder ∧ ∃ key, arguments.caller = .sessionKey key) ∧
    (∀ arguments : SessionKeyArguments sdk, ¬∃ invocation, ∀ builder : Builder,
      builder.addSessionKey account arguments = some invocation) ∧
    ∀ arguments : ExecuteArguments sdk, ¬∃ invocation, ∀ builder : Builder,
      builder.execute account arguments = some invocation := by
  have addSessionKey (builder : Builder) (arguments : SessionKeyArguments sdk) :
      (builder.addSessionKey account arguments).bind (·.addSessionKey? account) =
        some arguments.asked ↔ builder = .accountTransactionBuilder := by
    cases builder with
    | accountTransactionBuilder =>
      exact iff_of_true (accountTransactionBuilder_addSessionKey documented account arguments) rfl
    | accountContract =>
      refine iff_of_false ?_ nofun
      intro decoded
      obtain ⟨invocation, built, decoded⟩ := Option.bind_eq_some_iff.mp decoded
      have three := length_accountContract_addSessionKey built
      have seven := length_of_addSessionKey? decoded
      omega
    | transactionBuilder =>
      refine iff_of_false ?_ nofun
      intro decoded
      obtain ⟨invocation, built, decoded⟩ := Option.bind_eq_some_iff.mp decoded
      have three := length_transactionBuilder_addSessionKey built
      have seven := length_of_addSessionKey? decoded
      omega
  refine ⟨addSessionKey, ?_, ?_, ?_⟩
  · intro builder arguments
    cases builder with
    | accountTransactionBuilder =>
      constructor
      · intro decoded
        exact ⟨rfl, caller_of_decoded documented account decoded⟩
      · rintro ⟨-, key, caller⟩
        exact accountTransactionBuilder_execute documented account caller
    | accountContract =>
      refine iff_of_false ?_ (fun speaks => nomatch speaks.1)
      intro decoded
      obtain ⟨invocation, built, decoded⟩ := Option.bind_eq_some_iff.mp decoded
      have six := length_accountContract_execute built
      have eight := length_of_execute? decoded
      omega
    | transactionBuilder =>
      exact iff_of_false (not_decoded_transactionBuilder documented account arguments)
        (fun speaks => nomatch speaks.1)
  · rintro arguments ⟨invocation, same⟩
    -- the vector of the core SDK is read, and then the others would be
    have read := (addSessionKey .accountTransactionBuilder arguments).mpr rfl
    rw [same .accountTransactionBuilder, ← same .accountContract] at read
    cases (addSessionKey .accountContract arguments).mp read
  · rintro arguments ⟨invocation, same⟩
    have six := length_accountContract_execute (same .accountContract)
    have eight := length_accountTransactionBuilder_execute (same .accountTransactionBuilder)
    omega

/-! ## An instance of the Stellar SDK -/

def zeroAccountText : String := "GAAAAAAAAAAAAAAAAAAAAAAAAAAAAAAAAAAAAAAAAAAAAAAAAAAAAWHF"

def zeroContractText : String := "CAAAAAAAAAAAAAAAAAAAAAAAAAAAAAAAAAAAAAAAAAAAAAAAAAAAD2KM"

/-- `nativeToScVal` of what has no parts. -/
def scalarToScVal : Native → Option ScType → Option Val
  | .null, _ => some .void
  | .undefined, _ => some .void
  | .scVal value, _ => some value
  | .number value, some .u32 =>
    if 0 ≤ value ∧ value < 2 ^ 32 then some (.u32 (UInt32.ofNat value.toNat)) else none
  | .number value, some .u64 =>
    if 0 ≤ value ∧ value < 2 ^ 64 then some (.u64 (UInt64.ofNat value.toNat)) else none
  | .number value, none =>
    if 0 ≤ value ∧ value < 2 ^ 64 then some (.u64 (UInt64.ofNat value.toNat)) else none
  | .bigint value, none =>
    if 0 ≤ value ∧ value < 2 ^ 64 then some (.u64 (UInt64.ofNat value.toNat)) else none
  | .bigint value, some .i128 =>
    if -2 ^ 127 ≤ value ∧ value < 2 ^ 127 then some (.i128 (FixedWidth.ofInt value)) else none
  | .string text, some .symbol =>
    if valid : text.toList.length ≤ 32 ∧ ∀ c ∈ text.toList, isSymbolChar c = true then
      some (.symbol ⟨text.toList, valid.1, valid.2⟩)
    else none
  | .string text, none => some (.string text.toUTF8.toList)
  | .bytes value, some .bytes => some (.bytes value)
  | _, _ => none

/-- Arrays become vectors, and objects maps from strings. -/
def plainToScVal : Native → Option ScType → Option Val
  | .array items, _ => (items.mapM fun item => scalarToScVal item none).map .vec
  | .object entries, _ =>
    (entries.mapM fun entry =>
      (scalarToScVal entry.2 none).map fun value =>
        (Val.string entry.1.toUTF8.toList, value)).map .map
  | value, type => scalarToScVal value type

def plainSdk : StellarSdk where
  addressFromString text :=
    if text = zeroAccountText then some (.account zeroBytes)
    else if text = zeroContractText then some (.contract zeroBytes)
    else none
  decodeEd25519PublicKey text := if text = zeroAccountText then some zeroBytes else none
  nativeToScVal := plainToScVal

theorem plainSdk_documented : plainSdk.Documented where
  address text address parsed := by
    simp only [plainSdk] at parsed
    split at parsed
    · rename_i same
      subst same
      exact Or.inl rfl
    · split at parsed
      · rename_i same
        subst same
        exact Or.inr rfl
      · cases parsed
  publicKey text key parsed := by
    simp only [plainSdk] at parsed
    split at parsed
    · rename_i same
      subst same
      rfl
    · cases parsed
  null := rfl
  scVal _ _ := rfl
  u32 value := by
    have bound := value.toNat_lt
    simp [plainSdk, plainToScVal, scalarToScVal, bound]
  u64 value := by
    have bound := value.toNat_lt
    simp [plainSdk, plainToScVal, scalarToScVal, bound]
  i128 value := by
    have range : -2 ^ 127 ≤ value.val ∧ value.val < 2 ^ 127 := ⟨value.lower, value.upper⟩
    have same : FixedWidth.ofInt value.val = value := dif_pos range
    exact (if_pos range).trans (congrArg (fun value => some (Val.i128 value)) same)
  symbol value := by
    have valid : (String.ofList value.name).toList.length ≤ 32 ∧
        ∀ c ∈ (String.ofList value.name).toList, isSymbolChar c = true := by
      rw [String.toList_ofList]
      exact ⟨value.short, value.wellFormed⟩
    have converted : plainSdk.nativeToScVal (.string (String.ofList value.name)) (some .symbol) =
        some (.symbol ⟨(String.ofList value.name).toList, valid.1, valid.2⟩) := dif_pos valid
    rw [converted]
    simp only [String.toList_ofList]
  bytes _ := rfl
  object entries type value converted := by
    obtain ⟨pairs, -, rfl⟩ := Option.map_eq_some_iff.mp converted
    exact ⟨pairs, rfl⟩

def zeroKeyText : KeyText plainSdk := ⟨zeroAccountText, zeroBytes, rfl⟩

def zeroContract : AddressText plainSdk where
  text := zeroContractText
  address := .contract zeroBytes
  parses := rfl

/-- A session key that calls `hello` with one value. -/
def greetingArguments : ExecuteArguments plainSdk where
  caller := .sessionKey zeroKeyText
  target := zeroContract
  function := ⟨"hello".toList, by decide, by simp [isSymbolChar]⟩
  args := [.bool true]
  expectedNonce := ⟨0, by decide⟩
  signature := none
  signaturePayload := none

def plainSessionKey : SessionKeyArguments plainSdk where
  publicKey := zeroKeyText
  publicKeyHex := String.ofList (List.replicate 64 '0')
  expiresAt := ⟨1000, by decide⟩
  permissions := [0]
  allowedContracts := none
  maxAmountPerCall := none
  cumulativeLimit := none
  spendWindowSeconds := ⟨60, by decide⟩

theorem speaks_abi_iff_of_plainSdk :
    (Builder.accountTransactionBuilder.addSessionKey (.contract zeroBytes) plainSessionKey).bind
        (·.addSessionKey? (.contract zeroBytes)) = some plainSessionKey.asked :=
  ((speaks_abi_iff plainSdk_documented (.contract zeroBytes)).1 .accountTransactionBuilder
    plainSessionKey).mpr rfl

/-- `AccountContract` passes six values of the eight, and three of the seven. -/
theorem abi_misspoken :
    ((Builder.accountContract.execute (.contract zeroBytes) greetingArguments).map
          (·.args.length) = some 6 ∧
      (Builder.accountContract.execute (.contract zeroBytes) greetingArguments).bind
          (·.execute? (.contract zeroBytes)) ≠ some greetingArguments.asked) ∧
    (Builder.accountContract.addSessionKey (.contract zeroBytes) plainSessionKey).map
        (·.args.length) = some 3 ∧
    (Builder.accountContract.addSessionKey (.contract zeroBytes) plainSessionKey).bind
        (·.addSessionKey? (.contract zeroBytes)) ≠ some plainSessionKey.asked := by
  have executed : Builder.accountContract.execute (.contract zeroBytes) greetingArguments =
      some ⟨.contract zeroBytes, "execute", [.address (.contract zeroBytes),
        .symbol greetingArguments.function, .vec [.bool true], .u64 0, .bytes zeroBytes.val,
        .void]⟩ := rfl
  have added : Builder.accountContract.addSessionKey (.contract zeroBytes) plainSessionKey =
      some ⟨.contract zeroBytes, "add_session_key",
        [.bytes zeroBytes.val, .u64 1000, .vec [.u32 0]]⟩ := rfl
  rw [executed, added]
  refine ⟨⟨rfl, nofun⟩, rfl, nofun⟩

end Ancore.Account
