import Ancore.Account.BuilderAbi
import Ancore.Library.Doubles

/-! # Codecs of the account contract

`xdr-utils` of the account-abstraction package writes the arguments of the contract's
functions and its `SessionKey` as values of the contract, and reads them back.  A `u64`
is written from a bigint and read as a double.
-/

namespace Ancore.Account.Codecs

open Ancore.Library Ancore.Soroban

/-! ## The Stellar SDK -/

/-- With what reads values back; `none` where it throws. -/
structure StellarCodec extends StellarSdk where
  scValToNative : Val → Option Native
  encodeEd25519PublicKey : Bytes → String

def symbolText (name : Symbol) : String := String.ofList name.name

/-- What the SDK documents. -/
structure StellarCodec.Documented (sdk : StellarCodec) : Prop where
  /-- The smallest unsigned type that holds the value is chosen. -/
  bigint : ∀ value : UInt64, sdk.nativeToScVal (.bigint value.toNat) none = some (.u64 value)
  /-- A key has one text. -/
  strKey : ∀ text key, sdk.decodeEd25519PublicKey text = some key →
    sdk.encodeEd25519PublicKey key.val = text
  address : ∀ text address, sdk.addressFromString text = some address →
    sdk.scValToNative (.address address) = some (.string text)
  u32 : ∀ value : UInt32, sdk.scValToNative (.u32 value) = some (.number value.toNat)
  u64 : ∀ value : UInt64, sdk.scValToNative (.u64 value) = some (.bigint value.toNat)
  symbol : ∀ name, sdk.scValToNative (.symbol name) = some (.string (symbolText name))
  bytes : ∀ value, sdk.scValToNative (.bytes value) = some (.bytes value)
  vec : ∀ items natives, items.mapM sdk.scValToNative = some natives →
    sdk.scValToNative (.vec items) = some (.array natives)
  /-- Symbols become the names of properties. -/
  map : ∀ (entries : List (Symbol × Val)) natives,
    (entries.mapM fun entry => (sdk.scValToNative entry.2).map (symbolText entry.1, ·)) =
      some natives →
    sdk.scValToNative (.map (entries.map fun entry => (.symbol entry.1, entry.2))) =
      some (.object natives)
  /-- What is not converted is returned as it is. -/
  total : ∀ value, (sdk.scValToNative value).isSome

/-! ## Parameters -/

/-- `string | Uint8Array` -/
inductive PublicKeyParam where
  | text (value : String)
  | bytes (value : Bytes)

/-- `target` is `to`; a nonce is an integer, as a number or as a bigint. -/
structure ExecuteParams where
  target : String
  functionName : String
  args : List Val
  expectedNonce : Int

structure AddSessionKeyParams where
  publicKey : PublicKeyParam
  expiresAt : Int
  permissions : List UInt32

/-- What is read of a session key. -/
structure SessionKeyFields where
  publicKey : String
  expiresAt : Native
  permissions : List Native

/-! ## Encoding -/

section Encoding

variable (sdk : StellarCodec)

def addressToScVal (address : String) : Option Val :=
  (sdk.addressFromString address).map .address

def publicKeyToBytes32ScVal : PublicKeyParam → Option Val
  | .text value => Account.publicKeyToBytes32ScVal sdk.toStellarSdk value
  | .bytes value => if value.length = 32 then some (.bytes value) else none

def u64ToScVal (value : Int) : Option Val := sdk.nativeToScVal (.bigint value) none

def permissionsToScVal (permissions : List UInt32) : Val := .vec (permissions.map .u32)

/-- A name that is no symbol has no value. -/
def symbolOf (name : List Char) : Option Symbol :=
  if valid : name.length ≤ 32 ∧ ∀ c ∈ name, isSymbolChar c = true then
    some ⟨name, valid.1, valid.2⟩
  else none

def symbolToScVal (name : String) : Option Val := (symbolOf name.toList).map .symbol

def encodeExecuteArgs (params : ExecuteParams) : Option (List Val) := do
  let target ← addressToScVal sdk params.target
  let functionName ← symbolToScVal params.functionName
  let expectedNonce ← u64ToScVal sdk params.expectedNonce
  pure [target, functionName, .vec params.args, expectedNonce]

def encodeAddSessionKeyArgs (params : AddSessionKeyParams) : Option (List Val) := do
  let publicKey ← publicKeyToBytes32ScVal sdk params.publicKey
  let expiresAt ← u64ToScVal sdk params.expiresAt
  pure [publicKey, expiresAt, permissionsToScVal params.permissions]

def encodeRevokeSessionKeyArgs (publicKey : PublicKeyParam) : Option (List Val) :=
  (publicKeyToBytes32ScVal sdk publicKey).map fun publicKey => [publicKey]

def encodeGetSessionKeyArgs (publicKey : PublicKeyParam) : Option (List Val) :=
  (publicKeyToBytes32ScVal sdk publicKey).map fun publicKey => [publicKey]

def sessionKeyToScVal (sessionKey : AddSessionKeyParams) : Option Val := do
  let expiresAtKey ← symbolToScVal "expires_at"
  let expiresAt ← u64ToScVal sdk sessionKey.expiresAt
  let permissionsKey ← symbolToScVal "permissions"
  let publicKeyKey ← symbolToScVal "public_key"
  let publicKey ← publicKeyToBytes32ScVal sdk sessionKey.publicKey
  pure (.map [(expiresAtKey, expiresAt),
    (permissionsKey, permissionsToScVal sessionKey.permissions), (publicKeyKey, publicKey)])

end Encoding

/-! ## Decoding -/

/-- `Number(value)` of a bigint. -/
def numberOf (value : Int) : Int :=
  if value < 0 then -(Double.rounded value.natAbs : Int) else Double.rounded value.natAbs

section Decoding

-- `convert` is what `Number(value)` makes of a value that is neither a number nor a bigint
variable (sdk : StellarCodec) (convert : Native → Native)

/-- `Number(value)` -/
def toNumber : Native → Native
  | .number value => .number value
  | .bigint value => .number (numberOf value)
  | value => convert value

/-- A string, by `typeof`. -/
def scValToString (scVal : Val) : Option String :=
  match sdk.scValToNative scVal with
  | some (.string native) => some native
  | _ => none

def scValToAddress (scVal : Val) : Option String := scValToString sdk scVal

def scValToU64 (scVal : Val) : Option Int :=
  match sdk.scValToNative scVal with
  | some (.bigint native) => some (numberOf native)
  | some (.number native) => some native
  | _ => none

def bytes32ScValToPublicKey (scVal : Val) : Option String :=
  match sdk.scValToNative scVal with
  | some (.bytes native) =>
    if native.length = 32 then some (sdk.encodeEd25519PublicKey native) else none
  | _ => none

/-- An array, by `Array.isArray`. -/
def scValToArray (scVal : Val) : Option (List Native) :=
  match sdk.scValToNative scVal with
  | some (.array items) => some items
  | _ => none

def decodeExecuteArgs : List Val → Option ExecuteParams
  | [target, function, args, expectedNonce] => do
    let functionName ← scValToString sdk function
    let _ ← scValToArray sdk args
    let target ← scValToAddress sdk target
    let expectedNonce ← scValToU64 sdk expectedNonce
    pure { target, functionName, args := args.asItems.getD [], expectedNonce }
  | _ => none

def decodeAddSessionKeyArgs : List Val → Option SessionKeyFields
  | [publicKey, expiresAt, permissions] => do
    let nativePermissions ← scValToArray sdk permissions
    let publicKey ← bytes32ScValToPublicKey sdk publicKey
    let expiresAt ← scValToU64 sdk expiresAt
    pure { publicKey, expiresAt := .number expiresAt,
           permissions := nativePermissions.map (toNumber convert) }
  | _ => none

def decodeRevokeSessionKeyArgs : List Val → Option String
  | [publicKey] => bytes32ScValToPublicKey sdk publicKey
  | _ => none

def decodeGetSessionKeyArgs : List Val → Option String
  | [publicKey] => bytes32ScValToPublicKey sdk publicKey
  | _ => none

/-- A property of an object that is neither null nor undefined. -/
def property (entries : List (String × Native)) (name : String) : Option Native :=
  match entries.lookup name with
  | some .null => none
  | some .undefined => none
  | value => value

def scValToSessionKey (scVal : Val) : Option SessionKeyFields :=
  match sdk.scValToNative scVal with
  | some (.object entries) => do
    let publicKey ← property entries "public_key"
    let expiresAt ← property entries "expires_at"
    let permissions ← property entries "permissions"
    let publicKey ← match publicKey with
      | .bytes publicKey => some (sdk.encodeEd25519PublicKey publicKey)
      | _ => none
    let permissions := match permissions with
      | .array permissions => permissions.map (toNumber id)
      | _ => []
    pure { publicKey, expiresAt := toNumber convert expiresAt, permissions }
  | _ => none

end Decoding

/-! ## What is read back -/

section RoundTrips

variable {sdk : StellarCodec} {convert : Native → Native}

inductive PublicKeyArgument (sdk : StellarCodec) where
  | text (key : KeyText sdk.toStellarSdk)
  | bytes (key : BytesN 32)

def PublicKeyArgument.param : PublicKeyArgument sdk → PublicKeyParam
  | text key => .text key.text
  | bytes key => .bytes key.val

/-- The text of the key. -/
def PublicKeyArgument.keyText : PublicKeyArgument sdk → String
  | text key => key.text
  | bytes key => sdk.encodeEd25519PublicKey key.val

/-- What may be written. -/
inductive Argument (sdk : StellarCodec) where
  | execute (target : AddressText sdk.toStellarSdk) (function : Symbol) (args : List Val)
      (expectedNonce : UInt64)
  | addSessionKey (publicKey : PublicKeyArgument sdk) (expiresAt : UInt64)
      (permissions : List UInt32)
  | revokeSessionKey (publicKey : PublicKeyArgument sdk)
  | getSessionKey (publicKey : PublicKeyArgument sdk)
  | sessionKey (publicKey : PublicKeyArgument sdk) (expiresAt : UInt64)
      (permissions : List UInt32)

def permissionNumbers (permissions : List UInt32) : List Native :=
  permissions.map fun permission => .number permission.toNat

/-- What is written is read back with the same values. -/
def Argument.Recovered (convert : Native → Native) : Argument sdk → Prop
  | execute target function args expectedNonce =>
    (encodeExecuteArgs sdk ⟨target.text, symbolText function, args, expectedNonce.toNat⟩).bind
        (decodeExecuteArgs sdk) =
      some ⟨target.text, symbolText function, args, expectedNonce.toNat⟩
  | addSessionKey publicKey expiresAt permissions =>
    (encodeAddSessionKeyArgs sdk ⟨publicKey.param, expiresAt.toNat, permissions⟩).bind
        (decodeAddSessionKeyArgs sdk convert) =
      some ⟨publicKey.keyText, .number expiresAt.toNat, permissionNumbers permissions⟩
  | revokeSessionKey publicKey =>
    (encodeRevokeSessionKeyArgs sdk publicKey.param).bind (decodeRevokeSessionKeyArgs sdk) =
      some publicKey.keyText
  | getSessionKey publicKey =>
    (encodeGetSessionKeyArgs sdk publicKey.param).bind (decodeGetSessionKeyArgs sdk) =
      some publicKey.keyText
  | sessionKey publicKey expiresAt permissions =>
    (sessionKeyToScVal sdk ⟨publicKey.param, expiresAt.toNat, permissions⟩).bind
        (scValToSessionKey sdk convert) =
      some ⟨publicKey.keyText, .number expiresAt.toNat, permissionNumbers permissions⟩

/-- A `u64` that is a double. -/
def IsDouble (value : UInt64) : Prop := Double.rounded value.toNat = value.toNat

instance (value : UInt64) : Decidable (IsDouble value) := inferInstanceAs (Decidable (_ = _))

/-- Nonce and expiry are doubles. -/
def Argument.Exact : Argument sdk → Prop
  | execute _ _ _ expectedNonce => IsDouble expectedNonce
  | addSessionKey _ expiresAt _ => IsDouble expiresAt
  | revokeSessionKey _ => True
  | getSessionKey _ => True
  | sessionKey _ expiresAt _ => IsDouble expiresAt

theorem numberOf_toNat (value : UInt64) : numberOf value.toNat = Double.rounded value.toNat := by
  rw [numberOf, if_neg (by omega), Int.natAbs_natCast]

theorem numberOf_eq_iff (value : UInt64) : numberOf value.toNat = value.toNat ↔ IsDouble value := by
  rw [numberOf_toNat, IsDouble, Nat.cast_inj]

theorem symbolToScVal_symbolText (name : Symbol) :
    symbolToScVal (symbolText name) = some (.symbol name) := by
  have valid : (symbolText name).toList.length ≤ 32 ∧
      ∀ c ∈ (symbolText name).toList, isSymbolChar c = true := by
    rw [symbolText, String.toList_ofList]
    exact ⟨name.short, name.wellFormed⟩
  rw [symbolToScVal, symbolOf, dif_pos valid]
  simp only [symbolText, String.toList_ofList, Option.map_some]

theorem map_toNumber_permissionNumbers (permissions : List UInt32) :
    (permissionNumbers permissions).map (toNumber convert) = permissionNumbers permissions := by
  rw [permissionNumbers, List.map_map]
  rfl

def expiresAtName : Symbol := ⟨"expires_at".toList, by decide, by simp [isSymbolChar]⟩

def permissionsName : Symbol := ⟨"permissions".toList, by decide, by simp [isSymbolChar]⟩

def publicKeyName : Symbol := ⟨"public_key".toList, by decide, by simp [isSymbolChar]⟩

section Documented

variable (documented : sdk.Documented)

include documented

theorem scValToU64_u64 (value : UInt64) :
    scValToU64 sdk (.u64 value) = some (numberOf value.toNat) := by
  rw [scValToU64, documented.u64]

theorem publicKeyToBytes32ScVal_param (publicKey : PublicKeyArgument sdk) :
    ∃ key : BytesN 32, publicKeyToBytes32ScVal sdk publicKey.param = some (.bytes key.val) ∧
      sdk.encodeEd25519PublicKey key.val = publicKey.keyText := by
  cases publicKey with
  | text key =>
    refine ⟨key.key, ?_, documented.strKey _ _ key.parses⟩
    rw [PublicKeyArgument.param, publicKeyToBytes32ScVal, Account.publicKeyToBytes32ScVal,
      key.parses, Option.map_some]
  | bytes key => exact ⟨key, if_pos key.property, rfl⟩

theorem bytes32ScValToPublicKey_bytes (key : BytesN 32) :
    bytes32ScValToPublicKey sdk (.bytes key.val) = some (sdk.encodeEd25519PublicKey key.val) := by
  rw [bytes32ScValToPublicKey, documented.bytes]
  exact if_pos key.property

/-- A public key alone is read back. -/
theorem publicKey_recovered (publicKey : PublicKeyArgument sdk) :
    ((publicKeyToBytes32ScVal sdk publicKey.param).map fun publicKey => [publicKey]).bind
        (decodeRevokeSessionKeyArgs sdk) = some publicKey.keyText := by
  obtain ⟨key, written, text⟩ := publicKeyToBytes32ScVal_param documented publicKey
  rw [written, Option.map_some, Option.bind_some, decodeRevokeSessionKeyArgs,
    bytes32ScValToPublicKey_bytes documented, text]

theorem scValToNative_permissions (permissions : List UInt32) :
    sdk.scValToNative (permissionsToScVal permissions) =
      some (.array (permissionNumbers permissions)) :=
  documented.vec _ _ (mapM_map documented.u32 permissions)

theorem scValToArray_vec (items : List Val) :
    ∃ natives, scValToArray sdk (.vec items) = some natives := by
  have converted : ∀ items : List Val, ∃ natives, items.mapM sdk.scValToNative = some natives := by
    intro items
    induction items with
    | nil => exact ⟨[], rfl⟩
    | cons item items inductionHypothesis =>
      obtain ⟨native, first⟩ := Option.isSome_iff_exists.mp (documented.total item)
      obtain ⟨natives, rest⟩ := inductionHypothesis
      exact ⟨native :: natives, by rw [List.mapM_cons, first, rest]; rfl⟩
  obtain ⟨natives, converted⟩ := converted items
  exact ⟨natives, by rw [scValToArray, documented.vec _ _ converted]⟩

theorem decodeExecuteArgs_encode (target : AddressText sdk.toStellarSdk) (function : Symbol)
    (args : List Val) (expectedNonce : UInt64) :
    (encodeExecuteArgs sdk ⟨target.text, symbolText function, args, expectedNonce.toNat⟩).bind
        (decodeExecuteArgs sdk) =
      some ⟨target.text, symbolText function, args, numberOf expectedNonce.toNat⟩ := by
  have address : addressToScVal sdk target.text = some (.address target.address) := by
    rw [addressToScVal, target.parses, Option.map_some]
  have encoded : encodeExecuteArgs sdk
      ⟨target.text, symbolText function, args, expectedNonce.toNat⟩ =
        some [.address target.address, .symbol function, .vec args, .u64 expectedNonce] := by
    simp only [encodeExecuteArgs, address, symbolToScVal_symbolText, u64ToScVal,
      documented.bigint, Option.bind_eq_bind, Option.bind_some, Option.pure_def]
  obtain ⟨natives, array⟩ := scValToArray_vec documented args
  have name : scValToString sdk (.symbol function) = some (symbolText function) := by
    rw [scValToString, documented.symbol]
  have read : scValToAddress sdk (.address target.address) = some target.text := by
    rw [scValToAddress, scValToString, documented.address _ _ target.parses]
  rw [encoded, Option.bind_some]
  simp only [decodeExecuteArgs, name, array, read, scValToU64_u64 documented, Val.asItems,
    Option.bind_eq_bind, Option.bind_some, Option.pure_def, Option.getD_some]

theorem decodeAddSessionKeyArgs_encode (publicKey : PublicKeyArgument sdk) (expiresAt : UInt64)
    (permissions : List UInt32) :
    (encodeAddSessionKeyArgs sdk ⟨publicKey.param, expiresAt.toNat, permissions⟩).bind
        (decodeAddSessionKeyArgs sdk convert) =
      some ⟨publicKey.keyText, .number (numberOf expiresAt.toNat),
        permissionNumbers permissions⟩ := by
  obtain ⟨key, written, text⟩ := publicKeyToBytes32ScVal_param documented publicKey
  have encoded : encodeAddSessionKeyArgs sdk ⟨publicKey.param, expiresAt.toNat, permissions⟩ =
      some [.bytes key.val, .u64 expiresAt, permissionsToScVal permissions] := by
    simp only [encodeAddSessionKeyArgs, written, u64ToScVal, documented.bigint,
      Option.bind_eq_bind, Option.bind_some, Option.pure_def]
  have array : scValToArray sdk (permissionsToScVal permissions) =
      some (permissionNumbers permissions) := by
    rw [scValToArray, scValToNative_permissions documented]
  rw [encoded, Option.bind_some]
  simp only [decodeAddSessionKeyArgs, array, bytes32ScValToPublicKey_bytes documented, text,
    scValToU64_u64 documented, map_toNumber_permissionNumbers, Option.bind_eq_bind,
    Option.bind_some, Option.pure_def]

theorem scValToSessionKey_encode (publicKey : PublicKeyArgument sdk) (expiresAt : UInt64)
    (permissions : List UInt32) :
    (sessionKeyToScVal sdk ⟨publicKey.param, expiresAt.toNat, permissions⟩).bind
        (scValToSessionKey sdk convert) =
      some ⟨publicKey.keyText, .number (numberOf expiresAt.toNat),
        permissionNumbers permissions⟩ := by
  obtain ⟨key, written, text⟩ := publicKeyToBytes32ScVal_param documented publicKey
  have entries : sessionKeyToScVal sdk ⟨publicKey.param, expiresAt.toNat, permissions⟩ =
      some (.map ([(expiresAtName, Val.u64 expiresAt),
        (permissionsName, permissionsToScVal permissions),
        (publicKeyName, Val.bytes key.val)].map fun entry => (.symbol entry.1, entry.2))) := by
    have names : symbolToScVal "expires_at" = some (.symbol expiresAtName) ∧
        symbolToScVal "permissions" = some (.symbol permissionsName) ∧
        symbolToScVal "public_key" = some (.symbol publicKeyName) :=
      ⟨symbolToScVal_symbolText expiresAtName, symbolToScVal_symbolText permissionsName,
        symbolToScVal_symbolText publicKeyName⟩
    simp only [sessionKeyToScVal, names, written, u64ToScVal, documented.bigint,
      Option.bind_eq_bind, Option.bind_some, Option.pure_def, List.map_cons, List.map_nil]
  have object := documented.map [(expiresAtName, Val.u64 expiresAt),
      (permissionsName, permissionsToScVal permissions), (publicKeyName, Val.bytes key.val)]
    [("expires_at", .bigint expiresAt.toNat),
      ("permissions", .array (permissionNumbers permissions)), ("public_key", .bytes key.val)] (by
    simp only [List.mapM_cons, List.mapM_nil, documented.u64, documented.bytes,
      scValToNative_permissions documented]
    rfl)
  have numbers := @map_toNumber_permissionNumbers id permissions
  rw [entries, Option.bind_some, scValToSessionKey, object]
  change some (SessionKeyFields.mk (sdk.encodeEd25519PublicKey key.val)
    (.number (numberOf expiresAt.toNat)) ((permissionNumbers permissions).map (toNumber id))) = _
  rw [text, numbers]

/-- The codecs are inverse exactly where the integers are doubles. -/
theorem recovered_iff (argument : Argument sdk) :
    argument.Recovered convert ↔ argument.Exact := by
  cases argument with
  | execute target function args expectedNonce =>
    rw [Argument.Recovered, decodeExecuteArgs_encode documented, Argument.Exact,
      ← numberOf_eq_iff, Option.some.injEq, ExecuteParams.mk.injEq]
    exact ⟨fun same => same.2.2.2, fun same => ⟨rfl, rfl, rfl, same⟩⟩
  | addSessionKey publicKey expiresAt permissions =>
    rw [Argument.Recovered, decodeAddSessionKeyArgs_encode documented, Argument.Exact,
      ← numberOf_eq_iff, Option.some.injEq, SessionKeyFields.mk.injEq, Native.number.injEq]
    exact ⟨fun same => same.2.1, fun same => ⟨rfl, same, rfl⟩⟩
  | revokeSessionKey publicKey =>
    exact iff_of_true (publicKey_recovered documented publicKey) trivial
  | getSessionKey publicKey =>
    exact iff_of_true (publicKey_recovered documented publicKey) trivial
  | sessionKey publicKey expiresAt permissions =>
    rw [Argument.Recovered, scValToSessionKey_encode documented, Argument.Exact,
      ← numberOf_eq_iff, Option.some.injEq, SessionKeyFields.mk.injEq, Native.number.injEq]
    exact ⟨fun same => same.2.1, fun same => ⟨rfl, same, rfl⟩⟩

end Documented

end RoundTrips

/-! ## An instance -/

mutual

/-- `scValToNative`, of the two addresses that `plainSdk` knows. -/
def plainToNative : Val → Native
  | .u32 value => .number value.toNat
  | .u64 value => .bigint value.toNat
  | .bytes value => .bytes value
  | .symbol name => .string (symbolText name)
  | .address address =>
    if address = .account zeroBytes then .string zeroAccountText
    else if address = .contract zeroBytes then .string zeroContractText
    else .scVal (.address address)
  | .vec items => .array (plainItems items)
  | .map entries => .object (plainEntries entries)
  | value => .scVal value

def plainItems : List Val → List Native
  | [] => []
  | item :: items => plainToNative item :: plainItems items

/-- Only symbols are names. -/
def plainEntries : List (Val × Val) → List (String × Native)
  | [] => []
  | (.symbol name, value) :: entries =>
    (symbolText name, plainToNative value) :: plainEntries entries
  | (_, value) :: entries => ("", plainToNative value) :: plainEntries entries

end

def plainCodec : StellarCodec where
  toStellarSdk := plainSdk
  scValToNative value := some (plainToNative value)
  encodeEd25519PublicKey key := if key = zeroBytes.val then zeroAccountText else ""

theorem plainItems_of_mapM {items : List Val} {natives : List Native}
    (converted : items.mapM plainCodec.scValToNative = some natives) :
    plainItems items = natives := by
  induction items generalizing natives with
  | nil =>
    cases converted
    rfl
  | cons item items inductionHypothesis =>
    rw [List.mapM_cons] at converted
    obtain ⟨native, first, converted⟩ := Option.bind_eq_some_iff.mp converted
    obtain ⟨rest, found, converted⟩ := Option.bind_eq_some_iff.mp converted
    cases first
    cases converted
    rw [plainItems, inductionHypothesis found]

theorem plainEntries_of_mapM {entries : List (Symbol × Val)} {natives : List (String × Native)}
    (converted : (entries.mapM fun entry =>
      (plainCodec.scValToNative entry.2).map (symbolText entry.1, ·)) = some natives) :
    plainEntries (entries.map fun entry => (.symbol entry.1, entry.2)) = natives := by
  induction entries generalizing natives with
  | nil =>
    cases converted
    rfl
  | cons entry entries inductionHypothesis =>
    rw [List.mapM_cons] at converted
    obtain ⟨native, first, converted⟩ := Option.bind_eq_some_iff.mp converted
    obtain ⟨rest, found, converted⟩ := Option.bind_eq_some_iff.mp converted
    cases first
    cases converted
    rw [List.map_cons, plainEntries, inductionHypothesis found]

theorem plainCodec_documented : plainCodec.Documented where
  bigint value := by
    have bound := value.toNat_lt
    simp [plainCodec, plainSdk, plainToScVal, scalarToScVal, bound]
  strKey text key parsed := by
    simp only [plainCodec, plainSdk] at parsed
    split at parsed
    · rename_i same
      cases parsed
      exact same.symm
    · cases parsed
  address text address parsed := by
    simp only [plainCodec, plainSdk] at parsed
    split at parsed
    · rename_i same
      cases parsed
      rw [same]
      rfl
    · split at parsed
      · rename_i same
        cases parsed
        rw [same]
        rfl
      · cases parsed
  u32 _ := rfl
  u64 _ := rfl
  symbol _ := rfl
  bytes _ := rfl
  vec items natives converted :=
    congrArg (fun natives => some (Native.array natives)) (plainItems_of_mapM converted)
  map entries natives converted :=
    congrArg (fun natives => some (Native.object natives)) (plainEntries_of_mapM converted)
  total _ := rfl

/-- A call of `hello` with the least nonce that is no double. -/
def oddNonce : Argument plainCodec :=
  .execute zeroContract greetingArguments.function [.bool true] 9007199254740993

theorem recovered_of_plainCodec :
    Argument.Recovered id (Argument.getSessionKey (.text zeroKeyText) : Argument plainCodec) :=
  (recovered_iff plainCodec_documented _).mpr trivial

/-- The nonce is read as the one before it. -/
theorem nonce_rounded : ¬ oddNonce.Recovered id := by
  intro recovered
  have read := Option.some.inj ((decodeExecuteArgs_encode plainCodec_documented zeroContract
    ⟨"hello".toList, by decide, by simp [isSymbolChar]⟩ [.bool true]
    9007199254740993).symm.trans recovered)
  have nonces := (numberOf_eq_iff _).mp (congrArg ExecuteParams.expectedNonce read)
  exact absurd nonces (by decide)

end Ancore.Account.Codecs
