import Ancore.Account.Builders
import Ancore.Library.Doubles
import Ancore.Library.Numbers

/-! # The fee of a transaction

The `TransactionBuilder` of the account-abstraction package queues operations, quotes a
fee for them and hands that fee to the builder of the Stellar SDK.  The SDK takes a fee
for one operation and multiplies it by their number.
-/

namespace Ancore.Account.Fees

open Ancore.Library Ancore.Library.EcmaScript Ancore.Soroban
open Ancore.Library.Double (Text product ExactProduct)

/-! ## The Stellar SDK -/

inductive Operation (Custom : Type) where
  | invocation (invocation : Invocation)
  | custom (operation : Custom)

/-- What the builder of the SDK has been given when it is asked for the transaction. -/
structure Draft (Custom SorobanData : Type) where
  source : String
  sequence : Nat
  fee : Text
  networkPassphrase : String
  operations : List (Operation Custom)
  timeoutSeconds : Number
  sorobanData : Option SorobanData

/-- The SDK with its builder of transactions; `none` where it throws. -/
structure TransactionSdk (Custom SorobanData Transaction : Type) extends StellarSdk where
  build : Draft Custom SorobanData → Option Transaction
  fee : Transaction → Text

variable {Custom SorobanData Transaction : Type}

/-- Without Soroban data the total is the fee option for each operation. -/
def TransactionSdk.Documented (sdk : TransactionSdk Custom SorobanData Transaction) : Prop :=
  ∀ draft transaction, draft.sorobanData = none → sdk.build draft = some transaction →
    sdk.fee transaction = draft.fee.times draft.operations.length

/-! ## The builder -/

inductive SessionKeyOp where
  | add
  | revoke
  | refreshTtl
  deriving DecidableEq

inductive BuilderOp (Custom : Type) where
  | sessionKey (op : SessionKeyOp) (sessionKey : String) (permissions : List Number)
      (expiresAt : Number) (ttlSeconds : Option Number)
  | contractExecute (contractId method : String) (args : List Native)
  | custom (operation : Custom)

/-- The option `fee` is the decimal text of a number. -/
structure TransactionBuilderOptions (SorobanData : Type) where
  fee : Option Nat
  networkPassphrase : Option String
  timeoutSeconds : Option Number
  sorobanData : Option SorobanData

structure TransactionBuilder (Custom SorobanData : Type) where
  source : String
  accountContractId : String
  ops : List (BuilderOp Custom)
  fee : Nat
  networkPassphrase : String
  timeoutSeconds : Number
  sorobanData : Option SorobanData
  simulatedFee : Option Text

structure ContractExecuteParams where
  contractId : String
  method : String
  args : List Native

structure SimulationResult (SorobanData : Type) where
  fee : Text
  operationCount : Nat
  minResourceFee : Text
  transactionData : Option SorobanData

/-- What a call throws. -/
inductive Thrown where
  | typeError (message : String)
  | error (message : String)
  | sdk

def fromSdk {α : Type} : Option α → Except Thrown α
  | none => .error .sdk
  | some value => .ok value

def defaultFee : Nat := 10000

def newBuilder (source accountContractId : String)
    (options : TransactionBuilderOptions SorobanData) :
    Except Thrown (TransactionBuilder Custom SorobanData) :=
  if source = "" then .error (.typeError "TransactionBuilder requires a source account ID.")
  else if accountContractId = "" then
    .error (.typeError "TransactionBuilder requires an account abstraction contract ID.")
  else
    .ok {
      source
      accountContractId
      ops := []
      fee := options.fee.getD defaultFee
      networkPassphrase :=
        options.networkPassphrase.getD "Test SDF Future Network ; September 2021"
      timeoutSeconds := options.timeoutSeconds.getD 180
      sorobanData := options.sorobanData
      simulatedFee := none
    }

/-- `Number.isFinite` -/
def isFinite : Number → Bool
  | .finite _ => true
  | _ => false

namespace TransactionBuilder

section Calls

variable (builder : TransactionBuilder Custom SorobanData)

def push (op : BuilderOp Custom) : TransactionBuilder Custom SorobanData :=
  { builder with ops := builder.ops ++ [op] }

def assertSessionKeyParams (sessionKey : String) (expiresAt : Number) : Except Thrown Unit :=
  if sessionKey = "" then .error (.typeError "Session key must be a non-empty string.")
  else if ¬ isHexKey sessionKey then
    .error (.typeError "Session key must be a 64-character hex string.")
  else if ¬ isFinite expiresAt then
    .error (.typeError "Session key expiresAt must be a finite number.")
  else .ok ()

def addSessionKey (publicKey : String) (permissions : List Number) (expiresAt : Number) :
    Except Thrown (TransactionBuilder Custom SorobanData) := do
  assertSessionKeyParams publicKey expiresAt
  pure (builder.push (.sessionKey .add publicKey permissions expiresAt none))

def assertRefreshSessionKeyTtlParams (publicKey : String) (ttlSeconds : Number) :
    Except Thrown Unit :=
  if publicKey = "" then
    .error (.typeError "refreshSessionKeyTtl requires a non-empty publicKey string.")
  else
    match ttlSeconds with
    | .finite seconds =>
      if seconds ≤ 0 then
        .error (.typeError "refreshSessionKeyTtl requires ttlSeconds to be greater than zero.")
      else .ok ()
    | _ => .error (.typeError "refreshSessionKeyTtl requires ttlSeconds to be a finite number.")

def refreshSessionKeyTtl (publicKey : String) (ttlSeconds : Number) :
    Except Thrown (TransactionBuilder Custom SorobanData) := do
  assertRefreshSessionKeyTtlParams publicKey ttlSeconds
  pure (builder.push (.sessionKey .refreshTtl publicKey [] 0 (some ttlSeconds)))

def revokeSessionKey (publicKey : String) :
    Except Thrown (TransactionBuilder Custom SorobanData) :=
  if publicKey = "" then
    .error (.typeError "revokeSessionKey requires a non-empty publicKey string.")
  else .ok (builder.push (.sessionKey .revoke publicKey [] 0 none))

def execute (sessionKey : String) (operations : List ContractExecuteParams) :
    Except Thrown (TransactionBuilder Custom SorobanData) :=
  if sessionKey = "" then
    .error (.typeError "execute requires a non-empty sessionKey string.")
  else if operations = [] then
    .error (.typeError "execute requires at least one operation.")
  else
    .ok { builder with
      ops := builder.ops ++ operations.map fun op =>
        .contractExecute op.contractId op.method op.args }

def addOperation (operation : Custom) : TransactionBuilder Custom SorobanData :=
  builder.push (.custom operation)

def estimatedFee : Text := product builder.fee builder.ops.length

def simulate : TransactionBuilder Custom SorobanData × SimulationResult SorobanData :=
  ({ builder with simulatedFee := some builder.estimatedFee },
    { fee := builder.estimatedFee
      operationCount := builder.ops.length
      minResourceFee := product builder.ops.length 100
      transactionData := builder.sorobanData })

/-- The number that `nativeToScVal` is given, where it is one that becomes an integer. -/
def native : Number → Option Native
  | .finite value => if value.den = 1 then some (.number value.num) else none
  | _ => none

def buildOperation (sdk : StellarSdk) : BuilderOp Custom → Option (Operation Custom)
  | .contractExecute contractId method args => do
    let contract ← @newContract sdk contractId
    let args ← args.mapM fun value => sdk.nativeToScVal value none
    pure (.invocation ⟨contract, method, args⟩)
  | .custom operation => some (.custom operation)
  | .sessionKey .add sessionKey permissions expiresAt _ => do
    let contract ← @newContract sdk builder.accountContractId
    let publicKey ← sdk.nativeToScVal (.string sessionKey) none
    let expiresAt ← (native expiresAt).bind fun expiresAt =>
      sdk.nativeToScVal expiresAt (some .u64)
    let permissions ← (permissions.mapM native).bind fun permissions =>
      sdk.nativeToScVal (.array permissions) none
    pure (.invocation ⟨contract, "add_session_key", [publicKey, expiresAt, permissions]⟩)
  | .sessionKey .refreshTtl sessionKey _ _ _ => do
    let contract ← @newContract sdk builder.accountContractId
    let publicKey ← publicKeyToBytes32ScVal sdk sessionKey
    pure (.invocation ⟨contract, "refresh_session_key_ttl", [publicKey]⟩)
  | .sessionKey .revoke sessionKey _ _ _ => do
    let contract ← @newContract sdk builder.accountContractId
    let publicKey ← sdk.nativeToScVal (.string sessionKey) none
    pure (.invocation ⟨contract, "revoke_session_key", [publicKey]⟩)

def build (sdk : TransactionSdk Custom SorobanData Transaction) : Except Thrown Transaction :=
  match builder.simulatedFee with
  | none =>
    .error (.error "Must call simulate() before build() to get accurate fee estimates")
  | some simulatedFee => do
    let operations ← fromSdk (builder.ops.mapM (builder.buildOperation sdk.toStellarSdk))
    fromSdk (sdk.build {
      source := builder.source
      sequence := 0
      fee := simulatedFee
      networkPassphrase := builder.networkPassphrase
      operations
      timeoutSeconds := builder.timeoutSeconds
      sorobanData := builder.sorobanData
    })

end Calls

end TransactionBuilder

/-! ## Chains of calls -/

inductive Call (Custom : Type) where
  | addSessionKey (publicKey : String) (permissions : List Number) (expiresAt : Number)
  | refreshSessionKeyTtl (publicKey : String) (ttlSeconds : Number)
  | revokeSessionKey (publicKey : String)
  | execute (sessionKey : String) (operations : List ContractExecuteParams)
  | addOperation (operation : Custom)
  | simulate

def Call.perform (builder : TransactionBuilder Custom SorobanData) :
    Call Custom → Except Thrown (TransactionBuilder Custom SorobanData)
  | .addSessionKey publicKey permissions expiresAt =>
    builder.addSessionKey publicKey permissions expiresAt
  | .refreshSessionKeyTtl publicKey ttlSeconds => builder.refreshSessionKeyTtl publicKey ttlSeconds
  | .revokeSessionKey publicKey => builder.revokeSessionKey publicKey
  | .execute sessionKey operations => builder.execute sessionKey operations
  | .addOperation operation => .ok (builder.addOperation operation)
  | .simulate => .ok builder.simulate.1

/-- A chain of calls, up to the first that throws. -/
def perform (calls : List (Call Custom)) (builder : TransactionBuilder Custom SorobanData) :
    Except Thrown (TransactionBuilder Custom SorobanData) :=
  calls.foldlM Call.perform builder

/-- How many operations a call adds. -/
def Call.operations : Call Custom → Nat
  | .simulate => 0
  | .execute _ operations => operations.length
  | _ => 1

/-- How many operations a chain adds. -/
def added (calls : List (Call Custom)) : Nat := (calls.map Call.operations).sum

/-- How many operations there were when the fee was last quoted, of a chain that starts
    with so many. -/
def quotedOperations (before : Nat) : List (Call Custom) → Option Nat
  | [] => none
  | .simulate :: calls => (quotedOperations before calls).orElse fun _ => some before
  | call :: calls => quotedOperations (before + call.operations) calls

/-- What a call that does not throw does to the operations and to the quoted fee. -/
theorem Call.perform_cases {call : Call Custom}
    {builder builder' : TransactionBuilder Custom SorobanData}
    (performed : call.perform builder = .ok builder') :
    builder'.ops.length = builder.ops.length + call.operations ∧
      builder'.fee = builder.fee ∧ builder'.sorobanData = builder.sorobanData ∧
      builder'.simulatedFee =
        if call matches .simulate then some builder.estimatedFee else builder.simulatedFee := by
  cases call with
  | addSessionKey publicKey permissions expiresAt =>
    simp only [perform, TransactionBuilder.addSessionKey] at performed
    cases asserted : TransactionBuilder.assertSessionKeyParams publicKey expiresAt with
    | error thrown =>
      rw [asserted] at performed
      cases performed
    | ok checked =>
      rw [asserted] at performed
      cases performed
      exact ⟨List.length_append, rfl, rfl, rfl⟩
  | refreshSessionKeyTtl publicKey ttlSeconds =>
    simp only [perform, TransactionBuilder.refreshSessionKeyTtl] at performed
    cases asserted : TransactionBuilder.assertRefreshSessionKeyTtlParams publicKey ttlSeconds with
    | error thrown =>
      rw [asserted] at performed
      cases performed
    | ok checked =>
      rw [asserted] at performed
      cases performed
      exact ⟨List.length_append, rfl, rfl, rfl⟩
  | revokeSessionKey publicKey =>
    simp only [perform, TransactionBuilder.revokeSessionKey] at performed
    split at performed
    · cases performed
    · cases performed
      exact ⟨List.length_append, rfl, rfl, rfl⟩
  | execute sessionKey operations =>
    simp only [perform, TransactionBuilder.execute] at performed
    split at performed
    · cases performed
    · split at performed
      · cases performed
      · cases performed
        refine ⟨?_, rfl, rfl, rfl⟩
        rw [List.length_append, List.length_map, Call.operations]
  | addOperation operation =>
    cases performed
    exact ⟨List.length_append, rfl, rfl, rfl⟩
  | simulate =>
    cases performed
    exact ⟨rfl, rfl, rfl, rfl⟩

/-- The fee that a chain leaves quoted is for the operations of the last simulation. -/
theorem perform_quotes {calls : List (Call Custom)}
    {builder builder' : TransactionBuilder Custom SorobanData}
    (performed : perform calls builder = .ok builder') :
    builder'.ops.length = builder.ops.length + added calls ∧ builder'.fee = builder.fee ∧
      builder'.sorobanData = builder.sorobanData ∧
      builder'.simulatedFee =
        ((quotedOperations builder.ops.length calls).map (product builder.fee)).orElse
          fun _ => builder.simulatedFee := by
  induction calls generalizing builder with
  | nil =>
    cases performed
    exact ⟨rfl, rfl, rfl, rfl⟩
  | cons call calls ih =>
    rw [perform, List.foldlM_cons] at performed
    cases first : call.perform builder with
    | error thrown =>
      rw [first] at performed
      cases performed
    | ok next =>
      rw [first] at performed
      obtain ⟨operations, fee, data, quoted⟩ := Call.perform_cases first
      obtain ⟨operations', fee', data', quoted'⟩ := ih performed
      rw [operations, fee] at quoted'
      refine ⟨?_, fee'.trans fee, data'.trans data, quoted'.trans ?_⟩
      · rw [operations', operations, added, added, List.map_cons, List.sum_cons, Nat.add_assoc]
      rw [quoted]
      cases call with
      | simulate =>
        rw [quotedOperations, Call.operations, Nat.add_zero]
        cases quotedOperations builder.ops.length calls <;> rfl
      | addSessionKey => rfl
      | refreshSessionKeyTtl => rfl
      | revokeSessionKey => rfl
      | execute => rfl
      | addOperation => rfl

/-! ## The fee that is charged -/

theorem length_of_mapM {α β : Type} {convert : α → Option β} {items : List α}
    {converted : List β} (mapped : items.mapM convert = some converted) :
    converted.length = items.length := by
  induction items generalizing converted with
  | nil =>
    cases mapped
    rfl
  | cons item items ih =>
    rw [List.mapM_cons] at mapped
    obtain ⟨first, -, rest⟩ := Option.bind_eq_some_iff.mp mapped
    obtain ⟨others, mappedRest, appended⟩ := Option.bind_eq_some_iff.mp rest
    cases appended
    rw [List.length_cons, List.length_cons, ih mappedRest]

/-- What `build` has handed to the SDK when it returns a transaction. -/
theorem TransactionBuilder.build_cases {sdk : TransactionSdk Custom SorobanData Transaction}
    {builder : TransactionBuilder Custom SorobanData} {transaction : Transaction}
    (built : builder.build sdk = .ok transaction) :
    ∃ simulatedFee draft, builder.simulatedFee = some simulatedFee ∧
      sdk.build draft = some transaction ∧ draft.fee = simulatedFee ∧
      draft.operations.length = builder.ops.length ∧ draft.sorobanData = builder.sorobanData := by
  rw [build] at built
  split at built
  · cases built
  · rename_i simulatedFee quoted
    cases operations : builder.ops.mapM (builder.buildOperation sdk.toStellarSdk) with
    | none =>
      rw [operations] at built
      cases built
    | some converted =>
      rw [operations] at built
      have length := length_of_mapM operations
      refine ⟨simulatedFee, ⟨builder.source, 0, simulatedFee, builder.networkPassphrase,
        converted, builder.timeoutSeconds, builder.sorobanData⟩, quoted, ?_, rfl, length, rfl⟩
      change fromSdk (sdk.build _) = .ok transaction at built
      cases returned : sdk.build _ with
      | none =>
        rw [returned] at built
        cases built
      | some result =>
        rw [returned] at built
        cases built
        rfl

/-- A total of so much for each of the operations that a chain adds, as it is reported. -/
def ChargesQuoted (sdk : TransactionSdk Custom SorobanData Transaction) (base : Nat)
    (calls : List (Call Custom)) (builder : TransactionBuilder Custom SorobanData)
    (transaction : Transaction) : Prop :=
  sdk.fee transaction = .numeral (base * added calls) ∧
    builder.simulate.2.fee = .numeral (base * added calls)

/-- The quote is for one operation and a price that a double carries to the total. -/
def QuotedForOne (base : Nat) (calls : List (Call Custom)) : Prop :=
  quotedOperations 0 calls = some 1 ∧ ExactProduct base 1 ∧ ExactProduct base (added calls)

theorem newBuilder_cases {source accountContractId : String}
    {options : TransactionBuilderOptions SorobanData}
    {builder : TransactionBuilder Custom SorobanData}
    (created : newBuilder source accountContractId options = .ok builder) :
    builder.ops = [] ∧ builder.fee = options.fee.getD defaultFee ∧
      builder.sorobanData = options.sorobanData ∧ builder.simulatedFee = none := by
  rw [newBuilder] at created
  split at created
  · cases created
  · split at created
    · cases created
    · cases created
      exact ⟨rfl, rfl, rfl, rfl⟩

/-- A product that is multiplied again is the product of the price exactly where it was of
    one. -/
theorem product_times_iff {price count total : Nat} (positive : 0 < total) :
    (product price count).times total = .numeral (price * total) ∧
        product price total = .numeral (price * total) ↔
      price = 0 ∨ count = 1 ∧ ExactProduct price 1 ∧ ExactProduct price total := by
  constructor
  · rintro ⟨charged, reported⟩
    rcases Nat.eq_zero_or_pos price with free | priced
    · exact .inl free
    have read : product price count = .numeral price := by
      cases quote : product price count with
      | nan =>
        rw [quote] at charged
        cases charged
      | numeral value =>
        rw [quote, Text.times, Text.numeral.injEq] at charged
        rw [Nat.eq_of_mul_eq_mul_right positive charged]
      | infinity =>
        rw [quote] at charged
        cases total <;> cases charged
    have one : count = 1 := by
      rcases Nat.lt_trichotomy count 1 with none | one | more
      · have zero := Double.product_eq_numeral read
        rw [Nat.lt_one_iff.mp none, Nat.mul_zero, Double.rounded_zero] at zero
        exact absurd (Double.rounded_eq_zero.mp zero) priced.ne'
      · exact one
      · exact absurd read (Double.product_ne priced more)
    subst one
    exact .inr ⟨rfl, by rw [ExactProduct, read, Nat.mul_one], reported⟩
  · rintro (rfl | ⟨rfl, one, exact⟩)
    · have free : ∀ count, product 0 count = .numeral 0 := fun count => by
        rw [Double.exactProduct_zero, Nat.zero_mul]
      rw [free, free, Nat.zero_mul]
      exact ⟨by rw [Text.times, Nat.zero_mul], rfl⟩
    · rw [one, Nat.mul_one]
      exact ⟨rfl, exact⟩

/-- The total is the quoted fee for each operation exactly where the price is nothing or it
    was quoted for one operation. -/
theorem charges_quoted_iff {sdk : TransactionSdk Custom SorobanData Transaction}
    (documented : sdk.Documented) {source accountContractId : String}
    {options : TransactionBuilderOptions SorobanData} (plain : options.sorobanData = none)
    {calls : List (Call Custom)} (adds : 0 < added calls)
    {builder : TransactionBuilder Custom SorobanData}
    (made : newBuilder source accountContractId options >>= perform calls = .ok builder)
    {transaction : Transaction} (built : builder.build sdk = .ok transaction) :
    ChargesQuoted sdk (options.fee.getD defaultFee) calls builder transaction ↔
      options.fee.getD defaultFee = 0 ∨ QuotedForOne (options.fee.getD defaultFee) calls := by
  cases created : (newBuilder source accountContractId options :
      Except Thrown (TransactionBuilder Custom SorobanData)) with
  | error thrown =>
    rw [created] at made
    cases made
  | ok fresh =>
    rw [created] at made
    obtain ⟨noOps, base, noData, notQuoted⟩ := newBuilder_cases created
    obtain ⟨operations, fee, data, quoted⟩ := perform_quotes made
    rw [noOps, List.length_nil, Nat.zero_add] at operations
    rw [noOps, List.length_nil, base, notQuoted] at quoted
    rw [base] at fee
    obtain ⟨simulatedFee, draft, simulated, drafted, option, drafts, draftData⟩ :=
      TransactionBuilder.build_cases built
    have total := documented draft transaction (draftData.trans (data.trans (noData.trans plain)))
      drafted
    rw [drafts, operations, option] at total
    generalize options.fee.getD defaultFee = price at *
    have reported : builder.simulate.2.fee = product price (added calls) := by
      change product builder.fee builder.ops.length = _
      rw [fee, operations]
    rw [ChargesQuoted, total, reported, QuotedForOne]
    cases last : quotedOperations 0 calls with
    | none =>
      rw [last, simulated] at quoted
      cases quoted
    | some count =>
      rw [last, simulated] at quoted
      cases quoted
      rw [Option.some.injEq]
      exact product_times_iff adds

/-- For prices that stay below 2^53 in total. -/
theorem quotedForOne_of_lt {base : Nat} {calls : List (Call Custom)} (adds : 0 < added calls)
    (safe : base * added calls < 2 ^ 53) :
    QuotedForOne base calls ↔ quotedOperations 0 calls = some 1 := by
  have less : base * 1 < 2 ^ 53 := (Nat.mul_le_mul_left base adds).trans_lt safe
  exact ⟨And.left, fun one =>
    ⟨one, Double.exactProduct_of_lt Nat.one_pos less, Double.exactProduct_of_lt adds safe⟩⟩

/-! ## A sample -/

/-- Operations are names, and a transaction is what the SDK has been given. -/
def sampleSdk : TransactionSdk String Unit (Draft String Unit) where
  addressFromString _ := none
  decodeEd25519PublicKey _ := none
  nativeToScVal _ _ := none
  build := some
  fee draft := draft.fee.times draft.operations.length

theorem sampleSdk_documented : sampleSdk.Documented := by
  rintro draft transaction - built
  cases built
  rfl

def sampleOptions : TransactionBuilderOptions Unit := ⟨none, none, none, none⟩

def payments (count : Nat) : List (Call String) :=
  List.replicate count (.addOperation "payment") ++ [.simulate]

def paymentsBuilder (count : Nat) : TransactionBuilder String Unit where
  source := "G"
  accountContractId := "C"
  ops := List.replicate count (.custom "payment")
  fee := defaultFee
  networkPassphrase := "Test SDF Future Network ; September 2021"
  timeoutSeconds := 180
  sorobanData := none
  simulatedFee := some (product defaultFee count)

def paymentsDraft (count : Nat) : Draft String Unit where
  source := "G"
  sequence := 0
  fee := product defaultFee count
  networkPassphrase := "Test SDF Future Network ; September 2021"
  operations := List.replicate count (.custom "payment")
  timeoutSeconds := 180
  sorobanData := none

theorem charges_quoted_of_one_payment :
    ChargesQuoted sampleSdk (sampleOptions.fee.getD defaultFee) (payments 1) (paymentsBuilder 1)
        (paymentsDraft 1) ↔
      sampleOptions.fee.getD defaultFee = 0 ∨
        QuotedForOne (sampleOptions.fee.getD defaultFee) (payments 1) :=
  charges_quoted_iff sampleSdk_documented rfl (by decide)
    (show newBuilder "G" "C" sampleOptions >>= perform (payments 1) = .ok (paymentsBuilder 1)
      from rfl) rfl

theorem product_defaultFee_two : product defaultFee 2 = .numeral 20000 :=
  Double.exactProduct_of_lt (by decide) (by decide)

/-- Two operations are charged four times the base fee. -/
theorem two_payments_charged_twice :
    sampleSdk.Documented ∧
      newBuilder "G" "C" sampleOptions >>= perform (payments 2) = .ok (paymentsBuilder 2) ∧
      (paymentsBuilder 2).build sampleSdk = .ok (paymentsDraft 2) ∧
      sampleSdk.fee (paymentsDraft 2) = .numeral 40000 ∧
      ¬ ChargesQuoted sampleSdk defaultFee (payments 2) (paymentsBuilder 2) (paymentsDraft 2) := by
  have charged : sampleSdk.fee (paymentsDraft 2) = .numeral 40000 := by
    change (product defaultFee 2).times 2 = _
    rw [product_defaultFee_two]
    rfl
  refine ⟨sampleSdk_documented, rfl, rfl, charged, fun quoted => ?_⟩
  have total := charged.symm.trans quoted.1
  cases total

end Ancore.Account.Fees
