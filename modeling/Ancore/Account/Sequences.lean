import Ancore.Account.BuilderAbi
import Ancore.Account.TransactionFees

/-! # The sequence numbers of the account transaction builder

`AccountTransactionBuilder` of the core SDK wraps a builder of the Stellar SDK, which
takes a sequence number from the source account each time that it builds.  The wrapper
keeps what was built until a call changes what the transaction should contain.
-/

namespace Ancore.Account.Sequences

open Ancore.Library Ancore.Soroban
open Ancore.Account.Fees (Operation)

/-! ## The Stellar SDK -/

structure SourceAccount where
  accountId : String
  sequence : Int

/-- What is known of a builder: the sequence number of its source account, the operations
    that it has been given and whether a timeout is set. -/
structure BuilderView (Custom : Type) where
  sequence : Int
  operations : List (Operation Custom)
  timeoutSet : Bool

/-- What is known of a transaction; authorization entries are no part of an operation. -/
structure TransactionView (Custom : Type) where
  sequence : Int
  operations : List (Operation Custom)

/-- The SDK with its builder of transactions; `none` where it throws. -/
structure BuilderSdk (Custom Memo Data : Type) extends StellarSdk where
  Builder : Type
  Transaction : Type
  newBuilder : SourceAccount → String → String → Builder
  addOperation : Operation Custom → Builder → Option Builder
  addMemo : Memo → Builder → Builder
  setTimeout : Int → Builder → Option Builder
  build : Builder → Option (Transaction × Builder)
  assembleTransaction : Transaction → Data → Option Transaction
  view : Builder → BuilderView Custom
  viewTransaction : Transaction → TransactionView Custom

variable {Custom Memo Data : Type}

/-- What the SDK documents. -/
structure BuilderSdk.Documented (sdk : BuilderSdk Custom Memo Data) : Prop where
  newBuilder : ∀ account fee networkPassphrase,
    sdk.view (sdk.newBuilder account fee networkPassphrase) = ⟨account.sequence, [], false⟩
  addOperation : ∀ operation builder builder', sdk.addOperation operation builder = some builder' →
    sdk.view builder' =
      { sdk.view builder with operations := (sdk.view builder).operations ++ [operation] }
  addMemo : ∀ memo builder, sdk.view (sdk.addMemo memo builder) = sdk.view builder
  setTimeout : ∀ seconds builder, 0 ≤ seconds → (sdk.view builder).timeoutSet = false →
    ∃ builder', sdk.setTimeout seconds builder = some builder' ∧
      sdk.view builder' = { sdk.view builder with timeoutSet := true }
  setTimeoutNegative : ∀ seconds builder, seconds < 0 → sdk.setTimeout seconds builder = none
  /-- A timeout is set once. -/
  setTimeoutAgain : ∀ seconds builder, (sdk.view builder).timeoutSet = true →
    sdk.setTimeout seconds builder = none
  /-- Each transaction takes the next sequence number. -/
  build : ∀ builder, (sdk.view builder).timeoutSet = true →
    ∃ transaction builder', sdk.build builder = some (transaction, builder') ∧
      sdk.viewTransaction transaction =
        ⟨(sdk.view builder).sequence + 1, (sdk.view builder).operations⟩ ∧
      sdk.view builder' = { sdk.view builder with sequence := (sdk.view builder).sequence + 1 }
  assembleTransaction : ∀ transaction data assembled,
    sdk.assembleTransaction transaction data = some assembled →
      sdk.viewTransaction assembled = sdk.viewTransaction transaction

/-! ## The builder -/

inductive SimulationResponse (Data : Type) where
  | error (error : String)
  | restore
  | success (data : Data)
  | other

inductive Thrown where
  | validation (message : String)
  | argument
  | timeout
  | unbuilt
  | request
  | simulationFailed (error : String)
  | simulationExpired
  | unassembled

structure AccountTransactionBuilder (sdk : BuilderSdk Custom Memo Data) where
  txBuilder : sdk.Builder
  contract : Address
  timeoutSeconds : Int
  operationCount : Nat
  timeoutApplied : Bool
  rawTransaction : Option sdk.Transaction

structure AccountTransactionBuilderOptions where
  accountContractId : String
  networkPassphrase : String
  fee : Option String
  timeoutSeconds : Option Int

/-- `BASE_FEE` -/
def baseFee : String := "100"

def defaultTimeoutSeconds : Int := 300

/-- A call, with what the server answers to it; `none` where the request fails. -/
inductive Call (sdk : BuilderSdk Custom Memo Data) where
  | addSessionKey (arguments : SessionKeyArguments sdk.toStellarSdk)
  | revokeSessionKey (publicKey : String)
  | execute (arguments : ExecuteArguments sdk.toStellarSdk)
  | addOperation (operation : Operation Custom)
  | addMemo (memo : Memo)
  | setTimeout (seconds : Int)
  | simulate (response : Option (SimulationResponse Data))
  | build (response : Option (SimulationResponse Data))

/-- What a call returns: the builder itself, what was simulated or a transaction. -/
inductive Reply (sdk : BuilderSdk Custom Memo Data) where
  | builder
  | simulation (response : SimulationResponse Data)
  | transaction (transaction : sdk.Transaction)

section Calls

variable {sdk : BuilderSdk Custom Memo Data}

def newAccountTransactionBuilder (sourceAccount : SourceAccount)
    (options : AccountTransactionBuilderOptions) : Except Thrown (AccountTransactionBuilder sdk) :=
  if options.accountContractId = "" then
    .error (.validation ("accountContractId is required. Provide the C… contract ID of your " ++
      "deployed Ancore account contract."))
  else
    match @newContract sdk.toStellarSdk options.accountContractId with
    | none => .error .argument
    | some contract =>
      .ok {
        txBuilder :=
          sdk.newBuilder sourceAccount (options.fee.getD baseFee) options.networkPassphrase
        contract
        timeoutSeconds := options.timeoutSeconds.getD defaultTimeoutSeconds
        operationCount := 0
        timeoutApplied := false
        rawTransaction := none
      }

/-- `AccountTransactionBuilder.revokeSessionKey` -/
def revocation (sdk : StellarSdk) (contract : Address) (publicKey : String) : Option Invocation :=
  (toScBytesN32 sdk publicKey).map fun publicKey => ⟨contract, "revoke_session_key", [publicKey]⟩

/-- The operation that a call adds, where its arguments can be converted. -/
def Call.operation (contract : Address) : Call sdk → Option (Operation Custom)
  | .addSessionKey arguments =>
    (Account.AccountTransactionBuilder.addSessionKey contract arguments).map .invocation
  | .revokeSessionKey publicKey => (revocation sdk.toStellarSdk contract publicKey).map .invocation
  | .execute arguments =>
    (Account.AccountTransactionBuilder.execute contract arguments).map .invocation
  | .addOperation operation => some operation
  | _ => none

namespace AccountTransactionBuilder

variable (builder : AccountTransactionBuilder sdk)

/-- The common end of the calls that add an operation. -/
def append (operation : Option (Operation Custom)) :
    Except Thrown (Reply sdk) × AccountTransactionBuilder sdk :=
  match operation.bind fun operation => sdk.addOperation operation builder.txBuilder with
  | none => (.error .argument, builder)
  | some txBuilder =>
    (.ok .builder, { builder with
      txBuilder
      operationCount := builder.operationCount + 1
      rawTransaction := none })

def addMemo (memo : Memo) : AccountTransactionBuilder sdk :=
  { builder with txBuilder := sdk.addMemo memo builder.txBuilder, rawTransaction := none }

def setTimeout (seconds : Int) : Except Thrown (Reply sdk) × AccountTransactionBuilder sdk :=
  match sdk.setTimeout seconds builder.txBuilder with
  | none => (.error .timeout, builder)
  | some txBuilder =>
    (.ok .builder, { builder with txBuilder, timeoutApplied := true, rawTransaction := none })

def assertHasOperations : Except Thrown Unit :=
  if builder.operationCount = 0 then
    .error (.validation ("Cannot simulate or build a transaction with zero operations. " ++
      "Use addSessionKey(), revokeSessionKey(), execute(), or addOperation() first."))
  else .ok ()

/-- The inner builder with its timeout set. -/
def withTimeout : Option sdk.Builder :=
  if builder.timeoutApplied then some builder.txBuilder
  else sdk.setTimeout builder.timeoutSeconds builder.txBuilder

def buildRawTransaction : Except Thrown sdk.Transaction × AccountTransactionBuilder sdk :=
  match builder.rawTransaction with
  | some transaction => (.ok transaction, builder)
  | none =>
    match builder.withTimeout with
    | none => (.error .timeout, builder)
    | some txBuilder =>
      match sdk.build txBuilder with
      | none => (.error .unbuilt, { builder with txBuilder, timeoutApplied := true })
      | some (transaction, txBuilder) =>
        (.ok transaction, { builder with
          txBuilder
          timeoutApplied := true
          rawTransaction := some transaction })

/-- What `simulate` makes of the answer of the server. -/
def answer : Option (SimulationResponse Data) → Except Thrown (Reply sdk)
  | none => .error .request
  | some response => .ok (.simulation response)

/-- What `build` makes of the answer of the server. -/
def assemble (transaction : sdk.Transaction) :
    Option (SimulationResponse Data) → Except Thrown (Reply sdk)
  | none => .error .request
  | some (.error error) => .error (.simulationFailed error)
  | some .restore => .error .simulationExpired
  | some (.success data) =>
    match sdk.assembleTransaction transaction data with
    | none => .error .unassembled
    | some assembled => .ok (.transaction assembled)
  | some .other =>
    .error (.simulationFailed
      "Unexpected simulation response shape. Please check Soroban RPC health.")

/-- `simulate` and `build` differ in what they make of the answer. -/
def prepare (finish : sdk.Transaction → Except Thrown (Reply sdk)) :
    Except Thrown (Reply sdk) × AccountTransactionBuilder sdk :=
  match builder.assertHasOperations with
  | .error thrown => (.error thrown, builder)
  | .ok () =>
    match builder.buildRawTransaction with
    | (.error thrown, builder) => (.error thrown, builder)
    | (.ok transaction, builder) => (finish transaction, builder)

def simulate (response : Option (SimulationResponse Data)) :
    Except Thrown (Reply sdk) × AccountTransactionBuilder sdk :=
  builder.prepare fun _ => answer response

def build (response : Option (SimulationResponse Data)) :
    Except Thrown (Reply sdk) × AccountTransactionBuilder sdk :=
  builder.prepare fun transaction => assemble transaction response

def perform : Call sdk → Except Thrown (Reply sdk) × AccountTransactionBuilder sdk
  | .addMemo memo => (.ok .builder, builder.addMemo memo)
  | .setTimeout seconds => builder.setTimeout seconds
  | .simulate response => builder.simulate response
  | .build response => builder.build response
  | call => builder.append (call.operation builder.contract)

end AccountTransactionBuilder

/-! ## Chains of calls -/

/-- A call fails by itself for its arguments, for want of operations or for the answer of
    the server.  That a timeout is set already is no fault of the call; that the timeout is
    negative is, be it its own or the configured one. -/
def Call.FailsItself (configured : Int) : Call sdk → Thrown → Prop
  | .setTimeout seconds, .timeout => seconds < 0
  | _, .timeout => configured < 0
  | _, _ => True

/-- No call of the chain fails by itself. -/
def Sound (builder : AccountTransactionBuilder sdk) : List (Call sdk) → Prop
  | [] => True
  | call :: calls =>
    match builder.perform call with
    | (.error thrown, _) => ¬ call.FailsItself builder.timeoutSeconds thrown
    | (.ok _, builder) => Sound builder calls

/-- No call throws, and each transaction has the next sequence number and the operations
    added so far. -/
def Kept (sequence : Int) (added : List (Operation Custom))
    (builder : AccountTransactionBuilder sdk) : List (Call sdk) → Prop
  | [] => True
  | call :: calls =>
    match builder.perform call with
    | (.error _, _) => False
    | (.ok (.transaction transaction), builder) =>
      sdk.viewTransaction transaction = ⟨sequence + 1, added⟩ ∧ Kept sequence added builder calls
    | (.ok _, next) =>
      Kept sequence (added ++ (call.operation builder.contract).toList) next calls

/-- How far a chain has come: whether the timeout is set, whether a transaction was built
    for a simulation, and whether the contents were changed after that. -/
inductive Phase where
  | fresh
  | timed
  | built
  | changed
  deriving DecidableEq

def Phase.after : Phase → Call sdk → Phase
  | .fresh, .setTimeout _ => .timed
  | .fresh, .simulate _ => .built
  | .fresh, .build _ => .built
  | .timed, .simulate _ => .built
  | .timed, .build _ => .built
  | .built, .simulate _ => .built
  | .built, .build _ => .built
  | .built, _ => .changed
  | phase, _ => phase

/-- The timeout is set before anything is built, and no transaction is asked for after a
    change to one that was built. -/
def Phase.Allows : Phase → Call sdk → Prop
  | .fresh, _ => True
  | _, .setTimeout _ => False
  | .changed, .build _ => False
  | _, _ => True

def Orderly (phase : Phase) : List (Call sdk) → Prop
  | [] => True
  | call :: calls => phase.Allows call ∧ Orderly (phase.after call) calls

/-! ## What the builder keeps -/

/-- The next sequence number of the source account and the transaction that is kept. -/
def Phase.Numbered (sequence : Int) (added : List (Operation Custom)) (next : Int)
    (raw : Option (TransactionView Custom)) : Phase → Prop
  | .fresh => next = sequence ∧ raw = none
  | .timed => next = sequence ∧ raw = none
  | .built => next = sequence + 1 ∧ raw = some ⟨sequence + 1, added⟩
  | .changed => sequence + 1 ≤ next ∧ ∀ transaction ∈ raw, sequence + 2 ≤ transaction.sequence

structure Tracks (sequence : Int) (phase : Phase) (added : List (Operation Custom))
    (builder : AccountTransactionBuilder sdk) : Prop where
  operations : (sdk.view builder.txBuilder).operations = added
  count : builder.operationCount = added.length
  applied : (sdk.view builder.txBuilder).timeoutSet = builder.timeoutApplied
  timed : builder.timeoutApplied = decide (phase ≠ .fresh)
  numbered : phase.Numbered sequence added (sdk.view builder.txBuilder).sequence
    (builder.rawTransaction.map sdk.viewTransaction)

/-- The phase after a change of the contents. -/
def Phase.mutated : Phase → Phase
  | .built => .changed
  | phase => phase

/-- The phase after a transaction was built for a simulation. -/
def Phase.raw : Phase → Phase
  | .changed => .changed
  | _ => .built

theorem Phase.numbered_mutated {sequence : Int} {added added' : List (Operation Custom)}
    {next : Int} {raw : Option (TransactionView Custom)} {phase : Phase}
    (numbered : phase.Numbered sequence added next raw) :
    phase.mutated.Numbered sequence added' next none := by
  cases phase with
  | fresh => exact ⟨numbered.1, rfl⟩
  | timed => exact ⟨numbered.1, rfl⟩
  | built => exact ⟨numbered.1.ge, fun transaction kept => by cases kept⟩
  | changed => exact ⟨numbered.1, fun transaction kept => by cases kept⟩

theorem Phase.mutated_ne_fresh {phase : Phase} : phase.mutated ≠ .fresh ↔ phase ≠ .fresh := by
  cases phase <;> decide

theorem Tracks.created {sourceAccount : SourceAccount} {options : AccountTransactionBuilderOptions}
    {builder : AccountTransactionBuilder sdk} (documented : sdk.Documented)
    (made : newAccountTransactionBuilder sourceAccount options = .ok builder) :
    Tracks sourceAccount.sequence .fresh [] builder := by
  rw [newAccountTransactionBuilder] at made
  split at made
  · cases made
  · split at made
    · cases made
    · cases made
      have view := documented.newBuilder sourceAccount (options.fee.getD baseFee)
        options.networkPassphrase
      exact {
        operations := by rw [view]
        count := rfl
        applied := by rw [view]
        timed := rfl
        numbered := ⟨by rw [view], rfl⟩
      }

section Steps

variable {sequence : Int} {phase : Phase} {added : List (Operation Custom)}
  {builder : AccountTransactionBuilder sdk}

theorem Tracks.append (documented : sdk.Documented) (tracks : Tracks sequence phase added builder)
    (operation : Option (Operation Custom)) :
    builder.append operation = (.error .argument, builder) ∨
      ∃ builder', builder.append operation = (.ok .builder, builder') ∧
        Tracks sequence phase.mutated (added ++ operation.toList) builder' := by
  rw [AccountTransactionBuilder.append]
  cases operation with
  | none => exact .inl rfl
  | some operation =>
    cases appended : sdk.addOperation operation builder.txBuilder with
    | none => exact .inl (by rw [Option.bind_some, appended])
    | some txBuilder =>
      refine .inr ⟨_, by rw [Option.bind_some, appended], ?_⟩
      have view := documented.addOperation operation builder.txBuilder txBuilder appended
      exact {
        operations := by rw [view, ← tracks.operations, Option.toList_some]
        count := by
          rw [Option.toList_some, List.length_append, ← tracks.count, List.length_singleton]
        applied := by rw [view, ← tracks.applied]
        timed := by rw [decide_eq_decide.mpr Phase.mutated_ne_fresh, ← tracks.timed]
        numbered := by
          rw [view]
          exact Phase.numbered_mutated tracks.numbered
      }

theorem Tracks.addMemo (documented : sdk.Documented) (tracks : Tracks sequence phase added builder)
    (memo : Memo) : Tracks sequence phase.mutated added (builder.addMemo memo) := by
  have view := documented.addMemo memo builder.txBuilder
  exact {
    operations := by rw [← tracks.operations, ← view, AccountTransactionBuilder.addMemo]
    count := tracks.count
    applied := by rw [AccountTransactionBuilder.addMemo, view, ← tracks.applied]
    timed := by
      rw [decide_eq_decide.mpr Phase.mutated_ne_fresh, ← tracks.timed,
        AccountTransactionBuilder.addMemo]
    numbered := by
      rw [AccountTransactionBuilder.addMemo, view]
      exact Phase.numbered_mutated tracks.numbered
  }

theorem Tracks.setTimeout (documented : sdk.Documented)
    (tracks : Tracks sequence .fresh added builder) {seconds : Int} (positive : 0 ≤ seconds) :
    ∃ builder', builder.setTimeout seconds = (.ok .builder, builder') ∧
      Tracks sequence .timed added builder' := by
  have unset : (sdk.view builder.txBuilder).timeoutSet = false := by
    rw [tracks.applied, tracks.timed]
    rfl
  obtain ⟨txBuilder, set, view⟩ :=
    documented.setTimeout seconds builder.txBuilder positive unset
  refine ⟨_, by rw [AccountTransactionBuilder.setTimeout, set], ?_⟩
  exact {
    operations := by rw [view, ← tracks.operations]
    count := tracks.count
    applied := by rw [view]
    timed := rfl
    numbered := ⟨by rw [view]; exact tracks.numbered.1, rfl⟩
  }

theorem Tracks.setTimeout_again (documented : sdk.Documented)
    (tracks : Tracks sequence phase added builder) (late : phase ≠ .fresh) (seconds : Int) :
    builder.setTimeout seconds = (.error .timeout, builder) := by
  have set : (sdk.view builder.txBuilder).timeoutSet = true := by
    rw [tracks.applied, tracks.timed]
    exact decide_eq_true late
  rw [AccountTransactionBuilder.setTimeout, documented.setTimeoutAgain seconds _ set]

/-- The inner builder has a timeout before it builds, and is else as it was. -/
theorem Tracks.withTimeout (documented : sdk.Documented)
    (tracks : Tracks sequence phase added builder) :
    builder.withTimeout = none ∧ builder.timeoutSeconds < 0 ∨
      ∃ txBuilder, builder.withTimeout = some txBuilder ∧
        sdk.view txBuilder = { sdk.view builder.txBuilder with timeoutSet := true } := by
  rw [AccountTransactionBuilder.withTimeout]
  cases applied : builder.timeoutApplied with
  | true =>
    refine .inr ⟨builder.txBuilder, rfl, ?_⟩
    rw [← tracks.applied.trans applied]
  | false =>
    rcases Int.lt_or_le builder.timeoutSeconds 0 with negative | positive
    · exact .inl ⟨documented.setTimeoutNegative _ _ negative, negative⟩
    · exact .inr (documented.setTimeout _ _ positive (tracks.applied.trans applied))

/-- What is simulated has the next sequence number unless the contents were changed after
    something was built. -/
theorem Tracks.buildRawTransaction (documented : sdk.Documented)
    (tracks : Tracks sequence phase added builder) :
    builder.buildRawTransaction = (.error .timeout, builder) ∧ builder.timeoutSeconds < 0 ∨
      ∃ transaction builder', builder.buildRawTransaction = (.ok transaction, builder') ∧
        Tracks sequence phase.raw added builder' ∧
        (phase ≠ .changed → sdk.viewTransaction transaction = ⟨sequence + 1, added⟩) ∧
        (phase = .changed → sequence + 2 ≤ (sdk.viewTransaction transaction).sequence) := by
  rw [AccountTransactionBuilder.buildRawTransaction]
  cases cached : builder.rawTransaction with
  | some transaction =>
    refine .inr ⟨transaction, builder, rfl, ?_⟩
    have numbered := tracks.numbered
    rw [cached, Option.map_some] at numbered
    cases phase with
    | fresh => cases numbered.2
    | timed => cases numbered.2
    | built =>
      exact ⟨tracks, fun _ => Option.some.inj numbered.2, fun changed => by cases changed⟩
    | changed => exact ⟨tracks, fun same => absurd rfl same, fun _ => numbered.2 _ rfl⟩
  | none =>
    rcases tracks.withTimeout documented with ⟨unset, negative⟩ | ⟨txBuilder, timed, view⟩
    · exact .inl ⟨by simp only [unset], negative⟩
    have set : (sdk.view txBuilder).timeoutSet = true := by rw [view]
    obtain ⟨transaction, built, build, viewTransaction, viewBuilt⟩ :=
      documented.build txBuilder set
    rw [view] at viewTransaction viewBuilt
    refine .inr ⟨transaction, { builder with
      txBuilder := built
      timeoutApplied := true
      rawTransaction := some transaction }, by simp only [timed, build], ?_⟩
    have numbered := tracks.numbered
    rw [cached, Option.map_none] at numbered
    have kept (after : phase.raw.Numbered sequence added
        ((sdk.view builder.txBuilder).sequence + 1) (some (sdk.viewTransaction transaction))) :
        Tracks sequence phase.raw added { builder with
          txBuilder := built
          timeoutApplied := true
          rawTransaction := some transaction } := {
      operations := by rw [viewBuilt, ← tracks.operations]
      count := tracks.count
      applied := by rw [viewBuilt]
      timed := by cases phase <;> rfl
      numbered := by
        rw [viewBuilt]
        exact after
    }
    have first (same : (sdk.view builder.txBuilder).sequence = sequence) :
        sdk.viewTransaction transaction = ⟨sequence + 1, added⟩ := by
      rw [viewTransaction, ← tracks.operations, ← same]
    cases phase with
    | fresh =>
      refine ⟨kept ⟨by rw [numbered.1], by rw [first numbered.1]⟩, fun _ => first numbered.1,
        fun changed => by cases changed⟩
    | timed =>
      refine ⟨kept ⟨by rw [numbered.1], by rw [first numbered.1]⟩, fun _ => first numbered.1,
        fun changed => by cases changed⟩
    | built => cases numbered.2
    | changed =>
      have later : sequence + 2 ≤ (sdk.viewTransaction transaction).sequence := by
        have := numbered.1
        rw [viewTransaction]
        change _ ≤ (sdk.view builder.txBuilder).sequence + 1
        omega
      refine ⟨kept ⟨numbered.1.trans (Int.le_add_one (le_refl _)), fun _ same => ?_⟩,
        fun same => absurd rfl same, fun _ => later⟩
      cases same
      exact later

/-- A simulation or a build, by what the server's answer is made into. -/
theorem Tracks.prepare (documented : sdk.Documented)
    (tracks : Tracks sequence phase added builder)
    (finish : sdk.Transaction → Except Thrown (Reply sdk)) :
    (∃ message, builder.prepare finish = (.error (.validation message), builder)) ∨
      builder.prepare finish = (.error .timeout, builder) ∧ builder.timeoutSeconds < 0 ∨
      ∃ transaction builder', builder.prepare finish = (finish transaction, builder') ∧
        Tracks sequence phase.raw added builder' ∧
        (phase ≠ .changed → sdk.viewTransaction transaction = ⟨sequence + 1, added⟩) ∧
        (phase = .changed → sequence + 2 ≤ (sdk.viewTransaction transaction).sequence) := by
  rw [AccountTransactionBuilder.prepare, AccountTransactionBuilder.assertHasOperations]
  split
  · rename_i thrown failed
    split at failed
    · cases failed
      exact .inl ⟨_, rfl⟩
    · cases failed
  · rcases tracks.buildRawTransaction documented with
      ⟨refused, negative⟩ | ⟨transaction, builder', raw, kept⟩
    · exact .inr (.inl ⟨by rw [refused], negative⟩)
    · exact .inr (.inr ⟨transaction, builder', by rw [raw], kept⟩)

theorem assemble_cases (documented : sdk.Documented) (configured : Int)
    (transaction : sdk.Transaction) (response : Option (SimulationResponse Data)) :
    (∃ thrown, AccountTransactionBuilder.assemble transaction response = .error thrown ∧
        Call.FailsItself configured (.build response : Call sdk) thrown) ∨
      ∃ assembled, AccountTransactionBuilder.assemble transaction response =
          .ok (.transaction assembled) ∧
        sdk.viewTransaction assembled = sdk.viewTransaction transaction := by
  cases response with
  | none => exact .inl ⟨_, rfl, trivial⟩
  | some response =>
    cases response with
    | error error => exact .inl ⟨_, rfl, trivial⟩
    | restore => exact .inl ⟨_, rfl, trivial⟩
    | other => exact .inl ⟨_, rfl, trivial⟩
    | success data =>
      cases assembled : sdk.assembleTransaction transaction data with
      | none => exact .inl ⟨.unassembled, by simp only [AccountTransactionBuilder.assemble,
          assembled], trivial⟩
      | some result =>
        exact .inr ⟨result, by simp only [AccountTransactionBuilder.assemble, assembled],
          documented.assembleTransaction _ _ _ assembled⟩

end Steps

/-! ## The chains that keep the sequence number -/

section Runs

variable {sequence : Int} {calls : List (Call sdk)}
  (ih : ∀ {phase added} {builder : AccountTransactionBuilder sdk},
    Tracks sequence phase added builder → Sound builder calls →
      (Kept sequence added builder calls ↔ Orderly phase calls))

include ih

theorem kept_of_append (documented : sdk.Documented) {phase : Phase}
    {added : List (Operation Custom)} {builder : AccountTransactionBuilder sdk} {call : Call sdk}
    (tracks : Tracks sequence phase added builder)
    (performed : builder.perform call = builder.append (call.operation builder.contract))
    (after : phase.after call = phase.mutated) (allowed : phase.Allows call)
    (itself : call.FailsItself builder.timeoutSeconds .argument)
    (sound : Sound builder (call :: calls)) :
    Kept sequence added builder (call :: calls) ↔ Orderly phase (call :: calls) := by
  rw [Kept, Orderly, after, and_iff_right allowed]
  rw [Sound] at sound
  rcases tracks.append documented (call.operation builder.contract) with
    failed | ⟨builder', appended, tracks'⟩
  · rw [performed, failed] at sound
    exact absurd itself sound
  · rw [performed, appended] at sound ⊢
    exact ih tracks' sound

end Runs

theorem kept_iff_orderly (documented : sdk.Documented) {sequence : Int} {phase : Phase}
    {added : List (Operation Custom)} {builder : AccountTransactionBuilder sdk}
    (tracks : Tracks sequence phase added builder) {calls : List (Call sdk)}
    (sound : Sound builder calls) :
    Kept sequence added builder calls ↔ Orderly phase calls := by
  induction calls generalizing phase added builder with
  | nil => exact Iff.rfl
  | cons call calls ih =>
    cases call with
    | addSessionKey arguments =>
      exact kept_of_append ih documented tracks rfl (by cases phase <;> rfl)
        (by cases phase <;> trivial) trivial sound
    | revokeSessionKey publicKey =>
      exact kept_of_append ih documented tracks rfl (by cases phase <;> rfl)
        (by cases phase <;> trivial) trivial sound
    | execute arguments =>
      exact kept_of_append ih documented tracks rfl (by cases phase <;> rfl)
        (by cases phase <;> trivial) trivial sound
    | addOperation operation =>
      exact kept_of_append ih documented tracks rfl (by cases phase <;> rfl)
        (by cases phase <;> trivial) trivial sound
    | addMemo memo =>
      have after : phase.after (.addMemo memo : Call sdk) = phase.mutated := by
        cases phase <;> rfl
      have allowed : phase.Allows (.addMemo memo : Call sdk) := by cases phase <;> trivial
      rw [Orderly, after, and_iff_right allowed]
      have next := ih (tracks.addMemo documented memo) sound
      change Kept sequence (added ++ []) _ calls ↔ _
      rw [List.append_nil]
      exact next
    | setTimeout seconds =>
      have same : builder.perform (.setTimeout seconds) = builder.setTimeout seconds := rfl
      rw [Kept, Orderly]
      rw [Sound] at sound
      rcases Int.lt_or_le seconds 0 with negative | positive
      · have refused : builder.setTimeout seconds = (.error .timeout, builder) := by
          rw [AccountTransactionBuilder.setTimeout, documented.setTimeoutNegative _ _ negative]
        rw [same, refused] at sound
        exact absurd negative sound
      · by_cases fresh : phase = .fresh
        · subst fresh
          obtain ⟨builder', set, tracks'⟩ := tracks.setTimeout documented positive
          rw [same, set] at sound ⊢
          change Kept sequence (added ++ []) builder' calls ↔ _
          rw [List.append_nil, and_iff_right (show Phase.Allows .fresh _ from trivial)]
          exact ih tracks' sound
        · rw [same, tracks.setTimeout_again documented fresh]
          have refused : ¬ phase.Allows (.setTimeout seconds : Call sdk) := by
            cases phase with
            | fresh => exact absurd rfl fresh
            | timed => exact id
            | built => exact id
            | changed => exact id
          exact ⟨False.elim, fun orderly => refused orderly.1⟩
    | simulate response =>
      have same : builder.perform (.simulate response) =
          builder.prepare fun _ => AccountTransactionBuilder.answer response := rfl
      have after : phase.after (.simulate response : Call sdk) = phase.raw := by
        cases phase <;> rfl
      have allowed : phase.Allows (.simulate response : Call sdk) := by cases phase <;> trivial
      rw [Kept, Orderly, after, and_iff_right allowed]
      rw [Sound] at sound
      rcases tracks.prepare documented fun _ => AccountTransactionBuilder.answer response with
        ⟨message, failed⟩ | ⟨refused, negative⟩ | ⟨_, builder', prepared, tracks', -⟩
      · rw [same, failed] at sound
        exact absurd trivial sound
      · rw [same, refused] at sound
        exact absurd negative sound
      · rw [same, prepared] at sound ⊢
        cases response with
        | none => exact absurd trivial sound
        | some response =>
          change Kept sequence (added ++ []) builder' calls ↔ _
          rw [List.append_nil]
          exact ih tracks' sound
    | build response =>
      have same : builder.perform (.build response) =
          builder.prepare fun transaction =>
            AccountTransactionBuilder.assemble transaction response := rfl
      have after : phase.after (.build response : Call sdk) = phase.raw := by
        cases phase <;> rfl
      rw [Kept, Orderly, after]
      rw [Sound] at sound
      rcases tracks.prepare documented fun transaction =>
          AccountTransactionBuilder.assemble transaction response with
        ⟨message, failed⟩ | ⟨refused, negative⟩ |
          ⟨transaction, builder', prepared, tracks', early, late⟩
      · rw [same, failed] at sound
        exact absurd trivial sound
      · rw [same, refused] at sound
        exact absurd negative sound
      · rcases assemble_cases documented builder.timeoutSeconds transaction response with
          ⟨thrown, failed, itself⟩ | ⟨assembled, returned, view⟩
        · rw [same, prepared, failed] at sound
          exact absurd itself sound
        · rw [same, prepared, returned] at sound ⊢
          change sdk.viewTransaction assembled = ⟨sequence + 1, added⟩ ∧
            Kept sequence added builder' calls ↔ _
          rw [view, ih tracks' sound]
          refine and_congr_left fun _ => ?_
          by_cases changed : phase = .changed
          · subst changed
            refine ⟨fun first => ?_, False.elim⟩
            have second := late rfl
            rw [first] at second
            exact absurd second (by simp)
          · refine ⟨fun _ => ?_, fun _ => early changed⟩
            cases phase with
            | fresh => trivial
            | timed => trivial
            | built => trivial
            | changed => exact absurd rfl changed

/-- From its creation on, the builder keeps the next sequence number and the operations of
    a chain of calls exactly where the chain is orderly. -/
theorem sequence_kept_iff (documented : sdk.Documented) {sourceAccount : SourceAccount}
    {options : AccountTransactionBuilderOptions} {builder : AccountTransactionBuilder sdk}
    (made : newAccountTransactionBuilder sourceAccount options = .ok builder)
    {calls : List (Call sdk)} (sound : Sound builder calls) :
    Kept sourceAccount.sequence [] builder calls ↔ Orderly .fresh calls :=
  kept_iff_orderly documented (Tracks.created documented made) sound

end Calls

/-! ## A sample -/

/-- Builders and transactions that are just what is known of them. -/
def recordingSdk : BuilderSdk String String Unit where
  toStellarSdk := plainSdk
  Builder := BuilderView String
  Transaction := TransactionView String
  newBuilder account _ _ := ⟨account.sequence, [], false⟩
  addOperation operation builder :=
    some { builder with operations := builder.operations ++ [operation] }
  addMemo _ builder := builder
  setTimeout seconds builder :=
    if seconds < 0 ∨ builder.timeoutSet = true then none
    else some { builder with timeoutSet := true }
  build builder :=
    if builder.timeoutSet then
      some (⟨builder.sequence + 1, builder.operations⟩,
        { builder with sequence := builder.sequence + 1 })
    else none
  assembleTransaction transaction _ := some transaction
  view builder := builder
  viewTransaction transaction := transaction

theorem recordingSdk_documented : recordingSdk.Documented where
  newBuilder _ _ _ := rfl
  addOperation _ _ _ added := (Option.some.inj added).symm
  addMemo _ _ := rfl
  setTimeout _ _ positive unset :=
    ⟨_, if_neg (not_or.mpr ⟨Int.not_lt.mpr positive, ne_true_of_eq_false unset⟩), rfl⟩
  setTimeoutNegative _ _ negative := if_pos (.inl negative)
  setTimeoutAgain _ _ set := if_pos (.inr set)
  build builder set := ⟨_, _, if_pos set, rfl, rfl⟩
  assembleTransaction _ _ _ assembled := by
    cases assembled
    rfl

def sampleAccount : SourceAccount := ⟨zeroAccountText, 100⟩

def sampleOptions : AccountTransactionBuilderOptions :=
  ⟨zeroContractText, "Test SDF Network ; September 2015", none, none⟩

def sampleBuilder : AccountTransactionBuilder recordingSdk where
  txBuilder := (⟨100, [], false⟩ : BuilderView String)
  contract := .contract zeroBytes
  timeoutSeconds := 300
  operationCount := 0
  timeoutApplied := false
  rawTransaction := none

/-- What is asked for is simulated once, and then built. -/
def simulatedChain : List (Call recordingSdk) :=
  [.addOperation (.custom "payment"), .setTimeout 60, .simulate (some (.success ())),
    .build (some (.success ()))]

theorem sequence_kept_of_simulatedChain :
    Kept sampleAccount.sequence [] sampleBuilder simulatedChain ↔
      Orderly .fresh simulatedChain :=
  sequence_kept_iff recordingSdk_documented
    (show newAccountTransactionBuilder sampleAccount sampleOptions = .ok sampleBuilder from rfl)
    (show Sound sampleBuilder simulatedChain from trivial)

/-- A memo that is added after a simulation, and a timeout that is set after one. -/
def memoChain : List (Call recordingSdk) :=
  [.addOperation (.custom "payment"), .simulate (some (.success ())), .addMemo "thanks",
    .build (some (.success ()))]

def timeoutChain : List (Call recordingSdk) :=
  [.addOperation (.custom "payment"), .simulate (some (.success ())), .setTimeout 60]

theorem sequence_skipped :
    recordingSdk.Documented ∧
      newAccountTransactionBuilder sampleAccount sampleOptions = .ok sampleBuilder ∧
      (Sound sampleBuilder memoChain ∧ ¬ Kept sampleAccount.sequence [] sampleBuilder memoChain) ∧
      Sound sampleBuilder timeoutChain ∧
      ¬ Kept sampleAccount.sequence [] sampleBuilder timeoutChain := by
  refine ⟨recordingSdk_documented, rfl, ⟨trivial, fun kept => ?_⟩, ?_, id⟩
  · cases congrArg TransactionView.sequence kept.1
  · exact Int.not_lt.mpr (by decide)

end Ancore.Account.Sequences
