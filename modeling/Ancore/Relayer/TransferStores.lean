import Ancore.Relayer.Schedule

/-! # The stores of scheduled transfers

The in-memory store and the Postgres store behind one interface.  In memory a
transfer being executed is in the `processing` set; in Postgres it has a row in
the lease table, which expires. -/

namespace Ancore.Relayer

inductive ScheduledExecutionOutcome where
  | success
  | failed
  deriving DecidableEq, Repr

structure ScheduledTransferExecutionLog where
  scheduledTransferId : TransferId
  executedAt : Date
  outcome : ScheduledExecutionOutcome
  transactionId : Option String
  error : Option String
  deriving DecidableEq, Repr

/-- What an execution changes of the record. -/
structure ExecutionPatch where
  status : ScheduledTransferStatus
  nextRunAt : Date
  lastExecutionAt : Option Date
  consecutiveFailures : Nat
  deriving DecidableEq, Repr

def ScheduledTransfer.patched (transfer : ScheduledTransfer) (patch : ExecutionPatch) :
    ScheduledTransfer :=
  { transfer with
    status := patch.status
    nextRunAt := patch.nextRunAt
    lastExecutionAt := patch.lastExecutionAt
    consecutiveFailures := patch.consecutiveFailures }

/-! ## The records -/

/-- Records with a primary key. -/
structure TransferTable where
  rows : List ScheduledTransfer
  distinct : (rows.map ScheduledTransfer.id).Nodup

namespace TransferTable

def get (table : TransferTable) (id : TransferId) : Option ScheduledTransfer :=
  table.rows.find? fun transfer => transfer.id = id

theorem map_id_modified (rows : List ScheduledTransfer) (id : TransferId)
    {change : ScheduledTransfer → ScheduledTransfer} (keepsId : ∀ transfer, (change transfer).id =
      transfer.id) :
    (rows.map fun transfer => if transfer.id = id then change transfer else transfer).map
      ScheduledTransfer.id = rows.map ScheduledTransfer.id := by
  rw [List.map_map]
  apply List.map_congr_left
  intro transfer _
  simp only [Function.comp_apply]
  split
  · exact keepsId transfer
  · rfl

theorem map_id_patched (rows : List ScheduledTransfer) (id : TransferId)
    (patch : ExecutionPatch) :
    (rows.map fun transfer => if transfer.id = id then transfer.patched patch else transfer).map
      ScheduledTransfer.id = rows.map ScheduledTransfer.id :=
  map_id_modified rows id fun _ => rfl

/-- Changing one record but not its key. -/
def modify (table : TransferTable) (id : TransferId)
    (change : ScheduledTransfer → ScheduledTransfer)
    (keepsId : ∀ transfer, (change transfer).id = transfer.id) : TransferTable where
  rows := table.rows.map fun transfer => if transfer.id = id then change transfer else transfer
  distinct := (map_id_modified table.rows id keepsId).symm ▸ table.distinct

/-- `UPDATE .. WHERE id = ..` -/
def patch (table : TransferTable) (id : TransferId) (patch : ExecutionPatch) : TransferTable where
  rows := table.rows.map fun transfer =>
    if transfer.id = id then transfer.patched patch else transfer
  distinct := (map_id_patched table.rows id patch).symm ▸ table.distinct

theorem get_eq_some_iff {table : TransferTable} {id : TransferId} {transfer : ScheduledTransfer} :
    table.get id = some transfer ↔ transfer ∈ table.rows ∧ transfer.id = id := by
  have distinct := table.distinct
  unfold get
  generalize table.rows = rows at distinct
  induction rows with
  | nil => simp
  | cons first rows inductionHypothesis =>
    rw [List.map_cons, List.nodup_cons] at distinct
    rw [List.find?_cons]
    by_cases found : first.id = id
    · simp only [found, decide_true, Option.some.injEq, List.mem_cons]
      constructor
      · rintro rfl
        exact ⟨.inl rfl, found⟩
      · rintro ⟨rfl | member, same⟩
        · rfl
        · exact absurd (List.mem_map.mpr ⟨transfer, member, same.trans found.symm⟩) distinct.1
    · simp only [found, decide_false, inductionHypothesis distinct.2, List.mem_cons]
      constructor
      · exact fun ⟨member, same⟩ => ⟨.inr member, same⟩
      · rintro ⟨rfl | member, same⟩
        · exact absurd same found
        · exact ⟨member, same⟩

theorem get_modify (table : TransferTable) (id other : TransferId)
    {change : ScheduledTransfer → ScheduledTransfer}
    (keepsId : ∀ transfer, (change transfer).id = transfer.id) :
    (table.modify id change keepsId).get other =
      if other = id then (table.get id).map change else table.get other := by
  change (table.rows.map _).find? _ = _
  unfold get
  induction table.rows with
  | nil => simp
  | cons first rows inductionHypothesis =>
    simp only [List.map_cons, List.find?_cons]
    by_cases first_id : first.id = id
    · have kept : (change first).id = first.id := keepsId first
      by_cases same : other = id
      · simp [first_id, kept, same]
      · have different : ¬ id = other := Ne.symm same
        simpa [first_id, kept, different, same] using inductionHypothesis
    · by_cases first_other : first.id = other
      · have different : ¬ other = id := first_other ▸ first_id
        simp [first_other, different]
      · simpa [first_id, first_other] using inductionHypothesis

theorem get_patch (table : TransferTable) (id other : TransferId) (patch : ExecutionPatch) :
    (table.patch id patch).get other =
      if other = id then (table.get id).map (·.patched patch) else table.get other :=
  get_modify table id other (fun transfer => (rfl : (transfer.patched patch).id = transfer.id))

end TransferTable

/-- `UPDATE .. SET status = .. WHERE id = ..` -/
def TransferTable.setStatus (table : TransferTable) (id : TransferId)
    (status : ScheduledTransferStatus) : TransferTable :=
  table.modify id (fun transfer => { transfer with status := status }) fun _ => rfl

theorem TransferTable.get_setStatus (table : TransferTable) (id other : TransferId)
    (status : ScheduledTransferStatus) :
    (table.setStatus id status).get other =
      if other = id then
        (table.get id).map fun transfer => { transfer with status := status }
      else table.get other :=
  table.get_modify id other _

def TransferTable.getForCaller (table : TransferTable) (id : TransferId) (callerId : String) :
    Option ScheduledTransfer :=
  (table.get id).filter fun transfer => transfer.callerId = callerId

/-! ## In memory -/

structure ScheduledTransferStore where
  transfers : TransferTable
  /-- The latest first. -/
  executions : List ScheduledTransferExecutionLog
  processing : List TransferId

namespace ScheduledTransferStore

def tryAcquireProcessing (store : ScheduledTransferStore) (id : TransferId) :
    Bool × ScheduledTransferStore :=
  if id ∈ store.processing then (false, store)
  else
    match store.transfers.get id with
    | none => (false, store)
    | some transfer =>
      if transfer.status = .active then
        (true, { store with processing := id :: store.processing })
      else (false, store)

def releaseProcessing (store : ScheduledTransferStore) (id : TransferId) :
    ScheduledTransferStore :=
  { store with processing := store.processing.filter (· ≠ id) }

def updateAfterExecution (store : ScheduledTransferStore) (id : TransferId)
    (patch : ExecutionPatch) : ScheduledTransferStore :=
  { store with transfers := store.transfers.patch id patch }

def updateStatus (store : ScheduledTransferStore) (id : TransferId)
    (status : ScheduledTransferStatus) : Option ScheduledTransfer × ScheduledTransferStore :=
  match store.transfers.get id with
  | none => (none, store)
  | some transfer =>
    (some { transfer with status := status },
      { store with transfers := store.transfers.setStatus id status })

def listDue (store : ScheduledTransferStore) (now : Date) : List ScheduledTransfer :=
  store.transfers.rows.filter fun transfer =>
    transfer.status = .active ∧ transfer.id ∉ store.processing ∧ transfer.nextRunAt ≤ now

def appendExecution (store : ScheduledTransferStore) (log : ScheduledTransferExecutionLog) :
    ScheduledTransferStore :=
  { store with executions := log :: store.executions }

def listExecutions (store : ScheduledTransferStore) (id : TransferId) :
    List ScheduledTransferExecutionLog :=
  store.executions.filter fun log => log.scheduledTransferId = id

end ScheduledTransferStore

/-! ## In Postgres -/

/-- The `workerId` of a `PgScheduledTransferStore`. -/
abbrev WorkerId := Nat

structure LeaseRow where
  transferId : TransferId
  workerId : WorkerId
  expiresAt : Date
  deriving DecidableEq, Repr

def leaseTtlMs : Int := 30000

structure PgScheduledTransferStore where
  transfers : TransferTable
  executions : List ScheduledTransferExecutionLog
  leases : List LeaseRow

namespace PgScheduledTransferStore

/-- `databaseNow` is `NOW()`. -/
def listDue (store : PgScheduledTransferStore) (now databaseNow : Date) :
    List ScheduledTransfer :=
  (store.transfers.rows.filter fun transfer =>
    transfer.status = .active ∧ transfer.nextRunAt ≤ now ∧
      ¬ ∃ lease ∈ store.leases, lease.transferId = transfer.id ∧ databaseNow < lease.expiresAt
    ).insertionSort fun first second => first.nextRunAt ≤ second.nextRunAt

/-- The upsert: a lease that has expired is taken over. -/
def tryAcquireLease (store : PgScheduledTransferStore) (id : TransferId) (workerId : WorkerId)
    (dateNow databaseNow : Date) : Bool × PgScheduledTransferStore :=
  let row : LeaseRow := ⟨id, workerId, dateNow + leaseTtlMs⟩
  match store.leases.find? fun lease => lease.transferId = id with
  | none => (true, { store with leases := row :: store.leases })
  | some lease =>
    if lease.expiresAt < databaseNow then
      (true, { store with
        leases := store.leases.map fun lease => if lease.transferId = id then row else lease })
    else (false, store)

def releaseLease (store : PgScheduledTransferStore) (id : TransferId) (workerId : WorkerId) :
    PgScheduledTransferStore :=
  { store with
    leases := store.leases.filter fun lease =>
      ¬ (lease.transferId = id ∧ lease.workerId = workerId) }

/-- The table's check on `status` does not know `failed`: the statement is refused. -/
def updateAfterExecution (store : PgScheduledTransferStore) (id : TransferId)
    (patch : ExecutionPatch) : Option PgScheduledTransferStore :=
  if patch.status = .failed ∧ (store.transfers.get id).isSome then none
  else some { store with transfers := store.transfers.patch id patch }

/-- Under the same check of the table. -/
def updateStatus (store : PgScheduledTransferStore) (id : TransferId)
    (status : ScheduledTransferStatus) :
    Option (Option ScheduledTransfer × PgScheduledTransferStore) :=
  if status = .failed ∧ (store.transfers.get id).isSome then none
  else some ((store.transfers.get id).map fun transfer => { transfer with status := status },
    { store with transfers := store.transfers.setStatus id status })

def appendExecution (store : PgScheduledTransferStore) (log : ScheduledTransferExecutionLog) :
    PgScheduledTransferStore :=
  { store with executions := log :: store.executions }

/-- `ORDER BY executed_at DESC LIMIT 50` -/
def listExecutions (store : PgScheduledTransferStore) (id : TransferId) :
    List ScheduledTransferExecutionLog :=
  ((store.executions.filter fun log => log.scheduledTransferId = id).insertionSort
    fun first second => second.executedAt ≤ first.executedAt).take 50

end PgScheduledTransferStore

/-! ## Either store -/

inductive AnyScheduledTransferStore where
  | memory (store : ScheduledTransferStore)
  | postgres (store : PgScheduledTransferStore)

namespace AnyScheduledTransferStore

def transfers : AnyScheduledTransferStore → TransferTable
  | memory store => store.transfers
  | postgres store => store.transfers

def listDue (now databaseNow : Date) : AnyScheduledTransferStore → List ScheduledTransfer
  | memory store => store.listDue now
  | postgres store => store.listDue now databaseNow

def tryAcquireProcessing (id : TransferId) (workerId : WorkerId) (dateNow databaseNow : Date) :
    AnyScheduledTransferStore → Bool × AnyScheduledTransferStore
  | memory store =>
    let (acquired, next) := store.tryAcquireProcessing id
    (acquired, memory next)
  | postgres store =>
    let (acquired, next) := store.tryAcquireLease id workerId dateNow databaseNow
    (acquired, postgres next)

def releaseProcessing (id : TransferId) (workerId : WorkerId) :
    AnyScheduledTransferStore → AnyScheduledTransferStore
  | memory store => memory (store.releaseProcessing id)
  | postgres store => postgres (store.releaseLease id workerId)

/-- `none` when the statement is refused. -/
def updateAfterExecution (id : TransferId) (patch : ExecutionPatch) :
    AnyScheduledTransferStore → Option AnyScheduledTransferStore
  | memory store => some (memory (store.updateAfterExecution id patch))
  | postgres store => (store.updateAfterExecution id patch).map postgres

def getByIdForCaller (id : TransferId) (callerId : String) (store : AnyScheduledTransferStore) :
    Option ScheduledTransfer :=
  store.transfers.getForCaller id callerId

/-- `none` when the statement is refused. -/
def updateStatus (id : TransferId) (status : ScheduledTransferStatus) :
    AnyScheduledTransferStore → Option (Option ScheduledTransfer × AnyScheduledTransferStore)
  | memory store =>
    let (updated, next) := store.updateStatus id status
    some (updated, memory next)
  | postgres store =>
    (store.updateStatus id status).map fun (updated, next) => (updated, postgres next)

def appendExecution (log : ScheduledTransferExecutionLog) :
    AnyScheduledTransferStore → AnyScheduledTransferStore
  | memory store => memory (store.appendExecution log)
  | postgres store => postgres (store.appendExecution log)

def listExecutions (id : TransferId) :
    AnyScheduledTransferStore → List ScheduledTransferExecutionLog
  | memory store => store.listExecutions id
  | postgres store => store.listExecutions id

/-- Somebody is executing the transfer. -/
def Leased (id : TransferId) : AnyScheduledTransferStore → Prop
  | memory store => id ∈ store.processing
  | postgres store => ∃ lease ∈ store.leases, lease.transferId = id

/-- No lease has expired. -/
def LeasesHold (databaseNow : Date) : AnyScheduledTransferStore → Prop
  | memory _ => True
  | postgres store => ∀ lease ∈ store.leases, databaseNow < lease.expiresAt

instance (databaseNow : Date) :
    (store : AnyScheduledTransferStore) → Decidable (store.LeasesHold databaseNow)
  | memory _ => isTrue trivial
  | postgres store =>
    inferInstanceAs (Decidable (∀ lease ∈ store.leases, databaseNow < lease.expiresAt))

/-! ## What the operations do -/

theorem transfers_tryAcquireProcessing (store : AnyScheduledTransferStore) (id : TransferId)
    (workerId : WorkerId) (dateNow databaseNow : Date) :
    (store.tryAcquireProcessing id workerId dateNow databaseNow).2.transfers =
      store.transfers := by
  cases store with
  | memory store =>
    simp only [tryAcquireProcessing, ScheduledTransferStore.tryAcquireProcessing, transfers]
    split_ifs
    · rfl
    · split
      · rfl
      · split <;> rfl
  | postgres store =>
    simp only [tryAcquireProcessing, PgScheduledTransferStore.tryAcquireLease, transfers]
    split
    · rfl
    · split <;> rfl

theorem leased_tryAcquireProcessing {store : AnyScheduledTransferStore} {other : TransferId}
    (leased : store.Leased other) (id : TransferId) (workerId : WorkerId)
    (dateNow databaseNow : Date) :
    (store.tryAcquireProcessing id workerId dateNow databaseNow).2.Leased other := by
  cases store with
  | memory store =>
    simp only [tryAcquireProcessing, ScheduledTransferStore.tryAcquireProcessing]
    split_ifs
    · exact leased
    · split
      · exact leased
      · split
        · exact List.mem_cons_of_mem _ leased
        · exact leased
  | postgres store =>
    simp only [tryAcquireProcessing, PgScheduledTransferStore.tryAcquireLease]
    obtain ⟨held, member, same⟩ := leased
    split
    · exact ⟨held, List.mem_cons_of_mem _ member, same⟩
    · split
      -- The row taken over is still a row of the same transfer.
      · refine ⟨_, List.mem_map_of_mem member, ?_⟩
        split
        · rename_i _ taken
          exact taken.symm.trans same
        · exact same
      · exact ⟨held, member, same⟩

theorem leased_of_acquired {store : AnyScheduledTransferStore} {id : TransferId}
    {workerId : WorkerId} {dateNow databaseNow : Date}
    (acquired : (store.tryAcquireProcessing id workerId dateNow databaseNow).1 = true) :
    (store.tryAcquireProcessing id workerId dateNow databaseNow).2.Leased id := by
  cases store with
  | memory store =>
    simp only [tryAcquireProcessing, ScheduledTransferStore.tryAcquireProcessing] at *
    split_ifs at *
    split at acquired
    · cases acquired
    · split at acquired
      · rename_i found active
        simp only [active, if_true]
        exact List.mem_cons_self
      · cases acquired
  | postgres store =>
    simp only [tryAcquireProcessing, PgScheduledTransferStore.tryAcquireLease] at *
    split
    · exact ⟨_, List.mem_cons_self, rfl⟩
    · rename_i lease found
      simp only [found] at acquired
      have same : lease.transferId = id := by simpa using List.find?_some found
      split
      · exact ⟨_, List.mem_map_of_mem (List.mem_of_find?_eq_some found), by rw [if_pos same]⟩
      · rename_i holds
        rw [if_neg holds] at acquired
        cases acquired

/-- While no lease has expired, a lease is acquired only where nobody has one. -/
theorem not_leased_of_acquired {store : AnyScheduledTransferStore} {id : TransferId}
    {workerId : WorkerId} {dateNow databaseNow : Date} (hold : store.LeasesHold databaseNow)
    (acquired : (store.tryAcquireProcessing id workerId dateNow databaseNow).1 = true) :
    ¬ store.Leased id := by
  intro leased
  cases store with
  | memory store =>
    have member : id ∈ store.processing := leased
    simp [tryAcquireProcessing, ScheduledTransferStore.tryAcquireProcessing, member] at acquired
  | postgres store =>
    obtain ⟨held, member, same⟩ := leased
    simp only [tryAcquireProcessing, PgScheduledTransferStore.tryAcquireLease] at acquired
    split at acquired
    · rename_i free
      exact List.find?_eq_none.mp free held member (by simpa using same)
    · rename_i lease found
      have unexpired := hold lease (List.mem_of_find?_eq_some found)
      rw [if_neg (not_lt.mpr unexpired.le)] at acquired
      cases acquired

@[simp] theorem transfers_releaseProcessing (store : AnyScheduledTransferStore)
    (id : TransferId) (workerId : WorkerId) :
    (store.releaseProcessing id workerId).transfers = store.transfers := by
  cases store <;> rfl

/-- A release leaves the leases of the other transfers. -/
theorem leased_releaseProcessing {store : AnyScheduledTransferStore} {id other : TransferId}
    (different : other ≠ id) (leased : store.Leased other) (workerId : WorkerId) :
    (store.releaseProcessing id workerId).Leased other := by
  cases store with
  | memory store => exact List.mem_filter.mpr ⟨leased, by simpa using different⟩
  | postgres store =>
    obtain ⟨held, member, same⟩ := leased
    refine ⟨held, List.mem_filter.mpr ⟨member, ?_⟩, same⟩
    simp [same, different]

@[simp] theorem transfers_appendExecution (store : AnyScheduledTransferStore)
    (log : ScheduledTransferExecutionLog) :
    (store.appendExecution log).transfers = store.transfers := by
  cases store <;> rfl

@[simp] theorem leased_appendExecution (store : AnyScheduledTransferStore)
    (log : ScheduledTransferExecutionLog) (id : TransferId) :
    (store.appendExecution log).Leased id ↔ store.Leased id := by
  cases store <;> rfl

theorem updateAfterExecution_spec {store next : AnyScheduledTransferStore} {id : TransferId}
    {patch : ExecutionPatch} (updated : store.updateAfterExecution id patch = some next) :
    next.transfers = store.transfers.patch id patch ∧
      ∀ other, next.Leased other ↔ store.Leased other := by
  cases store with
  | memory store =>
    cases updated
    exact ⟨rfl, fun _ => Iff.rfl⟩
  | postgres store =>
    simp only [updateAfterExecution, PgScheduledTransferStore.updateAfterExecution] at updated
    split at updated
    · cases updated
    · cases updated
      exact ⟨rfl, fun _ => Iff.rfl⟩

/-- The status is written to the record, which is returned. -/
theorem updateStatus_spec {store : AnyScheduledTransferStore} {id : TransferId}
    {status : ScheduledTransferStatus}
    {carriedOut : Option ScheduledTransfer × AnyScheduledTransferStore}
    (updated : store.updateStatus id status = some carriedOut) :
    carriedOut.1 = (store.transfers.get id).map (fun transfer =>
        { transfer with status := status }) ∧
      ∀ other, carriedOut.2.transfers.get other =
        if other = id then carriedOut.1 else store.transfers.get other := by
  cases store with
  | memory store =>
    simp only [updateStatus, ScheduledTransferStore.updateStatus, Option.some.injEq] at updated
    subst updated
    simp only [transfers]
    cases found : store.transfers.get id with
    | none =>
      refine ⟨rfl, fun other => ?_⟩
      by_cases same : other = id
      · rw [if_pos same, same]
        exact found
      · rw [if_neg same]
    | some transfer =>
      refine ⟨rfl, fun other => ?_⟩
      dsimp only
      rw [TransferTable.get_setStatus, found]
      rfl
  | postgres store =>
    simp only [updateStatus, PgScheduledTransferStore.updateStatus] at updated
    split at updated
    · cases updated
    · simp only [Option.map_some, Option.some.injEq] at updated
      subst updated
      exact ⟨rfl, fun other => TransferTable.get_setStatus ..⟩

/-- What is listed as due is the record as it stands, and active. -/
theorem listDue_spec {store : AnyScheduledTransferStore} {now databaseNow : Date}
    {transfer : ScheduledTransfer} (listed : transfer ∈ store.listDue now databaseNow) :
    store.transfers.get transfer.id = some transfer ∧ transfer.status = .active := by
  rw [TransferTable.get_eq_some_iff]
  cases store with
  | memory store =>
    obtain ⟨member, due⟩ := List.mem_filter.mp listed
    exact ⟨⟨member, rfl⟩, (of_decide_eq_true due).1⟩
  | postgres store =>
    have inOrder := (List.perm_insertionSort _ _).mem_iff.mp listed
    obtain ⟨member, due⟩ := List.mem_filter.mp inOrder
    exact ⟨⟨member, rfl⟩, (of_decide_eq_true due).1⟩

end AnyScheduledTransferStore

end Ancore.Relayer
