import Ancore.Indexer.ContractEvents
import Ancore.Indexer.Paging
import Ancore.Library.KeyedTable
import Ancore.Library.RecordTable

/-! # The transaction history of the mobile wallet

`createIndexerActivityAdapter` asks both feeds of the indexer with one cursor, merges
them and cuts the result to a page; `usePaginatedTransactionHistory` collects the
pages.  The indexer is the one of `Ancore.Indexer`, with the tables it has.
-/

namespace Ancore.Mobile

open Ancore.Library Ancore.Indexer

/-! ## Transactions -/

inductive Direction where
  | inbound
  | outbound
deriving DecidableEq

inductive TransactionStatus where
  | pending
  | completed
  | failed
  | success
deriving DecidableEq

structure Transaction where
  id : Nat
  amount : String
  direction : Direction
  timestamp : Timestamp
  asset : Option String
  status : Option TransactionStatus
deriving DecidableEq

def mapActivityToTransaction (accountId : String) (activity : ActivityRecord) : Transaction where
  id := activity.id
  amount := activity.amount.getD "0"
  direction :=
    if activity.activityType = "payment" ∧ activity.counterparty ≠ some accountId then .inbound
    else .outbound
  timestamp := activity.createdAt
  asset := activity.asset
  status := some .completed

def mapContractEventToTransaction (event : ContractEvent) : Transaction where
  id := event.id
  amount := "0"
  direction :=
    if event.eventType = "session_key_added" ∨ event.eventType = "session_key_ttl_refreshed" then
      .inbound
    else .outbound
  timestamp := event.timestamp
  asset := none
  status := some .completed

/-- `Date.parse(tx.timestamp)`, in milliseconds. -/
def Transaction.time (tx : Transaction) : Int := tx.timestamp / 1000

abbrev NewestFirst (one other : Transaction) : Prop := other.time ≤ one.time

/-- `.sort((a, b) => Date.parse(b.timestamp) - Date.parse(a.timestamp))` -/
def sortNewestFirst (transactions : List Transaction) : List Transaction :=
  transactions.insertionSort NewestFirst

/-! ## The adapter -/

structure HistoryPage where
  transactions : List Transaction
  nextCursor : Option String
deriving DecidableEq

/-- Of several transactions with one id the first is kept. -/
def mergeUniqueTransactions (activity contractEvents : List Transaction) : List Transaction :=
  sortNewestFirst (insertAll Transaction.id [] (activity ++ contractEvents))

/-- The contract events that the adapter asks for. -/
def contractEventsOf (accountId : String) (pageSize : Nat) (cursor : Option String) :
    ContractEventFilter where
  contractAddress := none
  accountId := some accountId
  eventType := none
  ledgerMin := none
  ledgerMax := none
  limit := some pageSize
  cursorAfter := cursor
  cursorBefore := none

/-- `fetchTransactionPage`; it throws when the activity request fails. -/
def fetchTransactionPage (codec : CursorCodec) (activities : List ActivityRecord)
    (events : List ContractEvent) (accountId : String) (pageSize : Nat) (cursor : Option String) :
    Option HistoryPage := do
  -- `if (params.cursor)`
  let cursorAfter := cursor.filter (· ≠ "")
  let activityBody ← (getAccountActivity codec activities accountId noFilter
    ⟨cursorAfter, none, some pageSize⟩).toOption
  -- the contract-events feed is optional
  let contractEvents :=
    match getContractEvents codec events (contractEventsOf accountId pageSize cursorAfter) with
    | .ok eventsBody => eventsBody.items
    | .error _ => []
  let merged := mergeUniqueTransactions
    (activityBody.items.map (mapActivityToTransaction accountId))
    (contractEvents.map mapContractEventToTransaction)
  some { transactions := merged.take pageSize, nextCursor := activityBody.nextCursor }

/-! ## The hook -/

structure HistoryState where
  items : List Transaction
  nextCursor : Option String
  isLoadingInitial : Bool
  isLoadingMore : Bool
  isRefreshing : Bool

inductive FetchMode where
  | initial
  | loadMore
  | refresh
deriving DecidableEq

def HistoryState.initial : HistoryState := ⟨[], none, true, false, false⟩

/-- The transactions of the page take the place of those with their ids. -/
def mergeItems (incoming existing : List Transaction) : List Transaction :=
  sortNewestFirst (incoming.foldl (putRow Transaction.id) existing)

/-- `fetchPage`, where the request succeeds and no other one is made meanwhile. -/
def fetchPage (adapter : Option String → Option HistoryPage) (mode : FetchMode)
    (cursor : Option String) (state : HistoryState) : Option HistoryState := do
  let page ← adapter cursor
  let baseItems := if mode = .refresh then [] else state.items
  some {
    items := mergeItems page.transactions baseItems
    nextCursor := page.nextCursor
    isLoadingInitial := false
    isLoadingMore := false
    isRefreshing := false }

def loadMore (adapter : Option String → Option HistoryPage) (state : HistoryState) :
    Option HistoryState :=
  if state.isLoadingInitial || state.isLoadingMore || state.isRefreshing then some state
  else
    match state.nextCursor with
    | none => some state
    | some cursor => fetchPage adapter .loadMore (some cursor) state

/-- `loadMore` until there is no next cursor. -/
def loadAll (adapter : Option String → Option HistoryPage) : Nat → HistoryState →
    Option HistoryState
  | 0, _ => none
  | fuel + 1, state =>
    if state.nextCursor = none then some state
    else do
      let next ← loadMore adapter state
      loadAll adapter fuel next

/-- The first page, and all that follow it. -/
def wholeHistory (adapter : Option String → Option HistoryPage) (fuel : Nat) :
    Option HistoryState := do
  let first ← fetchPage adapter .initial none .initial
  loadAll adapter fuel first

/-! ## Merging -/

section Merging

variable {incoming existing : List Transaction} {tx : Transaction}

theorem sortNewestFirst_ordered (transactions : List Transaction) :
    (sortNewestFirst transactions).Pairwise NewestFirst := by
  have total : Std.Total NewestFirst := ⟨fun one other => le_total other.time one.time⟩
  have transitive : IsTrans Transaction NewestFirst :=
    ⟨fun one other third first second => second.trans first⟩
  exact List.pairwise_insertionSort _ _

theorem mem_sortNewestFirst {transactions : List Transaction} :
    tx ∈ sortNewestFirst transactions ↔ tx ∈ transactions :=
  List.mem_insertionSort _

theorem sortNewestFirst_perm (transactions : List Transaction) :
    (sortNewestFirst transactions).Perm transactions :=
  List.perm_insertionSort _ _

/-- Nothing is dropped where the ids differ. -/
theorem mergeUniqueTransactions_of_distinct
    (distinct : ((incoming ++ existing).map Transaction.id).Nodup) :
    mergeUniqueTransactions incoming existing = sortNewestFirst (incoming ++ existing) := by
  have kept : insertAll Transaction.id [] (incoming ++ existing) = [] ++ (incoming ++ existing) :=
    insertAll_eq_append_iff.mpr ⟨distinct, nofun⟩
  rw [mergeUniqueTransactions, kept, List.nil_append]

theorem nodup_mergeItems (distinct : (existing.map Transaction.id).Nodup) :
    ((mergeItems incoming existing).map Transaction.id).Nodup := by
  unfold mergeItems
  rw [((sortNewestFirst_perm _).map Transaction.id).nodup_iff]
  induction incoming generalizing existing with
  | nil => exact distinct
  | cons first incoming inductionHypothesis => exact inductionHypothesis (nodup_putRow distinct)

/-- Where an id tells the transaction, the merged list holds those of both. -/
theorem mem_mergeItems (distinct : (existing.map Transaction.id).Nodup)
    (told : ∀ one ∈ incoming ++ existing, ∀ other ∈ incoming ++ existing,
      one.id = other.id → one = other) :
    tx ∈ mergeItems incoming existing ↔ tx ∈ incoming ∨ tx ∈ existing := by
  rw [mergeItems, mem_sortNewestFirst]
  induction incoming generalizing existing with
  | nil => simp
  | cons first incoming inductionHypothesis =>
    have placed : ∀ {other}, other ∈ putRow Transaction.id existing first ↔
        other = first ∨ other ∈ existing :=
      mem_putRow distinct fun old member same => told old (by simp [member]) first (by simp) same
    have members : ∀ other, other ∈ incoming ++ putRow Transaction.id existing first →
        other ∈ first :: incoming ++ existing := by
      intro other member
      simp only [List.mem_append, placed, List.mem_cons, List.cons_append] at member ⊢
      tauto
    rw [List.foldl_cons, inductionHypothesis (nodup_putRow distinct) fun one isOne other isOther =>
      told one (members one isOne) other (members other isOther), placed, List.mem_cons]
    tauto

end Merging

end Ancore.Mobile
