import Ancore.Library.SelfDelimiting
import Ancore.Indexer.Paging

/-! # The response cache of account activity

Pages are kept under a text that joins the parts of a request.  The text does not
keep all of them apart: an absent text and an empty one look the same, a bar in a
text looks like the bar between two parts, dates are cut to milliseconds, and the
operation type is not part of it.
-/

namespace Ancore.Indexer

open Ancore.Library

/-- The arguments of `get_account_activity`. -/
structure ActivityRequest where
  accountId : String
  filter : ActivityFilter
  page : CursorPage
deriving DecidableEq

/-! ## The key -/

/-- `{:?}` of an `Option<i64>` -/
def debugOption : Option Int → String
  | none => "None"
  | some value => "Some(" ++ toString value ++ ")"

/-- `timestamp_millis` -/
def timestampMillis (time : Timestamp) : Int := time / 1000

/-- The texts of a key, up to the dates. -/
def filterKey (accountId : String) (filter : ActivityFilter) : String :=
  accountId ++ "|" ++ filter.activityType.getD "" ++ "|" ++ filter.asset.getD "" ++ "|" ++
    filter.counterparty.getD "" ++ "|" ++ debugOption filter.ledgerMin ++ "|" ++
    debugOption filter.ledgerMax ++ "|" ++ debugOption (filter.fromDate.map timestampMillis) ++
    "|" ++ debugOption (filter.toDate.map timestampMillis)

def accountActivityCacheKey (request : ActivityRequest) : String :=
  filterKey request.accountId request.filter ++ "|" ++ request.page.after.getD "" ++ "|" ++
    request.page.before.getD "" ++ "|" ++ toString (effectiveLimit request.page)

/-! ## The cache -/

/-- A cached response.  It is kept serialized; serializing a page loses nothing. -/
structure CacheEntry where
  key : String
  page : PageResult
  storedAt : Nat

/-- The entries, the most recently used one first. -/
abbrev ResponseCache := List CacheEntry

/-- `ACCOUNT_RESPONSE_CACHE_CAPACITY` -/
def responseCacheCapacity : Nat := 10000

/-- `ACCOUNT_RESPONSE_CACHE_TTL`, in milliseconds. -/
def responseCacheTtl : Nat := 5000

/-- `AccountResponseCache::get` -/
def ResponseCache.lookup (cache : ResponseCache) (key : String) (now : Nat) :
    Option PageResult × ResponseCache :=
  match cache.find? fun entry => entry.key = key with
  | none => (none, cache)
  | some entry =>
    if responseCacheTtl ≤ now - entry.storedAt then
      (none, cache.filter fun entry => entry.key ≠ key)
    else (some entry.page, entry :: cache.filter fun entry => entry.key ≠ key)

/-- `AccountResponseCache::insert` -/
def ResponseCache.store (cache : ResponseCache) (key : String) (page : PageResult) (now : Nat) :
    ResponseCache :=
  ({ key := key, page := page, storedAt := now } ::
    cache.filter fun entry => entry.key ≠ key).take responseCacheCapacity

/-- A request with the times at which the cache is asked and at which the answer is stored. -/
structure TimedRequest where
  request : ActivityRequest
  asked : Nat
  answered : Nat

section Read

variable (codec : CursorCodec) (table : List ActivityRecord)

/-- The answer without the cache. -/
def uncached (request : ActivityRequest) : Except ApiError PageResult :=
  getAccountActivity codec table request.accountId request.filter request.page

/-- `get_account_activity` -/
def cachedActivity (cache : ResponseCache) (read : TimedRequest) :
    Except ApiError PageResult × ResponseCache :=
  match validated codec read.request.page with
  | .error error => (.error error, cache)
  | .ok (after, before) =>
    match cache.lookup (accountActivityCacheKey read.request) read.asked with
    | (some page, cache) => (.ok page, cache)
    | (none, cache) =>
      let page := queryActivity codec table read.request.accountId read.request.filter
        (effectiveLimit read.request.page) after before
      (.ok page, cache.store (accountActivityCacheKey read.request) page read.answered)

/-- Reads without writes in between. -/
def cachedReads : ResponseCache → List TimedRequest → List (Except ApiError PageResult)
  | _, [] => []
  | cache, read :: reads =>
    let (answer, cache) := cachedActivity codec table cache read
    answer :: cachedReads cache reads

end Read

/-! ## What a key tells -/

/-- The part of a key behind its last bar can be read off. -/
theorem last_bar_cancel {front front' tail tail' : String} (plain : '|' ∉ tail.toList)
    (plain' : '|' ∉ tail'.toList) (same : front ++ "|" ++ tail = front' ++ "|" ++ tail') :
    front = front' ∧ tail = tail' := by
  have lists := congrArg String.toList same
  simp only [String.toList_append, List.append_assoc] at lists
  obtain ⟨fronts, tails⟩ := separated_inj plain plain' lists
  exact ⟨String.toList_inj.mp fronts, String.toList_inj.mp tails⟩

theorem limit_plain (limit : Nat) : '|' ∉ (toString limit).toList := by
  intro member
  rw [Nat.toString_eq_repr, Nat.toList_repr] at member
  have isDigit := Nat.isDigit_of_mem_toDigits (by decide) (by decide) member
  cases isDigit

/-- The cursors of the API are base64 texts: not empty and without a bar. -/
def PlainCursors (codec : CursorCodec) : Prop :=
  ∀ text position, codec.decode text = .ok position → text ≠ "" ∧ '|' ∉ text.toList

section Key

variable {codec : CursorCodec} {request request' : ActivityRequest}
  {after before after' before' : Option Position}

theorem validated_ok {page : CursorPage} (valid : validated codec page = .ok (after, before)) :
    decodeCursor codec page.after = .ok after ∧ decodeCursor codec page.before = .ok before := by
  unfold validated at valid
  split at valid
  · cases valid
  · cases isAfter : decodeCursor codec page.after with
    | error error =>
      rw [isAfter] at valid
      cases valid
    | ok after =>
      cases isBefore : decodeCursor codec page.before with
      | error error =>
        rw [isAfter, isBefore] at valid
        cases valid
      | ok before =>
        rw [isAfter, isBefore] at valid
        cases valid
        exact ⟨rfl, rfl⟩

theorem cursor_plain (plain : PlainCursors codec) {text : Option String} {cursor : Option Position}
    (decoded : decodeCursor codec text = .ok cursor) :
    '|' ∉ (text.getD "").toList ∧ (text.getD "" = "" ↔ text = none) := by
  cases text with
  | none => simp
  | some text =>
    cases isPosition : codec.decode text with
    | error error =>
      rw [decodeCursor, isPosition] at decoded
      cases decoded
    | ok position =>
      obtain ⟨nonempty, noBar⟩ := plain text position isPosition
      simp [nonempty, noBar]

/-- A text that is not empty when it is there is known from its default form. -/
theorem cursor_inj {text text' : Option String} (shown : text.getD "" = "" ↔ text = none)
    (shown' : text'.getD "" = "" ↔ text' = none) (same : text.getD "" = text'.getD "") :
    text = text' := by
  cases text with
  | none =>
    have none' := shown'.mp same.symm
    rw [none']
  | some text =>
    cases text' with
    | none => exact shown.mp same
    | some text' => exact congrArg some same

/-- Requests with one key have the same cursors and the same limit. -/
theorem cursors_of_same_key (plain : PlainCursors codec)
    (valid : validated codec request.page = .ok (after, before))
    (valid' : validated codec request'.page = .ok (after', before'))
    (same : accountActivityCacheKey request = accountActivityCacheKey request') :
    after = after' ∧ before = before' ∧
      effectiveLimit request.page = effectiveLimit request'.page := by
  obtain ⟨isAfter, isBefore⟩ := validated_ok valid
  obtain ⟨isAfter', isBefore'⟩ := validated_ok valid'
  obtain ⟨afterPlain, afterShown⟩ := cursor_plain plain isAfter
  obtain ⟨afterPlain', afterShown'⟩ := cursor_plain plain isAfter'
  obtain ⟨beforePlain, beforeShown⟩ := cursor_plain plain isBefore
  obtain ⟨beforePlain', beforeShown'⟩ := cursor_plain plain isBefore'
  unfold accountActivityCacheKey at same
  obtain ⟨upToBefore, sameLimit⟩ := last_bar_cancel (limit_plain _) (limit_plain _) same
  obtain ⟨upToAfter, sameBefore⟩ := last_bar_cancel beforePlain beforePlain' upToBefore
  obtain ⟨_, sameAfter⟩ := last_bar_cancel afterPlain afterPlain' upToAfter
  rw [cursor_inj afterShown afterShown' sameAfter, isAfter'] at isAfter
  rw [cursor_inj beforeShown beforeShown' sameBefore, isBefore'] at isBefore
  exact ⟨(Except.ok.inj isAfter).symm, (Except.ok.inj isBefore).symm, Nat.repr_injective sameLimit⟩

end Key

/-! ## When two requests are one -/

/-- The type a request asks for. -/
def typeFilter (filter : ActivityFilter) : Option String :=
  filter.operationType <|> filter.activityType

/-- Two requests ask for the same texts, ledgers and positions, or neither of them can find
anything. -/
def SameQuestion (request request' : ActivityRequest)
    (after before after' before' : Option Position) :
    Prop :=
  (request.accountId = request'.accountId ∧
    typeFilter request.filter = typeFilter request'.filter ∧
    request.filter.asset = request'.filter.asset ∧
    request.filter.counterparty = request'.filter.counterparty ∧
    ∀ ledgerSeq position, selectsRange request.filter after before ledgerSeq position ↔
      selectsRange request'.filter after' before' ledgerSeq position) ∨
  (∀ ledgerSeq position, ¬ selectsRange request.filter after before ledgerSeq position) ∧
    ∀ ledgerSeq position, ¬ selectsRange request'.filter after' before' ledgerSeq position

section Question

variable {codec : CursorCodec} {request request' : ActivityRequest}
  {after before after' before' : Option Position} {table : List ActivityRecord}

/-- An optional condition on a value is known from the values it lets through. -/
theorem condition_inj {α β : Type} [Nontrivial β] {f : α → β} (injective : Function.Injective f)
    {one other : Option α}
    (same : ∀ value, (∀ wanted ∈ one, value = f wanted) ↔ ∀ wanted ∈ other, value = f wanted) :
    one = other := by
  cases one with
  | none =>
    cases other with
    | none => rfl
    | some wanted =>
      obtain ⟨value, different⟩ := exists_ne (f wanted)
      exact absurd ((same value).mp (by simp) wanted rfl) different
  | some wanted =>
    cases other with
    | none =>
      obtain ⟨value, different⟩ := exists_ne (f wanted)
      exact absurd ((same value).mpr (by simp) wanted rfl) different
    | some wanted' =>
      have equal := (same (f wanted)).mp (by simp) wanted' rfl
      rw [injective equal]

/-- A row a request can find. -/
def witnessRow (request : ActivityRequest) (ledgerSeq : Int) (position : Position) :
    ActivityRecord where
  id := (ofLex position).2
  accountId := request.accountId
  activityType := (typeFilter request.filter).getD ""
  amount := none
  asset := request.filter.asset
  assetCode := none
  assetIssuer := none
  counterparty := request.filter.counterparty
  txHash := ""
  ledgerSeq := ledgerSeq
  createdAt := (ofLex position).1
  metadata := none

variable (request) in
theorem selectsTexts_witnessRow (ledgerSeq : Int) (position : Position) :
    selectsTexts request.accountId request.filter (witnessRow request ledgerSeq position) := by
  refine ⟨rfl, ?_, ?_, ?_⟩
  · intro wanted isWanted
    change (typeFilter request.filter).getD "" = wanted
    rw [show typeFilter request.filter = some wanted from isWanted, Option.getD_some]
  · exact fun wanted isWanted => isWanted
  · exact fun wanted isWanted => isWanted

/-- Requests that let the same texts through have the same conditions on them. -/
theorem texts_inj
    (same : ∀ row, selectsTexts request.accountId request.filter row ↔
      selectsTexts request'.accountId request'.filter row) :
    request.accountId = request'.accountId ∧
      typeFilter request.filter = typeFilter request'.filter ∧
      request.filter.asset = request'.filter.asset ∧
      request.filter.counterparty = request'.filter.counterparty := by
  -- Vary one text of a row that both requests let through, and keep the others.
  have found := selectsTexts_witnessRow request 0 (toLex (0, 0))
  have found' := (same _).mp found
  generalize witnessRow request 0 (toLex (0, 0)) = row at found found'
  obtain ⟨account, type, asset, counterparty⟩ := found
  obtain ⟨account', type', asset', counterparty'⟩ := found'
  refine ⟨account.symm.trans account', ?_, ?_, ?_⟩
  · apply condition_inj Function.injective_id
    intro value
    have varied := same { row with activityType := value }
    exact ⟨fun allowed => (varied.mp ⟨account, allowed, asset, counterparty⟩).2.1,
      fun allowed => (varied.mpr ⟨account', allowed, asset', counterparty'⟩).2.1⟩
  · apply condition_inj (Option.some_injective String)
    intro value
    have varied := same { row with asset := value }
    exact ⟨fun allowed => (varied.mp ⟨account, type, allowed, counterparty⟩).2.2.1,
      fun allowed => (varied.mpr ⟨account', type', allowed, counterparty'⟩).2.2.1⟩
  · apply condition_inj (Option.some_injective String)
    intro value
    have varied := same { row with counterparty := value }
    exact ⟨fun allowed => (varied.mp ⟨account, type, asset, allowed⟩).2.2.2,
      fun allowed => (varied.mpr ⟨account', type', asset', allowed⟩).2.2.2⟩

/-- Requests that find the same rows ask the same question. -/
theorem sameQuestion_iff :
    (∀ row, selects request.accountId request.filter after before row ↔
      selects request'.accountId request'.filter after' before' row) ↔
      SameQuestion request request' after before after' before' := by
  constructor
  · intro same
    have both : ∀ {ledgerSeq position},
        (selectsRange request.filter after before ledgerSeq position ∨
          selectsRange request'.filter after' before' ledgerSeq position) →
        selectsRange request.filter after before ledgerSeq position ∧
          selectsRange request'.filter after' before' ledgerSeq position := by
      rintro ledgerSeq position (range | range')
      · have found := (same (witnessRow request ledgerSeq position)).mp
          ⟨selectsTexts_witnessRow request ledgerSeq position, range⟩
        exact ⟨range, found.2⟩
      · have found := (same (witnessRow request' ledgerSeq position)).mpr
          ⟨selectsTexts_witnessRow request' ledgerSeq position, range'⟩
        exact ⟨found.2, range'⟩
    have transfer : ∀ {ledgerSeq position},
        (selectsRange request.filter after before ledgerSeq position ∨
          selectsRange request'.filter after' before' ledgerSeq position) →
        ∀ row, selectsTexts request.accountId request.filter row ↔
          selectsTexts request'.accountId request'.filter row := by
      intro ledgerSeq position found row
      obtain ⟨range, range'⟩ := both found
      -- The row with its texts, moved to where both requests look.
      have moved := same { row with
        ledgerSeq := ledgerSeq, createdAt := (ofLex position).1, id := (ofLex position).2 }
      exact ⟨fun texts => (moved.mp ⟨texts, range⟩).1, fun texts => (moved.mpr ⟨texts, range'⟩).1⟩
    by_cases anything : ∃ ledgerSeq position,
        selectsRange request.filter after before ledgerSeq position ∨
          selectsRange request'.filter after' before' ledgerSeq position
    · obtain ⟨ledgerSeq, position, found⟩ := anything
      have texts := transfer found
      obtain ⟨account, type, asset, counterparty⟩ := texts_inj texts
      refine .inl ⟨account, type, asset, counterparty, fun ledgerSeq position => ?_⟩
      have shown := selectsTexts_witnessRow request ledgerSeq position
      have row := same (witnessRow request ledgerSeq position)
      exact ⟨fun range => (row.mp ⟨shown, range⟩).2,
        fun range => (row.mpr ⟨(texts _).mp shown, range⟩).2⟩
    · push Not at anything
      exact .inr ⟨fun ledgerSeq position => (anything ledgerSeq position).1,
        fun ledgerSeq position => (anything ledgerSeq position).2⟩
  · rintro (⟨account, type, asset, counterparty, range⟩ | ⟨nothing, nothing'⟩) row
    · unfold selects selectsTexts
      unfold typeFilter at type
      rw [account, type, asset, counterparty, range]
    · exact ⟨fun found => absurd found.2 (nothing _ _), fun found => absurd found.2 (nothing' _ _)⟩

/-- A page over a table of one row. -/
theorem mem_single {row : ActivityRecord} {accountId : String} {filter : ActivityFilter}
    (page : CursorPage) :
    row ∈ (queryActivity codec [row] accountId filter (effectiveLimit page) after before).items ↔
      selects accountId filter after before row := by
  have short : (selected [row] accountId filter after before).length ≤ effectiveLimit page := by
    rw [selected, List.length_insertionSort]
    exact (List.length_filter_le _ _).trans (effectiveLimit_pos page)
  obtain ⟨items, -⟩ :=
    queryActivity_spec codec [row] accountId filter (effectiveLimit page) after before
  rw [items, List.take_of_length_le short, selected, List.mem_insertionSort,
    List.mem_filter, decide_eq_true_iff]
  simp

theorem uncached_of_ok (valid : validated codec request.page = .ok (after, before)) :
    uncached codec table request = .ok (queryActivity codec table request.accountId request.filter
      (effectiveLimit request.page) after before) := by
  simp [uncached, getAccountActivity, valid, bind, Except.bind, pure, Except.pure]

theorem uncached_of_error {error : ApiError}
    (invalid : validated codec request.page = .error error) :
    uncached codec table request = .error error := by
  simp [uncached, getAccountActivity, invalid, bind, Except.bind]

/-- Requests with one key are answered alike on every table exactly when they ask the same
question. -/
theorem same_answers_iff (plain : PlainCursors codec)
    (valid : validated codec request.page = .ok (after, before))
    (valid' : validated codec request'.page = .ok (after', before'))
    (sameKey : accountActivityCacheKey request = accountActivityCacheKey request') :
    (∀ table, uncached codec table request = uncached codec table request') ↔
      SameQuestion request request' after before after' before' := by
  obtain ⟨rfl, rfl, sameLimit⟩ := cursors_of_same_key plain valid valid' sameKey
  simp only [uncached_of_ok valid, uncached_of_ok valid', sameLimit, Except.ok.injEq]
  rw [← sameQuestion_iff]
  constructor
  · intro same row
    have items := congrArg (fun page => row ∈ page.items) (same [row])
    rw [mem_single, mem_single] at items
    exact items.to_iff
  · intro same table
    have rows : selected table request.accountId request.filter after before =
        selected table request'.accountId request'.filter after before := by
      unfold selected
      congr 1
      exact List.filter_congr fun row _ => decide_eq_decide.mpr (same row)
    unfold queryActivity
    rw [rows]

end Question

/-! ## Reads through the cache -/

/-- If the two requests have one key, they ask the same question. -/
def Coherent (codec : CursorCodec) (request request' : ActivityRequest) : Prop :=
  ∀ after before after' before', validated codec request.page = .ok (after, before) →
    validated codec request'.page = .ok (after', before') →
    accountActivityCacheKey request = accountActivityCacheKey request' →
    SameQuestion request request' after before after' before'

/-- Every entry is the answer to one of the requests, kept under its key. -/
def Answers (codec : CursorCodec) (table : List ActivityRecord) (requests : List ActivityRequest)
    (cache : ResponseCache) : Prop :=
  ∀ entry ∈ cache, ∃ request ∈ requests, entry.key = accountActivityCacheKey request ∧
    uncached codec table request = .ok entry.page

section Reads

variable {codec : CursorCodec} {table : List ActivityRecord} {requests : List ActivityRequest}
  {cache after : ResponseCache} {key : String} {now : Nat}

theorem lookup_subset {result : Option PageResult}
    (found : cache.lookup key now = (result, after)) :
    ∀ entry ∈ after, entry ∈ cache := by
  unfold ResponseCache.lookup at found
  split at found
  · cases found
    exact fun entry => id
  · rename_i hit isHit
    split at found
    · cases found
      exact fun entry member => List.mem_of_mem_filter member
    · cases found
      intro entry member
      rcases List.mem_cons.mp member with rfl | other
      · exact List.mem_of_find?_eq_some isHit
      · exact List.mem_of_mem_filter other

theorem lookup_hit {page : PageResult} (found : cache.lookup key now = (some page, after)) :
    ∃ entry ∈ cache, entry.key = key ∧ entry.page = page := by
  unfold ResponseCache.lookup at found
  split at found
  · cases found
  · rename_i hit isHit
    split at found
    · cases found
    · cases found
      have isKey := List.find?_some isHit
      exact ⟨hit, List.mem_of_find?_eq_some isHit, of_decide_eq_true isKey, rfl⟩

theorem mem_store {page : PageResult} {entry : CacheEntry}
    (member : entry ∈ cache.store key page now) :
    entry ∈ cache ∨ entry.key = key ∧ entry.page = page := by
  rcases List.mem_cons.mp (List.mem_of_mem_take member) with rfl | other
  · exact .inr ⟨rfl, rfl⟩
  · exact .inl (List.mem_of_mem_filter other)

theorem validated_of_uncached {request : ActivityRequest} {page : PageResult}
    (answered : uncached codec table request = .ok page) :
    ∃ after before, validated codec request.page = .ok (after, before) := by
  cases valid : validated codec request.page with
  | ok cursors => exact ⟨cursors.1, cursors.2, rfl⟩
  | error error =>
    rw [uncached_of_error valid] at answered
    cases answered

/-- One read: the answer is the uncached one, and the cache keeps holding answers. -/
theorem cachedActivity_transparent {read : TimedRequest} (plain : PlainCursors codec)
    (answers : Answers codec table requests cache) (asked : read.request ∈ requests)
    (coherent : ∀ request ∈ requests, Coherent codec request read.request) :
    (cachedActivity codec table cache read).1 = uncached codec table read.request ∧
      Answers codec table requests (cachedActivity codec table cache read).2 := by
  cases valid : validated codec read.request.page with
  | error error =>
    simp only [cachedActivity, valid]
    exact ⟨(uncached_of_error valid).symm, answers⟩
  | ok cursors =>
    obtain ⟨afterCursor, beforeCursor⟩ := cursors
    cases found : cache.lookup (accountActivityCacheKey read.request) read.asked with
    | mk result touched =>
      have kept : Answers codec table requests touched := fun entry member =>
        answers entry (lookup_subset found entry member)
      cases result with
      | some page =>
        simp only [cachedActivity, valid, found]
        refine ⟨?_, kept⟩
        obtain ⟨entry, member, isKey, rfl⟩ := lookup_hit found
        obtain ⟨request, inRequests, sameKey, answered⟩ := answers entry member
        obtain ⟨_, _, validEarlier⟩ := validated_of_uncached answered
        have isSame := sameKey.symm.trans isKey
        rw [← answered]
        exact (same_answers_iff plain validEarlier valid isSame).mpr
          (coherent request inRequests _ _ _ _ validEarlier valid isSame) table
      | none =>
        simp only [cachedActivity, valid, found]
        refine ⟨(uncached_of_ok valid).symm, ?_⟩
        intro entry member
        rcases mem_store member with earlier | ⟨isKey, isPage⟩
        · exact kept entry earlier
        · exact ⟨read.request, asked, isKey, by rw [isPage, uncached_of_ok valid]⟩

theorem cachedReads_transparent (requests : List ActivityRequest) (plain : PlainCursors codec)
    {reads : List TimedRequest}
    (answers : Answers codec table requests cache)
    (asked : ∀ read ∈ reads, read.request ∈ requests)
    (coherent : ∀ read ∈ reads, ∀ request ∈ requests, Coherent codec request read.request) :
    cachedReads codec table cache reads =
      reads.map fun read => uncached codec table read.request := by
  induction reads generalizing cache with
  | nil => rfl
  | cons read reads inductionHypothesis =>
    rw [List.forall_mem_cons] at asked coherent
    obtain ⟨answer, stillAnswers⟩ :=
      cachedActivity_transparent plain answers asked.1 coherent.1
    rw [cachedReads, List.map_cons, ← answer]
    exact congrArg _ (inductionHypothesis stillAnswers asked.2 coherent.2)

end Reads

/-- A codec that knows no cursor. -/
def refusingCodec : CursorCodec where
  encode _ := ""
  decode _ := .error (.invalidCursor "Invalid base64 encoding")

theorem refusingCodec_plain : PlainCursors refusingCodec := by
  intro text position decoded
  cases decoded

/-- The first page for an asset, or for all of them. -/
def sampleRequest (asset : Option String) : ActivityRequest where
  accountId := "GA"
  filter := { noFilter with asset := asset }
  page := ⟨none, none, none⟩

/-- The same request twice. -/
def sampleReads : List TimedRequest :=
  [⟨sampleRequest (some "native"), 0, 1⟩, ⟨sampleRequest (some "native"), 2, 3⟩]

end Ancore.Indexer
