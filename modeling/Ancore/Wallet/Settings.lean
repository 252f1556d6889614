import Ancore.Approvals.Handlers
import Ancore.Library.JsonText
import Ancore.Stellar.HorizonUrl

/-! # The settings store

Network and Horizon server are set by different operations and come back from storage together,
where anything may stand.  Whatever the operations and the stored data are, the server is one of
the network.
-/

namespace Ancore.Wallet.Settings

open Library.EcmaScript
open Approvals (NetworkMode)
open Stellar (Network Platform isValidHorizonUrl validateHorizonUrl HorizonUrlValidationError)

inductive ThemePreference where
  | light
  | dark
  | system

inductive NotificationCategory where
  | sent
  | received
  | failed
  | security

def NotificationCategory.name : NotificationCategory → JsString
  | sent => ascii "sent"
  | received => ascii "received"
  | failed => ascii "failed"
  | security => ascii "security"

/-- A number is none where it is not a number.  Any data may come back from storage as the
preferences of notifications.  `shadowed` are the names that stored data put values under: an
operation of such a name is gone. -/
structure SettingsState where
  network : NetworkMode
  horizonUrl : JsString
  theme : ThemePreference
  autoLockMinutes : Option JsNumber
  requirePasswordForSensitiveActions : Bool
  notificationPreferences : JsonValue
  dailyTransferLimit : Option JsNumber
  transferStepUpThreshold : Option JsNumber
  enableLockShortcut : Bool
  telemetryOptIn : Bool
  shadowed : List JsString

/-- The network as one of those that URLs are held against. -/
def profileOf : NetworkMode → Network
  | .mainnet => .mainnet
  | .testnet => .testnet
  | .futurenet => .futurenet

/-- `NETWORK_HORIZON_URLS` -/
def networkHorizonUrl : NetworkMode → JsString
  | .mainnet => ascii "https://horizon.stellar.org"
  | .testnet => ascii "https://horizon-testnet.stellar.org"
  | .futurenet => ascii "https://horizon-futurenet.stellar.org"

def numberOfNat (number : ℕ) : JsNumber := .nearest false number

/-- `DEFAULTS` -/
def defaults : SettingsState where
  network := .testnet
  horizonUrl := networkHorizonUrl .testnet
  theme := .dark
  autoLockMinutes := some (numberOfNat 15)
  requirePasswordForSensitiveActions := true
  notificationPreferences :=
    .object ([.sent, .received, .failed, .security].map fun category : NotificationCategory =>
      (category.name, .bool true))
  dailyTransferLimit := some (numberOfNat 1000)
  transferStepUpThreshold := some (numberOfNat 250)
  enableLockShortcut := true
  telemetryOptIn := false
  shadowed := []

/-! ## Numbers -/

/-- The value of a finite number. -/
def finiteValue : JsNumber → Option ℚ
  | .infinite _ => none
  | .finite negative magnitude => some (if negative then -magnitude.value else magnitude.value)

/-- `number >= 0` -/
def isNonnegative : JsNumber → Bool
  | .infinite negative => !negative
  | .finite negative magnitude => !negative || magnitude.units = 0

/-! ## Operations -/

inductive SettingsError where
  | horizonUrl (error : HorizonUrlValidationError)
  | range (message : JsString)
  | notAFunction (name : JsString)

variable (platform : Platform)

def setNetwork (network : NetworkMode) (state : SettingsState) : SettingsState :=
  { state with network := network, horizonUrl := networkHorizonUrl network }

def setHorizonUrl (url : JsString) (state : SettingsState) : Except SettingsError SettingsState :=
  match validateHorizonUrl platform url (profileOf state.network) with
  | .error error => .error (.horizonUrl error)
  | .ok () => .ok { state with horizonUrl := url }

/-- A number is given with its text, which is in the message. -/
def setAutoLockMinutes (autoLockMinutes : Option JsNumber) (text : JsString)
    (state : SettingsState) : Except SettingsError SettingsState :=
  if (autoLockMinutes.bind finiteValue).all fun value => value < 1 || 1440 < value then
    .error (.range (ascii "autoLockMinutes must be a number between 1 and 1440, got " ++ text))
  else .ok { state with autoLockMinutes := autoLockMinutes }

def indexKey (index : ℕ) : JsString := ascii (toString index)

/-- The properties that `{ ...value }` has. -/
def spread : JsonValue → List (JsString × JsonValue)
  | .object members => members
  | .array items => items.mapIdx fun index item => (indexKey index, item)
  | .string text => text.mapIdx fun index unit => (indexKey index, .string [unit])
  | _ => []

def setNotificationPreference (category : NotificationCategory) (enabled : Bool)
    (state : SettingsState) : SettingsState :=
  { state with
    notificationPreferences :=
      .object (objectOf
        (spread state.notificationPreferences ++ [(category.name, .bool enabled)])) }

def reset (state : SettingsState) : SettingsState := { defaults with shadowed := state.shadowed }

/-! ## Stored data -/

def networkOf (text : JsString) : Option NetworkMode :=
  if text = ascii "mainnet" then some .mainnet
  else if text = ascii "testnet" then some .testnet
  else if text = ascii "futurenet" then some .futurenet
  else none

def themeOf (text : JsString) : Option ThemePreference :=
  if text = ascii "light" then some .light
  else if text = ascii "dark" then some .dark
  else if text = ascii "system" then some .system
  else none

/-- What stored data has under a name; only objects have names. -/
def persistedProperty (persisted : Option JsonValue) (name : String) : Option JsonValue :=
  match persisted with
  | some (.object members) => (members.find? fun member => member.1 = ascii name).map Prod.snd
  | _ => none

def stringOf : Option JsonValue → Option JsString
  | some (.string text) => some text
  | _ => none

def booleanOf : Option JsonValue → Option Bool
  | some (.bool value) => some value
  | _ => none

def nonnegativeOf : Option JsonValue → Option JsNumber
  | some (.number value) => if isNonnegative value then some value else none
  | _ => none

def namesOf : Option JsonValue → List JsString
  | some (.object members) => members.map Prod.fst
  | _ => []

/-- The network that stored data stands for, else the last one that was set, else the default. -/
def validNetwork (cachedLastSuccessfulNetwork : Option NetworkMode)
    (persisted : Option JsonValue) : NetworkMode :=
  ((stringOf (persistedProperty persisted "network")).bind networkOf).getD
    (cachedLastSuccessfulNetwork.getD defaults.network)

def merge (cachedLastSuccessfulNetwork : Option NetworkMode) (persisted : Option JsonValue)
    (currentState : SettingsState) : SettingsState :=
  let network := validNetwork cachedLastSuccessfulNetwork persisted
  let candidateUrl :=
    ((stringOf (persistedProperty persisted "horizonUrl")).filter fun url => url ≠ []).getD
      (networkHorizonUrl network)
  { network := network
    horizonUrl :=
      if isValidHorizonUrl platform candidateUrl (profileOf network) then candidateUrl
      else networkHorizonUrl network
    theme := ((stringOf (persistedProperty persisted "theme")).bind themeOf).getD defaults.theme
    autoLockMinutes :=
      (nonnegativeOf (persistedProperty persisted "autoLockMinutes")).or defaults.autoLockMinutes
    requirePasswordForSensitiveActions :=
      (booleanOf (persistedProperty persisted "requirePasswordForSensitiveActions")).getD
        defaults.requirePasswordForSensitiveActions
    notificationPreferences :=
      (persistedProperty persisted "notificationPreferences").getD
        currentState.notificationPreferences
    dailyTransferLimit :=
      (nonnegativeOf (persistedProperty persisted "dailyTransferLimit")).or
        defaults.dailyTransferLimit
    transferStepUpThreshold :=
      (nonnegativeOf (persistedProperty persisted "transferStepUpThreshold")).or
        defaults.transferStepUpThreshold
    enableLockShortcut :=
      (booleanOf (persistedProperty persisted "enableLockShortcut")).getD
        defaults.enableLockShortcut
    telemetryOptIn :=
      (booleanOf (persistedProperty persisted "telemetryOptIn")).getD defaults.telemetryOptIn
    shadowed := currentState.shadowed ++ namesOf persisted }

/-! ## Runs -/

/-- The settings, with the network that was last read from its own place in storage. -/
structure SettingsStore where
  settings : SettingsState
  cachedLastSuccessfulNetwork : Option NetworkMode

/-- An operation of the store; what stands in storage is read before a rehydration, and may be read
for another one in between. -/
inductive SettingsCall where
  | setNetwork (network : NetworkMode)
  | setHorizonUrl (url : JsString)
  | setTheme (theme : ThemePreference)
  | setAutoLockMinutes (minutes : Option JsNumber) (text : JsString)
  | setRequirePasswordForSensitiveActions (value : Bool)
  | setNotificationPreference (category : NotificationCategory) (enabled : Bool)
  | setDailyTransferLimit (amount : Option JsNumber)
  | setTransferStepUpThreshold (amount : Option JsNumber)
  | setEnableLockShortcut (value : Bool)
  | setTelemetryOptIn (value : Bool)
  | reset
  | loadLastSuccessfulNetwork (saved : Option JsString)
  | rehydrate (persistedState : Option JsonValue)

/-- The property of the state that is called. -/
def SettingsCall.action : SettingsCall → Option JsString
  | setNetwork _ => some (ascii "setNetwork")
  | setHorizonUrl _ => some (ascii "setHorizonUrl")
  | setTheme _ => some (ascii "setTheme")
  | setAutoLockMinutes _ _ => some (ascii "setAutoLockMinutes")
  | setRequirePasswordForSensitiveActions _ => some (ascii "setRequirePasswordForSensitiveActions")
  | setNotificationPreference _ _ => some (ascii "setNotificationPreference")
  | setDailyTransferLimit _ => some (ascii "setDailyTransferLimit")
  | setTransferStepUpThreshold _ => some (ascii "setTransferStepUpThreshold")
  | setEnableLockShortcut _ => some (ascii "setEnableLockShortcut")
  | setTelemetryOptIn _ => some (ascii "setTelemetryOptIn")
  | reset => some (ascii "reset")
  | loadLastSuccessfulNetwork _ => none
  | rehydrate _ => none

def SettingsStore.put (store : SettingsStore) (settings : SettingsState) : SettingsStore :=
  { store with settings := settings }

def SettingsCall.perform (store : SettingsStore) : SettingsCall → Except SettingsError SettingsStore
  | setNetwork network => .ok (store.put (Settings.setNetwork network store.settings))
  | setHorizonUrl url => (Settings.setHorizonUrl platform url store.settings).map store.put
  | setTheme theme => .ok (store.put { store.settings with theme := theme })
  | setAutoLockMinutes minutes text =>
    (Settings.setAutoLockMinutes minutes text store.settings).map store.put
  | setRequirePasswordForSensitiveActions value =>
    .ok (store.put { store.settings with requirePasswordForSensitiveActions := value })
  | setNotificationPreference category enabled =>
    .ok (store.put (Settings.setNotificationPreference category enabled store.settings))
  | setDailyTransferLimit amount =>
    .ok (store.put { store.settings with dailyTransferLimit := amount })
  | setTransferStepUpThreshold amount =>
    .ok (store.put { store.settings with transferStepUpThreshold := amount })
  | setEnableLockShortcut value =>
    .ok (store.put { store.settings with enableLockShortcut := value })
  | setTelemetryOptIn value => .ok (store.put { store.settings with telemetryOptIn := value })
  | reset => .ok (store.put (Settings.reset store.settings))
  | loadLastSuccessfulNetwork saved =>
    .ok { store with cachedLastSuccessfulNetwork := saved.bind networkOf }
  | rehydrate persistedState =>
    .ok (store.put
      (merge platform store.cachedLastSuccessfulNetwork persistedState store.settings))

/-- A call that throws changes nothing, and so does one of a property that is no operation any
more. -/
def SettingsCall.next (store : SettingsStore) (call : SettingsCall) : SettingsStore :=
  if call.action.any fun name => name ∈ store.settings.shadowed then store
  else
    match call.perform platform store with
    | .ok store => store
    | .error _ => store

def storeAfter (calls : List SettingsCall) : SettingsStore :=
  calls.foldl (SettingsCall.next platform) ⟨defaults, none⟩

/-! ## The server is one of the network -/

/-- The Horizon server passes the rules of the network. -/
def SettingsState.AtHome (settings : SettingsState) : Prop :=
  isValidHorizonUrl platform settings.horizonUrl (profileOf settings.network) = true

/-- The server that a network has by default is one of it. -/
theorem isValid_networkHorizonUrl (network : NetworkMode) :
    isValidHorizonUrl platform (networkHorizonUrl network) (profileOf network) = true := by
  have isAscii : ∀ unit ∈ networkHorizonUrl network, unit < 128 := by
    cases network <;> decide
  have trimmed : (networkHorizonUrl network).trim = networkHorizonUrl network := by
    cases network <;> decide
  rw [Stellar.isValidHorizonUrl_iff, trimmed, platform.toLowerCase_ascii isAscii]
  cases network with
  | mainnet =>
    refine ⟨by decide, ⟨ascii "https:", ascii "horizon.stellar.org"⟩,
      platform.newURL_horizon (by decide), ?_⟩
    constructor <;> decide
  | testnet =>
    refine ⟨by decide, ⟨ascii "https:", ascii "horizon-testnet.stellar.org"⟩,
      platform.newURL_horizon (by decide), ?_⟩
    constructor <;> decide
  | futurenet =>
    refine ⟨by decide, ⟨ascii "https:", ascii "horizon-futurenet.stellar.org"⟩,
      platform.newURL_horizon (by decide), ?_⟩
    constructor <;> decide

/-- Settings with the network and the server of others that are at home. -/
theorem SettingsState.AtHome.of_same {settings settings' : SettingsState}
    (home : settings.AtHome platform) (network : settings'.network = settings.network)
    (horizonUrl : settings'.horizonUrl = settings.horizonUrl) : settings'.AtHome platform := by
  unfold AtHome
  rw [network, horizonUrl]
  exact home

theorem atHome_setHorizonUrl {url : JsString} {state state' : SettingsState}
    (done : setHorizonUrl platform url state = .ok state') : state'.AtHome platform := by
  unfold setHorizonUrl at done
  cases valid : validateHorizonUrl platform url (profileOf state.network) with
  | error error =>
    rw [valid] at done
    cases done
  | ok passed =>
    rw [valid] at done
    cases done
    simp only [SettingsState.AtHome, isValidHorizonUrl, valid]

/-- Stored data brings its server only where it is one of the network that is taken. -/
theorem atHome_merge (cachedLastSuccessfulNetwork : Option NetworkMode)
    (persisted : Option JsonValue) (currentState : SettingsState) :
    (merge platform cachedLastSuccessfulNetwork persisted currentState).AtHome platform := by
  unfold SettingsState.AtHome
  dsimp only [merge]
  split_ifs with valid
  · exact valid
  · exact isValid_networkHorizonUrl platform _

theorem eq_ok_of_map_put {store store' : SettingsStore}
    {attempt : Except SettingsError SettingsState}
    (done : attempt.map store.put = .ok store') : attempt = .ok store'.settings := by
  cases attempt with
  | error error => cases done
  | ok settings =>
    cases done
    rfl

theorem atHome_perform {store store' : SettingsStore} {call : SettingsCall}
    (home : store.settings.AtHome platform) (done : call.perform platform store = .ok store') :
    store'.settings.AtHome platform := by
  cases call with
  | setNetwork network =>
    cases done
    exact isValid_networkHorizonUrl platform network
  | setHorizonUrl url =>
    exact atHome_setHorizonUrl platform (eq_ok_of_map_put done)
  | setAutoLockMinutes minutes text =>
    have accepted := eq_ok_of_map_put done
    unfold Settings.setAutoLockMinutes at accepted
    split_ifs at accepted
    injection accepted with changed
    exact home.of_same platform (by rw [← changed]) (by rw [← changed])
  | reset =>
    cases done
    exact isValid_networkHorizonUrl platform .testnet
  | rehydrate persistedState =>
    cases done
    exact atHome_merge platform _ _ _
  | loadLastSuccessfulNetwork saved =>
    cases done
    exact home
  | setTheme | setRequirePasswordForSensitiveActions | setNotificationPreference
  | setDailyTransferLimit | setTransferStepUpThreshold | setEnableLockShortcut
  | setTelemetryOptIn =>
    cases done
    exact home.of_same platform rfl rfl

theorem atHome_next {store : SettingsStore} (call : SettingsCall)
    (home : store.settings.AtHome platform) :
    (call.next platform store).settings.AtHome platform := by
  unfold SettingsCall.next
  split_ifs
  · exact home
  · cases done : call.perform platform store with
    | ok store' => exact atHome_perform platform home done
    | error error => exact home

theorem atHome_foldl {store : SettingsStore} (calls : List SettingsCall)
    (home : store.settings.AtHome platform) :
    (calls.foldl (SettingsCall.next platform) store).settings.AtHome platform := by
  induction calls generalizing store with
  | nil => exact home
  | cons call calls ih => exact ih (atHome_next platform call home)

/-- After any calls and rehydrations the Horizon server is one of the network. -/
theorem settings_at_home (calls : List SettingsCall) :
    isValidHorizonUrl platform (storeAfter platform calls).settings.horizonUrl
      (profileOf (storeAfter platform calls).settings.network) = true :=
  atHome_foldl platform calls (isValid_networkHorizonUrl platform .testnet)

/-- The network is switched, a server of testnet is refused, and storage comes back with the server
of mainnet for futurenet. -/
def mixedCalls : List SettingsCall :=
  [.setNetwork .mainnet, .setHorizonUrl (ascii "https://horizon-testnet.stellar.org"),
    .rehydrate (some (.object [(ascii "network", .string (ascii "futurenet")),
      (ascii "horizonUrl", .string (ascii "https://horizon.stellar.org"))]))]

theorem settings_at_home_mixedCalls :
    isValidHorizonUrl Stellar.plainPlatform
      (storeAfter Stellar.plainPlatform mixedCalls).settings.horizonUrl
      (profileOf (storeAfter Stellar.plainPlatform mixedCalls).settings.network) = true :=
  settings_at_home Stellar.plainPlatform mixedCalls

end Ancore.Wallet.Settings
