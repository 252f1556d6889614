import Ancore.Library.CodeUnits

/-! # Horizon servers

The URL of a Horizon server is held against the profile of a network: the scheme, the host, and
words that belong to another network.
-/

namespace Ancore.Stellar

open Library Library.EcmaScript

inductive Network where
  | mainnet
  | testnet
  | futurenet
  | localhost
  deriving DecidableEq

def Network.name : Network → JsString
  | mainnet => ascii "mainnet"
  | testnet => ascii "testnet"
  | futurenet => ascii "futurenet"
  | localhost => ascii "local"

/-- The parts of a parsed URL that are looked at. -/
structure Url where
  protocol : JsString
  hostname : JsString
  deriving DecidableEq

def asciiLower (unit : ℕ) : ℕ := if 0x41 ≤ unit ∧ unit ≤ 0x5A then unit + 0x20 else unit

def horizonHosts : List JsString :=
  [ascii "horizon.stellar.org", ascii "horizon-testnet.stellar.org",
    ascii "horizon-futurenet.stellar.org"]

/-- `new URL(text)`, where it does not throw, and `text.toLowerCase()`.  Of the parser it is used
that it finds scheme and host of the official servers, of the lower case what it does to ASCII. -/
structure Platform where
  newURL : JsString → Option Url
  toLowerCase : JsString → JsString
  newURL_horizon {host : JsString} (official : host ∈ horizonHosts) :
    newURL (ascii "https://" ++ host) = some ⟨ascii "https:", host⟩
  toLowerCase_ascii {text : JsString} (isAscii : ∀ unit ∈ text, unit < 128) :
    toLowerCase text = text.map asciiLower

inductive HorizonUrlErrorCode where
  | invalidUrl
  | invalidScheme
  | invalidHostname
  | networkMismatch
  | localhostNotAllowed

structure HorizonUrlValidationError where
  code : HorizonUrlErrorCode
  message : JsString
  url : JsString
  network : Network

/-! ## Profiles -/

/-- A host, or `/^start[letters]+stop$/`. -/
inductive HostPattern where
  | exact (host : JsString)
  | between (start stop : JsString) (letters : ℕ → Bool)

def HostPattern.test (hostname : JsString) : HostPattern → Bool
  | exact host => hostname = host
  | between start stop letters =>
    let middle := (hostname.drop start.length).take (hostname.length - start.length - stop.length)
    start.isPrefixOf hostname && stop.isSuffixOf hostname && middle ≠ [] && middle.all letters

def isDigit (unit : ℕ) : Bool := 0x30 ≤ unit && unit ≤ 0x39

/-- `[a-z0-9-]` -/
def isHostLetter (unit : ℕ) : Bool := (0x61 ≤ unit && unit ≤ 0x7A) || isDigit unit || unit = 0x2D

/-- A scheme and a host of lower case letters, without a port or a path. -/
def plainUrl (text : JsString) : Option Url :=
  [ascii "https:", ascii "http:"].findSome? fun protocol =>
    let start := protocol ++ ascii "//"
    let hostname := text.drop start.length
    if start.isPrefixOf text && hostname ≠ [] &&
        hostname.all (fun unit => isHostLetter unit || unit = 0x2E) then some ⟨protocol, hostname⟩
    else none

def plainPlatform : Platform where
  newURL := plainUrl
  toLowerCase text := text.map asciiLower
  newURL_horizon {host} official := by
    simp only [horizonHosts, List.mem_cons, List.not_mem_nil, or_false] at official
    rcases official with rfl | rfl | rfl <;> decide
  toLowerCase_ascii _ := rfl

structure NetworkProfile where
  allowedHosts : List HostPattern
  requireHttps : Bool
  allowLocalhost : Bool

/-- `NETWORK_PROFILES` -/
def networkProfile : Network → NetworkProfile
  | .mainnet =>
    { allowedHosts := [.exact (ascii "horizon.stellar.org"),
        .between (ascii "horizon-") (ascii ".stellar.org") isHostLetter]
      requireHttps := true
      allowLocalhost := false }
  | .testnet =>
    { allowedHosts := [.exact (ascii "horizon-testnet.stellar.org"),
        .between (ascii "horizon-testnet-") (ascii ".stellar.org") isHostLetter]
      requireHttps := true
      allowLocalhost := false }
  | .futurenet =>
    { allowedHosts := [.exact (ascii "horizon-futurenet.stellar.org"),
        .between (ascii "horizon-futurenet-") (ascii ".stellar.org") isHostLetter]
      requireHttps := true
      allowLocalhost := false }
  | .localhost =>
    { allowedHosts := [.exact (ascii "localhost"), .exact (ascii "127.0.0.1"),
        .between (ascii "localhost:") [] isDigit, .between (ascii "127.0.0.1:") [] isDigit]
      requireHttps := false
      allowLocalhost := true }

/-- `/word/i`, or `/word(?!next)/i`. -/
structure WordPattern where
  word : JsString
  next : Option JsString

def WordPattern.test (text : JsString) (pattern : WordPattern) : Bool :=
  (text.map asciiLower).tails.any fun rest =>
    pattern.word.isPrefixOf rest &&
      !(pattern.next.any fun next => next.isPrefixOf (rest.drop pattern.word.length))

def networkMismatchPatterns : Network → List WordPattern
  | .mainnet => [⟨ascii "testnet", none⟩, ⟨ascii "futurenet", none⟩]
  | .testnet => [⟨ascii "futurenet", none⟩]
  | .futurenet => [⟨ascii "testnet", some (ascii "net")⟩]
  | .localhost => []

def knownMainnetHostnames : List JsString := [ascii "horizon.stellar.org"]

def knownTestnetHostnames : List JsString := [ascii "horizon-testnet.stellar.org"]

def knownFuturenetHostnames : List JsString := [ascii "horizon-futurenet.stellar.org"]

/-- The host is that of another network's official server. -/
def isKnownOtherNetwork (network : Network) (hostname : JsString) : Bool :=
  (network ≠ .mainnet && hostname ∈ knownMainnetHostnames) ||
    (network ≠ .testnet && hostname ∈ knownTestnetHostnames) ||
    (network ≠ .futurenet && hostname ∈ knownFuturenetHostnames)

def hasKeywordMismatch (network : Network) (urlLower : JsString) : Bool :=
  (networkMismatchPatterns network).any fun pattern => pattern.test urlLower

def isAllowed (network : Network) (hostname : JsString) : Bool :=
  (networkProfile network).allowedHosts.any fun pattern => pattern.test hostname

/-! ## Validation -/

variable (platform : Platform)

def validateHorizonUrl (url : JsString) (network : Network) :
    Except HorizonUrlValidationError Unit :=
  let failed (code : HorizonUrlErrorCode) (message : JsString) :
      Except HorizonUrlValidationError Unit := .error ⟨code, message, url, network⟩
  if url = [] then failed .invalidUrl (ascii "URL must be a non-empty string")
  else if url.trim = [] then failed .invalidUrl (ascii "URL must not be empty")
  else
    match platform.newURL url.trim with
    | none => failed .invalidUrl (ascii "Invalid URL format: \"" ++ url ++ ascii "\"")
    | some parsed =>
      let profile := networkProfile network
      if !profile.allowLocalhost && parsed.hostname ∈ [ascii "localhost", ascii "127.0.0.1"] then
        failed .localhostNotAllowed (ascii "Localhost is not allowed for " ++ network.name)
      else if profile.requireHttps && parsed.protocol ≠ ascii "https:" then
        failed .invalidScheme (ascii "HTTPS is required for " ++ network.name ++
          ascii ", got \"" ++ parsed.protocol ++ ascii "\"")
      else if isKnownOtherNetwork network parsed.hostname ||
          hasKeywordMismatch network (platform.toLowerCase url.trim) then
        failed .networkMismatch
          (ascii "URL appears to belong to a different network than " ++ network.name)
      else if !isAllowed network parsed.hostname then
        failed .invalidHostname (ascii "Hostname \"" ++ parsed.hostname ++
          ascii "\" is not allowed for " ++ network.name)
      else .ok ()

def isValidHorizonUrl (url : JsString) (network : Network) : Bool :=
  match validateHorizonUrl platform url network with
  | .ok () => true
  | .error _ => false

/-- The rules of a network for a parsed URL and its text in lower case. -/
structure Passes (network : Network) (parsed : Url) (urlLower : JsString) : Prop where
  remote : (networkProfile network).allowLocalhost = true ∨
    parsed.hostname ∉ [ascii "localhost", ascii "127.0.0.1"]
  secure : (networkProfile network).requireHttps = false ∨ parsed.protocol = ascii "https:"
  own : isKnownOtherNetwork network parsed.hostname = false
  words : hasKeywordMismatch network urlLower = false
  allowed : isAllowed network parsed.hostname = true

variable {platform}

theorem isValidHorizonUrl_iff {url : JsString} {network : Network} :
    isValidHorizonUrl platform url network = true ↔
      url.trim ≠ [] ∧ ∃ parsed, platform.newURL url.trim = some parsed ∧
        Passes network parsed (platform.toLowerCase url.trim) := by
  have validated : isValidHorizonUrl platform url network = true ↔
      validateHorizonUrl platform url network = .ok () := by
    unfold isValidHorizonUrl
    cases validateHorizonUrl platform url network <;> simp
  rw [validated]
  unfold validateHorizonUrl
  dsimp only
  constructor
  · intro ok
    split_ifs at ok with empty blank
    cases parsed : platform.newURL url.trim with
    | none =>
      rw [parsed] at ok
      cases ok
    | some parts =>
      rw [parsed] at ok
      dsimp only at ok
      split_ifs at ok with atLocalhost insecure foreign refused
      rw [Bool.or_eq_true, not_or] at foreign
      refine ⟨blank, parts, rfl, ?_, ?_, ?_, ?_, ?_⟩
      · by_cases permitted : (networkProfile network).allowLocalhost = true
        · exact .inl permitted
        · exact .inr (by simpa [permitted] using atLocalhost)
      · by_cases free : (networkProfile network).requireHttps = false
        · exact .inl free
        · exact .inr (by simpa [free] using insecure)
      · exact Bool.eq_false_iff.mpr foreign.1
      · exact Bool.eq_false_iff.mpr foreign.2
      · simpa using refused
  · rintro ⟨filled, parts, parsed, passes⟩
    have notEmpty : url ≠ [] := by
      rintro rfl
      exact filled rfl
    rw [if_neg notEmpty, if_neg filled, parsed]
    dsimp only
    have remote := passes.remote
    have secure := passes.secure
    rw [if_neg, if_neg, passes.own, passes.words, passes.allowed]
    · rfl
    · rcases secure with free | https
      · simp [free]
      · simp [https]
    · rcases remote with free | other
      · simp [free]
      · simpa using fun _ => other

end Ancore.Stellar
