import Ancore.Library.Replacing
import Ancore.Library.UnitClasses

/-! # Redaction of secrets

`redactSecrets` takes secrets out of a text that is logged: three expressions between word
boundaries, one after the other.  A secret beside a letter, a digit or an underscore is no word of
its own, and none of the expressions sees it.
-/

namespace Ancore.Agent

open Ancore.Library Ancore.Library.EcmaScript Ancore.Library.EcmaScript.JsString
open Ancore.Library.RegExp

/-! ## Expressions -/

/-- `[A-Z2-7]` -/
def isBase32 (unit : ℕ) : Bool := isUpper unit || (0x32 ≤ unit && unit ≤ 0x37)

def redacted : JsString := ascii "[REDACTED]"

/-- `/\bS[A-Z2-7]{55}\b/g` -/
def stellarSecretKey : RegExp ℕ :=
  .sequence (.letter fun unit => unit = 0x53) (.times 55 (.letter isBase32))

/-- `[A-Za-z0-9_-]` -/
def keyUnit : RegExp ℕ := .letter fun unit => isWord unit || unit = 0x2D

/-- `[A-Za-z0-9-]` -/
def slackUnit : RegExp ℕ := .letter fun unit => isAlphanumeric unit || unit = 0x2D

/-- `[A-Za-z0-9._-]` -/
def bearerUnit : RegExp ℕ := .letter fun unit => isWord unit || unit = 0x2E || unit = 0x2D

def spaceUnits : RegExp ℕ := .atLeast 1 (.letter isWhiteSpace)

/-- What `API_KEY_RE` has between its boundaries. -/
def apiKey : RegExp ℕ :=
  .either (spelled "sk-ant-" (.atLeast 10 keyUnit)) <|
  .either (spelled "sk-" (.atLeast 16 keyUnit)) <|
  .either (spelled "gh" (.sequence (oneOf "oprsu")
    (spelled "_" (.atLeast 20 (.letter isAlphanumeric))))) <|
  .either (spelled "xox" (.sequence (oneOf "abp") (spelled "-" (.atLeast 10 slackUnit)))) <|
  .either (spelled "akia" (.times 16 (.letter isAlphanumeric)))
    (spelled "bearer" (.sequence spaceUnits (.atLeast 10 bearerUnit)))

/-- `[a-z]{3,10}` -/
def phraseWord : RegExp ℕ := .between 3 10 (.letter isLetter)

/-- What `SEED_PHRASE_RE` has between its boundaries. -/
def seedPhrase : RegExp ℕ :=
  .sequence (.atLeast 11 (.sequence phraseWord spaceUnits)) phraseWord

def stellarSecretKeyRe : RegExp ℕ := .bounded isWord stellarSecretKey

def apiKeyRe : RegExp ℕ := .bounded isWord apiKey

def seedPhraseRe : RegExp ℕ := .bounded isWord seedPhrase

def redactSecrets (text : JsString) : JsString :=
  if text = [] then text
  else
    seedPhraseRe.replaceAll redacted
      (apiKeyRe.replaceAll redacted (stellarSecretKeyRe.replaceAll redacted text))

/-! ## Secrets -/

/-- The words of BIP-39 have three to eight small letters. -/
structure IsMnemonicWord (word : JsString) : Prop where
  least : 3 ≤ word.length
  most : word.length ≤ 8
  letters : ∀ unit ∈ word, isLower unit = true

/-- A seed, or twelve or more words that white space separates. -/
inductive IsSecret : JsString → Prop where
  | seed (letters : JsString) (length : letters.length = 55)
    (base32 : ∀ unit ∈ letters, isBase32 unit = true) : IsSecret (0x53 :: letters)
  | phrase (words : List (JsString × JsString)) (last : JsString) (many : 11 ≤ words.length)
    (mnemonic : ∀ entry ∈ words, IsMnemonicWord entry.1)
    (spaced : ∀ entry ∈ words, entry.2 ≠ [] ∧ ∀ unit ∈ entry.2, isWhiteSpace unit = true)
    (lastMnemonic : IsMnemonicWord last) :
    IsSecret ((words.flatMap fun entry => entry.1 ++ entry.2) ++ last)

/-- The secret itself, or twelve words in a row of a phrase, stand by themselves. -/
def StandsAlone (front secret back : JsString) : Prop :=
  ∃ former core latter, secret = former ++ core ++ latter ∧ IsSecret core ∧
    wordAt isWord (front ++ former).reverse = false ∧
    wordAt isWord (latter ++ back) = false

/-! ## The expressions -/

/-- What `redactSecrets` looks for, in its order. -/
def bodies : List (RegExp ℕ) := [stellarSecretKey, apiKey, seedPhrase]

theorem redactSecrets_eq (text : JsString) : redactSecrets text =
    replaceEach isWord (0x5B :: (ascii "REDACTED" ++ [0x5D])) bodies text := by
  have same : 0x5B :: (ascii "REDACTED" ++ [0x5D]) = redacted := by decide
  rw [same]
  by_cases empty : text = []
  · rw [redactSecrets, if_pos empty, empty]
    decide
  · simp only [redactSecrets, if_neg empty, replaceEach, bodies, List.foldl_cons, List.foldl_nil,
      seedPhraseRe, apiKeyRe, stellarSecretKeyRe]

theorem brackets : isWord 0x5B = false ∧ isWord 0x5D = false := ⟨rfl, rfl⟩

theorem token_of_mem_bodies :
    ∀ body ∈ bodies, Token 0x5B 0x5D (ascii "REDACTED") body := by
  intro body member
  simp only [bodies, List.mem_cons, List.not_mem_nil, or_false] at member
  rcases member with rfl | rfl | rfl
  · exact ⟨by decide, by decide, by decide, by decide⟩
  · exact ⟨by decide, by decide, by decide, by decide⟩
  · exact ⟨by decide, by decide, by decide, by decide⟩

theorem isWord_of_isBase32 {unit : ℕ} (base32 : isBase32 unit = true) :
    isWord unit = true := by
  simp only [isBase32, isWord, isAlphanumeric, isLetter, isUpper,
    isLower, isDigit, Bool.or_eq_true, Bool.and_eq_true, decide_eq_true_eq] at base32 ⊢
  omega

theorem solid_stellarSecretKey : Solid isWord stellarSecretKey := by
  have closes : (RegExp.letter isBase32).ClosesWith (isWord · = true) :=
    fun unit => isWord_of_isBase32
  refine ⟨⟨fun unit isS => ?_, nofun⟩, closesWith_times closes 55, nofun⟩
  rw [of_decide_eq_true isS]
  rfl

theorem solid_phraseWord : Solid isWord phraseWord := by
  have opens : (RegExp.letter isLetter).OpensWith (isWord · = true) :=
    fun unit => isWord_of_isLetter
  have closes : (RegExp.letter isLetter).ClosesWith (isWord · = true) :=
    fun unit => isWord_of_isLetter
  exact ⟨⟨opensWith_times opens 3, fun _ => opensWith_upTo opens 7⟩,
    closesWith_upTo closes 7, fun _ => closesWith_times closes 3⟩

theorem solid_seedPhrase : Solid isWord seedPhrase := by
  have opens : (RegExp.sequence phraseWord spaceUnits).OpensWith (isWord · = true) :=
    ⟨solid_phraseWord.opens, nofun⟩
  exact ⟨⟨⟨opensWith_times opens 11, nofun⟩, nofun⟩, solid_phraseWord.closes, nofun⟩

theorem matches_phraseWord {word : JsString} (mnemonic : IsMnemonicWord word)
    (before behind : JsString) : phraseWord.Matches before word behind := by
  have letters : ∀ unit ∈ word, isLetter unit = true := fun unit member => by
    rw [isLetter, mnemonic.letters unit member, Bool.or_true]
  have enough : 3 ≤ (units word).length := (length_units word).symm ▸ mnemonic.least
  have few : (units word).length ≤ 10 := by
    rw [length_units]
    exact mnemonic.most.trans (by decide)
  have matched := matches_between enough few (matches_units letters) before behind
  rwa [flatten_units] at matched

theorem matches_spaceUnits {gap : JsString} (some : gap ≠ [])
    (blank : ∀ unit ∈ gap, isWhiteSpace unit = true) (before behind : JsString) :
    spaceUnits.Matches before gap behind := by
  have enough : 1 ≤ (units gap).length :=
    (length_units gap).symm ▸ List.length_pos_of_ne_nil some
  have matched := matches_atLeast enough (filled_units gap) (matches_units blank) before behind
  rwa [flatten_units] at matched

/-- A secret is what one of the expressions looks for. -/
theorem IsSecret.matches_body {secret : JsString} (isSecret : IsSecret secret) :
    ∃ body ∈ bodies, Solid isWord body ∧
      ∀ before behind, body.Matches before secret behind := by
  cases isSecret with
  | seed letters length base32 =>
    refine ⟨stellarSecretKey, List.mem_cons_self, solid_stellarSecretKey, fun before behind => ?_⟩
    have others := matches_times (matches_units base32) ([0x53].reverse ++ before) behind
    rw [length_units, length, flatten_units] at others
    exact ⟨[0x53], letters, rfl, ⟨0x53, rfl, rfl⟩, others⟩
  | phrase words last many mnemonic spaced lastMnemonic =>
    refine ⟨seedPhrase, by simp [bodies], solid_seedPhrase, fun before behind => ?_⟩
    have each : ∀ chunk ∈ words.map fun entry => entry.1 ++ entry.2, ∀ before behind,
        (RegExp.sequence phraseWord spaceUnits).Matches before chunk behind := by
      intro chunk member before behind
      obtain ⟨entry, inWords, rfl⟩ := List.mem_map.mp member
      obtain ⟨some, blank⟩ := spaced entry inWords
      exact ⟨entry.1, entry.2, rfl, matches_phraseWord (mnemonic entry inWords) _ _,
        matches_spaceUnits some blank _ _⟩
    have filled : ∀ chunk ∈ words.map fun entry => entry.1 ++ entry.2, chunk ≠ [] := by
      intro chunk member empty
      obtain ⟨entry, inWords, rfl⟩ := List.mem_map.mp member
      exact (spaced entry inWords).1 (List.append_eq_nil_iff.mp empty).2
    have enough : 11 ≤ (words.map fun entry => entry.1 ++ entry.2).length :=
      (List.length_map _).symm ▸ many
    have first := matches_atLeast enough filled each before (last ++ behind)
    rw [← List.flatMap_def] at first
    exact ⟨_, last, rfl, first, matches_phraseWord lastMnemonic _ _⟩

theorem IsSecret.clean {secret : JsString} (isSecret : IsSecret secret) :
    Clean 0x5B 0x5D (ascii "REDACTED") secret := by
  obtain ⟨body, member, -, matched⟩ := isSecret.matches_body
  exact (token_of_mem_bodies body member).clean (matched [] [])

theorem IsSecret.ends {secret : JsString} (isSecret : IsSecret secret) :
    wordAt isWord secret = true ∧ wordAt isWord secret.reverse = true := by
  obtain ⟨body, -, solid, matched⟩ := isSecret.matches_body
  exact solid.ends isSecret.clean.ne_nil (matched [] [])

theorem contains_of_standsAlone {front secret back : JsString}
    (alone : StandsAlone front secret back) :
    ∃ body ∈ bodies, Solid isWord body ∧
      Contains (bounded isWord body) front secret back := by
  obtain ⟨former, core, latter, rfl, isSecret, left, right⟩ := alone
  obtain ⟨body, member, solid, matched⟩ := isSecret.matches_body
  obtain ⟨first, last⟩ := isSecret.ends
  refine ⟨body, member, solid, former, core, latter, rfl, ?_⟩
  refine (matches_bounded_iff isSecret.clean.ne_nil).mpr ⟨?_, matched _ _, ?_⟩
  · rw [left, first]
    exact Bool.false_ne_true
  · rw [right, last]
    exact Bool.false_ne_true.symm

example : redactSecrets
    (ascii "my seed: SAAAAAAAAAAAAAAAAAAAAAAAAAAAAAAAAAAAAAAAAAAAAAAAAAAAAAAA.") =
    ascii "my seed: [REDACTED]." := by decide

end Ancore.Agent
