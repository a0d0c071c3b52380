/-
# Main.Create — `create_blocklist`: from a config and the fetched bodies to the rules

The manual entries of the config come first, then the bodies of its four kinds of list
URLs, each read with the parser of its kind; a URL without a body is skipped.  What the
plan, download and merge phases gave is the argument `bodies`.

`none` is a panic: the parsers of manual entries and of block and allow lists have one
(`createBlocklist_isSome`), those of regex lists do not.
-/
import DnsLigase.Blocklist.Lines

namespace DnsLigase.Main

open DnsLigase.Theory.Case DnsLigase.Theory.Loop DnsLigase.Theory.Text

set_option autoImplicit false

structure BlocklistConfig where
  urls : List String
  allowlistUrls : List String
  regexBlockUrls : List String
  regexAllowUrls : List String
  refreshIntervalSecs : Nat
  cacheTtlSecs : Option Nat
  deriving DecidableEq, Repr

structure MatchingConfig where
  manualBlock : List String
  manualAllow : List String
  regexBlock : List String
  regexAllow : List String
  deriving DecidableEq, Repr

/-- What `create_blocklist` and the refresh task read of the config. -/
structure Config where
  blocklists : BlocklistConfig
  matching : MatchingConfig
  deriving DecidableEq, Repr

section Build

variable {ρ : Type} [UnicodeCase] [RegexEngine ρ]

/-- An entry of `manual_block`; an error is only logged. -/
def blockManually (bl : Blocklist ρ) (domain : String) : Option (Blocklist ρ) :=
  (bl.parseLine domain.toList .adBlock).map Prod.snd

/-- An entry of `manual_allow`. -/
def allowManually (bl : Blocklist ρ) (domain : String) : Blocklist ρ :=
  bl.insertDomain true (String.ofList (trimEndMatches '.' (toLowercase domain).toList))

/-- An entry of `regex_block` or `regex_allow`; one that does not compile is only logged. -/
def pushPattern (isAllow : Bool) (bl : Blocklist ρ) (pattern : String) : Blocklist ρ :=
  match RegexEngine.new pattern with
  | .ok re => bl.pushRegex isAllow re
  | .error _ => bl

/-- The bodies of one kind of list, in the order of the URLs. -/
def readLists (parse : Blocklist ρ → String → Option (Blocklist ρ)) (bodies : String → Option String)
    (urls : List String) (bl : Blocklist ρ) : Option (Blocklist ρ) :=
  urls.foldlM (fun bl url =>
    match bodies url with
    | some body => parse bl body
    | none => some bl) bl

def createBlocklist (config : Config) (bodies : String → Option String) : Option (Blocklist ρ) := do
  let bl ← config.matching.manualBlock.foldlM blockManually Blocklist.new
  let bl := config.matching.manualAllow.foldl allowManually bl
  let bl := config.matching.regexBlock.foldl (pushPattern false) bl
  let bl := config.matching.regexAllow.foldl (pushPattern true) bl
  let bl ← readLists Blocklist.parseLinesInto bodies config.blocklists.urls bl
  let bl ← readLists Blocklist.parseLinesIntoAllow bodies config.blocklists.allowlistUrls bl
  let regex (isAllow : Bool) (bl : Blocklist ρ) (body : String) :=
    some (bl.parseLinesIntoRegex body isAllow)
  let bl ← readLists (regex false) bodies config.blocklists.regexBlockUrls bl
  readLists (regex true) bodies config.blocklists.regexAllowUrls bl

/-! ## When the build panics -/

/-- No manual entry and no line of a block or allow list is a lone slash. -/
structure Buildable (config : Config) (bodies : String → Option String) : Prop where
  manual : ∀ domain ∈ config.matching.manualBlock, ¬ Blocklist.LoneSlash domain.toList
  lists : ∀ url ∈ config.blocklists.urls ++ config.blocklists.allowlistUrls,
    ∀ body, bodies url = some body → ∀ line ∈ lines body.toList, ¬ Blocklist.LoneSlash line

omit [UnicodeCase] [RegexEngine ρ] in
theorem readLists_isSome {parse : Blocklist ρ → String → Option (Blocklist ρ)} {P : String → Prop}
    (each : ∀ bl body, (parse bl body).isSome ↔ P body) (bodies : String → Option String)
    (urls : List String) (bl : Blocklist ρ) :
    (readLists parse bodies urls bl).isSome ↔
      ∀ url ∈ urls, ∀ body, bodies url = some body → P body := by
  apply foldlM_isSome
  intro bl url
  cases bodies url with
  | none => simp
  | some body => simp [each]

theorem createBlocklist_isSome (config : Config) (bodies : String → Option String) :
    (createBlocklist config bodies : Option (Blocklist ρ)).isSome ↔ Buildable config bodies := by
  have manual : ∀ (bl : Blocklist ρ) (domain : String),
      (blockManually bl domain).isSome ↔ ¬ Blocklist.LoneSlash domain.toList := by
    intro bl domain
    rw [blockManually, Option.isSome_map, Option.isSome_iff_ne_none, Blocklist.parseLine,
      ne_eq, Blocklist.parseAdBlock_eq_none]
  have list : ∀ (asAllow : Bool) (bl : Blocklist ρ) (body : String),
      (Blocklist.foldLines asAllow bl (lines body.toList)).isSome ↔
        ∀ line ∈ lines body.toList, ¬ Blocklist.LoneSlash line :=
    fun asAllow bl body => Blocklist.foldLines_isSome asAllow _ bl
  have regex : ∀ (isAllow : Bool) (bl : Blocklist ρ) (body : String),
      (some (bl.parseLinesIntoRegex body isAllow)).isSome ↔ True := by
    simp
  have built : (createBlocklist config bodies : Option (Blocklist ρ)).isSome ↔ _ :=
    bind_isSome (foldlM_isSome manual _ _) fun _ =>
      bind_isSome (readLists_isSome (list false) bodies config.blocklists.urls _) fun _ =>
      bind_isSome (readLists_isSome (list true) bodies config.blocklists.allowlistUrls _) fun _ =>
      bind_isSome (readLists_isSome (regex false) bodies _ _) fun _ =>
        readLists_isSome (regex true) bodies _ _
  rw [built]
  constructor
  · rintro ⟨manual, block, allow, -⟩
    refine ⟨manual, fun url member => ?_⟩
    rcases List.mem_append.mp member with member | member
    · exact block url member
    · exact allow url member
  · intro clean
    exact ⟨clean.manual, fun url member => clean.lists url (List.mem_append_left _ member),
      fun url member => clean.lists url (List.mem_append_right _ member),
      fun _ _ _ _ => trivial, fun _ _ _ _ => trivial⟩

end Build

end DnsLigase.Main
