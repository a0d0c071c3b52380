/-
# Main.Sources — what each entry and each line of a build is good for

`create_blocklist` reads the entries of the config and the lines of the bodies one after the
other (`createBlocklist_eq`).  Each of these sources adds at most one rule, whatever is there
already, and adds it to one side: to the allow side if it stands in an allow list or an allow
setting, or begins with `@@` outside the regex entries and regex lists, and else to the block
side (`Source.read_routes`).

So the rules of a build are exactly those of its sources, and a name is blocked when a source
of the block side matches it and no source of the allow side does (`createBlocklist_decides`).
-/
import DnsLigase.Blocklist.Sets
import DnsLigase.Main.Reload

namespace DnsLigase.Main

open DnsLigase.Theory.Case DnsLigase.Theory.Loop DnsLigase.Theory.Text

set_option autoImplicit false

/-! ## Sources -/

/-- What a build reads: an entry of the config, or a line of a list. -/
inductive Source where
  | manualBlock (domain : String)
  | manualAllow (domain : String)
  | regex (isAllow : Bool) (pattern : String)
  | listed (kind : Blocklist.ListKind) (url : String) (line : List Char)
  deriving DecidableEq, Repr

/-- The side that the source speaks for. -/
def Source.isAllow : Source → Bool
  | .manualBlock domain => Blocklist.hasAt domain.toList
  | .manualAllow _ => true
  | .regex isAllow _ => isAllow
  | .listed .block _ line => Blocklist.hasAt line
  | .listed .allow _ _ => true
  | .listed .regexBlock _ _ => false
  | .listed .regexAllow _ _ => true

/-- The lines of the lists of one kind that have a body. -/
def listLines (bodies : String → Option String) (kind : Blocklist.ListKind) (urls : List String) :
    List Source :=
  urls.flatMap fun url =>
    (bodies url).elim [] fun body => (lines body.toList).map (.listed kind url)

/-- All that a build reads, in its order. -/
def Config.sources (config : Config) (bodies : String → Option String) : List Source :=
  config.matching.manualBlock.map .manualBlock ++
    (config.matching.manualAllow.map .manualAllow ++
      (config.matching.regexBlock.map (.regex false) ++
        (config.matching.regexAllow.map (.regex true) ++
          (listLines bodies .block config.blocklists.urls ++
            (listLines bodies .allow config.blocklists.allowlistUrls ++
              (listLines bodies .regexBlock config.blocklists.regexBlockUrls ++
                listLines bodies .regexAllow config.blocklists.regexAllowUrls))))))

section Read

variable {ρ : Type} [UnicodeCase] [RegexEngine ρ]

def Source.read (bl : Blocklist ρ) : Source → Option (Blocklist ρ)
  | .manualBlock domain => blockManually bl domain
  | .manualAllow domain => some (allowManually bl domain)
  | .regex isAllow pattern => some (pushPattern isAllow bl pattern)
  | .listed kind _ line => bl.readLine (kind, line)

theorem readLists_eq {kind : Blocklist.ListKind} {parse : Blocklist ρ → String → Option (Blocklist ρ)}
    (each : ∀ bl body, parse bl body = bl.readBody (kind, body)) (bodies : String → Option String)
    (urls : List String) (bl : Blocklist ρ) :
    readLists parse bodies urls bl = (listLines bodies kind urls).foldlM Source.read bl := by
  induction urls generalizing bl with
  | nil => rfl
  | cons url rest ih =>
      have first : readLists parse bodies [url] bl =
          ((bodies url).elim [] fun body => (lines body.toList).map (.listed kind url)).foldlM
            Source.read bl := by
        rw [readLists, List.foldlM_cons]
        cases bodies url with
        | none => rfl
        | some body =>
            rw [Option.elim_some, List.foldlM_map]
            dsimp only
            rw [each, Blocklist.readBody_eq, Blocklist.readLines, Blocklist.linesOfBodies,
              List.flatMap_cons, List.flatMap_nil, List.append_nil, List.foldlM_map]
            exact bind_pure _
      have split : readLists parse bodies (url :: rest) bl =
          readLists parse bodies [url] bl >>= readLists parse bodies rest := by
        rw [← List.singleton_append, readLists, List.foldlM_append]
        rfl
      rw [split, first, listLines, List.flatMap_cons, List.foldlM_append]
      exact bind_congr fun bl' => ih bl'

/-- **A build reads its sources one after the other.** -/
theorem createBlocklist_eq (config : Config) (bodies : String → Option String) :
    (createBlocklist config bodies : Option (Blocklist ρ)) =
      (config.sources bodies).foldlM Source.read Blocklist.new := by
  have allow : ∀ (domains : List String) (bl : Blocklist ρ),
      (domains.map Source.manualAllow).foldlM Source.read bl =
        some (domains.foldl allowManually bl) := by
    intro domains bl
    rw [List.foldlM_map]
    exact List.foldlM_pure (m := Option)
  have pattern : ∀ (isAllow : Bool) (patterns : List String) (bl : Blocklist ρ),
      (patterns.map (Source.regex isAllow)).foldlM Source.read bl =
        some (patterns.foldl (pushPattern isAllow) bl) := by
    intro isAllow patterns bl
    rw [List.foldlM_map]
    exact List.foldlM_pure (m := Option)
  have block (urls : List String) (bl : Blocklist ρ) : readLists Blocklist.parseLinesInto bodies
      urls bl = (listLines bodies .block urls).foldlM Source.read bl :=
    readLists_eq (by exact fun _ _ => rfl) bodies urls bl
  have allowlist (urls : List String) (bl : Blocklist ρ) : readLists Blocklist.parseLinesIntoAllow
      bodies urls bl = (listLines bodies .allow urls).foldlM Source.read bl :=
    readLists_eq (by exact fun _ _ => rfl) bodies urls bl
  have regexBlock (urls : List String) (bl : Blocklist ρ) :
      readLists (fun bl body => some (bl.parseLinesIntoRegex body false)) bodies urls bl =
        (listLines bodies .regexBlock urls).foldlM Source.read bl :=
    readLists_eq (by exact fun _ _ => rfl) bodies urls bl
  have regexAllow (urls : List String) (bl : Blocklist ρ) :
      readLists (fun bl body => some (bl.parseLinesIntoRegex body true)) bodies urls bl =
        (listLines bodies .regexAllow urls).foldlM Source.read bl :=
    readLists_eq (by exact fun _ _ => rfl) bodies urls bl
  simp only [Config.sources, List.foldlM_append, allow, pattern, createBlocklist, block, allowlist,
    regexBlock, regexAllow]
  rw [List.foldlM_map]
  rfl

/-! ## What a source gives -/

theorem parseLine_routes (line : List Char) :
    Blocklist.Routes (Blocklist.hasAt line) fun bl : Blocklist ρ => bl.parseLine line .adBlock := by
  simp only [Blocklist.parseLine, Blocklist.parseLineMode_adBlock, Bool.false_or]
  split
  · exact Blocklist.routes_skip _
  · exact Blocklist.parsePattern_routes _ _

/-- **A source does the same to every blocklist**, and its rule goes to the side it speaks for. -/
theorem Source.read_routes (source : Source) :
    ∃ parse : Blocklist ρ → Option (Except String Unit × Blocklist ρ),
      Blocklist.Routes source.isAllow parse ∧
        ∀ bl, source.read bl = (parse bl).map Prod.snd := by
  cases source with
  | manualBlock domain => exact ⟨_, parseLine_routes domain.toList, fun _ => rfl⟩
  | manualAllow domain =>
      let rule : Blocklist.Rule ρ :=
        .domain true (String.ofList (trimEndMatches '.' (toLowercase domain).toList))
      exact ⟨_, Blocklist.routes_rule rule, fun _ => rfl⟩
  | regex isAllow pattern =>
      cases compiled : (RegexEngine.new pattern : Except String ρ) with
      | ok re =>
          refine ⟨_, Blocklist.routes_rule (.regex isAllow re), fun bl => ?_⟩
          simp only [read, pushPattern, compiled]
          rfl
      | error e =>
          refine ⟨_, Blocklist.routes_skip isAllow, fun bl => ?_⟩
          simp only [read, pushPattern, compiled]
          rfl
  | listed kind url line =>
      cases kind with
      | block => exact ⟨_, Blocklist.parseAutoMode_routes line false, fun _ => rfl⟩
      | allow => exact ⟨_, Blocklist.parseAutoMode_routes line true, fun _ => rfl⟩
      | regexBlock => exact ⟨_, Blocklist.parseRegexLine_routes false line, fun _ => rfl⟩
      | regexAllow => exact ⟨_, Blocklist.parseRegexLine_routes true line, fun _ => rfl⟩

variable (ρ) in
/-- The rules that a source gives: those it leaves in an empty blocklist. -/
def Source.gives (source : Source) : Set (Blocklist.Rule ρ) :=
  {rule | ∃ bl, source.read Blocklist.new = some bl ∧ bl.Has rule}

/-- What a source may do to a blocklist: nothing, or add the one rule that it gives. -/
theorem Source.read_cases {source : Source} {bl bl' : Blocklist ρ}
    (read : source.read bl = some bl') :
    (bl' = bl ∧ source.gives ρ = ∅) ∨
      ∃ rule, bl' = bl.add rule ∧ source.gives ρ = {rule} ∧ rule.isAllow = source.isAllow := by
  obtain ⟨parse, ⟨effect, same, side⟩, reads⟩ := @read_routes ρ _ _ source
  have given : source.gives ρ = {rule | ∃ bl, ((effect.map (Blocklist.settle Blocklist.new)).map
      Prod.snd : Option (Blocklist ρ)) = some bl ∧ rule ∈ bl.rules} := by
    rw [← same, ← reads]
    rfl
  rw [reads, same] at read
  rw [given]
  rcases effect with _ | e | _ | rule
  · cases read
  · cases read
    exact .inl ⟨rfl, by simp [Blocklist.settle, Blocklist.rules_new]⟩
  · cases read
    exact .inl ⟨rfl, by simp [Blocklist.settle, Blocklist.rules_new]⟩
  · cases read
    exact .inr ⟨rule, rfl, by simp [Blocklist.settle, Blocklist.rules_add, Blocklist.rules_new],
      side rule rfl⟩

theorem Source.rules_read {source : Source} {bl bl' : Blocklist ρ}
    (read : source.read bl = some bl') : bl'.rules = bl.rules ∪ source.gives ρ := by
  rcases read_cases read with ⟨rfl, none_⟩ | ⟨rule, rfl, one, -⟩
  · rw [none_, Set.union_empty]
  · rw [one, Blocklist.rules_add]

theorem Source.isAllow_of_gives {source : Source} {rule : Blocklist.Rule ρ}
    (given : rule ∈ source.gives ρ) : rule.isAllow = source.isAllow := by
  obtain ⟨bl, read, stored⟩ := given
  rcases read_cases read with ⟨rfl, -⟩ | ⟨only, rfl, -, side⟩
  · have absent : rule ∈ (Blocklist.new : Blocklist ρ).rules := stored
    rw [Blocklist.rules_new] at absent
    exact absent.elim
  · have added : rule ∈ (Blocklist.new.add only : Blocklist ρ).rules := stored
    rw [Blocklist.rules_add, Blocklist.rules_new, Set.empty_union] at added
    rw [Set.mem_singleton_iff.mp added, side]

/-! ## What a build decides -/

/-- **The rules of a build are those of its sources.** -/
theorem rules_createBlocklist {config : Config} {bodies : String → Option String}
    {bl : Blocklist ρ} (created : createBlocklist config bodies = some bl) :
    bl.rules = ⋃ source ∈ config.sources bodies, source.gives ρ := by
  rw [createBlocklist_eq] at created
  have collected := foldlM_collects (fun _ _ _ => Source.rules_read) _ _ _ created
  rwa [Blocklist.rules_new, Set.empty_union] at collected

variable (ρ) in
/-- Some source of the build speaks for the side and matches the name. -/
def Config.Speaks (config : Config) (bodies : String → Option String) (isAllow : Bool)
    (name : String) : Prop :=
  ∃ source ∈ config.sources bodies, source.isAllow = isAllow ∧
    ∃ rule ∈ source.gives ρ, rule.Matches name

theorem speaks_iff {config : Config} {bodies : String → Option String} {bl : Blocklist ρ}
    (created : createBlocklist config bodies = some bl) (isAllow : Bool) (name : String) :
    (bl.side isAllow).Matches name ↔ config.Speaks ρ bodies isAllow name := by
  rw [Blocklist.side_matches, rules_createBlocklist created]
  constructor
  · rintro ⟨rule, stored, side, isMatch⟩
    obtain ⟨source, member, given⟩ := Set.mem_iUnion₂.mp stored
    exact ⟨source, member, Source.isAllow_of_gives given ▸ side, rule, given, isMatch⟩
  · rintro ⟨source, member, side, rule, given, isMatch⟩
    refine ⟨rule, Set.mem_iUnion₂.mpr ⟨source, member, given⟩, ?_, isMatch⟩
    rw [Source.isAllow_of_gives given, side]

/-- **What a build decides, from its config and its bodies**: a name is allowed if a source of
the allow side matches it, blocked if none does and one of the block side matches it, and
otherwise forwarded. -/
theorem createBlocklist_decides {config : Config} {bodies : String → Option String}
    {bl : Blocklist ρ} (created : createBlocklist config bodies = some bl) (name : String) :
    ((bl.check name).classification = .allowed ↔ config.Speaks ρ bodies true (Blocklist.lowered name)) ∧
      ((bl.check name).classification = .blocked ↔
        ¬ config.Speaks ρ bodies true (Blocklist.lowered name) ∧
          config.Speaks ρ bodies false (Blocklist.lowered name)) ∧
      ((bl.check name).classification = .forwarded ↔
        ¬ config.Speaks ρ bodies true (Blocklist.lowered name) ∧
          ¬ config.Speaks ρ bodies false (Blocklist.lowered name)) := by
  have decides := Blocklist.check_decides bl name
  have allow := speaks_iff created true (Blocklist.lowered name)
  have block := speaks_iff created false (Blocklist.lowered name)
  rw [← allow, ← block]
  exact ⟨decides.allowed, decides.blocked, decides.forwarded⟩

end Read

/-! ## A build of one entry and two lists -/

attribute [local instance] smallCase

def siteLists : Config :=
  ⟨⟨["https://a.test/hosts"], ["https://a.test/allow"], [], [], 3600, none⟩,
    ⟨["||ads.com^", "@@||cdn.ads.com^"], [], [], []⟩⟩

def siteBodies : String → Option String
  | "https://a.test/hosts" => some "0.0.0.0 tracker.net\n# end\n"
  | "https://a.test/allow" => some "good.ads.com\n"
  | _ => none

/-- `img.cdn.ads.com` is let through by an entry of `manual_block`. -/
theorem createBlocklist_decides_site :
    ∃ bl : Blocklist Literal, createBlocklist siteLists siteBodies = some bl ∧
      (bl.check "img.cdn.ads.com").classification = .allowed ∧
      siteLists.Speaks Literal siteBodies true (Blocklist.lowered "img.cdn.ads.com") := by
  have checked : ((createBlocklist siteLists siteBodies : Option (Blocklist Literal)).map fun bl =>
      decide ((bl.check "img.cdn.ads.com").classification = .allowed)) = some true := by
    decide +kernel
  obtain ⟨bl, created, allowed⟩ := Option.map_eq_some_iff.mp checked
  have allowed := of_decide_eq_true allowed
  exact ⟨bl, created, allowed, (createBlocklist_decides created _).1.mp allowed⟩

end DnsLigase.Main
