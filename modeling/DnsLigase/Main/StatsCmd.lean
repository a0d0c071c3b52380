/-
# Main.StatsCmd — the flags of `dns-ligase stats`

`run_stats_cmd` goes through its arguments once.  A switch stands alone; `--domain`, `--src` and
`--since` take whatever comes next for their value, also another flag; and the first argument that
asks for help, or that it does not know, decides.  `statsArgs_cases` is this as a grammar: what is
accepted, what asks for help and what is refused, each exactly.
-/
import DnsLigase.Journal.Stats

namespace DnsLigase.Main

open DnsLigase.Journal

set_option autoImplicit false

/-! ## The loop -/

/-- The loop of `run_stats_cmd`; `none` asks for help. -/
def statsArgs (filter : StatsFilter) : List String → Except String (Option StatsFilter)
  | [] => .ok (some filter)
  | arg :: rest =>
      if arg = "--blocked" then statsArgs { filter with blocked := true } rest
      else if arg = "--allowed" then statsArgs { filter with allowed := true } rest
      else if arg = "--forwarded" then statsArgs { filter with forwarded := true } rest
      else if arg = "--summary" then statsArgs { filter with summary := true } rest
      else if arg = "--domain" ∨ arg = "-d" then
        statsArgs { filter with domain := rest.head? } rest.tail
      else if arg = "--src" ∨ arg = "-s" then
        statsArgs { filter with src := rest.head? } rest.tail
      else if arg = "--since" then
        statsArgs { filter with since := rest.head? } rest.tail
      else if arg = "--help" ∨ arg = "-h" then .ok none
      else .error ("unknown stats flag: " ++ arg)
termination_by args => args.length
decreasing_by all_goals simp only [List.length_cons, List.length_tail]; omega

/-- What `--help` prints. -/
def statsUsage : List String :=
  ["Usage: dns-ligase stats [OPTIONS]",
    "",
    "Options:",
    "  --blocked       Show only blocked queries",
    "  --allowed       Show only allowed queries",
    "  --forwarded     Show only forwarded queries",
    "  --domain <str>  Filter by domain substring",
    "  --src <ip>      Filter by source IP substring",
    "  --since <time>  journalctl time spec (e.g. \"1 hour ago\")",
    "  --summary       Print aggregate summary instead of list",
    "",
    "Pipe to fzf or grep for ad-hoc search:",
    "  dns-ligase stats | fzf",
    "  dns-ligase stats --blocked | grep doubleclick"]

def runStatsCmd (journalctl : List String → Except String String)
    (fromStr : List Char → Option JournalEntry) (actions domains sources : Iteration)
    (args : List String) : Option (Except String (List String)) :=
  match statsArgs .default args with
  | .error e => some (.error e)
  | .ok none => some (.ok statsUsage)
  | .ok (some filter) => runStats journalctl fromStr actions domains sources filter

/-! ## The grammar -/

inductive SwitchFlag where
  | blocked
  | allowed
  | forwarded
  | summary
  deriving DecidableEq, Repr

def SwitchFlag.name : SwitchFlag → String
  | .blocked => "--blocked"
  | .allowed => "--allowed"
  | .forwarded => "--forwarded"
  | .summary => "--summary"

def SwitchFlag.set : SwitchFlag → StatsFilter → StatsFilter
  | .blocked, filter => { filter with blocked := true }
  | .allowed, filter => { filter with allowed := true }
  | .forwarded, filter => { filter with forwarded := true }
  | .summary, filter => { filter with summary := true }

inductive ValueFlag where
  | domain
  | src
  | since
  deriving DecidableEq, Repr

def ValueFlag.names : ValueFlag → List String
  | .domain => ["--domain", "-d"]
  | .src => ["--src", "-s"]
  | .since => ["--since"]

def ValueFlag.set : ValueFlag → Option String → StatsFilter → StatsFilter
  | .domain, value, filter => { filter with domain := value }
  | .src, value, filter => { filter with src := value }
  | .since, value, filter => { filter with since := value }

def helpNames : List String := ["--help", "-h"]

/-- The argument is none of the flags. -/
structure UnknownFlag (arg : String) : Prop where
  switch : ∀ flag : SwitchFlag, arg ≠ flag.name
  value : ∀ flag : ValueFlag, arg ∉ flag.names
  help : arg ∉ helpNames

/-- Arguments that are read together. -/
inductive FlagGroup where
  | switch (flag : SwitchFlag)
  | value (flag : ValueFlag) (name : { name // name ∈ flag.names }) (text : String)

def FlagGroup.args : FlagGroup → List String
  | switch flag => [flag.name]
  | value _ name text => [name.val, text]

def FlagGroup.apply (filter : StatsFilter) : FlagGroup → StatsFilter
  | switch flag => flag.set filter
  | value flag _ text => flag.set (some text) filter

/-- An argument is one of the flags, or is unknown. -/
theorem flag_cases (arg : String) : (∃ flag : SwitchFlag, arg = flag.name) ∨
    (∃ flag : ValueFlag, arg ∈ flag.names) ∨ arg ∈ helpNames ∨ UnknownFlag arg := by
  by_cases switch : ∃ flag : SwitchFlag, arg = flag.name
  · exact .inl switch
  by_cases value : ∃ flag : ValueFlag, arg ∈ flag.names
  · exact .inr (.inl value)
  by_cases help : arg ∈ helpNames
  · exact .inr (.inr (.inl help))
  · exact .inr (.inr (.inr ⟨not_exists.mp switch, not_exists.mp value, help⟩))

section Turns

variable (filter : StatsFilter) (rest : List String)

theorem statsArgs_switch (flag : SwitchFlag) :
    statsArgs filter (flag.name :: rest) = statsArgs (flag.set filter) rest := by
  cases flag <;> rw [statsArgs] <;> rfl

theorem statsArgs_value {flag : ValueFlag} {name : String} (named : name ∈ flag.names) :
    statsArgs filter (name :: rest) = statsArgs (flag.set rest.head? filter) rest.tail := by
  cases flag <;> simp only [ValueFlag.names, List.mem_cons, List.not_mem_nil, or_false] at named
  · rcases named with rfl | rfl <;> rw [statsArgs] <;> rfl
  · rcases named with rfl | rfl <;> rw [statsArgs] <;> rfl
  · subst named
    rw [statsArgs]
    rfl

theorem statsArgs_nil : statsArgs filter [] = .ok (some filter) := by
  rw [statsArgs]

theorem statsArgs_help {name : String} (named : name ∈ helpNames) :
    statsArgs filter (name :: rest) = .ok none := by
  simp only [helpNames, List.mem_cons, List.not_mem_nil, or_false] at named
  rcases named with rfl | rfl <;> rw [statsArgs] <;> rfl

theorem statsArgs_unknown {arg : String} (unknown : UnknownFlag arg) :
    statsArgs filter (arg :: rest) = .error ("unknown stats flag: " ++ arg) := by
  have blocked := unknown.switch .blocked
  have allowed := unknown.switch .allowed
  have forwarded := unknown.switch .forwarded
  have summary := unknown.switch .summary
  have domain := unknown.value .domain
  have src := unknown.value .src
  have since := unknown.value .since
  have help := unknown.help
  simp only [SwitchFlag.name] at blocked allowed forwarded summary
  simp only [ValueFlag.names, List.mem_cons, List.not_mem_nil, or_false] at domain src since
  simp only [helpNames, List.mem_cons, List.not_mem_nil, or_false] at help
  rw [statsArgs]
  simp only [blocked, allowed, forwarded, summary, domain, src, since, help, if_false]

end Turns

/-- The groups in front are read one by one. -/
theorem statsArgs_groups : ∀ (groups : List FlagGroup) (filter : StatsFilter) (rest : List String),
    statsArgs filter (groups.flatMap FlagGroup.args ++ rest) =
      statsArgs (groups.foldl FlagGroup.apply filter) rest
  | [], _, _ => by rw [List.flatMap_nil, List.nil_append, List.foldl_nil]
  | .switch flag :: groups, filter, rest =>
      (statsArgs_switch filter _ flag).trans (statsArgs_groups groups _ rest)
  | .value _ name _ :: groups, filter, rest =>
      (statsArgs_value filter _ name.property).trans (statsArgs_groups groups _ rest)

/-- What is left when no further group can be read. -/
inductive Remainder : List String → Prop
  | done : Remainder []
  | dangling {flag : ValueFlag} {name : String} : name ∈ flag.names → Remainder [name]
  | help {name : String} {rest : List String} : name ∈ helpNames → Remainder (name :: rest)
  | unknown {arg : String} {rest : List String} : UnknownFlag arg → Remainder (arg :: rest)

/-- All arguments are groups, up to a remainder. -/
theorem exists_groups : ∀ args : List String, ∃ (groups : List FlagGroup) (rest : List String),
    args = groups.flatMap FlagGroup.args ++ rest ∧ Remainder rest
  | [] => ⟨[], [], rfl, .done⟩
  | [arg] => by
      rcases flag_cases arg with ⟨flag, rfl⟩ | ⟨flag, named⟩ | named | unknown
      · exact ⟨[.switch flag], [], rfl, .done⟩
      · exact ⟨[], [arg], rfl, .dangling named⟩
      · exact ⟨[], [arg], rfl, .help named⟩
      · exact ⟨[], [arg], rfl, .unknown unknown⟩
  | arg :: text :: rest => by
      rcases flag_cases arg with ⟨flag, rfl⟩ | ⟨flag, named⟩ | named | unknown
      · obtain ⟨groups, last, same, remainder⟩ := exists_groups (text :: rest)
        refine ⟨.switch flag :: groups, last, ?_, remainder⟩
        rw [same]
        rfl
      · obtain ⟨groups, last, rfl, remainder⟩ := exists_groups rest
        exact ⟨.value flag ⟨arg, named⟩ text :: groups, last, rfl, remainder⟩
      · exact ⟨[], _, rfl, .help named⟩
      · exact ⟨[], _, rfl, .unknown unknown⟩

/-- **The flags are read as the grammar has it.**  The arguments are accepted exactly if they are
groups, but for one more name of a value flag at the end, which takes its value away; they ask for
help exactly if groups lead to a name of help; and else the first argument that no group can start
with is named as unknown. -/
theorem statsArgs_cases (filter : StatsFilter) (args : List String) :
    (∀ read, statsArgs filter args = .ok (some read) ↔ ∃ groups : List FlagGroup,
      (args = groups.flatMap FlagGroup.args ∧ read = groups.foldl FlagGroup.apply filter) ∨
        ∃ flag : ValueFlag, ∃ name ∈ flag.names, args = groups.flatMap FlagGroup.args ++ [name] ∧
          read = flag.set none (groups.foldl FlagGroup.apply filter)) ∧
    (statsArgs filter args = .ok none ↔ ∃ groups : List FlagGroup, ∃ name ∈ helpNames, ∃ rest,
      args = groups.flatMap FlagGroup.args ++ name :: rest) ∧
    ∀ e, statsArgs filter args = .error e ↔ ∃ (groups : List FlagGroup) (arg : String),
      UnknownFlag arg ∧ e = "unknown stats flag: " ++ arg ∧
        ∃ rest, args = groups.flatMap FlagGroup.args ++ arg :: rest := by
  have accepted : ∀ groups : List FlagGroup, statsArgs filter (groups.flatMap FlagGroup.args) =
      .ok (some (groups.foldl FlagGroup.apply filter)) := by
    intro groups
    have read := statsArgs_groups groups filter []
    rwa [List.append_nil, statsArgs_nil] at read
  have dangling : ∀ (groups : List FlagGroup) {flag : ValueFlag} {name : String},
      name ∈ flag.names → statsArgs filter (groups.flatMap FlagGroup.args ++ [name]) =
        .ok (some (flag.set none (groups.foldl FlagGroup.apply filter))) := by
    intro groups flag name named
    rw [statsArgs_groups, statsArgs_value _ _ named, List.tail_nil, statsArgs_nil]
    rfl
  have helped : ∀ (groups : List FlagGroup) {name : String} (rest : List String),
      name ∈ helpNames → statsArgs filter (groups.flatMap FlagGroup.args ++ name :: rest) =
        .ok none := by
    intro groups name rest named
    rw [statsArgs_groups, statsArgs_help _ _ named]
  have refused : ∀ (groups : List FlagGroup) {arg : String} (rest : List String),
      UnknownFlag arg → statsArgs filter (groups.flatMap FlagGroup.args ++ arg :: rest) =
        .error ("unknown stats flag: " ++ arg) := by
    intro groups arg rest unknown
    rw [statsArgs_groups, statsArgs_unknown _ _ unknown]
  refine ⟨fun read => ⟨fun result => ?_, ?_⟩, ⟨fun result => ?_, ?_⟩,
    fun e => ⟨fun result => ?_, ?_⟩⟩
  · obtain ⟨groups, rest, rfl, remainder⟩ := exists_groups args
    refine ⟨groups, ?_⟩
    cases remainder with
    | done =>
        rw [List.append_nil, accepted] at result
        cases result
        exact .inl ⟨List.append_nil _, rfl⟩
    | dangling named =>
        rw [dangling groups named] at result
        cases result
        exact .inr ⟨_, _, named, rfl, rfl⟩
    | help named => cases (helped groups _ named).symm.trans result
    | unknown unknown => cases (refused groups _ unknown).symm.trans result
  · rintro ⟨groups, ⟨rfl, rfl⟩ | ⟨flag, name, named, rfl, rfl⟩⟩
    · exact accepted groups
    · exact dangling groups named
  · obtain ⟨groups, rest, rfl, remainder⟩ := exists_groups args
    cases remainder with
    | done =>
        rw [List.append_nil] at result
        cases (accepted groups).symm.trans result
    | dangling named => cases (dangling groups named).symm.trans result
    | help named => exact ⟨groups, _, named, _, rfl⟩
    | unknown unknown => cases (refused groups _ unknown).symm.trans result
  · rintro ⟨groups, name, named, rest, rfl⟩
    exact helped groups rest named
  · obtain ⟨groups, rest, rfl, remainder⟩ := exists_groups args
    cases remainder with
    | done =>
        rw [List.append_nil] at result
        cases (accepted groups).symm.trans result
    | dangling named => cases (dangling groups named).symm.trans result
    | help named => cases (helped groups _ named).symm.trans result
    | unknown unknown =>
        cases (refused groups _ unknown).symm.trans result
        exact ⟨groups, _, unknown, rfl, _, rfl⟩
  · rintro ⟨groups, arg, unknown, rfl, rest, rfl⟩
    exact refused groups rest unknown

end DnsLigase.Main
