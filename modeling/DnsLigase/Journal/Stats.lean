/-
# Journal.Stats — `dns-ligase stats`: from the journal to the tables

`run_stats` has `journalctl` print the journal as JSON, one object on a line, keeps the lines of
queries that pass the filter, and prints them or a summary of them.  How serde reads a line and
what `journalctl` prints are parameters; a hash map is iterated in any order (`Iteration`).

Every number of a summary is exact, whatever these are (`runStats_summary`), and two summaries of
the same entries, in whatever order, show the same numbers, and other names only where these are
tied (`summarize_perm`).
-/
import DnsLigase.Journal.Timestamp
import DnsLigase.Theory.Ranking
import DnsLigase.Theory.Text

namespace DnsLigase.Journal

open DnsLigase.Theory.Ranking DnsLigase.Theory.Text

set_option autoImplicit false

/-! ## Entries -/

structure QueryEntry where
  timestamp : String
  source : String
  domain : String
  qtype : String
  action : String
  rule : String
  deriving DecidableEq, Repr

/-- The fields that serde reads of a line. -/
structure JournalEntry where
  timestamp : Option String
  source : Option String
  domain : Option String
  qtype : Option String
  action : Option String
  rule : Option String
  deriving DecidableEq, Repr

structure StatsFilter where
  blocked : Bool
  allowed : Bool
  forwarded : Bool
  domain : Option String
  src : Option String
  since : Option String
  summary : Bool
  deriving DecidableEq, Repr

/-- `StatsFilter::default`. -/
def StatsFilter.default : StatsFilter := ⟨false, false, false, none, none, none, false⟩

section Parse

variable (fromStr : List Char → Option JournalEntry)

/-- One turn of the loop of `parse_entries`; `none` is an overflow in a time stamp. -/
def pushEntry (entries : List QueryEntry) (line : List Char) : Option (List QueryEntry) :=
  if (trim line).isEmpty then some entries
  else
    match fromStr line with
    | some raw =>
        if raw.action.isNone && raw.domain.isNone then some entries
        else do
          let timestamp ← formatTimestamp raw.timestamp
          return entries ++ [⟨timestamp, raw.source.getD "", raw.domain.getD "",
            raw.qtype.getD "", raw.action.getD "", raw.rule.getD ""⟩]
    | none => some entries

def parseEntries (jsonLines : String) : Option (List QueryEntry) :=
  (lines jsonLines.toList).foldlM (pushEntry fromStr) []

def filterEntries (entries : List QueryEntry) (f : StatsFilter) : List QueryEntry :=
  let anyAction := f.blocked || f.allowed || f.forwarded
  entries.filter fun e =>
    (!anyAction || (f.blocked && e.action == "blocked") || (f.allowed && e.action == "allowed") ||
      (f.forwarded && e.action == "forwarded")) &&
    (f.domain.all fun d => contains d.toList e.domain.toList) &&
    (f.src.all fun s => contains s.toList e.source.toList)

/-- The entry that a line of the journal gives, if it is one of a query. -/
def queryOfLine (line : List Char) : Option QueryEntry :=
  if (trim line).isEmpty then none
  else
    (fromStr line).bind fun raw =>
      if raw.action.isNone && raw.domain.isNone then none
      else some ⟨(formatTimestamp raw.timestamp).getD "", raw.source.getD "", raw.domain.getD "",
        raw.qtype.getD "", raw.action.getD "", raw.rule.getD ""⟩

theorem pushEntry_eq (entries : List QueryEntry) (line : List Char) :
    pushEntry fromStr entries line = some (entries ++ (queryOfLine fromStr line).toList) := by
  unfold pushEntry queryOfLine
  split
  · simp
  · cases fromStr line with
    | none => simp
    | some raw =>
        obtain ⟨text, formatted⟩ := formatTimestamp_total raw.timestamp
        by_cases operational : (raw.action.isNone && raw.domain.isNone) = true
        · simp only [Option.bind_some, if_pos operational, Option.toList_none, List.append_nil]
        · simp only [Option.bind_some, if_neg operational, formatted, Option.getD_some,
            Option.toList_some]
          rfl

/-- **The entries are those of the lines**, each on its own, and no time stamp overflows. -/
theorem parseEntries_eq (jsonLines : String) : parseEntries fromStr jsonLines =
    some ((lines jsonLines.toList).filterMap (queryOfLine fromStr)) := by
  have loop : ∀ (ls : List (List Char)) (entries : List QueryEntry),
      ls.foldlM (pushEntry fromStr) entries =
        some (entries ++ ls.filterMap (queryOfLine fromStr)) := by
    intro ls
    induction ls with
    | nil => exact fun entries => by simp
    | cons line rest ih =>
        intro entries
        rw [List.foldlM_cons, pushEntry_eq, Option.bind_eq_bind, Option.bind_some, ih,
          List.append_assoc]
        cases found : queryOfLine fromStr line with
        | none => rw [List.filterMap_cons_none found]; rfl
        | some entry => rw [List.filterMap_cons_some found]; rfl
  exact loop _ []

end Parse

/-! ## What is printed -/

/-- `{:<width$}` of a text. -/
def leftAligned (width : Nat) (text : String) : String :=
  text ++ String.ofList (List.replicate (width - text.length) ' ')

/-- The lines that `print_entries` prints. -/
def printEntries (entries : List QueryEntry) : List String :=
  if entries.isEmpty then ["No matching entries."]
  else
    ["TIMESTAMP             SOURCE          TYPE   ACTION     " ++
        "DOMAIN                              RULE",
      String.ofList (List.replicate 100 '-')] ++
      entries.map fun e =>
        leftAligned 20 e.timestamp ++ " " ++ leftAligned 15 e.source ++ " " ++
          leftAligned 6 e.qtype ++ " " ++ leftAligned 10 e.action ++ " " ++
            leftAligned 32 e.domain ++ " " ++ e.rule

/-- In which order a hash map is iterated. -/
structure Iteration where
  pairs : Std.ExtTreeMap String Nat compare → List (String × Nat)
  perm : ∀ map, (pairs map).Perm map.toList

/-- The tables of `print_summary`. -/
structure Summary where
  total : Nat
  byAction : List (String × Nat)
  topBlocked : List (String × Nat)
  topSources : List (String × Nat)
  deriving DecidableEq, Repr

def summarize (actions domains sources : Iteration) (entries : List QueryEntry) : Summary :=
  let byAction := counts compare QueryEntry.action entries
  let blockedDomains := counts compare QueryEntry.domain (entries.filter (·.action == "blocked"))
  let bySource := counts compare QueryEntry.source entries
  ⟨entries.length, actions.pairs byAction, (ranked (domains.pairs blockedDomains)).take 10,
    (ranked (sources.pairs bySource)).take 10⟩

/-- The rows of a ranking. -/
def rankRows (top : List (String × Nat)) : List String :=
  top.zipIdx.map fun row =>
    "  " ++ leftAligned 2 (toString (row.2 + 1)) ++ ". " ++ leftAligned 40 row.1.1 ++ " " ++
      toString row.1.2

def Summary.lines (s : Summary) : List String :=
  ["Total queries: " ++ toString s.total, "", "By action:"] ++
    s.byAction.map (fun row => "  " ++ leftAligned 12 row.1 ++ " " ++ toString row.2) ++
    ["", "Top 10 blocked domains:"] ++ rankRows s.topBlocked ++
    ["", "Top 10 sources:"] ++ rankRows s.topSources

def printSummary (actions domains sources : Iteration) (entries : List QueryEntry) : List String :=
  if entries.isEmpty then ["No matching entries."]
  else (summarize actions domains sources entries).lines

/-- The arguments of `journalctl`. -/
def journalArgs (filter : StatsFilter) : List String :=
  ["-u", "dns-ligase", "--output=json", "--no-pager"] ++
    filter.since.elim [] fun since => ["--since", since]

/-- `journalctl` gives what it printed, or what it complained of. -/
def runStats (journalctl : List String → Except String String)
    (fromStr : List Char → Option JournalEntry) (actions domains sources : Iteration)
    (filter : StatsFilter) : Option (Except String (List String)) :=
  match journalctl (journalArgs filter) with
  | .error stderr => some (.error ("journalctl failed: " ++ stderr))
  | .ok stdout => do
      let entries ← parseEntries fromStr stdout
      let filtered := filterEntries entries filter
      return .ok (if filter.summary then printSummary actions domains sources filtered
        else printEntries filtered)

/-! ## What a summary says -/

/-- How many of the entries are of `domain` and blocked. -/
def blockedCount (entries : List QueryEntry) (domain : String) : Nat :=
  ((entries.filter (·.action == "blocked")).map QueryEntry.domain).count domain

/-- How many of the entries came from `source`. -/
def sourceCount (entries : List QueryEntry) (source : String) : Nat :=
  (entries.map QueryEntry.source).count source

/-- The tables that a summary of `entries` has to show. -/
structure Summary.Exact (s : Summary) (entries : List QueryEntry) : Prop where
  total : s.total = entries.length
  actions : ∀ action n, (action, n) ∈ s.byAction ↔
    0 < n ∧ (entries.map QueryEntry.action).count action = n
  once : (s.byAction.map Prod.fst).Nodup
  sum : (s.byAction.map Prod.snd).sum = s.total
  blocked : Leads (fun domain =>
    ((entries.filter (·.action == "blocked")).map QueryEntry.domain).count domain) 10 s.topBlocked
  sources : Leads (fun source => (entries.map QueryEntry.source).count source) 10 s.topSources

theorem summarize_exact (actions domains sources : Iteration) (entries : List QueryEntry) :
    (summarize actions domains sources entries).Exact entries where
  total := rfl
  actions _ _ := mem_counts_iff (actions.perm _)
  once := nodup_counts (actions.perm _)
  sum := sum_counts (actions.perm _)
  blocked := leads_take (domains.perm _) 10
  sources := leads_take (sources.perm _) 10

/-- The lines of the journal that are about queries, as their entries. -/
def queries (fromStr : List Char → Option JournalEntry) (journal : String) : List QueryEntry :=
  (lines journal.toList).filterMap (queryOfLine fromStr)

/-- **Every number of a summary is exact.**  Whatever the journal is, and in whatever order the
maps are iterated, what is printed is that nothing matches, if nothing does, or the tables of the
queries that pass the filter. -/
theorem runStats_summary {journalctl : List String → Except String String} {journal : String}
    (fromStr : List Char → Option JournalEntry) (actions domains sources : Iteration)
    {filter : StatsFilter} (summary : filter.summary = true)
    (printed : journalctl (journalArgs filter) = .ok journal) :
    ∃ ls, runStats journalctl fromStr actions domains sources filter = some (.ok ls) ∧
      (filterEntries (queries fromStr journal) filter = [] ∧ ls = ["No matching entries."] ∨
        ∃ s : Summary, ls = s.lines ∧ 0 < s.total ∧
          s.Exact (filterEntries (queries fromStr journal) filter)) := by
  have run : runStats journalctl fromStr actions domains sources filter =
      some (.ok (printSummary actions domains sources
        (filterEntries (queries fromStr journal) filter))) := by
    simp only [runStats, printed, parseEntries_eq, Option.bind_eq_bind, Option.bind_some, summary,
      if_true, queries]
    rfl
  refine ⟨_, run, ?_⟩
  rw [printSummary]
  generalize filterEntries (queries fromStr journal) filter = entries
  cases entries with
  | nil => exact .inl ⟨rfl, rfl⟩
  | cons entry rest =>
      exact .inr ⟨_, rfl, Nat.succ_pos _, summarize_exact actions domains sources (entry :: rest)⟩

/-- The order in which the map keeps its keys. -/
def keyOrder : Iteration := ⟨fun map => map.toList, fun _ => .refl _⟩

/-- A query that was blocked, one that was forwarded, and what the program said in between. -/
def blockedLine : String :=
  "\x7b\"QUERY_SOURCE\":\"10.0.0.5\",\"QUERY_DOMAIN\":\"ads.com\",\"QUERY_ACTION\":\"blocked\"\x7d"

def operationalLine : String := "\x7b\"MESSAGE\":\"Blocklist refreshed\"\x7d"

def forwardedLine : String :=
  "\x7b\"QUERY_SOURCE\":\"10.0.0.6\",\"QUERY_DOMAIN\":\"a.com\",\"QUERY_ACTION\":\"forwarded\"\x7d"

/-- The first of them came twice. -/
def threeQueries : String :=
  blockedLine ++ "\n" ++ operationalLine ++ "\n" ++ forwardedLine ++ "\n" ++ blockedLine ++ "\n"

def printThree (_ : List String) : Except String String := .ok threeQueries

/-- What serde makes of these lines. -/
def readLine (line : List Char) : Option JournalEntry :=
  if line = blockedLine.toList then
    some ⟨none, some "10.0.0.5", some "ads.com", none, some "blocked", none⟩
  else if line = forwardedLine.toList then
    some ⟨none, some "10.0.0.6", some "a.com", none, some "forwarded", none⟩
  else if line = operationalLine.toList then some ⟨none, none, none, none, none, none⟩
  else none

def blockedEntry : QueryEntry := ⟨"", "10.0.0.5", "ads.com", "", "blocked", ""⟩

def forwardedEntry : QueryEntry := ⟨"", "10.0.0.6", "a.com", "", "forwarded", ""⟩

def summaryOnly : StatsFilter := { StatsFilter.default with summary := true }

theorem queries_threeQueries : filterEntries (queries readLine threeQueries) summaryOnly =
    [blockedEntry, forwardedEntry, blockedEntry] := by
  simp only [threeQueries, queries, String.toList_append]
  decide +kernel

/-- The tables of three queries, two of them blocked. -/
theorem runStats_summary_blocked :
    ∃ s : Summary, runStats printThree readLine keyOrder keyOrder keyOrder summaryOnly =
        some (.ok s.lines) ∧
      s.Exact [blockedEntry, forwardedEntry, blockedEntry] ∧ ("blocked", 2) ∈ s.byAction := by
  have printed : printThree (journalArgs summaryOnly) = .ok threeQueries := rfl
  obtain ⟨ls, run, shown⟩ := runStats_summary readLine keyOrder keyOrder keyOrder rfl printed
  rw [queries_threeQueries] at shown
  rcases shown with ⟨nothing, -⟩ | ⟨s, rfl, -, exact_⟩
  · cases nothing
  · exact ⟨s, run, exact_, (exact_.actions "blocked" 2).mpr (by decide)⟩

/-- **The numbers do not depend on any order**: two summaries of the same entries, in whatever
order, have the same rows by action, and the same numbers at the same places of the rankings; names
that differ there are tied. -/
theorem summarize_perm (actions domains sources actions' domains' sources' : Iteration)
    {entries entries' : List QueryEntry} (perm : entries.Perm entries') :
    let s := summarize actions domains sources entries
    let s' := summarize actions' domains' sources' entries'
    s.total = s'.total ∧ s.byAction.Perm s'.byAction ∧
      s.topBlocked.map Prod.snd = s'.topBlocked.map Prod.snd ∧
      s.topSources.map Prod.snd = s'.topSources.map Prod.snd ∧
      Tied (blockedCount entries) s.topBlocked s'.topBlocked ∧
      Tied (sourceCount entries) s.topSources s'.topSources := by
  have blockedNumbers : (summarize actions domains sources entries).topBlocked.map Prod.snd =
      (summarize actions' domains' sources' entries').topBlocked.map Prod.snd := by
    rw [summarize, summarize, List.map_take, List.map_take]
    congr 1
    exact ranked_numbers (counts_perm (domains.perm _) (domains'.perm _) (perm.filter _))
  have sourceNumbers : (summarize actions domains sources entries).topSources.map Prod.snd =
      (summarize actions' domains' sources' entries').topSources.map Prod.snd := by
    rw [summarize, summarize, List.map_take, List.map_take]
    congr 1
    exact ranked_numbers (counts_perm (sources.perm _) (sources'.perm _) perm)
  have one := summarize_exact actions domains sources entries
  have other := summarize_exact actions' domains' sources' entries'
  refine ⟨perm.length_eq, counts_perm (actions.perm _) (actions'.perm _) perm, blockedNumbers,
    sourceNumbers, one.blocked.tied other.blocked (fun domain => ?_) blockedNumbers,
    one.sources.tied other.sources (fun source => ?_) sourceNumbers⟩
  · exact (((perm.filter _).map QueryEntry.domain).count_eq domain).symm
  · exact ((perm.map QueryEntry.source).count_eq source).symm

theorem summarize_perm_swapped :
    let one : QueryEntry := ⟨"", "10.0.0.1", "ads.com", "A", "blocked", ""⟩
    let other : QueryEntry := ⟨"", "10.0.0.2", "ads.net", "A", "blocked", ""⟩
    (summarize keyOrder keyOrder keyOrder [one, other]).topBlocked.map Prod.snd =
      (summarize keyOrder keyOrder keyOrder [other, one]).topBlocked.map Prod.snd :=
  (summarize_perm keyOrder keyOrder keyOrder keyOrder keyOrder keyOrder (.swap _ _ [])).2.2.1

end DnsLigase.Journal
