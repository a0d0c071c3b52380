/-
# Main.Audit — what `stats` shows of a run of the program

The program tells journald of a query with `log_query`, and `dns-ligase stats` reads the journal
back.  That journald and `journalctl` hand on what `log_query` wrote is taken for granted
(`Recorded`); then what `stats` shows of a run is about queries that clients sent, and true of
what the lists have to do with them (`shown_truthful`), and the three flags for actions divide it
up without anything left over (`shown_partition`).
-/
import DnsLigase.Journal.Entry
import DnsLigase.Main.StatsCmd
import DnsLigase.Main.Whole

namespace DnsLigase.Main

open DnsLigase.Dns DnsLigase.Journal DnsLigase.Theory.Tasks DnsLigase.Theory.Case
open DnsLigase.Upstream

set_option autoImplicit false

/-- The entry has the fields that `log_query` writes for the record. -/
structure Recorded (record : QueryRecord) (entry : QueryEntry) : Prop where
  source : entry.source = sanitizeField record.source
  domain : entry.domain = sanitizeField record.domain
  qtype : entry.qtype = sanitizeField record.qtype
  action : entry.action = sanitizeField record.action
  rule : entry.rule = sanitizeField record.rule

section Audit

variable {ρ : Type} [UnicodeCase] [RegexEngine ρ]

/-- The entries about queries in the journal are records of the tasks of a run. -/
def Journaled (acts : History ρ) (entries : List QueryEntry) : Prop :=
  ∀ entry ∈ entries, ∃ i, ∃ record ∈ logged (eventsOf i acts), Recorded record entry

variable {parse : String → Option SocketAddr} {s₀ s : Handles ρ} {made : List ListBuild}
  {acts : History ρ} {tasks : List (Arrival × Handler ρ Unit)} {entries : List QueryEntry}

omit [UnicodeCase] in
theorem sanitizeField_action {action : String}
    (known : action = "blocked" ∨ action = "allowed" ∨ action = "forwarded") :
    sanitizeField action = action := by
  rcases known with rfl | rfl | rfl <;> decide +kernel

theorem task_of_logged {w₀ : Shared ρ}
    (reaches : (udpForwarder ρ).Reaches w₀ acts tasks) {i : Nat} {record : QueryRecord}
    (told : record ∈ logged (eventsOf i acts)) :
    ∃ arrival left, tasks[i]? = some (arrival, left) := by
  have live : i < tasks.length := by
    by_contra late
    rw [reaches.unborn i (Nat.le_of_not_lt late)] at told
    cases told
  exact ⟨tasks[i].1, tasks[i].2, List.getElem?_eq_getElem live⟩

variable (ρ) in
/-- The entry is about a query of the task, and true of what the builds have to do with it. -/
def Tells (made : List ListBuild) (arrival : Arrival) (responses : List (List UInt8))
    (entry : QueryEntry) : Prop :=
  entry.source = sanitizeField arrival.addr.ip ∧ ∃ packet ∈ arrival.packets, ∃ msg q,
    DnsMessage.parse packet = .ok msg ∧ msg.questions.head? = some q ∧
      entry.domain = sanitizeField q.name ∧ entry.qtype = sanitizeField (qtypeStr q.qtype) ∧
      TruthfulByBuilds ρ made responses q entry.action

theorem Whole.entry (run : Whole parse s₀ s made acts tasks) (journaled : Journaled acts entries)
    {entry : QueryEntry} (member : entry ∈ entries) :
    ∃ i arrival left, tasks[i]? = some (arrival, left) ∧
      Tells ρ made arrival (responses (eventsOf i acts)) entry := by
  obtain ⟨i, record, told, recorded⟩ := journaled entry member
  obtain ⟨arrival, left, at_⟩ := task_of_logged run.reaches.1 told
  obtain ⟨source, packet, own, msg, q, parsed, first, domain, qtype, truthful⟩ :=
    run.logged at_ told
  have known : record.action = "blocked" ∨ record.action = "allowed" ∨
      record.action = "forwarded" :=
    truthful.imp And.left (Or.imp And.left And.left)
  refine ⟨i, arrival, left, at_, ?_, packet, own, msg, q, parsed, first, ?_, ?_, ?_⟩
  · rw [recorded.source, source]
  · rw [recorded.domain, domain]
  · rw [recorded.qtype, qtype]
  · rw [recorded.action, sanitizeField_action known]
    exact truthful

/-! ## The flags for actions -/

/-- The filter, with its flags for actions set so. -/
def withActions (filter : StatsFilter) (blocked allowed forwarded : Bool) : StatsFilter :=
  { filter with blocked, allowed, forwarded }

omit [UnicodeCase] in
theorem filterEntries_withActions (filter : StatsFilter) (blocked allowed forwarded : Bool)
    (entries : List QueryEntry) :
    filterEntries entries (withActions filter blocked allowed forwarded) =
      (filterEntries entries (withActions filter false false false)).filter fun e =>
        !(blocked || allowed || forwarded) || (blocked && e.action == "blocked") ||
          (allowed && e.action == "allowed") || (forwarded && e.action == "forwarded") := by
  simp only [filterEntries, withActions, List.filter_filter]
  congr 1
  funext e
  simp [Bool.and_assoc]

omit [UnicodeCase] in
theorem partition_perm {entries : List QueryEntry}
    (known : ∀ e ∈ entries, e.action = "blocked" ∨ e.action = "allowed" ∨ e.action = "forwarded") :
    entries.Perm (entries.filter (·.action == "blocked") ++
      (entries.filter (·.action == "allowed") ++ entries.filter (·.action == "forwarded"))) := by
  have rest : (entries.filter fun e => !(e.action == "blocked")).Perm
      (entries.filter (·.action == "allowed") ++ entries.filter (·.action == "forwarded")) := by
    refine (List.filter_append_perm (fun e => e.action == "allowed") _).symm.trans ?_
    rw [List.filter_filter, List.filter_filter]
    refine .of_eq (congrArg₂ _ (List.filter_congr fun e member => ?_)
      (List.filter_congr fun e member => ?_))
    · rcases known e member with same | same | same <;> simp [same]
    · rcases known e member with same | same | same <;> simp [same]
  exact (List.filter_append_perm (fun e => e.action == "blocked") entries).symm.trans
    (rest.append_left _)

/-- **What `stats` shows of a run** is, for every filter, about queries that clients sent, and true
of what the builds had to do with them; and the flags `--blocked`, `--allowed` and `--forwarded`
divide up what is shown without them, so that all three together are as good as none. -/
theorem shown_truthful (run : Whole parse s₀ s made acts tasks)
    (fromStr : List Char → Option JournalEntry) {journal : String}
    (journaled : Journaled acts (queries fromStr journal)) (filter : StatsFilter) :
    let shown (blocked allowed forwarded : Bool) :=
      filterEntries (queries fromStr journal) (withActions filter blocked allowed forwarded)
    (∀ entry ∈ shown false false false, ∃ i arrival left, tasks[i]? = some (arrival, left) ∧
      Tells ρ made arrival (responses (eventsOf i acts)) entry) ∧
    (shown false false false).Perm
      (shown true false false ++ (shown false true false ++ shown false false true)) ∧
    shown true true true = shown false false false := by
  intro shown
  have tells : ∀ entry ∈ shown false false false, ∃ i arrival left,
      tasks[i]? = some (arrival, left) ∧
        Tells ρ made arrival (responses (eventsOf i acts)) entry :=
    fun entry member => run.entry journaled (List.mem_of_mem_filter member)
  have known : ∀ entry ∈ shown false false false, entry.action = "blocked" ∨
      entry.action = "allowed" ∨ entry.action = "forwarded" := by
    intro entry member
    obtain ⟨i, arrival, left, -, -, packet, -, msg, q, -, -, -, -, truthful⟩ := tells entry member
    exact truthful.imp And.left (Or.imp And.left And.left)
  refine ⟨tells, ?_, ?_⟩
  · have narrowed := fun b a f => filterEntries_withActions filter b a f (queries fromStr journal)
    have parts := partition_perm known
    rw [show shown true false false = _ from narrowed true false false,
      show shown false true false = _ from narrowed false true false,
      show shown false false true = _ from narrowed false false true]
    simpa using parts
  · rw [show shown true true true = _ from filterEntries_withActions filter true true true _]
    refine List.filter_eq_self.mpr fun entry member => ?_
    rcases known entry member with same | same | same <;> simp [same]

end Audit

/-! ## The journal of one refusal -/

attribute [local instance] smallCase

def siteJournal : String :=
  "\x7b\"__REALTIME_TIMESTAMP\":\"1735689600000000\",\"QUERY_SOURCE\":\"192.168.1.6\"," ++
    "\"QUERY_DOMAIN\":\"site.com\",\"QUERY_QTYPE\":\"A\",\"QUERY_ACTION\":\"blocked\"," ++
    "\"QUERY_RULE\":\"block:site.com\"\x7d"

/-- The line of `siteJournal`, as serde reads it. -/
def readSite (line : List Char) : Option JournalEntry :=
  if line = siteJournal.toList then
    some ⟨some "1735689600000000", some "192.168.1.6", some "site.com", some "A", some "blocked",
      some "block:site.com"⟩
  else none

def siteEntry : QueryEntry :=
  ⟨"2025-01-01 00:00:00", "192.168.1.6", "site.com", "A", "blocked", "block:site.com"⟩

theorem queries_site : queries readSite siteJournal = [siteEntry] := by
  decide +kernel

theorem shown_truthful_site : ∃ entry ∈ filterEntries (queries readSite siteJournal) .default,
    entry.action = "blocked" ∧ ∃ arrival responses,
      Tells Literal [⟨siteConfig.lists, noBodies⟩] arrival responses entry := by
  obtain ⟨left, run⟩ := siteRun
  have journaled : Journaled (refusedActs "block:site.com") (queries readSite siteJournal) := by
    rw [queries_site]
    intro entry member
    obtain rfl := List.mem_singleton.mp member
    exact ⟨0, ⟨phone.ip, "site.com", "A", "blocked", "block:site.com"⟩,
      List.mem_singleton_self _, by constructor <;> decide +kernel⟩
  have shown : siteEntry ∈ filterEntries (queries readSite siteJournal) .default := by
    rw [queries_site]
    decide +kernel
  obtain ⟨i, arrival, left, -, tells⟩ :=
    (shown_truthful run readSite journaled .default).1 siteEntry shown
  exact ⟨siteEntry, shown, rfl, arrival, _, tells⟩

end DnsLigase.Main
