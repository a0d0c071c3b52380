/-
# Cache.Lookups — where the lists of a download come from

`download_jobs` looks the hosts of its URLs up with `resolve_a`, over the sockets that the
clients' queries use at the same time.  `downloads_resolved`: in a run in which no query can be
taken for another, a list is fetched by way of the system's resolver, or from addresses that the
upstream answered to the query for the host that the list's URL names.
-/
import DnsLigase.Cache.Jobs
import DnsLigase.Upstream.Resolve

namespace DnsLigase.Cache

open DnsLigase.Dns DnsLigase.Upstream
open DnsLigase.Theory.Case DnsLigase.Theory.Io DnsLigase.Theory.Transition DnsLigase.Theory.Utf8

set_option autoImplicit false

/-- The lookups that succeeded were calls of `resolve_a` in the run that reached `s`. -/
def MadeIn (s : Lookups) (web : Web) : Prop :=
  ∀ host ips, web.resolve host = .ok ips → ∃ c, s.Resolved c host (.ok ips)

/-- A client that asks the system's resolver, or goes to the addresses of an answer to the query
for `host`, in some case. -/
def Answered [UnicodeCase] (answers : List UInt8 → List UInt8 → Prop) (host : String)
    (client : Client) : Prop :=
  client = .plain ∨ ∃ name addrs n, client = .pinned name addrs ∧
    toLowercase name = toLowercase host ∧
    AddressesOf answers (lookupQuery n name) (addrs.map Prod.fst) ∧
    ((∀ l ∈ splitDots name, l ≠ "" ∧ (utf8 l).length < 192) →
      AsksAddressesOf name (lookupQuery n name))

section Downloads

variable [UnicodeCase] {web : Web} {answers : List UInt8 → List UInt8 → Prop} {s : Lookups}

theorem answered_of_serves (made : MadeIn s web) (resolves : s.Resolves answers) {host : String}
    {client : Client} (serves : web.Serves host client) : Answered answers host client := by
  rcases serves with plain | ⟨name, addrs, pinned, same, looked⟩
  · exact .inl plain
  · obtain ⟨c, resolved⟩ := made name _ looked
    obtain ⟨n, -, genuine, asks⟩ := resolves c name _ resolved
    exact .inr ⟨name, addrs, n, pinned, same, genuine, asks⟩

/-- **Every list comes from where the upstream says its host is**, or from where the system's
resolver does. -/
theorem downloads_resolved
    (sameId : ∀ query bytes, answers query bytes → wireId bytes = wireId query)
    (run : Run (lookupSystem answers) SendsApart s) (made : MadeIn s web) {jobs : List FetchJob}
    {hosts : List (String × List Nat)} (order : hosts.Perm (byHost web jobs).toList)
    (disk : FetchJob → Directory) :
    ∃ client : FetchJob → Client,
      downloadJobs web disk jobs hosts = some (jobs.map fun job =>
        (job.url, downloadOne (web.http (client job)) (disk job) job.url job.etag)) ∧
      ∀ job ∈ jobs, ∀ host, web.hostOf job.url = some host →
        Answered answers host (client job) := by
  obtain ⟨sound, numbered⟩ := sound_of_run sameId run
  obtain ⟨client, tasks, serves⟩ := downloadJobs_serves order disk
  refine ⟨client, tasks, fun job member host named => ?_⟩
  exact answered_of_serves made (resolves_of_sound sound numbered) (serves job member host named)

end Downloads

/-! ## Lists of two hosts -/

attribute [local instance] smallCase

/-- Both hosts have been looked up. -/
def lookedUp : Web where
  parseUrl url :=
    if url = "https://a.net/list.txt" then some ⟨some "a.net", some 443⟩
    else if url = "https://b.net/other.txt" then some ⟨some "b.net", some 443⟩
    else none
  isIp _ := false
  resolve host :=
    if host = "a.net" then .ok [⟨192, 0, 2, 97⟩]
    else if host = "b.net" then .ok [⟨192, 0, 2, 98⟩]
    else .error ⟨.other, "not asked"⟩
  builds _ _ := true
  http _ _ _ _ := .error "offline"

def twoHosts : List FetchJob :=
  [⟨"https://a.net/list.txt", none⟩, ⟨"https://b.net/other.txt", none⟩]

theorem downloads_resolved_two : ∃ client : FetchJob → Client,
    downloadJobs lookedUp (fun _ _ => none) twoHosts (byHost lookedUp twoHosts).toList.reverse =
      some [("https://a.net/list.txt", .failed "request failed: offline"),
        ("https://b.net/other.txt", .failed "request failed: offline")] ∧
    Answered hosting "a.net" (client ⟨"https://a.net/list.txt", none⟩) ∧
    Answered hosting "b.net" (client ⟨"https://b.net/other.txt", none⟩) := by
  obtain ⟨s, run, first, -, second⟩ := exists_resolved
  have made : MadeIn s lookedUp := by
    intro host ips looked
    dsimp only [lookedUp] at looked
    split at looked
    · rename_i same
      cases looked
      exact ⟨0, same ▸ first⟩
    · split at looked
      · rename_i same
        cases looked
        exact ⟨2, same ▸ second⟩
      · cases looked
  obtain ⟨client, tasks, each⟩ := downloads_resolved hosting_sameId run made
    (List.reverse_perm (byHost lookedUp twoHosts).toList) fun _ _ => none
  exact ⟨client, tasks, each _ List.mem_cons_self "a.net" (by decide),
    each _ (List.mem_cons_of_mem _ List.mem_cons_self) "b.net" (by decide)⟩

end DnsLigase.Cache
