/-
# Cache.Jobs — `download_jobs`: one HTTP client for each host

The addresses of a list's host are looked up through the forwarder's own upstream, and a client
is pinned to them.  Jobs of one host share the client that was built for the first of them; the
hosts are compared without regard to case.  `downloadJobs_pinned`: whichever way the map of the
hosts is iterated, no list is fetched from an address that was looked up for another host, and
each host is looked up at most once.

URLs are parsed by a third-party crate and requests are made by another (`Web`).
-/
import DnsLigase.Cache.Download
import DnsLigase.Cache.Plan
import DnsLigase.Dns.Addresses
import DnsLigase.Theory.Case
import DnsLigase.Theory.Entries

namespace DnsLigase.Cache

open DnsLigase.Dns DnsLigase.Theory.Case DnsLigase.Theory.Entries DnsLigase.Theory.Io

set_option autoImplicit false

/-! ## Clients -/

/-- What is looked at of a parsed URL: `host_str` and `port_or_known_default`. -/
structure ParsedUrl where
  host : Option String
  port : Option UInt16
  deriving DecidableEq, Repr

/-- `reqwest::Client::new()`, which asks the system's resolver, or a client whose host is
resolved to the given addresses. -/
inductive Client
  | plain
  | pinned (host : String) (addrs : List (Ipv4Addr × UInt16))
  deriving DecidableEq, Repr

/-- The crates and the upstream, as a build finds them. -/
structure Web where
  parseUrl : String → Option ParsedUrl
  /-- `host.parse::<IpAddr>().is_ok()`. -/
  isIp : String → Bool
  /-- `upstream.resolve_a`. -/
  resolve : String → Except IoError (List Ipv4Addr)
  /-- `ClientBuilder::build` succeeds. -/
  builds : String → List (Ipv4Addr × UInt16) → Bool
  http : Client → Http

namespace Web

variable (web : Web)

def hostOf (url : String) : Option String := (web.parseUrl url).bind ParsedUrl.host

def clientForUrl (url : String) : Client :=
  match web.parseUrl url with
  | none => .plain
  | some parsed =>
      match parsed.host with
      | none => .plain
      | some host =>
          if web.isIp host then .plain
          else
            match web.resolve host with
            | .error _ => .plain
            | .ok [] => .plain
            | .ok (ip :: ips) =>
                let addrs := (ip :: ips).map fun ip => (ip, parsed.port.getD 443)
                if web.builds host addrs then .pinned host addrs else .plain

/-- A client that may be used for `host`: it looks the host up itself, or is pinned to what the
upstream answered for it. -/
def Serves (host : String) (client : Client) [UnicodeCase] : Prop :=
  client = .plain ∨ ∃ name addrs, client = .pinned name addrs ∧
    toLowercase name = toLowercase host ∧ web.resolve name = .ok (addrs.map Prod.fst)

/-- A client is pinned to the host of the URL that it was built for. -/
theorem clientForUrl_cases (url : String) :
    web.clientForUrl url = .plain ∨ ∃ host addrs, web.hostOf url = some host ∧
      web.clientForUrl url = .pinned host addrs ∧ web.resolve host = .ok (addrs.map Prod.fst) := by
  unfold clientForUrl hostOf
  cases web.parseUrl url with
  | none => exact .inl rfl
  | some parsed =>
      obtain ⟨_ | host, port⟩ := parsed
      · exact .inl rfl
      · dsimp only [Option.bind_some]
        by_cases literal : web.isIp host
        · exact .inl (if_pos literal)
        rw [if_neg literal]
        cases looked : web.resolve host with
        | error e => exact .inl rfl
        | ok ips =>
            cases ips with
            | nil => exact .inl rfl
            | cons ip ips =>
                dsimp only
                split
                · exact .inr ⟨host, _, rfl, rfl, by simp [looked, Function.comp_def]⟩
                · exact .inl rfl

end Web

/-! ## Jobs -/

section Jobs

variable [UnicodeCase] (web : Web)

def clientKey (url : String) : String := ((web.hostOf url).map toLowercase).getD url

/-- `by_host`: the indices of the jobs of each host. -/
def byHost (jobs : List FetchJob) : Std.ExtTreeMap String (List Nat) compare :=
  entries compare (fun job => clientKey web job.1.url) (fun indices job => indices ++ [job.2]) []
    jobs.zipIdx

/-- The clients, one for each pair of `by_host`; an index out of bounds panics. -/
def buildClients (jobs : List FetchJob) (hosts : List (String × List Nat)) :
    Option (Std.ExtTreeMap String Client compare) :=
  hosts.foldlM (fun clients (host, indices) => do
    let first ← jobs[← indices[0]?]?
    return clients.insert host (web.clientForUrl first.url)) ∅

/-- The tasks of `download_jobs`, when `by_host` is iterated as `hosts`; each looks at the disk as
it is then. -/
def downloadJobs (disk : FetchJob → Directory) (jobs : List FetchJob)
    (hosts : List (String × List Nat)) : Option (List (String × DownloadResult)) := do
  let clients ← buildClients web jobs hosts
  return jobs.map fun job =>
    let client := clients[clientKey web job.url]?.getD .plain
    (job.url, downloadOne (web.http client) (disk job) job.url job.etag)

variable {web} {jobs : List FetchJob}

/-- The entry of a host begins with the first of its jobs. -/
theorem first_of_byHost {host : String} {indices : List Nat}
    (found : (byHost web jobs)[host]? = some indices) :
    ∃ i first, indices[0]? = some i ∧ jobs[i]? = some first ∧ clientKey web first.url = host := by
  rw [byHost, getElem?_entries] at found
  split at found
  · cases found
  · rename_i some_
    obtain ⟨⟨first, i⟩, rest, mine⟩ := List.exists_cons_of_ne_nil some_
    have pushed : ∀ (items : List (FetchJob × Nat)) (start : List Nat),
        items.foldl (fun indices job => indices ++ [job.2]) start = start ++ items.map Prod.snd := by
      intro items
      induction items with
      | nil => simp
      | cons item items ih => simp [ih]
    obtain ⟨among, key⟩ := List.mem_filter.mp (mine ▸ List.mem_cons_self : (first, i) ∈ own _ _ _)
    rw [mine, pushed] at found
    refine ⟨i, first, ?_, List.mem_zipIdx_iff_getElem?.mp among, of_decide_eq_true key⟩
    rw [← Option.some.inj found]
    rfl

/-- Every job's host has an entry. -/
theorem byHost_of_mem {job : FetchJob} (member : job ∈ jobs) :
    ∃ indices, (byHost web jobs)[clientKey web job.url]? = some indices := by
  obtain ⟨i, at_⟩ := List.mem_iff_getElem?.mp member
  have mine : own (fun job : FetchJob × Nat => clientKey web job.1.url) jobs.zipIdx
      (clientKey web job.url) ≠ [] :=
    own_ne_nil.mpr ⟨(job, i), List.mem_zipIdx_iff_getElem?.mpr at_, rfl⟩
  exact ⟨_, by rw [byHost, getElem?_entries, if_neg mine]⟩

/-- **Each host has the client of its first job**, whichever host comes first. -/
theorem buildClients_spec {hosts : List (String × List Nat)}
    (groups : ∀ group ∈ hosts, (byHost web jobs)[group.1]? = some group.2)
    (distinct : (hosts.map Prod.fst).Nodup) :
    ∃ clients, buildClients web jobs hosts = some clients ∧ ∀ group ∈ hosts, ∃ first ∈ jobs,
      clientKey web first.url = group.1 ∧
        clients[group.1]? = some (web.clientForUrl first.url) := by
  unfold buildClients
  induction hosts using List.reverseRecOn with
  | nil => exact ⟨∅, rfl, fun group member => absurd member List.not_mem_nil⟩
  | append_singleton hosts group ih =>
      rw [List.map_append, List.nodup_append] at distinct
      obtain ⟨earlier, -, apart⟩ := distinct
      obtain ⟨clients, built, each⟩ :=
        ih (fun other member => groups other (List.mem_append_left _ member)) earlier
      have last : group ∈ hosts ++ [group] := List.mem_append_right _ (List.mem_singleton_self _)
      obtain ⟨i, first, head, at_, key⟩ := first_of_byHost (groups group last)
      refine ⟨clients.insert group.1 (web.clientForUrl first.url), ?_, fun other member => ?_⟩
      · rw [List.foldlM_append, built]
        simp [head, at_]
      · rcases List.mem_append.mp member with old | new
        · obtain ⟨found, among, own_, client⟩ := each other old
          have differ : group.1 ≠ other.1 :=
            (apart other.1 (List.mem_map_of_mem old) group.1 List.mem_cons_self).symm
          refine ⟨found, among, own_, ?_⟩
          rw [Std.ExtTreeMap.getElem?_insert, if_neg (by simpa using differ), client]
        · obtain rfl := List.mem_singleton.mp new
          exact ⟨first, List.mem_of_getElem? at_, key, Std.ExtTreeMap.getElem?_insert_self⟩

/-- A client that was built for a URL of the same host may be used for this one. -/
theorem serves_of_key {url url' host : String} (key : clientKey web url' = clientKey web url)
    (named : web.hostOf url = some host) : web.Serves host (web.clientForUrl url') := by
  rcases web.clientForUrl_cases url' with plain | ⟨name, addrs, named', pinned, looked⟩
  · exact .inl plain
  · refine .inr ⟨name, addrs, pinned, ?_, looked⟩
    simpa [clientKey, named, named'] using key

theorem group_of_order {hosts : List (String × List Nat)}
    (order : hosts.Perm (byHost web jobs).toList) {group : String × List Nat} :
    group ∈ hosts ↔ (byHost web jobs)[group.1]? = some group.2 := by
  rw [order.mem_iff]
  exact Std.ExtTreeMap.mem_toList_iff_getElem?_eq_some

theorem hosts_nodup {hosts : List (String × List Nat)}
    (order : hosts.Perm (byHost web jobs).toList) : (hosts.map Prod.fst).Nodup := by
  refine ((order.map _).nodup_iff).mpr (List.pairwise_map.mpr ?_)
  refine Std.ExtTreeMap.distinct_keys_toList.imp fun differ same => differ ?_
  rw [same]
  exact Std.ReflCmp.compare_self

/-- Every job runs with a client that may be used for its host. -/
theorem downloadJobs_serves {hosts : List (String × List Nat)}
    (order : hosts.Perm (byHost web jobs).toList) (disk : FetchJob → Directory) :
    ∃ client : FetchJob → Client,
      downloadJobs web disk jobs hosts = some (jobs.map fun job =>
        (job.url, downloadOne (web.http (client job)) (disk job) job.url job.etag)) ∧
      ∀ job ∈ jobs, ∀ host, web.hostOf job.url = some host → web.Serves host (client job) := by
  obtain ⟨clients, built, each⟩ :=
    buildClients_spec (fun _ member => (group_of_order order).mp member) (hosts_nodup order)
  refine ⟨fun job => clients[clientKey web job.url]?.getD .plain, by simp [downloadJobs, built],
    fun job member host named => ?_⟩
  obtain ⟨indices, found⟩ := @byHost_of_mem _ web _ _ member
  have group : (clientKey web job.url, indices) ∈ hosts := (group_of_order order).mpr found
  obtain ⟨first, -, key, client⟩ := each _ group
  dsimp only at client ⊢
  rw [client]
  exact serves_of_key key named

/-- **No list is fetched from an address that was looked up for another host**, and no host is
looked up twice, in whatever order the hosts are gone through. -/
theorem downloadJobs_pinned {hosts : List (String × List Nat)}
    (order : hosts.Perm (byHost web jobs).toList) (disk : FetchJob → Directory) :
    (∃ client : FetchJob → Client,
      downloadJobs web disk jobs hosts = some (jobs.map fun job =>
        (job.url, downloadOne (web.http (client job)) (disk job) job.url job.etag)) ∧
      ∀ job ∈ jobs, ∀ host, web.hostOf job.url = some host → web.Serves host (client job)) ∧
    (hosts.map Prod.fst).Nodup ∧
      ∀ key ∈ hosts.map Prod.fst, ∃ job ∈ jobs, clientKey web job.url = key := by
  refine ⟨downloadJobs_serves order disk, hosts_nodup order, fun key member => ?_⟩
  obtain ⟨group, among, rfl⟩ := List.mem_map.mp member
  obtain ⟨i, first, -, at_, key⟩ := first_of_byHost ((group_of_order order).mp among)
  exact ⟨first, List.mem_of_getElem? at_, key⟩

end Jobs

/-! ## Two hosts -/

attribute [local instance] smallCase

def exampleAddr : Ipv4Addr := ⟨93, 184, 215, 14⟩

/-- Two hosts with an address each. -/
def exampleWeb : Web where
  parseUrl url :=
    if url = "https://example.com/list.txt" then some ⟨some "example.com", some 443⟩
    else if url = "https://example.net/other.txt" then some ⟨some "example.net", some 443⟩
    else none
  isIp _ := false
  resolve host := if host = "example.com" then .ok [exampleAddr] else .ok [⟨192, 0, 2, 1⟩]
  builds _ _ := true
  http _ _ _ _ := .error "offline"

def exampleJobs : List FetchJob :=
  [⟨"https://example.com/list.txt", none⟩, ⟨"https://example.net/other.txt", none⟩]

theorem downloadJobs_pinned_reversed :
    ∃ client : FetchJob → Client,
      downloadJobs exampleWeb (fun _ _ => none) exampleJobs
          (byHost exampleWeb exampleJobs).toList.reverse =
        some [("https://example.com/list.txt", .failed "request failed: offline"),
          ("https://example.net/other.txt", .failed "request failed: offline")] ∧
      exampleWeb.Serves "example.com" (client ⟨"https://example.com/list.txt", none⟩) := by
  obtain ⟨⟨client, tasks, serves⟩, -⟩ := downloadJobs_pinned
    (List.reverse_perm (byHost exampleWeb exampleJobs).toList) fun _ _ => none
  refine ⟨client, tasks, serves _ List.mem_cons_self "example.com" ?_⟩
  decide

end DnsLigase.Cache
