/-
# Cache.Coherence — what a 304 vouches for

A list that was downloaded is asked for again with the etag of its entry, and a 304 means
that the body file is taken for the current list.  The entry and the file are written
apart: the entry may be lost in a crash and come back older from `save_to_disk`, the file
may be pruned or written by another build while the request is on its way.

What happens under the cache lock is one step: a plan, a merge, a prune, a save.
`download_one` takes no lock.  Its requests may be answered at different times, and it may look
at its body file at any time (`Look`): before another merge has written the file, behind it, or
right in the middle, where `fs::write` has cut the file off and not yet filled it again.

The server of each URL publishes version after version (`Origin`).  The invariant
(`Coherent`) is that a body file holds one of them, no older than any version whose etag is
still claimed somewhere: by an entry, by the saved entries, by a job, by a 304 that has
arrived.  It holds in every run in which no write of a body breaks off half-way, no download
falls back to a file that is being written, and none is overtaken by a newer one
(`Undisturbed`), whatever is published, pruned, saved, lost or started again in between
(`run_serves`).
-/
import DnsLigase.Cache.Download
import DnsLigase.Cache.Paths

namespace DnsLigase.Cache

open DnsLigase.Theory.Io DnsLigase.Theory.Transition DnsLigase.Theory.Utf8

set_option autoImplicit false

/-! ## Servers -/

/-- What the server of each URL publishes, version by version. -/
structure Origin where
  body : String → Nat → String
  etag : String → Nat → Option String
  /-- An etag names one version. -/
  distinct : ∀ url v w e, etag url v = some e → etag url w = some e → v = w

/-- The answers of the server of `url`, which publishes version `v` when it answers the first
request and version `v'` at the second.  A first request may get an error page as well; a second one
that does would have its page taken for the list. -/
structure Origin.Honest (origin : Origin) (url : String) (v v' : Nat) (http : Http) : Prop where
  unchanged : ∀ condition resp, http 0 url condition = .ok resp → resp.status = 304 →
    ∃ e, condition = some e ∧ origin.etag url v = some e
  list : ∀ condition resp body, http 0 url condition = .ok resp → resp.status = 200 →
    resp.text = .ok body → body = origin.body url v ∧ resp.etag = origin.etag url v
  again : ∀ resp body, http 1 url none = .ok resp → resp.text = .ok body →
    body = origin.body url v' ∧ resp.etag = origin.etag url v'

/-- The version that is published when the answer comes that counts: behind a 304 without a copy
that is the second one. -/
def answeredAt (http : Http) (dir : Directory) (url : String) (etag : Option String) (v v' : Nat) :
    Nat :=
  match http 0 url etag with
  | .error _ => v
  | .ok resp =>
      if resp.status = 304 then
        if (readBodyFile dir (urlToFilename url)).isSome then v else v'
      else v

/-- What a download brings, `v` being published. -/
def Origin.Brings (origin : Origin) (dir : Directory) (url : String) (etag : Option String)
    (v : Nat) : DownloadResult → Prop
  | .fresh body tag => body = origin.body url v ∧ tag = origin.etag url v
  | .notModified => ∃ e, etag = some e ∧ origin.etag url v = some e
  | .staleFallback body => readBodyFile dir (urlToFilename url) = some body
  | .failed _ => True

section Download

variable {origin : Origin} {http : Http} {dir : Directory} {url : String} {etag : Option String}
  {v v' : Nat}

theorem answeredAt_bounds (le : v ≤ v') :
    v ≤ answeredAt http dir url etag v v' ∧ answeredAt http dir url etag v v' ≤ v' := by
  unfold answeredAt
  split
  · exact ⟨Nat.le_refl v, le⟩
  · split
    · split
      · exact ⟨Nat.le_refl v, le⟩
      · exact ⟨le, Nat.le_refl v'⟩
    · exact ⟨Nat.le_refl v, le⟩

theorem brings_readWhole {resp : Response}
    (whole : ∀ body, resp.text = .ok body →
      body = origin.body url v ∧ resp.etag = origin.etag url v) :
    origin.Brings dir url etag v (readWhole resp) := by
  unfold readWhole
  cases text : resp.text with
  | ok body => exact whole body text
  | error e => trivial

theorem brings_orStale (message : String) :
    origin.Brings dir url etag v (orStale (readBodyFile dir (urlToFilename url)) message) := by
  cases cached : readBodyFile dir (urlToFilename url) with
  | some body => exact cached
  | none => trivial

/-- **A download brings what is published**, or what is on disk. -/
theorem brings_downloadOne (honest : origin.Honest url v v' http) :
    origin.Brings dir url etag (answeredAt http dir url etag v v')
      (downloadOne http dir url etag) := by
  unfold downloadOne answeredAt
  cases first : http 0 url etag with
  | error e => exact brings_orStale _
  | ok resp =>
      dsimp only
      by_cases unchanged : resp.status = 304
      · rw [if_pos unchanged, if_pos unchanged]
        split
        · exact honest.unchanged etag resp first unchanged
        · cases second : http 1 url none with
          | error e => trivial
          | ok r => exact brings_readWhole fun body => honest.again r body second
      · rw [if_neg unchanged, if_neg unchanged]
        split
        · rename_i found
          exact brings_readWhole fun body => honest.list etag resp body first found
        · exact brings_orStale _

end Download

/-! ## What a download sees of its body file -/

/-- An answer that has arrived: the version that was published then, and what the download
brought. -/
structure Arrived where
  url : String
  version : Nat
  result : DownloadResult

/-- Merging the answer writes the body file of `url`. -/
def Arrived.Writes (url : String) (a : Arrived) : Prop :=
  urlToFilename a.url = urlToFilename url ∧ ∃ body etag, a.result = .fresh body etag

/-- `read_cached`, without the lock: the file as it is, no file yet at an earlier time, or whatever
is there while it is being written. -/
inductive Look where
  | whole
  | missing
  | torn (data : List UInt8)

namespace Look

/-- The files, as a download of `url` sees them. -/
def seen (dir : Directory) (url : String) : Look → Directory
  | .whole => dir
  | .missing => dir.set (urlToFilename url) none
  | .torn data => dir.set (urlToFilename url) (some data)

/-- A file is being written when one of the `arrived` is merged that writes it. -/
def Meets (arrived : List Arrived) (url : String) : Look → Prop
  | .torn _ => ∃ a ∈ arrived, a.Writes url
  | _ => True

/-- What is there while the file is being written is taken for the list. -/
def Misleads (dir : Directory) (http : Http) (job : FetchJob) : Look → Prop
  | .torn data => ∃ body,
      downloadOne http (dir.set (urlToFilename job.url) (some data)) job.url job.etag =
        .staleFallback body
  | _ => False

variable {look : Look} {dir : Directory} {http : Http} {job : FetchJob}

theorem Meets.mono {arrived arrived' : List Arrived} {url : String} (meets : look.Meets arrived url)
    (more : arrived ⊆ arrived') : look.Meets arrived' url := by
  cases look with
  | torn data =>
      obtain ⟨a, member, writes⟩ := meets
      exact ⟨a, more member, writes⟩
  | whole | missing => trivial

end Look

/-- What the download of `job` brings, where it sees `dir`. -/
def FetchJob.answer (job : FetchJob) (http : Http) (dir : Directory) (v v' : Nat) : Arrived :=
  ⟨job.url, answeredAt http dir job.url job.etag v v', downloadOne http dir job.url job.etag⟩

/-- **A fallback that nothing misled is the file as it is.** -/
theorem Look.fallback {origin : Origin} {look : Look} {dir : Directory} {http : Http}
    {job : FetchJob} {v v' : Nat} (honest : origin.Honest job.url v v' http)
    (led : ¬ look.Misleads dir http job) {body : String}
    (stale : downloadOne http (look.seen dir job.url) job.url job.etag = .staleFallback body) :
    readBodyFile dir (urlToFilename job.url) = some body := by
  have brings := @brings_downloadOne origin http (look.seen dir job.url) job.url job.etag _ _ honest
  rw [stale] at brings
  cases look with
  | whole => exact brings
  | missing =>
      rw [Look.seen, Origin.Brings, readBodyFile, Directory.readToString, Directory.set_same]
        at brings
      cases brings
  | torn data => exact absurd ⟨body, stale⟩ led

/-! ## Entries, jobs and files -/

/-- The entry of `url` has the etag `e`. -/
def CachedLists.Names (c : CachedLists) (url e : String) : Prop :=
  ∃ entry, c.map[url]? = some entry ∧ entry.etag = some e

/-- No two lists share a body file. -/
def Apart (lists : List String) : Prop :=
  ∀ url ∈ lists, ∀ url' ∈ lists, urlToFilename url = urlToFilename url' → url = url'

/-- The files of `lists` hold published versions, none newer than the `newest` that any request
has seen, and none older than a version whose etag is claimed. -/
structure FilesCoherent (origin : Origin) (lists : List String) (newest : String → Nat)
    (claimed : String → String → Prop) (dir : Directory) : Prop where
  bound : ∀ url ∈ lists, ∀ e, claimed url e → ∀ v, origin.etag url v = some e → v ≤ newest url
  files : ∀ url ∈ lists, ∀ data, dir (urlToFilename url) = some data →
    ∃ w ≤ newest url, data = utf8 (origin.body url w) ∧
      ∀ e, claimed url e → ∀ v, origin.etag url v = some e → v ≤ w

section Files

variable {origin : Origin} {lists : List String} {newest newest' : String → Nat}
  {claimed claimed' : String → String → Prop} {dir dir' : Directory}

/-- Claims and files may go, and newer versions may be seen. -/
theorem FilesCoherent.mono (coherent : FilesCoherent origin lists newest claimed dir)
    (later : ∀ url, newest url ≤ newest' url) (fewer : ∀ url e, claimed' url e → claimed url e)
    (gone : ∀ name data, dir' name = some data → dir name = some data) :
    FilesCoherent origin lists newest' claimed' dir' where
  bound url member e claim v names :=
    (coherent.bound url member e (fewer url e claim) v names).trans (later url)
  files url member data there := by
    obtain ⟨w, seen, holds, claims⟩ := coherent.files url member data (gone _ data there)
    exact ⟨w, seen.trans (later url), holds, fun e claim => claims e (fewer url e claim)⟩

/-- What can be read is a published version. -/
theorem FilesCoherent.read (coherent : FilesCoherent origin lists newest claimed dir)
    {url body : String} (member : url ∈ lists)
    (reads : readBodyFile dir (urlToFilename url) = some body) :
    ∃ w ≤ newest url, body = origin.body url w ∧
      ∀ e, claimed url e → ∀ v, origin.etag url v = some e → v ≤ w := by
  obtain ⟨data, there, decodes⟩ := Option.bind_eq_some_iff.mp reads
  obtain ⟨w, seen, rfl, claims⟩ := coherent.files url member data there
  rw [fromUtf8_utf8] at decodes
  exact ⟨w, seen, (Option.some.inj decodes).symm, claims⟩

/-- **The newest version is written**: whoever claims something of it still has it. -/
theorem FilesCoherent.write (coherent : FilesCoherent origin lists newest claimed dir)
    (apart : Apart lists) {url : String} (member : url ∈ lists)
    (more : ∀ url' e, claimed' url' e → claimed url' e ∨
      url' = url ∧ origin.etag url (newest url) = some e) :
    FilesCoherent origin lists newest claimed'
      (dir.set (urlToFilename url) (some (utf8 (origin.body url (newest url))))) := by
  have bound : ∀ url' ∈ lists, ∀ e, claimed' url' e → ∀ v, origin.etag url' v = some e →
      v ≤ newest url' := by
    intro url' member' e claim v names
    rcases more url' e claim with old | ⟨rfl, tag⟩
    · exact coherent.bound url' member' e old v names
    · exact (origin.distinct _ _ _ _ names tag).le
  refine ⟨bound, fun url' member' data there => ?_⟩
  by_cases same : url' = url
  · subst same
    rw [Directory.set_same] at there
    obtain rfl := Option.some.inj there
    exact ⟨newest url', Nat.le_refl _, rfl, bound url' member'⟩
  · have other : urlToFilename url' ≠ urlToFilename url :=
      fun name => same (apart url' member' url member name)
    rw [Directory.set, if_neg other] at there
    obtain ⟨w, seen, holds, claims⟩ := coherent.files url' member' data there
    refine ⟨w, seen, holds, fun e claim => ?_⟩
    exact claims e ((more url' e claim).resolve_right fun new => same new.1)

end Files

/-! ## Runs -/

/-- The servers, the newest version of each that a request has seen, the cache, and the downloads
of all builds. -/
structure Sync where
  version : String → Nat
  newest : String → Nat
  store : Store
  jobs : List FetchJob
  arrived : List Arrived

inductive SyncAct where
  | publish (url : String)
  | plan (urls : List String) (ttl now : Nat)
  | download (job : FetchJob) (http : Http) (look : Look)
  | merge (now : Nat) (picks : List (Arrived × Option BodyFault))
  | prune (keepUrls : List String) (stuck : String → Bool)
  | save (faults : SaveFaults)
  | restart

def Arrived.attempt (pick : Arrived × Option BodyFault) : Attempt :=
  ⟨pick.1.url, pick.1.result, pick.2⟩

/-- The download has seen the version that the server publishes. -/
def DownloadResult.sees : DownloadResult → Bool
  | .fresh _ _ => true
  | .notModified => true
  | _ => false

/-- The newest version that is known after a download. -/
def seeNewest (newest : String → Nat) (a : Arrived) : String → Nat :=
  fun url => if url = a.url ∧ a.result.sees then max (newest url) a.version else newest url

section System

variable (codec : Codec) (path : String) (origin : Origin) (lists : List String)

/-- The builds of any number of tasks: each plans, downloads and merges under locks that it gives
back in between. -/
inductive SyncStep : Sync → SyncAct → Sync → Prop
  | publish {s : Sync} (url : String) :
      SyncStep s (.publish url)
        { s with version := Function.update s.version url (s.version url + 1) }
  | plan {s : Sync} {urls : List String} {ttl now : Nat} : (∀ url ∈ urls, url ∈ lists) →
      SyncStep s (.plan urls ttl now)
        { s with jobs := s.jobs ++ (s.store.cache.planFetches s.store.bodies urls ttl now).2 }
  /-- A download has come to its end, with answers of any versions up to now. -/
  | download {s : Sync} {job : FetchJob} {http : Http} {look : Look} {v v' : Nat}
      {arrived : Arrived} : job ∈ s.jobs →
      v ≤ v' → v' ≤ s.version job.url → origin.Honest job.url v v' http →
      look.Meets s.arrived job.url →
      arrived = job.answer http (look.seen s.store.bodies job.url) v v' →
      SyncStep s (.download job http look)
        { s with
          newest := seeNewest s.newest arrived
          jobs := s.jobs.erase job
          arrived := s.arrived ++ [arrived] }
  | merge {s : Sync} {now : Nat} {picks : List (Arrived × Option BodyFault)} {rest : List Arrived} :
      (picks.map Prod.fst ++ rest).Perm s.arrived →
      SyncStep s (.merge now picks)
        { s with
          store := s.store.apply codec path (.merge now (picks.map Arrived.attempt))
          arrived := rest }
  | prune {s : Sync} {keepUrls : List String} {stuck : String → Bool} :
      SyncStep s (.prune keepUrls stuck)
        { s with store := s.store.apply codec path (.prune keepUrls stuck) }
  | save {s : Sync} {faults : SaveFaults} :
      SyncStep s (.save faults) { s with store := s.store.apply codec path (.save faults) }
  /-- The program is killed and started again. -/
  | restart {s : Sync} :
      SyncStep s .restart
        { s with
          store := { s.store with cache := loadOrDefault codec s.store.disk path }
          jobs := []
          arrived := [] }

/-- The program starts with no metadata and no files. -/
def syncSystem : System Sync SyncAct where
  init s := s.store.cache = .default ∧ loadOrDefault codec s.store.disk path = .default ∧
    (∀ name, s.store.bodies name = none) ∧ s.jobs = [] ∧ s.arrived = [] ∧
    ∀ url, s.newest url ≤ s.version url
  step := SyncStep codec path origin lists

/-- A body is written whole or not at all, and is still the newest that any request has seen. -/
def PickStands (newest : String → Nat) (pick : Arrived × Option BodyFault) : Prop :=
  (∀ n e, pick.2 ≠ some (.torn n e)) ∧
    ∀ body etag, pick.1.result = .fresh body etag → pick.1.version = newest pick.1.url

/-- No write of a body breaks off half-way, no download falls back to a file that is being
written, none is overtaken, and what a failed save leaves of the metadata is what was there or a
part of the new data. -/
def Undisturbed (s : Sync) : SyncAct → Prop
  | .download job http look => ¬ look.Misleads s.store.bodies http job
  | .merge _ picks => ∀ pick ∈ picks, PickStands s.newest pick
  | .save faults => BreaksOffClean codec path s.store (.work (.save faults))
  | _ => True

/-! ## The invariant -/

/-- Someone may still act on the etag `e` of `url`. -/
def Sync.Claimed (s : Sync) (url e : String) : Prop :=
  s.store.cache.Names url e ∨ (loadOrDefault codec s.store.disk path).Names url e ∨
    (∃ job ∈ s.jobs, job.url = url ∧ job.etag = some e) ∨
      ∃ a ∈ s.arrived, a.url = url ∧ a.result = .notModified ∧ origin.etag url a.version = some e

/-- What has arrived is what was published, or on disk, when it did. -/
def Arrived.Sound (newest : String → Nat) (a : Arrived) : Prop :=
  match a.result with
  | .fresh body tag => body = origin.body a.url a.version ∧ tag = origin.etag a.url a.version
  | .notModified => (origin.etag a.url a.version).isSome
  | .staleFallback body => ∃ w ≤ newest a.url, body = origin.body a.url w
  | .failed _ => True

structure Coherent (s : Sync) : Prop where
  filed : KeepsFiled codec path s.store
  seen : ∀ url, s.newest url ≤ s.version url
  files : FilesCoherent origin lists s.newest (s.Claimed codec path origin) s.store.bodies
  jobs : ∀ job ∈ s.jobs, job.url ∈ lists
  arrived : ∀ a ∈ s.arrived, a.url ∈ lists ∧ a.Sound origin s.newest

variable {codec path origin lists}

theorem coherent_init {s : Sync} (initial : (syncSystem codec path origin lists).init s) :
    Coherent codec path origin lists s := by
  obtain ⟨empty, unsaved, noFiles, noJobs, nothing, seen⟩ := initial
  have unclaimed : ∀ url e, ¬ s.Claimed codec path origin url e := by
    rintro url e (⟨entry, found, -⟩ | ⟨entry, found, -⟩ | ⟨job, member, -⟩ | ⟨a, member, -⟩)
    · simp [empty, CachedLists.default] at found
    · simp [unsaved, CachedLists.default] at found
    · simp [noJobs] at member
    · simp [nothing] at member
  refine ⟨keepsFiled_init ⟨empty, unsaved⟩, seen, ⟨?_, ?_⟩, ?_, ?_⟩
  · exact fun url _ e claim => absurd claim (unclaimed url e)
  · intro url _ data there
    rw [noFiles] at there
    cases there
  · simp [noJobs]
  · simp [nothing]

/-- Jobs and answers may be dropped. -/
theorem Coherent.fewer {s : Sync} (coherent : Coherent codec path origin lists s)
    {jobs : List FetchJob} {arrived : List Arrived} (fewerJobs : jobs ⊆ s.jobs)
    (fewerArrived : arrived ⊆ s.arrived) :
    Coherent codec path origin lists { s with jobs, arrived } where
  filed := coherent.filed
  seen := coherent.seen
  files := by
    refine coherent.files.mono (fun _ => Nat.le_refl _) (fun url e claim => ?_) fun _ _ => id
    rcases claim with cached | saved | ⟨job, member, asked⟩ | ⟨a, member, answered⟩
    · exact .inl cached
    · exact .inr (.inl saved)
    · exact .inr (.inr (.inl ⟨job, fewerJobs member, asked⟩))
    · exact .inr (.inr (.inr ⟨a, fewerArrived member, answered⟩))
  jobs job member := coherent.jobs job (fewerJobs member)
  arrived a member := coherent.arrived a (fewerArrived member)

/-! ### Merges -/

section Merge

variable {newest : String → Nat} {other : String → String → Prop}

/-- A body that was written, behind its new entry. -/
theorem FilesCoherent.fresh (apart : Apart lists) {now : Nat} {c : CachedLists} {dir : Directory}
    {url : String}
    (coherent : FilesCoherent origin lists newest (fun url e => c.Names url e ∨ other url e) dir)
    (member : url ∈ lists) :
    FilesCoherent origin lists newest
      (fun url' e => CachedLists.Names ⟨c.map.insert url ⟨now, origin.etag url (newest url),
        urlToFilename url⟩, true⟩ url' e ∨ other url' e)
      (dir.set (urlToFilename url) (some (utf8 (origin.body url (newest url))))) := by
  refine coherent.write apart member fun url' e claim => ?_
  rcases claim with ⟨entry, found, tag⟩ | claim
  · rw [Std.ExtTreeMap.getElem?_insert] at found
    split at found
    · rename_i same
      obtain rfl := Std.LawfulEqCmp.eq_of_compare same
      cases found
      exact .inr ⟨rfl, tag⟩
    · exact .inl (.inl ⟨entry, found, tag⟩)
  · exact .inl (.inr claim)

/-- A 304 leaves the etag of the entry. -/
theorem names_of_refreshed {now : Nat} {c : CachedLists} {url : String} {entry : CachedList}
    (found : c.map[url]? = some entry) {url' e : String}
    (names : CachedLists.Names ⟨c.map.insert url { entry with fetchedAt := now }, true⟩ url' e) :
    c.Names url' e := by
  obtain ⟨entry', found', tag⟩ := names
  rw [Std.ExtTreeMap.getElem?_insert] at found'
  split at found'
  · rename_i same
    obtain rfl := Std.LawfulEqCmp.eq_of_compare same
    cases found'
    exact ⟨entry, found, tag⟩
  · exact ⟨entry', found', tag⟩

/-- **One turn of a merge** keeps what is claimed of the files. -/
theorem turn_coherent (apart : Apart lists) {now : Nat} {m : Merging} {a : Arrived}
    {fault : Option BodyFault}
    (coherent : FilesCoherent origin lists newest (fun url e => m.cache.Names url e ∨ other url e)
      m.dir)
    (member : a.url ∈ lists) (sound : a.Sound origin newest)
    (stands : PickStands newest (a, fault)) :
    FilesCoherent origin lists newest
      (fun url e => (mergeOne now m (Arrived.attempt (a, fault))).cache.Names url e ∨ other url e)
      (mergeOne now m (Arrived.attempt (a, fault))).dir := by
  cases result : a.result with
  | fresh body etag =>
      have current : a.version = newest a.url := stands.2 body etag result
      rw [Arrived.Sound, result, current] at sound
      obtain ⟨rfl, rfl⟩ := sound
      cases fault with
      | none =>
          rw [mergeOne_fresh (a := Arrived.attempt (a, none)) result rfl]
          dsimp only [Arrived.attempt]
          exact coherent.fresh apart member
      | some fault =>
          rw [mergeOne_fault (a := Arrived.attempt (a, some fault)) result rfl]
          cases fault with
          | torn n e => exact absurd rfl (stands.1 n e)
          | refused e =>
              dsimp only [Arrived.attempt, BodyFault.asWrite]
              refine coherent.mono (fun _ => Nat.le_refl _) (fun _ _ => id) ?_
              intro name data there
              unfold Directory.set at there
              split at there
              · rename_i same
                rw [same]
                exact there
              · exact there
  | notModified =>
      have result' : (Arrived.attempt (a, fault)).result = .notModified := result
      simp only [mergeOne, result']
      split
      · rename_i entry found
        split
        all_goals
          refine coherent.mono (fun _ => Nat.le_refl _) (fun url e => ?_) fun _ _ => id
          exact Or.imp_left (names_of_refreshed found)
      · split <;> exact coherent
  | staleFallback body =>
      have result' : (Arrived.attempt (a, fault)).result = .staleFallback body := result
      simp only [mergeOne, result']
      exact coherent
  | failed message =>
      have result' : (Arrived.attempt (a, fault)).result = .failed message := result
      simp only [mergeOne, result']
      exact coherent

theorem merge_coherent (apart : Apart lists) (now : Nat) {m : Merging}
    {picks : List (Arrived × Option BodyFault)}
    (coherent : FilesCoherent origin lists newest (fun url e => m.cache.Names url e ∨ other url e)
      m.dir)
    (sound : ∀ pick ∈ picks, pick.1.url ∈ lists ∧ pick.1.Sound origin newest)
    (stands : ∀ pick ∈ picks, PickStands newest pick) :
    FilesCoherent origin lists newest
      (fun url e => ((picks.map Arrived.attempt).foldl (mergeOne now) m).cache.Names url e ∨
        other url e)
      ((picks.map Arrived.attempt).foldl (mergeOne now) m).dir := by
  induction picks generalizing m with
  | nil => exact coherent
  | cons pick rest ih =>
      obtain ⟨member, whole⟩ := sound pick List.mem_cons_self
      exact ih (turn_coherent apart coherent member whole (stands pick List.mem_cons_self))
        (fun p among => sound p (List.mem_cons_of_mem _ among))
        fun p among => stands p (List.mem_cons_of_mem _ among)

end Merge

/-! ### The other steps -/

/-- A job asks for a planned URL with the etag of its entry. -/
theorem planFetches_jobs (c : CachedLists) (dir : Directory) (urls : List String) (ttl now : Nat) :
    ∀ job ∈ (c.planFetches dir urls ttl now).2,
      job.url ∈ urls ∧ job.etag = c.map[job.url]?.bind CachedList.etag := by
  induction urls using List.reverseRecOn with
  | nil =>
      intro job member
      cases member
  | append_singleton urls url ih =>
      intro job member
      rw [CachedLists.planFetches, List.foldl_append, List.foldl_cons, List.foldl_nil,
        ← CachedLists.planFetches] at member
      cases fresh : c.getIfFresh dir url ttl now with
      | some body =>
          simp only [fresh] at member
          obtain ⟨planned, tag⟩ := ih job member
          exact ⟨List.mem_append_left _ planned, tag⟩
      | none =>
          simp only [fresh] at member
          rcases List.mem_append.mp member with member | member
          · obtain ⟨planned, tag⟩ := ih job member
            exact ⟨List.mem_append_left _ planned, tag⟩
          · obtain rfl := List.mem_singleton.mp member
            exact ⟨List.mem_append_right _ (List.mem_singleton_self _), rfl⟩

/-- A planned body is a fresh one. -/
theorem mem_planFetches {c : CachedLists} {dir : Directory} {urls : List String} {ttl now : Nat}
    {p : String × String} (member : p ∈ (c.planFetches dir urls ttl now).1) :
    c.getIfFresh dir p.1 ttl now = some p.2 := by
  induction urls using List.reverseRecOn with
  | nil => cases member
  | append_singleton urls url ih =>
      rw [CachedLists.planFetches, List.foldl_append, List.foldl_cons, List.foldl_nil,
        ← CachedLists.planFetches] at member
      cases fresh : c.getIfFresh dir url ttl now with
      | some body =>
          simp only [fresh] at member
          rcases List.mem_append.mp member with member | member
          · exact ih member
          · obtain rfl := List.mem_singleton.mp member
            exact fresh
      | none =>
          simp only [fresh] at member
          exact ih member

theorem names_of_plan {c : CachedLists} {dir : Directory} {urls : List String} {ttl now : Nat}
    {job : FetchJob} (member : job ∈ (c.planFetches dir urls ttl now).2) {e : String}
    (tag : job.etag = some e) : c.Names job.url e := by
  rw [(planFetches_jobs c dir urls ttl now job member).2] at tag
  obtain ⟨entry, found, named⟩ := Option.bind_eq_some_iff.mp tag
  exact ⟨entry, found, named⟩

theorem names_prune {c : CachedLists} {keepUrls : List String} {dir : Directory}
    {stuck : String → Bool} {url e : String} (names : (c.prune keepUrls dir stuck).1.Names url e) :
    c.Names url e := by
  obtain ⟨entry, found, tag⟩ := names
  rw [entry_prune] at found
  exact ⟨entry, (Option.ite_none_right_eq_some.mp found).2, tag⟩

theorem file_of_prune {c : CachedLists} {keepUrls : List String} {dir : Directory}
    {stuck : String → Bool} {name : String} {data : List UInt8}
    (there : (c.prune keepUrls dir stuck).2 name = some data) : dir name = some data := by
  simp only [CachedLists.prune, removeBodies_apply] at there
  exact (Option.ite_none_left_eq_some.mp there).2

/-- Nothing newer is known than what is published, and what was known is not forgotten. -/
theorem seeNewest_bounds {newest version : String → Nat} (seen : ∀ url, newest url ≤ version url)
    {a : Arrived} (published : a.version ≤ version a.url) (url : String) :
    newest url ≤ seeNewest newest a url ∧ seeNewest newest a url ≤ version url := by
  unfold seeNewest
  split
  · rename_i here
    rw [here.1]
    exact ⟨Nat.le_max_left _ _, Nat.max_le.mpr ⟨seen _, published⟩⟩
  · exact ⟨Nat.le_refl _, seen url⟩

theorem Arrived.Sound.mono {newest newest' : String → Nat} {a : Arrived}
    (sound : a.Sound origin newest) (later : ∀ url, newest url ≤ newest' url) :
    a.Sound origin newest' := by
  unfold Arrived.Sound at sound ⊢
  split <;> rename_i result <;> simp only [result] at sound
  · exact sound
  · exact sound
  · obtain ⟨w, seen, holds⟩ := sound
    exact ⟨w, seen.trans (later _), holds⟩
  · trivial

section Download

variable {s : Sync} {job : FetchJob} {http : Http} {look : Look} {v v' : Nat}

theorem download_sound (coherent : Coherent codec path origin lists s) (member : job ∈ s.jobs)
    (honest : origin.Honest job.url v v' http) (led : ¬ look.Misleads s.store.bodies http job) :
    Arrived.Sound origin s.newest (job.answer http (look.seen s.store.bodies job.url) v v') := by
  have brings := @brings_downloadOne origin http (look.seen s.store.bodies job.url) job.url
    job.etag _ _ honest
  unfold Arrived.Sound FetchJob.answer
  dsimp only
  cases result : downloadOne http (look.seen s.store.bodies job.url) job.url job.etag with
  | fresh body tag =>
      rw [result] at brings
      exact brings
  | notModified =>
      rw [result] at brings
      obtain ⟨e, -, names⟩ := brings
      exact Option.isSome_iff_exists.mpr ⟨e, names⟩
  | staleFallback body =>
      obtain ⟨w, seen, holds, -⟩ :=
        coherent.files.read (coherent.jobs job member) (Look.fallback honest led result)
      exact ⟨w, seen, holds⟩
  | failed message => trivial

/-- An unanswered request, or its 304, is a claim as good as the entry. -/
theorem claimed_of_download (member : job ∈ s.jobs) (honest : origin.Honest job.url v v' http)
    {e : String} {dir : Directory}
    (unchanged : downloadOne http dir job.url job.etag = .notModified)
    (names : origin.etag job.url (answeredAt http dir job.url job.etag v v') = some e) :
    s.Claimed codec path origin job.url e := by
  have brings := @brings_downloadOne origin http dir job.url job.etag _ _ honest
  rw [unchanged] at brings
  obtain ⟨e', asked, current⟩ := brings
  obtain rfl := Option.some.inj (current.symm.trans names)
  exact .inr (.inr (.inl ⟨job, member, rfl, asked⟩))

end Download

/-- **Every undisturbed step keeps the invariant.** -/
theorem coherent_step (faithful : codec.Faithful) (apart : Apart lists) {s s' : Sync}
    {act : SyncAct} (coherent : Coherent codec path origin lists s)
    (undisturbed : Undisturbed codec path s act)
    (step : SyncStep codec path origin lists s act s') :
    Coherent codec path origin lists s' := by
  have keepsFiled : ∀ a store, BreaksOffClean codec path s.store a →
      (restartSystem codec path).step s.store a store → KeepsFiled codec path store :=
    fun a store clean stepped => keepsFiled_step faithful coherent.filed clean stepped
  cases step with
  | publish url =>
      refine { coherent with seen := fun url' => (coherent.seen url').trans ?_ }
      dsimp only
      rw [Function.update_apply]
      split
      · rename_i same
        rw [same]
        exact Nat.le_succ _
      · exact Nat.le_refl _
  | plan planned =>
      rename_i urls ttl now
      have asked := planFetches_jobs s.store.cache s.store.bodies urls ttl now
      refine { coherent with files := ?_, jobs := ?_ }
      · refine coherent.files.mono (fun _ => Nat.le_refl _) (fun url e claim => ?_) fun _ _ => id
        rcases claim with cached | saved | ⟨job, member, rfl, tag⟩ | arrived
        · exact .inl cached
        · exact .inr (.inl saved)
        · rcases List.mem_append.mp member with old | new
          · exact .inr (.inr (.inl ⟨job, old, rfl, tag⟩))
          · exact .inl (names_of_plan new tag)
        · exact .inr (.inr (.inr arrived))
      · intro job member
        rcases List.mem_append.mp member with old | new
        · exact coherent.jobs job old
        · exact planned _ (asked job new).1
  | download member later published honest meets arrives =>
      rename_i job http look v v' arrived
      subst arrives
      have bounds := seeNewest_bounds coherent.seen
        (a := job.answer http (look.seen s.store.bodies job.url) v v')
        ((answeredAt_bounds later).2.trans published)
      refine
        { filed := coherent.filed
          seen := fun url => (bounds url).2
          files := coherent.files.mono (fun url => (bounds url).1) ?_ fun _ _ => id
          jobs := fun other among => coherent.jobs other (List.mem_of_mem_erase among)
          arrived := ?_ }
      · intro url e claim
        rcases claim with cached | saved | ⟨other, among, tag⟩ | ⟨a, among, rfl, unchanged, names⟩
        · exact .inl cached
        · exact .inr (.inl saved)
        · exact .inr (.inr (.inl ⟨other, List.mem_of_mem_erase among, tag⟩))
        · rcases List.mem_append.mp among with old | new
          · exact .inr (.inr (.inr ⟨a, old, rfl, unchanged, names⟩))
          · obtain rfl := List.mem_singleton.mp new
            exact claimed_of_download member honest unchanged names
      · intro a among
        rcases List.mem_append.mp among with old | new
        · obtain ⟨known, sound⟩ := coherent.arrived a old
          exact ⟨known, sound.mono fun url => (bounds url).1⟩
        · obtain rfl := List.mem_singleton.mp new
          exact ⟨coherent.jobs job member,
            (download_sound coherent member honest undisturbed).mono fun url => (bounds url).1⟩
  | merge split =>
      rename_i now picks rest
      have old : ∀ a ∈ picks.map Prod.fst ++ rest, a ∈ s.arrived := fun a => split.mem_iff.mp
      refine
        { filed := keepsFiled (.work (.merge now (picks.map Arrived.attempt))) _ trivial rfl
          seen := coherent.seen
          files := ?_
          jobs := coherent.jobs
          arrived := fun a member => coherent.arrived a (old a (List.mem_append_right _ member)) }
      have sound : ∀ pick ∈ picks, pick.1.url ∈ lists ∧ pick.1.Sound origin s.newest := by
        intro pick member
        exact coherent.arrived _ (old _ (List.mem_append_left _ (List.mem_map_of_mem member)))
      have merged := merge_coherent apart now (m := ⟨s.store.cache, s.store.bodies, []⟩)
        coherent.files sound undisturbed
      refine merged.mono (fun _ => Nat.le_refl _) (fun url e claim => ?_) fun _ _ => id
      rcases claim with cached | saved | asked | ⟨a, member, arrived⟩
      · exact .inl cached
      · exact .inr (.inl saved)
      · exact .inr (.inr (.inl asked))
      · exact .inr (.inr (.inr ⟨a, old a (List.mem_append_right _ member), arrived⟩))
  | prune =>
      rename_i keepUrls stuck
      refine
        { coherent with
          filed := keepsFiled (.work (.prune keepUrls stuck)) _ trivial rfl
          files := ?_ }
      refine coherent.files.mono (fun _ => Nat.le_refl _) (fun url e claim => ?_)
        fun _ _ => file_of_prune
      exact claim.imp_left (@names_prune s.store.cache keepUrls s.store.bodies stuck url e)
  | save =>
      rename_i faults
      refine
        { coherent with
          filed := keepsFiled (.work (.save faults)) _ undisturbed rfl
          files := ?_ }
      have map : (s.store.apply codec path (.save faults)).cache.map = s.store.cache.map :=
        saveToDisk_map s.store.cache s.store.disk faults
      refine coherent.files.mono (fun _ => Nat.le_refl _) (fun url e claim => ?_) fun _ _ => id
      rcases claim with ⟨entry, found, tag⟩ | ⟨entry, found, tag⟩ | claim
      · exact .inl ⟨entry, map ▸ found, tag⟩
      · rcases loadOrDefault_save faithful undisturbed with same | lost | same
        · exact .inr (.inl ⟨entry, same ▸ found, tag⟩)
        · rw [lost] at found
          simp [CachedLists.default] at found
        · exact .inl ⟨entry, same ▸ found, tag⟩
      · exact .inr (.inr claim)
  | restart =>
      refine
        { filed := keepsFiled .restart _ trivial rfl
          seen := coherent.seen
          files := ?_
          jobs := fun _ member => absurd member List.not_mem_nil
          arrived := fun _ member => absurd member List.not_mem_nil }
      refine coherent.files.mono (fun _ => Nat.le_refl _) (fun url e claim => ?_) fun _ _ => id
      rcases claim with saved | saved | ⟨job, member, -⟩ | ⟨a, member, -⟩
      · exact .inr (.inl saved)
      · exact .inr (.inl saved)
      · cases member
      · cases member

/-! ## What is served -/

/-- The body is a published version of the list, and if the download saw the server's, no older
than that. -/
def Arrived.Serves (origin : Origin) (newest : String → Nat) (a : Arrived) (p : String × String) :
    Prop :=
  p.1 = a.url ∧ ∃ w ≤ newest a.url, p.2 = origin.body a.url w ∧ (a.result.sees → a.version ≤ w)

section Serving

variable {newest : String → Nat} {claimed : String → String → Prop}

/-- **What one turn returns** of a sound answer. -/
theorem turn_serves {now : Nat} {m : Merging} {a : Arrived} {fault : Option BodyFault}
    (files : FilesCoherent origin lists newest claimed m.dir) (filed : AllFiled m.cache)
    (member : a.url ∈ lists) (sound : a.Sound origin newest)
    (stands : PickStands newest (a, fault))
    (claims : ∀ e, a.result = .notModified → origin.etag a.url a.version = some e →
      claimed a.url e)
    {p : String × String} (pushed : p ∈ (mergeOne now m (Arrived.attempt (a, fault))).bodies) :
    p ∈ m.bodies ∨ a.Serves origin newest p := by
  cases result : a.result with
  | fresh body etag =>
      have current : a.version = newest a.url := stands.2 body etag result
      rw [Arrived.Sound, result] at sound
      cases fault with
      | none =>
          rw [mergeOne_fresh (a := Arrived.attempt (a, none)) result rfl] at pushed
          refine (List.mem_append.mp pushed).imp_right fun new => ?_
          obtain rfl := List.mem_singleton.mp new
          exact ⟨rfl, a.version, current.le, sound.1, fun _ => Nat.le_refl _⟩
      | some fault =>
          rw [mergeOne_fault (a := Arrived.attempt (a, some fault)) result rfl] at pushed
          exact .inl pushed
  | notModified =>
      rw [Arrived.Sound, result] at sound
      obtain ⟨e, names⟩ := Option.isSome_iff_exists.mp sound
      -- whichever name the body is read under, it is the file of the URL
      have reads : ∀ body, readBodyFile m.dir (urlToFilename a.url) = some body →
          a.Serves origin newest (a.url, body) := by
        intro body reads
        obtain ⟨w, seen, holds, later⟩ := files.read member reads
        exact ⟨rfl, w, seen, holds, fun _ => later e (claims e result names) _ names⟩
      have result' : (Arrived.attempt (a, fault)).result = .notModified := result
      simp only [mergeOne, result'] at pushed
      split at pushed
      · rename_i entry found
        rw [filed _ entry found] at pushed
        split at pushed
        · rename_i body there
          refine (List.mem_append.mp pushed).imp_right fun new => ?_
          obtain rfl := List.mem_singleton.mp new
          exact reads body there
        · exact .inl pushed
      · split at pushed
        · rename_i body there
          refine (List.mem_append.mp pushed).imp_right fun new => ?_
          obtain rfl := List.mem_singleton.mp new
          exact reads body there
        · exact .inl pushed
  | staleFallback body =>
      rw [Arrived.Sound, result] at sound
      have result' : (Arrived.attempt (a, fault)).result = .staleFallback body := result
      simp only [mergeOne, result'] at pushed
      refine (List.mem_append.mp pushed).imp_right fun new => ?_
      obtain rfl := List.mem_singleton.mp new
      obtain ⟨w, seen, holds⟩ := sound
      exact ⟨rfl, w, seen, holds, by simp [result, DownloadResult.sees]⟩
  | failed message =>
      have result' : (Arrived.attempt (a, fault)).result = .failed message := result
      simp only [mergeOne, result'] at pushed
      exact .inl pushed

end Serving

/-- Every body that a merge of arrived answers returns is served by one of them. -/
theorem merge_serves (apart : Apart lists) {s : Sync}
    (coherent : Coherent codec path origin lists s) {now : Nat}
    {picks : List (Arrived × Option BodyFault)} (arrived : ∀ pick ∈ picks, pick.1 ∈ s.arrived)
    (stands : ∀ pick ∈ picks, PickStands s.newest pick) :
    ∀ p ∈ (mergeDownloads now s.store.cache s.store.bodies (picks.map Arrived.attempt)).bodies,
      ∃ pick ∈ picks, pick.1.Serves origin s.newest p := by
  induction picks using List.reverseRecOn with
  | nil =>
      intro p member
      cases member
  | append_singleton picks pick ih =>
      intro p pushed
      have earlier : ∀ q ∈ picks, q ∈ picks ++ [pick] := fun q => List.mem_append_left _
      have sound : ∀ q ∈ picks, q.1.url ∈ lists ∧ q.1.Sound origin s.newest :=
        fun q member => coherent.arrived _ (arrived q (earlier q member))
      have files := merge_coherent apart now (m := ⟨s.store.cache, s.store.bodies, []⟩)
        coherent.files sound fun q member => stands q (earlier q member)
      have filed := coherent.filed.cache.merge now s.store.bodies (picks.map Arrived.attempt)
      have last : pick ∈ picks ++ [pick] := List.mem_append_right _ (List.mem_singleton_self _)
      obtain ⟨known, whole⟩ := coherent.arrived _ (arrived pick last)
      rw [List.map_append, mergeDownloads, List.foldl_append] at pushed
      rcases turn_serves files filed known whole (stands pick last)
          (fun e unchanged names =>
            .inr (.inr (.inr ⟨pick.1, arrived pick last, rfl, unchanged, names⟩)))
          pushed with before | serves
      · obtain ⟨q, member, serves⟩ := ih (fun q member => arrived q (earlier q member))
          (fun q member => stands q (earlier q member)) p before
        exact ⟨q, earlier q member, serves⟩
      · exact ⟨pick, last, serves⟩

/-- A fresh body is the one that its entry was made for, or a newer one. -/
theorem plan_serves {s : Sync} (coherent : Coherent codec path origin lists s) {urls : List String}
    {ttl now : Nat} {p : String × String}
    (planned : p ∈ (s.store.cache.planFetches s.store.bodies urls ttl now).1)
    (known : p.1 ∈ lists) :
    ∃ w ≤ s.newest p.1, p.2 = origin.body p.1 w ∧
      ∀ entry e, s.store.cache.map[p.1]? = some entry → entry.etag = some e →
        ∀ v, origin.etag p.1 v = some e → v ≤ w := by
  have fresh := mem_planFetches planned
  obtain ⟨w, seen, holds, later⟩ :=
    coherent.files.read known (coherent.filed.cache.pathsAgree.reads _ _ _ _ fresh)
  exact ⟨w, seen, holds, fun entry e found tag => later e (.inl ⟨entry, found, tag⟩)⟩

/-- **What is served was published, and a 304 vouches for no older version**: in every
undisturbed run, each fresh body that a plan gives is a version that the server published, no
older than the one its etag names; and each body that a merge returns is one, no older than what
the server had when it answered. -/
theorem run_serves (faithful : codec.Faithful) (apart : Apart lists) {s : Sync}
    (run : Run (syncSystem codec path origin lists) (Undisturbed codec path) s) :
    (∀ urls ttl now, ∀ p ∈ (s.store.cache.planFetches s.store.bodies urls ttl now).1,
      p.1 ∈ lists → ∃ w ≤ s.version p.1, p.2 = origin.body p.1 w ∧
        ∀ entry e, s.store.cache.map[p.1]? = some entry → entry.etag = some e →
          ∀ v, origin.etag p.1 v = some e → v ≤ w) ∧
    ∀ now (picks : List (Arrived × Option BodyFault)),
      (∀ pick ∈ picks, pick.1 ∈ s.arrived ∧ PickStands s.newest pick) →
      ∀ p ∈ (mergeDownloads now s.store.cache s.store.bodies (picks.map Arrived.attempt)).bodies,
        ∃ pick ∈ picks, p.1 = pick.1.url ∧ ∃ w ≤ s.version p.1, p.2 = origin.body p.1 w ∧
          (pick.1.result.sees → pick.1.version ≤ w) := by
  have coherent : Coherent codec path origin lists s := by
    apply run.invariant
    · intro s initial
      exact coherent_init initial
    · intro s act s' coherent undisturbed step
      exact coherent_step faithful apart coherent undisturbed step
  constructor
  · intro urls ttl now p planned known
    obtain ⟨w, seen, serves⟩ := plan_serves coherent planned known
    exact ⟨w, seen.trans (coherent.seen _), serves⟩
  · intro now picks stand p pushed
    obtain ⟨pick, member, same, w, seen, serves⟩ :=
      merge_serves apart coherent (fun pick member => (stand pick member).1)
        (fun pick member => (stand pick member).2) p pushed
    rw [same]
    exact ⟨pick, member, rfl, w, seen.trans (coherent.seen _), serves⟩

end System

/-! ## A list that is asked for again -/

/-- Version 0 of every list has an etag. -/
def exampleOrigin : Origin where
  body _ v := if v = 0 then "||ads.com^\n" else "||bad.net^\n"
  etag _ v := if v = 0 then some "\"0\"" else none
  distinct url v w e first second := by
    simp only [Option.ite_none_right_eq_some] at first second
    rw [first.1, second.1]

/-- The server while it publishes version 0. -/
def versionZero : Http := fun _ _ condition =>
  if condition = some "\"0\"" then .ok ⟨304, "304 Not Modified", some "\"0\"", .ok ""⟩
  else .ok ⟨200, "200 OK", some "\"0\"", .ok "||ads.com^\n"⟩

theorem versionZero_honest (url : String) : exampleOrigin.Honest url 0 0 versionZero where
  unchanged condition resp answered status := by
    by_cases known : condition = some "\"0\""
    · exact ⟨_, known, rfl⟩
    · rw [versionZero, if_neg known] at answered
      cases answered
      cases status
  list condition resp body answered status text := by
    by_cases known : condition = some "\"0\""
    · rw [versionZero, if_pos known] at answered
      cases answered
      cases status
    · rw [versionZero, if_neg known] at answered
      cases answered
      cases text
      exact ⟨rfl, rfl⟩
  again resp body answered text := by
    cases answered
    cases text
    exact ⟨rfl, rfl⟩

/-- The list arrives, and a day later its 304. -/
def firstAnswer : Arrived := ⟨fetched.url, 0, .fresh "||ads.com^\n" (some "\"0\"")⟩

def secondAnswer : Arrived := ⟨fetched.url, 0, .notModified⟩

def afterFirst : Store :=
  started.apply exampleCodec "cache.json"
    (.merge 1700000000 [Arrived.attempt (firstAnswer, none)])

theorem afterFirst_eq :
    afterFirst.cache.map[fetched.url]? =
        some ⟨1700000000, some "\"0\"", urlToFilename fetched.url⟩ ∧
      readBodyFile afterFirst.bodies (urlToFilename fetched.url) = some "||ads.com^\n" := by
  have turn : mergeDownloads 1700000000 started.cache started.bodies
      [Arrived.attempt (firstAnswer, none)] = _ :=
    mergeOne_fresh (a := Arrived.attempt (firstAnswer, none)) rfl rfl
  rw [afterFirst, Store.apply, turn]
  refine ⟨Std.ExtTreeMap.getElem?_insert_self, ?_⟩
  simp [readBodyFile, Directory.readToString, Arrived.attempt, firstAnswer]

theorem firstAnswer_eq :
    firstAnswer = FetchJob.answer ⟨fetched.url, none⟩ versionZero
      (Look.whole.seen started.bodies fetched.url) 0 0 := rfl

theorem secondAnswer_eq :
    secondAnswer = FetchJob.answer ⟨fetched.url, some "\"0\""⟩ versionZero
      (Look.whole.seen afterFirst.bodies fetched.url) 0 0 := by
  simp [secondAnswer, FetchJob.answer, answeredAt, downloadOne, versionZero, Look.seen,
    afterFirst_eq.2]

def syncStarted : Sync := ⟨fun _ => 0, fun _ => 0, started, [], []⟩

/-- The list is fetched, and asked for again when it is too old. -/
theorem run_serves_again :
    ∃ s, Run (syncSystem exampleCodec "cache.json" exampleOrigin [fetched.url])
        (Undisturbed exampleCodec "cache.json") s ∧
      s.arrived = [secondAnswer] ∧ s.store = afterFirst ∧
      ∃ p ∈ (mergeDownloads 1700086400 s.store.cache s.store.bodies
          [Arrived.attempt (secondAnswer, none)]).bodies,
        p = (fetched.url, "||ads.com^\n") ∧
          ∃ w ≤ s.version fetched.url, p.2 = exampleOrigin.body fetched.url w := by
  obtain ⟨entry, file⟩ := afterFirst_eq
  have known : ∀ url ∈ [fetched.url], url ∈ [fetched.url] := fun url => id
  have apart : Apart [fetched.url] := fun url here url' there _ =>
    (List.mem_singleton.mp here).trans (List.mem_singleton.mp there).symm
  have whole : ∀ n e, (none : Option BodyFault) ≠ some (.torn n e) := by simp
  have start : Run (syncSystem exampleCodec "cache.json" exampleOrigin [fetched.url])
      (Undisturbed exampleCodec "cache.json") syncStarted :=
    .init ⟨rfl, rfl, fun _ => rfl, rfl, rfl, fun _ => Nat.le_refl _⟩
  have planned := start.step (a := SyncAct.plan [fetched.url] 0 1700000000) trivial (.plan known)
  have first := planned.step (a := SyncAct.download ⟨fetched.url, none⟩ versionZero .whole) id
    (.download (List.mem_singleton_self _) (Nat.le_refl 0) (Nat.le_refl 0) (versionZero_honest _)
      trivial firstAnswer_eq)
  have merged := first.step (a := SyncAct.merge 1700000000 [(firstAnswer, none)]) ?_
    (.merge (List.Perm.refl [firstAnswer]))
  · have planned := merged.step (a := SyncAct.plan [fetched.url] 0 1700086400) trivial (.plan known)
    have second := planned.step
      (a := SyncAct.download ⟨fetched.url, some "\"0\""⟩ versionZero .whole) id
      (.download ?_ (Nat.le_refl 0) (Nat.le_refl 0) (versionZero_honest _) trivial secondAnswer_eq)
    · have pushed : (mergeDownloads 1700086400 afterFirst.cache afterFirst.bodies
          [Arrived.attempt (secondAnswer, none)]).bodies = [(fetched.url, "||ads.com^\n")] := by
        simp [mergeDownloads, mergeOne, Arrived.attempt, secondAnswer, entry, file]
      have returned : (fetched.url, "||ads.com^\n") ∈ (mergeDownloads 1700086400 afterFirst.cache
          afterFirst.bodies [Arrived.attempt (secondAnswer, none)]).bodies := by
        rw [pushed]
        exact List.mem_singleton_self _
      obtain ⟨pick, -, -, w, old, holds, -⟩ :=
        (run_serves exampleCodec_faithful apart second).2 1700086400 [(secondAnswer, none)]
          (List.forall_mem_singleton.mpr ⟨List.mem_singleton_self _, whole, by simp [secondAnswer]⟩)
          _ returned
      exact ⟨_, second, rfl, rfl, _, returned, rfl, w, old, holds⟩
    · refine List.mem_append_right _ ?_
      show _ ∈ (afterFirst.cache.planFetches afterFirst.bodies [fetched.url] 0 1700086400).2
      simp [CachedLists.planFetches, CachedLists.getIfFresh, entry]
  · refine List.forall_mem_singleton.mpr ⟨whole, fun _ _ _ => ?_⟩
    simp [firstAnswer, seeNewest, syncStarted]

/-- Where the server is down and the file has just been cut off, the fallback is no version. -/
example : (FetchJob.answer ⟨fetched.url, none⟩ (fun _ _ _ => .error "timed out")
    ((Look.torn []).seen afterFirst.bodies fetched.url) 0 0).result = .staleFallback "" ∧
      ∀ v, exampleOrigin.body fetched.url v ≠ "" := by
  have empty : fromUtf8 [] = some "" := fromUtf8_utf8 ""
  refine ⟨by simp [FetchJob.answer, downloadOne, Look.seen, readBodyFile, Directory.readToString,
    orStale, empty], fun v => ?_⟩
  show (if v = 0 then "||ads.com^\n" else "||bad.net^\n") ≠ ""
  split <;> decide

end DnsLigase.Cache
