/-
# Cache.Plan — `plan_fetches`, and what "fresh" means over a whole run

A plan gives the body of every requested URL that is fresh enough, and a job for every
other one.  Freshness is the age of `fetched_at`, which `merge_downloads` sets when a
fresh body was written or when a 304 finds an entry (`Refreshes`), and `prune` forgets.

`freshness_honest` says what this comes to in every run that starts with the empty cache:
a URL is served from the cache exactly when its body file can be read and a merge that
refreshed it, since the last prune of it, is younger than the TTL.  A body file that a
failed write cut inside a character is there but cannot be read (`cutFile_refetched`).
-/
import DnsLigase.Cache.Persist
import DnsLigase.Theory.History

namespace DnsLigase.Cache

open DnsLigase.Theory.History DnsLigase.Theory.Io DnsLigase.Theory.Utf8

set_option autoImplicit false

/-! ## The plan -/

/-- `get_if_fresh` when the clock reads `now`. -/
def CachedLists.getIfFresh (c : CachedLists) (dir : Directory) (url : String)
    (intervalSecs now : Nat) : Option String :=
  match c.map[url]? with
  | none => none
  | some entry =>
      if now - entry.fetchedAt < intervalSecs then readBodyFile dir entry.filename else none

/-- One URL needing a download, with its stored etag for a conditional GET. -/
structure FetchJob where
  url : String
  etag : Option String
  deriving DecidableEq, Repr

/-- `plan_fetches`: the fresh bodies, and the jobs. -/
def CachedLists.planFetches (c : CachedLists) (dir : Directory) (urls : List String)
    (intervalSecs now : Nat) : List (String × String) × List FetchJob :=
  urls.foldl (fun (fresh, jobs) url =>
    match c.getIfFresh dir url intervalSecs now with
    | some body => (fresh ++ [(url, body)], jobs)
    | none => (fresh, jobs ++ [⟨url, c.map[url]?.bind CachedList.etag⟩])) ([], [])

section Plan

variable (c : CachedLists) (dir : Directory) (urls : List String) (intervalSecs now : Nat)

/-- The URLs that a plan serves from the cache. -/
def planned : List String := (c.planFetches dir urls intervalSecs now).1.map Prod.fst

/-- The URLs that a plan has downloaded. -/
def queued : List String := (c.planFetches dir urls intervalSecs now).2.map FetchJob.url

/-- **A plan splits the requested URLs by freshness**, keeping their order. -/
theorem planned_queued :
    planned c dir urls intervalSecs now =
      urls.filter (fun url => (c.getIfFresh dir url intervalSecs now).isSome) ∧
    queued c dir urls intervalSecs now =
      urls.filter fun url => !(c.getIfFresh dir url intervalSecs now).isSome := by
  unfold planned queued CachedLists.planFetches
  induction urls using List.reverseRecOn with
  | nil => exact ⟨rfl, rfl⟩
  | append_singleton urls url ih =>
      rw [List.foldl_append, List.foldl_cons, List.foldl_nil, List.filter_append,
        List.filter_append, ← ih.1, ← ih.2]
      cases fresh : c.getIfFresh dir url intervalSecs now <;> simp [fresh]

end Plan

/-! ## Turns and merges that refresh an entry -/

/-- The turn on `a` refreshes the entry of its URL. -/
def Refreshes (c : CachedLists) (a : Attempt) : Prop :=
  (∃ body etag, a.result = .fresh body etag ∧ a.fault = none) ∨
    a.result = .notModified ∧ (c.map[a.url]?).isSome

/-- The entry of the URL, if there is one, names the file of the URL. -/
def Filed (c : CachedLists) (url : String) : Prop :=
  ∀ entry, c.map[url]? = some entry → entry.filename = urlToFilename url

section Turn

variable {now : Nat} {s : Merging} {a : Attempt} {url : String}

theorem mergeOne_of_refreshes (filed : Filed s.cache a.url) (refreshes : Refreshes s.cache a) :
    ∃ etag, (mergeOne now s a).cache.map[a.url]? = some ⟨now, etag, urlToFilename a.url⟩ := by
  rcases refreshes with ⟨body, etag, result, wrote⟩ | ⟨result, present⟩
  · rw [mergeOne_fresh result wrote]
    exact ⟨etag, by simp⟩
  · obtain ⟨entry, found⟩ := Option.isSome_iff_exists.mp present
    refine ⟨entry.etag, ?_⟩
    have name := filed entry found
    simp only [mergeOne, result, found]
    split <;> simp [name]

theorem mergeOne_other (other : ¬ (a.url = url ∧ Refreshes s.cache a)) :
    (mergeOne now s a).cache.map[url]? = s.cache.map[url]? := by
  cases result : a.result with
  | fresh body etag =>
      cases failed : a.fault with
      | none =>
          rw [mergeOne_fresh result failed]
          have ne : a.url ≠ url := fun same => other ⟨same, .inl ⟨body, etag, result, failed⟩⟩
          simp [Std.ExtTreeMap.getElem?_insert, ne]
      | some fault => rw [mergeOne_fault result failed]
  | notModified =>
      simp only [mergeOne, result]
      cases found : s.cache.map[a.url]? with
      | none =>
          dsimp only
          split <;> rfl
      | some entry =>
          have ne : a.url ≠ url := fun same =>
            other ⟨same, .inr ⟨result, Option.isSome_iff_exists.mpr ⟨entry, found⟩⟩⟩
          dsimp only
          split <;> simp [Std.ExtTreeMap.getElem?_insert, ne]
  | staleFallback body => simp only [mergeOne, result]
  | failed message => simp only [mergeOne, result]

end Turn

section Merge

variable (now : Nat) (c : CachedLists) (dir : Directory) (url : String)

/-- Some turn of the merge refreshes the entry of `url`. -/
def MergeRefreshes (attempts : List Attempt) : Prop :=
  Once (fun first a => a.url = url ∧ Refreshes (mergeDownloads now c dir first).cache a) attempts

variable {now c dir url}

/-- **What a merge makes of an entry**: dated now if a turn refreshes it, else as it was. -/
theorem entry_mergeDownloads (filed : Filed c url) (attempts : List Attempt) :
    (MergeRefreshes now c dir url attempts ∧ ∃ etag,
      (mergeDownloads now c dir attempts).cache.map[url]? =
        some ⟨now, etag, urlToFilename url⟩) ∨
    (¬ MergeRefreshes now c dir url attempts ∧
      (mergeDownloads now c dir attempts).cache.map[url]? = c.map[url]?) := by
  induction attempts using List.reverseRecOn with
  | nil => exact .inr ⟨not_since_nil, rfl⟩
  | append_singleton attempts a ih =>
      have turn : mergeDownloads now c dir (attempts ++ [a]) =
          mergeOne now (mergeDownloads now c dir attempts) a := List.foldl_append
      have filed' : Filed (mergeDownloads now c dir attempts).cache url := by
        intro entry found
        rcases ih with ⟨-, etag, same⟩ | ⟨-, same⟩
        · rw [same] at found
          cases found
          rfl
        · exact filed entry (same ▸ found)
      rw [MergeRefreshes, Once, since_snoc, turn]
      by_cases refreshes : a.url = url ∧ Refreshes (mergeDownloads now c dir attempts).cache a
      · obtain ⟨rfl, refreshes'⟩ := refreshes
        exact .inl ⟨.inl ⟨rfl, refreshes'⟩, mergeOne_of_refreshes filed' refreshes'⟩
      · rw [mergeOne_other refreshes]
        rcases ih with ⟨once, same⟩ | ⟨never, same⟩
        · exact .inl ⟨.inr ⟨once, trivial⟩, same⟩
        · exact .inr ⟨fun once => once.elim refreshes fun before => never before.1, same⟩

end Merge

/-! ## What a prune leaves -/

theorem entry_prune (c : CachedLists) (keepUrls : List String) (dir : Directory)
    (stuck : String → Bool) (url : String) :
    (c.prune keepUrls dir stuck).1.map[url]? = if url ∈ keepUrls then c.map[url]? else none := by
  simp only [CachedLists.prune, Std.ExtTreeMap.getElem?_filter']
  cases c.map[url]? <;> simp [Option.filter]

/-- The values of a map are those found under some key. -/
theorem mem_values {α β : Type} {cmp : α → α → Ordering} [Std.TransCmp cmp] [Std.LawfulEqCmp cmp]
    {map : Std.ExtTreeMap α β cmp} {value : β} :
    value ∈ map.values ↔ ∃ key : α, map[key]? = some value := by
  have pairs : map.values = map.toList.map Prod.snd := by
    obtain ⟨⟨tree⟩⟩ := map
    induction tree using Quotient.inductionOn with
    | h tree =>
        -- both are read off the tree's list model
        show tree.inner.values = (Std.DTreeMap.Internal.Impl.Const.toList tree.inner).map Prod.snd
        rw [Std.DTreeMap.Internal.Impl.values_eq_map_snd,
          Std.DTreeMap.Internal.Impl.Const.toList_eq_toListModel_map, List.map_map]
        rfl
  simp [pairs, Std.ExtTreeMap.mem_toList_iff_getElem?_eq_some]

/-- The deleted files, as far as they can be deleted. -/
theorem removeBodies_apply (stuck : String → Bool) (entries : List CachedList) (dir : Directory)
    (name : String) :
    removeBodies dir stuck entries name =
      if (∃ entry ∈ entries, entry.filename = name) ∧ stuck name = false then none
      else dir name := by
  unfold removeBodies
  induction entries using List.reverseRecOn with
  | nil => simp
  | append_singleton entries entry ih =>
      rw [List.foldl_append, List.foldl_cons, List.foldl_nil]
      by_cases same : entry.filename = name
      · cases left : stuck name with
        | true => simp [same, left, ih]
        | false => simp [same, left, Directory.remove]
      · have others : (∃ e ∈ entries ++ [entry], e.filename = name) ↔
            ∃ e ∈ entries, e.filename = name := by
          simp [same]
        simp only [others, ← ih]
        split
        · rfl
        · simp [Directory.remove, Directory.set, Ne.symm same]

/-- A prune with `keepUrls` deletes the file, if it can be deleted. -/
def CachedLists.Dooms (c : CachedLists) (keepUrls : List String) (filename : String) : Prop :=
  ∃ url entry, c.map[url]? = some entry ∧ url ∉ keepUrls ∧ entry.filename = filename

theorem mem_gone {c : CachedLists} {keepUrls : List String} {filename : String} :
    (∃ entry ∈ (c.map.filter fun url _ => !keepUrls.contains url).values,
      entry.filename = filename) ↔ c.Dooms keepUrls filename := by
  simp only [mem_values, Std.ExtTreeMap.getElem?_filter', CachedLists.Dooms]
  constructor
  · rintro ⟨entry, ⟨url, found⟩, name⟩
    obtain ⟨found, gone⟩ := Option.filter_eq_some_iff.mp found
    exact ⟨url, entry, found, by simpa using gone, name⟩
  · rintro ⟨url, entry, found, gone, name⟩
    exact ⟨entry, ⟨url, Option.filter_eq_some_iff.mpr ⟨found, by simpa using gone⟩⟩, name⟩

theorem bodies_prune {c : CachedLists} {keepUrls : List String} {dir : Directory}
    {stuck : String → Bool} {filename : String} (spared : ¬ c.Dooms keepUrls filename) :
    (c.prune keepUrls dir stuck).2 filename = dir filename := by
  simp only [CachedLists.prune, removeBodies_apply, mem_gone, spared, false_and, if_false]

theorem bodies_prune_stuck {c : CachedLists} {keepUrls : List String} {dir : Directory}
    {stuck : String → Bool} {filename : String} (left : stuck filename = true) :
    (c.prune keepUrls dir stuck).2 filename = dir filename := by
  simp only [CachedLists.prune, removeBodies_apply, left, and_false, if_false, Bool.true_eq_false]

theorem bodies_prune_doomed {c : CachedLists} {keepUrls : List String} {dir : Directory}
    {stuck : String → Bool} {filename : String} (doomed : c.Dooms keepUrls filename)
    (deleted : stuck filename = false) : (c.prune keepUrls dir stuck).2 filename = none := by
  simp only [CachedLists.prune, removeBodies_apply, mem_gone, doomed, deleted, true_and, if_true]

/-! ## Runs from the empty cache -/

/-- The time that the step reads off the clock. -/
def Op.time? : Op → Option Nat
  | .merge now _ => some now
  | _ => none

/-- The step is a prune that does not keep `url`. -/
def Op.Prunes (url : String) : Op → Prop
  | .prune keepUrls _ => url ∉ keepUrls
  | _ => False

section Runs

variable (codec : Codec) (path : String) (start : Store)

/-- The store after a history. -/
def Store.after (history : List Op) : Store := history.foldl (Store.apply codec path) start

/-- At `time` a merge refreshed the entry of `url`, and it has not been pruned since. -/
def RefreshedAt (url : String) (time : Nat) (history : List Op) : Prop :=
  Since (fun before op => ∃ attempts, op = .merge time attempts ∧
      MergeRefreshes time (start.after codec path before).cache
        (start.after codec path before).bodies url attempts)
    (fun op => ¬ op.Prunes url) history

/-- The entry is there exactly if the URL was refreshed, and then has its latest date. -/
def Accounts (url : String) (refreshed : Nat → Prop) : Option CachedList → Prop
  | none => ∀ time, ¬ refreshed time
  | some entry => entry.filename = urlToFilename url ∧ refreshed entry.fetchedAt ∧
      ∀ time, refreshed time → time ≤ entry.fetchedAt

variable {codec path start} {url : String}

theorem Accounts.congr {refreshed refreshed' : Nat → Prop}
    (same : ∀ time, refreshed time ↔ refreshed' time) {found : Option CachedList}
    (accounts : Accounts url refreshed found) : Accounts url refreshed' found := by
  rwa [← funext fun time => propext (same time)]

theorem saveToDisk_map (c : CachedLists) (disk : Directory) (faults : SaveFaults) :
    (c.saveToDisk codec disk path faults).2.1.map = c.map := by
  unfold CachedLists.saveToDisk
  split
  · dsimp only
    split
    · rfl
    · split <;> rfl
  · rfl

theorem mem_times_of_refreshedAt {time : Nat} {history : List Op}
    (refreshed : RefreshedAt codec path start url time history) :
    time ∈ history.filterMap Op.time? := by
  obtain ⟨before, op, after, rfl, ⟨attempts, rfl, -⟩, -⟩ := refreshed
  simp [Op.time?]

/-! ### What a step refreshes -/

section Step

variable {s : Store} {refreshed : Nat → Prop}

/-- A merge enters the time of the clock, which is the latest, where it refreshes the URL. -/
theorem Accounts.merge (accounts : Accounts url refreshed (s.cache.map[url]?)) {now : Nat}
    (bound : ∀ time, refreshed time → time ≤ now) (attempts : List Attempt) :
    Accounts url
      (fun time => (time = now ∧ MergeRefreshes now s.cache s.bodies url attempts) ∨ refreshed time)
      ((s.apply codec path (.merge now attempts)).cache.map[url]?) := by
  have filed : Filed s.cache url := by
    intro entry found
    rw [found] at accounts
    exact accounts.1
  show Accounts url _ ((mergeDownloads now s.cache s.bodies attempts).cache.map[url]?)
  rcases entry_mergeDownloads filed attempts with ⟨refreshes, etag, same⟩ | ⟨not, same⟩
  · rw [same]
    refine ⟨rfl, .inl ⟨rfl, refreshes⟩, fun time refreshed => ?_⟩
    exact refreshed.elim (fun now_ => now_.1.le) (bound time)
  · rw [same]
    exact accounts.congr fun time => (or_iff_right fun now_ => not now_.2).symm

/-- A prune forgets the URLs that it does not keep. -/
theorem Accounts.prune (accounts : Accounts url refreshed (s.cache.map[url]?))
    (keepUrls : List String) (stuck : String → Bool) :
    Accounts url (fun time => refreshed time ∧ url ∈ keepUrls)
      ((s.apply codec path (.prune keepUrls stuck)).cache.map[url]?) := by
  show Accounts url _ ((s.cache.prune keepUrls s.bodies stuck).1.map[url]?)
  rw [entry_prune]
  split
  · rename_i kept
    exact accounts.congr fun time => (and_iff_left kept).symm
  · rename_i gone
    exact fun time refreshed => gone refreshed.2

theorem Accounts.save (accounts : Accounts url refreshed (s.cache.map[url]?))
    (faults : SaveFaults) :
    Accounts url refreshed ((s.apply codec path (.save faults)).cache.map[url]?) := by
  have same : (s.apply codec path (.save faults)).cache.map = s.cache.map :=
    saveToDisk_map s.cache s.disk faults
  rwa [same]

end Step

section Snoc

variable {history : List Op} {time : Nat}

theorem refreshedAt_merge {now : Nat} {attempts : List Attempt} :
    RefreshedAt codec path start url time (history ++ [.merge now attempts]) ↔
      (time = now ∧ MergeRefreshes now (start.after codec path history).cache
        (start.after codec path history).bodies url attempts) ∨
      RefreshedAt codec path start url time history := by
  rw [RefreshedAt, since_snoc]
  refine or_congr ⟨?_, ?_⟩ (and_iff_left not_false)
  · rintro ⟨_, ⟨⟩, refreshes⟩
    exact ⟨rfl, refreshes⟩
  · rintro ⟨rfl, refreshes⟩
    exact ⟨attempts, rfl, refreshes⟩

theorem refreshedAt_prune {keepUrls : List String} {stuck : String → Bool} :
    RefreshedAt codec path start url time (history ++ [.prune keepUrls stuck]) ↔
      RefreshedAt codec path start url time history ∧ url ∈ keepUrls := by
  rw [RefreshedAt, since_snoc]
  simp [Op.Prunes, RefreshedAt]

theorem refreshedAt_save {faults : SaveFaults} :
    RefreshedAt codec path start url time (history ++ [.save faults]) ↔
      RefreshedAt codec path start url time history := by
  rw [RefreshedAt, since_snoc]
  simp [Op.Prunes, RefreshedAt]

end Snoc

/-- **The entry of a URL accounts for its refreshes**, after any history on a clock that
does not run backwards. -/
theorem accounts_after (empty : start.cache.map = ∅) {history : List Op}
    (clock : (history.filterMap Op.time?).Pairwise (· ≤ ·)) :
    Accounts url (RefreshedAt codec path start url · history)
      ((start.after codec path history).cache.map[url]?) := by
  induction history using List.reverseRecOn with
  | nil =>
      show Accounts url _ (start.cache.map[url]?)
      rw [empty, Std.ExtTreeMap.getElem?_empty]
      exact fun time => not_since_nil
  | append_singleton history op ih =>
      rw [List.filterMap_append, List.pairwise_append] at clock
      obtain ⟨earlier, -, later⟩ := clock
      have accounts := ih earlier
      have step : start.after codec path (history ++ [op]) =
          (start.after codec path history).apply codec path op := List.foldl_append
      rw [step]
      cases op with
      | merge now attempts =>
          refine .congr (fun time => refreshedAt_merge.symm) (accounts.merge ?_ attempts)
          intro time refreshed
          exact later time (mem_times_of_refreshedAt refreshed) now (by simp [Op.time?])
      | prune keepUrls stuck =>
          exact .congr (fun time => refreshedAt_prune.symm) (accounts.prune keepUrls stuck)
      | save faults => exact .congr (fun time => refreshedAt_save.symm) (accounts.save faults)

/-- An entry is fresh when its body file can be read and its date is young enough. -/
theorem Accounts.isSome_getIfFresh {c : CachedLists} {refreshed : Nat → Prop}
    (accounts : Accounts url refreshed (c.map[url]?)) (dir : Directory) (ttl now : Nat) :
    (c.getIfFresh dir url ttl now).isSome ↔
      (readBodyFile dir (urlToFilename url)).isSome ∧ ∃ time, refreshed time ∧ now - time < ttl := by
  unfold CachedLists.getIfFresh
  cases atUrl : c.map[url]? with
  | none =>
      rw [atUrl] at accounts
      refine iff_of_false nofun ?_
      rintro ⟨-, time, refreshed, -⟩
      exact accounts time refreshed
  | some entry =>
      rw [atUrl] at accounts
      obtain ⟨name, dated, latest⟩ := accounts
      dsimp only
      rw [name]
      split
      · rename_i young
        exact ⟨fun readable => ⟨readable, entry.fetchedAt, dated, young⟩, And.left⟩
      · rename_i old
        refine iff_of_false nofun ?_
        rintro ⟨-, time, refreshed, young⟩
        have := latest time refreshed
        omega

/-- **Freshness is honest**: a plan puts every URL in one of its two outputs, and in the
first exactly when its body file can be read and it was refreshed, since its last prune,
less than the TTL ago. -/
theorem freshness_honest (empty : start.cache.map = ∅) {history : List Op}
    (clock : (history.filterMap Op.time?).Pairwise (· ≤ ·)) {s : Store}
    (reached : s = start.after codec path history) (urls : List String) (ttl now : Nat) :
    (planned s.cache s.bodies urls ttl now ++ queued s.cache s.bodies urls ttl now).Perm urls ∧
    (∀ url ∈ planned s.cache s.bodies urls ttl now, url ∉ queued s.cache s.bodies urls ttl now) ∧
    ∀ url ∈ urls, url ∈ planned s.cache s.bodies urls ttl now ↔
      (readBodyFile s.bodies (urlToFilename url)).isSome ∧
        ∃ time, RefreshedAt codec path start url time history ∧ now - time < ttl := by
  obtain ⟨fresh, stale⟩ := planned_queued s.cache s.bodies urls ttl now
  rw [fresh, stale]
  refine ⟨List.filter_append_perm _ urls, fun url member other => ?_, fun url member => ?_⟩
  · have isFresh := (List.mem_filter.mp member).2
    have isStale := (List.mem_filter.mp other).2
    rw [isFresh] at isStale
    cases isStale
  · have accounts : Accounts url (RefreshedAt codec path start url · history)
        (s.cache.map[url]?) := reached ▸ accounts_after empty clock
    rw [List.mem_filter, and_iff_right member]
    exact accounts.isSome_getIfFresh s.bodies ttl now

end Runs

/-! ## A body file that was cut inside a character -/

/-- An hour after the first download a new body is fetched, and the disk is full after the
first octet of it. -/
def cut : Attempt where
  url := fetched.url
  result := .fresh "é.com\n" none
  fault := some (.torn 1 ⟨.other, "No space left on device (os error 28)"⟩)

def cutHistory : List Op := [.merge 1700000000 [fetched], .merge 1700003600 [cut]]

def afterCut : Store := started.after exampleCodec "cache.json" cutHistory

theorem afterCut_eq :
    afterCut.cache = ⟨fetchedMap, true⟩ ∧ afterCut.bodies (urlToFilename fetched.url) = some [0xC3] := by
  have second : afterCut = merged.apply exampleCodec "cache.json" (.merge 1700003600 [cut]) := rfl
  have turn : mergeDownloads 1700003600 merged.cache merged.bodies [cut] =
      ⟨merged.cache, merged.bodies.set (urlToFilename fetched.url) (some [0xC3]), []⟩ := by
    show mergeOne 1700003600 ⟨merged.cache, merged.bodies, []⟩ cut = _
    rw [mergeOne_fault (a := cut) rfl rfl]
    rfl
  rw [second, Store.apply, turn]
  exact ⟨merged_cache, Directory.set_same merged.bodies (urlToFilename fetched.url) (some [0xC3])⟩

theorem fetched_refreshedAt :
    RefreshedAt exampleCodec "cache.json" started fetched.url 1700000000 cutHistory := by
  refine ⟨[], _, [.merge 1700003600 [cut]], rfl, ⟨[fetched], rfl, ?_⟩, ?_⟩
  · exact ⟨[], fetched, [], rfl, ⟨rfl, .inl ⟨_, _, rfl, rfl⟩⟩, nofun⟩
  · intro op member
    rw [List.mem_singleton.mp member]
    exact id

/-- The file is there and the list was refreshed within the day, and still it is fetched
again: what the write left is not UTF-8. -/
theorem cutFile_refetched :
    (cutHistory.filterMap Op.time?).Pairwise (· ≤ ·) ∧
      ¬ (fetched.url ∈ planned afterCut.cache afterCut.bodies [fetched.url] 86400 1700007200 ↔
        (afterCut.bodies (urlToFilename fetched.url)).isSome ∧
          ∃ time, RefreshedAt exampleCodec "cache.json" started fetched.url time cutHistory ∧
            1700007200 - time < 86400) := by
  obtain ⟨cache, file⟩ := afterCut_eq
  refine ⟨by decide, fun claimed => ?_⟩
  have served := claimed.mpr ⟨by rw [file]; rfl, 1700000000, fetched_refreshedAt, by decide⟩
  have unreadable : readBodyFile afterCut.bodies (urlToFilename fetched.url) = none := by
    have broken : fromUtf8 [0xC3] = none := by decide
    rw [readBodyFile, Directory.readToString, file]
    exact broken
  have entry : fetchedMap[fetched.url]? = some ⟨1700000000, none, urlToFilename fetched.url⟩ :=
    Std.ExtTreeMap.getElem?_insert_self
  rw [(planned_queued _ _ _ _ _).1, List.mem_filter, CachedLists.getIfFresh, cache, entry] at served
  simp [unreadable] at served

/-- The list is served from the cache before the second download. -/
theorem freshness_honest_merged :
    fetched.url ∈ planned merged.cache merged.bodies [fetched.url] 86400 1700003600 ↔
      (readBodyFile merged.bodies (urlToFilename fetched.url)).isSome ∧
        ∃ time, RefreshedAt exampleCodec "cache.json" started fetched.url time
          [.merge 1700000000 [fetched]] ∧ 1700003600 - time < 86400 := by
  have honest := @freshness_honest exampleCodec "cache.json" started rfl
    [.merge 1700000000 [fetched]] (by decide) merged rfl [fetched.url] 86400 1700003600
  exact honest.2.2 fetched.url List.mem_cons_self

end DnsLigase.Cache
