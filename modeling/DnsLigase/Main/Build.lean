/-
# Main.Build — one whole run of `create_blocklist` over the cache

A build reads the fresh bodies off the cache, merges what was downloaded, parses all of it in
the order of the config, prunes and saves.  The downloads complete in any order, which makes no
difference to the rules or to what is cached (`build_order`).  What is cached is what was
parsed: a build that finds everything fresh makes the same rules again (`rebuild_cached`).
-/
import DnsLigase.Cache.Coherence
import DnsLigase.Cache.Order
import DnsLigase.Main.Rebuild

namespace DnsLigase.Main

open DnsLigase.Cache DnsLigase.Theory.Case DnsLigase.Theory.Io DnsLigase.Theory.Utf8

set_option autoImplicit false

/-! ## The bodies of a build -/

/-- The `HashMap` of the fresh bodies, extended by the merged ones. -/
def collectBodies (fresh merged : List (String × String)) : Std.ExtTreeMap String String compare :=
  (Std.ExtTreeMap.ofList fresh compare).insertMany merged

section Collect

variable {fresh merged : List (String × String)} {url body : String}

theorem pairwise_of_nodup {l : List (String × String)} (distinct : (l.map Prod.fst).Nodup) :
    l.Pairwise fun a b => ¬ compare a.1 b.1 = .eq :=
  (List.pairwise_map.mp distinct).imp fun different same =>
    different (Std.LawfulEqCmp.eq_of_compare same)

/-- A merged body is used. -/
theorem collect_merged (distinct : (merged.map Prod.fst).Nodup) (member : (url, body) ∈ merged) :
    (collectBodies fresh merged)[url]? = some body :=
  Std.ExtTreeMap.getElem?_insertMany_list_of_mem Std.ReflCmp.compare_self
    (pairwise_of_nodup distinct) member

/-- Without one, a fresh body is. -/
theorem collect_fresh (absent : url ∉ merged.map Prod.fst) :
    (collectBodies fresh merged)[url]? = (Std.ExtTreeMap.ofList fresh compare)[url]? :=
  Std.ExtTreeMap.getElem?_insertMany_list_of_contains_eq_false (by simpa using absent)

/-- The order of the merged bodies does not matter. -/
theorem collect_perm {merged' : List (String × String)} (distinct : (merged.map Prod.fst).Nodup)
    (perm : merged.Perm merged') : collectBodies fresh merged = collectBodies fresh merged' := by
  refine Std.ExtTreeMap.ext_getElem? fun url => ?_
  by_cases listed : url ∈ merged.map Prod.fst
  · obtain ⟨⟨_, body⟩, member, rfl⟩ := List.mem_map.mp listed
    rw [collect_merged distinct member, collect_merged ((perm.map _).nodup_iff.mp distinct)
      (perm.mem_iff.mp member)]
  · rw [collect_fresh listed, collect_fresh fun member =>
      listed ((perm.map _).mem_iff.mpr member)]

end Collect

/-! ## `create_blocklist` -/

section Build

variable {ρ : Type} [UnicodeCase] [RegexEngine ρ] (codec : Codec) (path : String) (config : Config)

/-- The merge phase and all that comes after it, in the store that it finds.  A parser that
panics ends the build there. -/
def finishBuild (fresh : List (String × String)) (store : Store) (now : Nat)
    (attempts : List Attempt) (stuck : String → Bool) (faults : SaveFaults) :
    Option (Blocklist ρ) × Store :=
  let merged := (mergeDownloads now store.cache store.bodies attempts).bodies
  let store := store.apply codec path (.merge now attempts)
  let bodies := collectBodies fresh merged
  match createBlocklist config fun url => bodies[url]? with
  | some bl => (some bl, pruneAndSave codec path store config.allUrls stuck faults)
  | none => (none, store)

/-- The fresh bodies of a build that starts at `now`. -/
def freshBodies (store : Store) (now : Nat) : List (String × String) :=
  (store.cache.planFetches store.bodies config.allUrls config.cacheTtl now).1

variable {codec path config} {fresh : List (String × String)} {store : Store} {now : Nat}
  {attempts attempts' : List Attempt} {stuck : String → Bool} {faults : SaveFaults}

/-- A build whose parsers do not panic gets to its end. -/
theorem finishBuild_of_created {bl : Blocklist ρ}
    (created : createBlocklist config (fun url => (collectBodies fresh
      (mergeDownloads now store.cache store.bodies attempts).bodies)[url]?) = some bl) :
    finishBuild codec path config fresh store now attempts stuck faults =
      (some bl, pruneAndSave codec path (store.apply codec path (.merge now attempts))
        config.allUrls stuck faults) := by
  simp only [finishBuild, created]

omit [UnicodeCase] [RegexEngine ρ] in
theorem bodies_nodup (filed : AllFiled store.cache) (separate : Separate attempts) :
    ((mergeDownloads now store.cache store.bodies attempts).bodies.map Prod.fst).Nodup := by
  have merged : MergesTo now store.cache store.bodies attempts _ := mergesTo filed separate
  have urls : attempts.Pairwise fun a b => a.url ≠ b.url :=
    (List.pairwise_map.mp separate).imp fun apart same => apart (congrArg urlToFilename same)
  rw [merged.bodies, List.Nodup, List.pairwise_map, List.pairwise_filterMap]
  refine urls.imp fun differ p given p' given' => ?_
  obtain ⟨_, -, rfl⟩ := Option.map_eq_some_iff.mp given
  obtain ⟨_, -, rfl⟩ := Option.map_eq_some_iff.mp given'
  exact differ

variable (config store now attempts) in
/-- The results are those of jobs that the plan has made, of a config whose lists have URLs and
files of their own. -/
structure FromPlan : Prop where
  distinct : config.allUrls.Nodup
  apart : Apart config.allUrls
  jobs : (attempts.map Attempt.url).Subperm
    (queued store.cache store.bodies config.allUrls config.cacheTtl now)

omit [UnicodeCase] [RegexEngine ρ] in
theorem FromPlan.separate (fromPlan : FromPlan config store now attempts) : Separate attempts := by
  have sublist : (queued store.cache store.bodies config.allUrls config.cacheTtl now).Sublist
      config.allUrls := by
    rw [(planned_queued _ _ _ _ _).2]
    exact List.filter_sublist
  have listed : ∀ a ∈ attempts, a.url ∈ config.allUrls := fun a member =>
    sublist.subset (fromPlan.jobs.subset (List.mem_map_of_mem member))
  obtain ⟨urls, perm, among⟩ := fromPlan.jobs
  have distinct : (attempts.map Attempt.url).Nodup :=
    perm.nodup_iff.mp (fromPlan.distinct.sublist (among.trans sublist))
  exact separate_of_nodup distinct fun a here b there =>
    fromPlan.apart _ (listed a here) _ (listed b there)

/-- **The order in which the downloads complete makes no difference**, whatever else has become
of the cache since they were planned: the rules are the same, and so is what is cached and
saved. -/
theorem build_order {planStore : Store} {start : Nat} (filed : AllFiled store.cache)
    (fromPlan : FromPlan config planStore start attempts) (perm : attempts.Perm attempts') :
    (finishBuild codec path config fresh store now attempts stuck faults :
        Option (Blocklist ρ) × Store) =
      finishBuild codec path config fresh store now attempts' stuck faults := by
  have separate := fromPlan.separate
  obtain ⟨cache, dir, bodies⟩ := @merge_order now _ store.bodies _ filed separate _ perm
  have same := @collect_perm fresh _ _ (bodies_nodup filed separate) bodies
  simp only [finishBuild, Store.apply, cache, dir, same]

/-! ## A build from the cache -/

variable (store) in
/-- The list has arrived, or is still the one on disk. -/
def Succeeds (a : Attempt) : Prop :=
  (∃ body etag, a.result = .fresh body etag ∧ a.fault = none) ∨
    a.result = .notModified ∧ (store.cache.map[a.url]?).isSome ∧
      (readBodyFile store.bodies (urlToFilename a.url)).isSome

/-- The list is cached as it was parsed. -/
def Caches (cache : CachedLists) (dir : Directory) (url body : String) : Prop :=
  (cache.map[url]?).isSome ∧ readBodyFile dir (urlToFilename url) = some body

omit [UnicodeCase] [RegexEngine ρ] in
/-- What a successful result gives is what it leaves in the cache. -/
theorem caches_of_succeeds (filed : AllFiled store.cache) (separate : Separate attempts)
    {a : Attempt} (member : a ∈ attempts) (succeeds : Succeeds store a) :
    ∃ body, bodyOf store.bodies a = some body ∧
      Caches (mergeDownloads now store.cache store.bodies attempts).cache
        (mergeDownloads now store.cache store.bodies attempts).dir a.url body := by
  have merged : MergesTo now store.cache store.bodies attempts _ := mergesTo filed separate
  simp only [Caches, merged.entries a member, readBodyFile, Directory.readToString,
    merged.files a member]
  rcases succeeds with ⟨body, etag, result, wrote⟩ | ⟨result, present, readable⟩
  · refine ⟨body, by simp [bodyOf, result, wrote], by simp [entryOf, result, wrote], ?_⟩
    simp [fileOf, result, wrote, writeBody, Directory.write]
  · obtain ⟨body, read⟩ := Option.isSome_iff_exists.mp readable
    refine ⟨body, by simp [bodyOf, result, read], by simp [entryOf, result, present], ?_⟩
    simpa [fileOf, result, readBodyFile, Directory.readToString] using read

omit [UnicodeCase] [RegexEngine ρ] in
theorem getIfFresh_eq_some {c : CachedLists} {dir : Directory} {url body : String}
    {intervalSecs : Nat} : c.getIfFresh dir url intervalSecs now = some body ↔
      ∃ entry, c.map[url]? = some entry ∧ now - entry.fetchedAt < intervalSecs ∧
        readBodyFile dir entry.filename = some body := by
  unfold CachedLists.getIfFresh
  cases c.map[url]? with
  | none => simp
  | some entry => simp [Option.ite_none_right_eq_some]

omit [UnicodeCase] [RegexEngine ρ] in
/-- A list that is fresh is served. -/
theorem mem_freshBodies {url body : String} (listed : url ∈ config.allUrls)
    (fresh : store.cache.getIfFresh store.bodies url config.cacheTtl now = some body) :
    (url, body) ∈ freshBodies config store now := by
  have served : url ∈ planned store.cache store.bodies config.allUrls config.cacheTtl now := by
    rw [(planned_queued _ _ _ _ _).1]
    exact List.mem_filter.mpr ⟨listed, by simp [fresh]⟩
  obtain ⟨p, member, rfl⟩ := List.mem_map.mp served
  have same := mem_planFetches member
  rw [fresh] at same
  exact Option.some.inj same ▸ member

omit [UnicodeCase] [RegexEngine ρ] in
theorem freshBodies_nodup (distinct : config.allUrls.Nodup) :
    ((freshBodies config store now).map Prod.fst).Nodup := by
  have urls : (freshBodies config store now).map Prod.fst =
      planned store.cache store.bodies config.allUrls config.cacheTtl now := rfl
  rw [urls, (planned_queued _ _ _ _ _).1]
  exact distinct.filter _

omit [UnicodeCase] [RegexEngine ρ] in
/-- **Every list is cached as it was parsed**: fresh ones since before the build, the others by
the merge. -/
theorem caches_of_build (filed : AllFiled store.cache)
    (fromPlan : FromPlan config store now attempts)
    (whole : queued store.cache store.bodies config.allUrls config.cacheTtl now ⊆
      attempts.map Attempt.url)
    (succeed : ∀ a ∈ attempts, Succeeds store a) (mergeTime : Nat) {url : String}
    (listed : url ∈ config.allUrls) :
    ∃ body, (collectBodies (freshBodies config store now)
        (mergeDownloads mergeTime store.cache store.bodies attempts).bodies)[url]? = some body ∧
      Caches (mergeDownloads mergeTime store.cache store.bodies attempts).cache
        (mergeDownloads mergeTime store.cache store.bodies attempts).dir url body := by
  have separate := fromPlan.separate
  have merges : MergesTo mergeTime store.cache store.bodies attempts _ := mergesTo filed separate
  obtain ⟨freshUrls, staleUrls⟩ :=
    planned_queued store.cache store.bodies config.allUrls config.cacheTtl now
  cases fresh : store.cache.getIfFresh store.bodies url config.cacheTtl now with
  | some body =>
      obtain ⟨entry, found, -, read⟩ := getIfFresh_eq_some.mp fresh
      rw [filed url entry found] at read
      have other : ∀ a ∈ attempts, a.url ≠ url := by
        rintro a member rfl
        have stale := fromPlan.jobs.subset (List.mem_map_of_mem member)
        rw [staleUrls] at stale
        simp [fresh] at stale
      have listedUrls : ∀ a ∈ attempts, a.url ∈ config.allUrls := by
        intro a member
        have stale := fromPlan.jobs.subset (List.mem_map_of_mem member)
        rw [staleUrls] at stale
        exact List.mem_of_mem_filter stale
      refine ⟨body, ?_, ?_, ?_⟩
      · rw [collect_fresh]
        · exact Std.ExtTreeMap.getElem?_ofList_of_mem Std.ReflCmp.compare_self
            (pairwise_of_nodup (freshBodies_nodup fromPlan.distinct)) (mem_freshBodies listed fresh)
        · rw [merges.bodies, List.mem_map]
          rintro ⟨p, member, rfl⟩
          obtain ⟨a, among, given⟩ := List.mem_filterMap.mp member
          obtain ⟨_, -, rfl⟩ := Option.map_eq_some_iff.mp given
          exact other a among rfl
      · rw [merges.others, found]
        · rfl
        · rw [List.mem_map]
          rintro ⟨a, member, same⟩
          exact other a member same
      · rw [readBodyFile, Directory.readToString, merges.untouched]
        · exact read
        · rw [List.mem_map]
          rintro ⟨a, member, same⟩
          exact other a member (fromPlan.apart _ (listedUrls a member) _ listed same)
  | none =>
      have stale : url ∈ queued store.cache store.bodies config.allUrls config.cacheTtl now := by
        rw [staleUrls]
        exact List.mem_filter.mpr ⟨listed, by simp [fresh]⟩
      obtain ⟨a, member, rfl⟩ := List.mem_map.mp (whole stale)
      obtain ⟨body, given, caches⟩ :=
        @caches_of_succeeds _ mergeTime _ filed separate a member (succeed a member)
      refine ⟨body, collect_merged (bodies_nodup filed separate) ?_, caches⟩
      rw [merges.bodies, List.mem_filterMap]
      exact ⟨a, member, by simp [given]⟩

/-! ### The rules that are made of it -/

omit [UnicodeCase] [RegexEngine ρ] in
theorem readLists_congr {parse : Blocklist ρ → String → Option (Blocklist ρ)}
    {bodies bodies' : String → Option String} {urls : List String}
    (same : ∀ url ∈ urls, bodies url = bodies' url) (bl : Blocklist ρ) :
    readLists parse bodies urls bl = readLists parse bodies' urls bl := by
  unfold readLists
  induction urls generalizing bl with
  | nil => rfl
  | cons url rest ih =>
      rw [List.foldlM_cons, List.foldlM_cons, same url List.mem_cons_self]
      exact bind_congr fun bl => ih (fun url member => same url (List.mem_cons_of_mem _ member)) bl

/-- The rules depend on the bodies of the config's lists only. -/
theorem createBlocklist_congr {bodies bodies' : String → Option String}
    (same : ∀ url ∈ config.allUrls, bodies url = bodies' url) :
    (createBlocklist config bodies : Option (Blocklist ρ)) = createBlocklist config bodies' := by
  have block : ∀ url ∈ config.blocklists.urls, bodies url = bodies' url :=
    fun url member => same url (by simp [Config.allUrls, member])
  have allow : ∀ url ∈ config.blocklists.allowlistUrls, bodies url = bodies' url :=
    fun url member => same url (by simp [Config.allUrls, member])
  have regexBlock : ∀ url ∈ config.blocklists.regexBlockUrls, bodies url = bodies' url :=
    fun url member => same url (by simp [Config.allUrls, member])
  have regexAllow : ∀ url ∈ config.blocklists.regexAllowUrls, bodies url = bodies' url :=
    fun url member => same url (by simp [Config.allUrls, member])
  unfold createBlocklist
  simp only [readLists_congr block, readLists_congr allow, readLists_congr regexBlock,
    readLists_congr regexAllow]

/-! ### The second build -/

variable (config store) in
/-- No list shares its body file with another one that is cached. -/
def OwnFiles : Prop :=
  ∀ url ∈ config.allUrls, ∀ url', (store.cache.map[url']?).isSome →
    urlToFilename url' = urlToFilename url → url' = url

omit [UnicodeCase] [RegexEngine ρ] in
/-- The prune at the end of a build spares its lists. -/
theorem caches_of_prune {s : Store} (filed : AllFiled s.cache) (own : OwnFiles config s)
    {url body : String} (listed : url ∈ config.allUrls)
    (caches : Caches s.cache s.bodies url body) :
    Caches (pruneAndSave codec path s config.allUrls stuck faults).cache
      (pruneAndSave codec path s config.allUrls stuck faults).bodies url body := by
  refine ⟨?_, ?_⟩
  · rw [entry_pruneAndSave, if_pos listed]
    exact caches.1
  · have spared : ¬ s.cache.Dooms config.allUrls (urlToFilename url) := by
      rintro ⟨url', entry, found, gone, name⟩
      rw [filed url' entry found] at name
      obtain rfl := own url listed url' (by rw [found]; rfl) name
      exact gone listed
    have file : (pruneAndSave codec path s config.allUrls stuck faults).bodies
        (urlToFilename url) = s.bodies (urlToFilename url) := bodies_prune spared
    rw [readBodyFile, Directory.readToString, file]
    exact caches.2

omit [UnicodeCase] [RegexEngine ρ] in
theorem allFiled_pruneAndSave {s : Store} (filed : AllFiled s.cache) :
    AllFiled (pruneAndSave codec path s config.allUrls stuck faults).cache := by
  have pruned : AllFiled (s.apply codec path (.prune config.allUrls stuck)).cache :=
    filed.prune config.allUrls s.bodies stuck
  exact pruned.of_map (saveToDisk_map _ _ faults)

omit [UnicodeCase] [RegexEngine ρ] in
/-- After a merge the lists still have files of their own. -/
theorem ownFiles_merge {start : Nat} (filed : AllFiled store.cache)
    (own : OwnFiles config store) (fromPlan : FromPlan config store start attempts) :
    OwnFiles config (store.apply codec path (.merge now attempts)) := by
  have merges : MergesTo now store.cache store.bodies attempts _ :=
    mergesTo filed fromPlan.separate
  intro url listed url' present name
  by_cases result : url' ∈ attempts.map Attempt.url
  · have stale := fromPlan.jobs.subset result
    rw [(planned_queued _ _ _ _ _).2] at stale
    exact fromPlan.apart url' (List.mem_of_mem_filter stale) url listed name
  · refine own url listed url' ?_ name
    rw [← merges.others url' result]
    exact present

omit [UnicodeCase] [RegexEngine ρ] in
/-- A list that is cached, and young enough, is served. -/
theorem fresh_of_caches {s : Store} (filed : AllFiled s.cache) {url body : String}
    {intervalSecs : Nat} (caches : Caches s.cache s.bodies url body)
    (young : ∀ entry, s.cache.map[url]? = some entry → now - entry.fetchedAt < intervalSecs) :
    s.cache.getIfFresh s.bodies url intervalSecs now = some body := by
  obtain ⟨present, read⟩ := caches
  obtain ⟨entry, found⟩ := Option.isSome_iff_exists.mp present
  refine getIfFresh_eq_some.mpr ⟨entry, found, young entry found, ?_⟩
  rw [filed url entry found]
  exact read

/-- **What is cached is what was parsed**: after a build whose downloads all succeed, a build
that finds every entry young enough downloads nothing and makes the same rules. -/
theorem rebuild_cached (filed : AllFiled store.cache) (own : OwnFiles config store)
    {start : Nat} (fromPlan : FromPlan config store start attempts)
    (whole : queued store.cache store.bodies config.allUrls config.cacheTtl start ⊆
      attempts.map Attempt.url)
    (succeed : ∀ a ∈ attempts, Succeeds store a) {bl : Blocklist ρ} {after : Store}
    (built : finishBuild codec path config (freshBodies config store start) store now attempts
      stuck faults = (some bl, after)) {later : Nat}
    (young : ∀ url ∈ config.allUrls, ∀ entry, after.cache.map[url]? = some entry →
      later - entry.fetchedAt < config.cacheTtl) :
    queued after.cache after.bodies config.allUrls config.cacheTtl later = [] ∧
      ∀ now' stuck' faults', (finishBuild codec path config (freshBodies config after later) after
        now' [] stuck' faults').1 = some bl := by
  simp only [finishBuild] at built
  split at built
  case h_2 => cases built
  rename_i made created
  obtain ⟨same, rfl⟩ := Prod.mk.inj built
  obtain rfl : bl = made := (Option.some.inj same).symm
  have filed' : AllFiled (store.apply codec path (.merge now attempts)).cache :=
    filed.merge now store.bodies attempts
  have cached : ∀ url ∈ config.allUrls, ∃ body,
      (collectBodies (freshBodies config store start)
        (mergeDownloads now store.cache store.bodies attempts).bodies)[url]? = some body ∧
      (pruneAndSave codec path (store.apply codec path (.merge now attempts)) config.allUrls stuck
        faults).cache.getIfFresh (pruneAndSave codec path (store.apply codec path
          (.merge now attempts)) config.allUrls stuck faults).bodies url config.cacheTtl later =
        some body := by
    intro url listed
    obtain ⟨body, parsed, caches⟩ := caches_of_build filed fromPlan whole succeed now listed
    exact ⟨body, parsed, fresh_of_caches (allFiled_pruneAndSave filed')
      (caches_of_prune filed' (ownFiles_merge filed own fromPlan) listed caches) (young url listed)⟩
  generalize pruneAndSave codec path _ config.allUrls stuck faults = after at cached ⊢
  refine ⟨?_, fun now' stuck' faults' => ?_⟩
  · rw [(planned_queued _ _ _ _ _).2, List.filter_eq_nil_iff]
    intro url listed
    obtain ⟨body, -, fresh⟩ := cached url listed
    simp [fresh]
  · have nothing : (mergeDownloads now' after.cache after.bodies []).bodies = [] := rfl
    have again : createBlocklist config (fun url => (collectBodies (freshBodies config after later)
        (mergeDownloads now' after.cache after.bodies []).bodies)[url]?) = some bl := by
      rw [← created, nothing]
      refine createBlocklist_congr fun url listed => ?_
      obtain ⟨body, parsed, fresh⟩ := cached url listed
      rw [parsed, collect_fresh List.not_mem_nil]
      exact Std.ExtTreeMap.getElem?_ofList_of_mem Std.ReflCmp.compare_self
        (pairwise_of_nodup (freshBodies_nodup fromPlan.distinct)) (mem_freshBodies listed fresh)
    rw [finishBuild_of_created again]

end Build

/-! ## Two lists, and one that is built twice -/

attribute [local instance] smallCase

/-- The download of another list. -/
def otherFetched : Attempt where
  url := "https://example.net/other.txt"
  result := .fresh "||track.net^\n" none
  fault := none

def twoLists : Config := listConfig [fetched.url, otherFetched.url]

theorem twoLists_fromPlan :
    FromPlan twoLists started 1700000000 [fetched, otherFetched] := by
  have files : urlToFilename fetched.url ≠ urlToFilename otherFetched.url := by decide +kernel
  refine ⟨by decide, ?_, List.Subperm.refl _⟩
  intro url here url' there same
  rcases List.mem_pair.mp here with rfl | rfl <;> rcases List.mem_pair.mp there with rfl | rfl
  · rfl
  · exact absurd same files
  · exact absurd same.symm files
  · rfl

theorem build_order_swapped :
    (finishBuild exampleCodec "cache.json" twoLists [] started 1700000000 [fetched, otherFetched]
        deletable noFaults : Option (Blocklist Literal) × Store) =
      finishBuild exampleCodec "cache.json" twoLists [] started 1700000000 [otherFetched, fetched]
        deletable noFaults :=
  build_order allFiled_default twoLists_fromPlan (List.Perm.swap _ _ _)

def oneList : Config := listConfig [fetched.url]

/-- The list is fetched, and ten minutes later read from the cache. -/
theorem rebuild_cached_fetched :
    ∃ (bl : Blocklist Literal) (after : Store),
      finishBuild exampleCodec "cache.json" oneList [] started 1700000000 [fetched] deletable
        noFaults = (some bl, after) ∧
      queued after.cache after.bodies oneList.allUrls oneList.cacheTtl 1700000600 = [] ∧
      (finishBuild exampleCodec "cache.json" oneList (freshBodies oneList after 1700000600) after
        1700000600 [] deletable noFaults).1 = some bl := by
  have parses : (createBlocklist oneList (fun url => (collectBodies
      (freshBodies oneList started 1700000000) (mergeDownloads 1700000000 started.cache
        started.bodies [fetched]).bodies)[url]?) : Option (Blocklist Literal)).isSome := by
    decide +kernel
  obtain ⟨bl, created⟩ := Option.isSome_iff_exists.mp parses
  have built := @finishBuild_of_created Literal _ _ exampleCodec "cache.json" oneList _ started
    1700000000 [fetched] deletable noFaults bl created
  refine ⟨bl, _, built, ?_⟩
  have again := @rebuild_cached Literal _ _ exampleCodec "cache.json" oneList started 1700000000
    [fetched] deletable noFaults allFiled_default ?_ 1700000000 ?_ ?_ ?_ bl _ built 1700000600 ?_
  · exact ⟨again.1, again.2 _ _ _⟩
  · intro url _ url' present
    exact absurd present (by simp [started, CachedLists.default])
  · refine ⟨by decide, ?_, List.Subperm.refl _⟩
    intro url here url' there _
    exact (List.mem_singleton.mp here).trans (List.mem_singleton.mp there).symm
  · exact List.Subset.refl _
  · exact List.forall_mem_singleton.mpr (.inl ⟨_, _, rfl, rfl⟩)
  · intro url listed entry found
    obtain rfl := List.mem_singleton.mp listed
    rw [entry_pruneAndSave, if_pos listed] at found
    have dated : (started.apply exampleCodec "cache.json" (.merge 1700000000 [fetched])).cache =
        ⟨fetchedMap, true⟩ := merged_cache
    rw [dated] at found
    simp only [fetchedMap, Std.ExtTreeMap.getElem?_insert_self, Option.some.injEq] at found
    subst found
    decide

end DnsLigase.Main
