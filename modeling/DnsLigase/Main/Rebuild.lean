/-
# Main.Rebuild — two runs of `create_blocklist` over one cache

Each run takes the cache lock three times: to plan its downloads, to merge what they
gave, and to prune and save at its end.  Between these the lock is free, so the sections
of two runs interleave in any order, and each run plans and prunes for its own snapshot
of the config.

The doc of `prune` says that it removes "entries whose URLs are no longer in the config".
A refresh that started before a reload prunes for the config that the reload replaced: a
list that the reload has just fetched loses its entry and its body file
(`olderPrune_drops_fetched`).  `run_held` is the converse: in every run none of whose
prunes does so, what the newer run has fetched stays.
-/
import DnsLigase.Cache.Plan
import DnsLigase.Main.Create

namespace DnsLigase.Main

open DnsLigase.Cache DnsLigase.Theory.Io DnsLigase.Theory.Transition DnsLigase.Theory.Utf8

set_option autoImplicit false

/-! ## One run -/

/-- `all_urls`, and again `keep_urls`. -/
def Config.allUrls (config : Config) : List String :=
  config.blocklists.urls ++ config.blocklists.allowlistUrls ++ config.blocklists.regexBlockUrls ++
    config.blocklists.regexAllowUrls

def Config.cacheTtl (config : Config) : Nat :=
  config.blocklists.cacheTtlSecs.getD config.blocklists.refreshIntervalSecs

/-- Where a run is.  One whose parsers panic stays `merged` for ever. -/
inductive Phase where
  | started
  | planned (jobs : List FetchJob)
  | downloaded (results : List (String × DownloadResult))
  | merged
  | finished

/-- The run that started with the config that was replaced, and the run of the reload. -/
inductive Builder where
  | older
  | newer
  deriving DecidableEq, Repr

structure Rebuilds where
  store : Store
  phase : Builder → Phase
  /-- The URLs whose fresh bodies the newer run has merged. -/
  fetched : List String

def Rebuilds.move (s : Rebuilds) (builder : Builder) (phase : Phase) : Rebuilds :=
  { s with phase := fun other => if other = builder then phase else s.phase other }

/-- The URLs whose fresh bodies the attempts could write. -/
def freshUrls (attempts : List Attempt) : List String :=
  attempts.filterMap fun a =>
    match a.result, a.fault with
    | .fresh _ _, none => some a.url
    | _, _ => none

theorem mem_freshUrls {attempts : List Attempt} {url : String} :
    url ∈ freshUrls attempts ↔
      ∃ a ∈ attempts, ∃ body etag, a.result = .fresh body etag ∧ a.fault = none ∧ a.url = url := by
  rw [freshUrls, List.mem_filterMap]
  refine exists_congr fun a => and_congr_right fun _ => ?_
  cases a.result <;> cases a.fault <;> simp

def Rebuilds.fetch (s : Rebuilds) (builder : Builder) (attempts : List Attempt) : Rebuilds :=
  { s with
    fetched :=
      match builder with
      | .older => s.fetched
      | .newer => freshUrls attempts ++ s.fetched }

/-! ## Both runs -/

inductive Section where
  | plan (builder : Builder) (now : Nat)
  | download (builder : Builder) (results : List (String × DownloadResult))
  | merge (builder : Builder) (now : Nat) (attempts : List Attempt)
  | finish (builder : Builder) (stuck : String → Bool) (faults : SaveFaults)

section Runs

variable (codec : Codec) (path : String) (configs : Builder → Config)

/-- The last section of a run, under one lock. -/
def pruneAndSave (store : Store) (keepUrls : List String) (stuck : String → Bool)
    (faults : SaveFaults) : Store :=
  (store.apply codec path (.prune keepUrls stuck)).apply codec path (.save faults)

inductive Rebuilds.Step : Rebuilds → Section → Rebuilds → Prop
  | plan {s : Rebuilds} {builder : Builder} {now : Nat} : s.phase builder = .started →
      Step s (.plan builder now) (s.move builder (.planned
        (s.store.cache.planFetches s.store.bodies (configs builder).allUrls
          (configs builder).cacheTtl now).2))
  /-- A download task that panics gives no result. -/
  | download {s : Rebuilds} {builder : Builder} {jobs : List FetchJob}
      {results : List (String × DownloadResult)} : s.phase builder = .planned jobs →
      (results.map Prod.fst).Subperm (jobs.map FetchJob.url) →
      Step s (.download builder results) (s.move builder (.downloaded results))
  | merge {s : Rebuilds} {builder : Builder} {now : Nat}
      {results : List (String × DownloadResult)} {attempts : List Attempt} :
      s.phase builder = .downloaded results →
      attempts.map (fun a => (a.url, a.result)) = results →
      Step s (.merge builder now attempts)
        ({ s with store := s.store.apply codec path (.merge now attempts) }.fetch builder attempts
          |>.move builder .merged)
  | finish {s : Rebuilds} {builder : Builder} {stuck : String → Bool} {faults : SaveFaults} :
      s.phase builder = .merged →
      Step s (.finish builder stuck faults)
        ({ s with
            store := pruneAndSave codec path s.store (configs builder).allUrls stuck faults
          }.move builder .finished)

/-- Both runs start with whatever an earlier one left in the store. -/
def rebuildSystem : System Rebuilds Section where
  init s := (∀ builder, s.phase builder = .started) ∧ s.fetched = []
  step := Rebuilds.Step codec path configs

end Runs

/-! ## What a run keeps -/

/-- The URL has its entry, and the body file that the entry names is there. -/
def Held (cache : CachedLists) (bodies : Directory) (url : String) : Prop :=
  ∃ entry, cache.map[url]? = some entry ∧ entry.filename = urlToFilename url ∧
    (bodies entry.filename).isSome

section Kept

variable {now : Nat} {s : Merging} {a : Attempt} {url : String}

/-- A turn that writes the file of a fresh body leaves it there, whole or torn. -/
theorem mergeOne_dir {filename : String} (present : (s.dir filename).isSome) :
    ((mergeOne now s a).dir filename).isSome := by
  cases result : a.result with
  | fresh body etag =>
      cases failed : a.fault with
      | none =>
          rw [mergeOne_fresh result failed]
          simp only [Directory.set]
          split
          · rfl
          · exact present
      | some fault =>
          rw [mergeOne_fault result failed]
          simp only [Directory.set]
          split
          · rename_i same
            cases fault with
            | refused error => exact same ▸ present
            | torn n error => rfl
          · exact present
  | notModified =>
      simp only [mergeOne, result]
      split <;> split <;> exact present
  | staleFallback body => simpa only [mergeOne, result] using present
  | failed message => simpa only [mergeOne, result] using present

theorem held_mergeOne (held : Held s.cache s.dir url) :
    Held (mergeOne now s a).cache (mergeOne now s a).dir url := by
  obtain ⟨entry, found, name, present⟩ := held
  by_cases refreshes : a.url = url ∧ Refreshes s.cache a
  · obtain ⟨rfl, refreshes⟩ := refreshes
    have filed : Filed s.cache a.url := by
      intro other found'
      rw [found] at found'
      cases found'
      exact name
    obtain ⟨etag, dated⟩ := @mergeOne_of_refreshes now s a filed refreshes
    exact ⟨_, dated, rfl, mergeOne_dir (name ▸ present)⟩
  · exact ⟨entry, (mergeOne_other refreshes).trans found, name, mergeOne_dir present⟩

/-- The turn of a fresh body that is written. -/
theorem held_of_fresh {body : String} {etag : Option String} (result : a.result = .fresh body etag)
    (wrote : a.fault = none) : Held (mergeOne now s a).cache (mergeOne now s a).dir a.url := by
  rw [mergeOne_fresh result wrote]
  exact ⟨_, Std.ExtTreeMap.getElem?_insert_self, rfl, by simp⟩

variable {cache : CachedLists} {dir : Directory}

/-- **A merge keeps what is there**, and adds every fresh body that it writes. -/
theorem held_mergeDownloads (attempts : List Attempt)
    (held : Held cache dir url ∨ url ∈ freshUrls attempts) :
    Held (mergeDownloads now cache dir attempts).cache (mergeDownloads now cache dir attempts).dir
      url := by
  induction attempts using List.reverseRecOn with
  | nil => exact held.resolve_right List.not_mem_nil
  | append_singleton attempts a ih =>
      have turn : mergeDownloads now cache dir (attempts ++ [a]) =
          mergeOne now (mergeDownloads now cache dir attempts) a := List.foldl_append
      rw [turn]
      by_cases earlier : Held cache dir url ∨ url ∈ freshUrls attempts
      · exact held_mergeOne (ih earlier)
      · obtain ⟨not, notFresh⟩ := not_or.mp earlier
        obtain ⟨b, member, body, etag, result, wrote, rfl⟩ :=
          mem_freshUrls.mp (held.resolve_left not)
        rcases List.mem_append.mp member with member | member
        · exact absurd (mem_freshUrls.mpr ⟨b, member, body, etag, result, wrote, rfl⟩) notFresh
        · obtain rfl := List.mem_singleton.mp member
          exact held_of_fresh result wrote

/-- The prune keeps the entry of the URL, and deletes no file of that name. -/
def SparesUrl (c : CachedLists) (keepUrls : List String) (stuck : String → Bool) (url : String) :
    Prop :=
  url ∈ keepUrls ∧ (stuck (urlToFilename url) = false → ¬ c.Dooms keepUrls (urlToFilename url))

/-- **What a prune keeps** of what is there. -/
theorem held_prune_iff {keepUrls : List String} {stuck : String → Bool}
    (held : Held cache dir url) :
    Held (cache.prune keepUrls dir stuck).1 (cache.prune keepUrls dir stuck).2 url ↔
      SparesUrl cache keepUrls stuck url := by
  obtain ⟨entry, found, name, present⟩ := held
  rw [Held, entry_prune, found]
  constructor
  · rintro ⟨entry', found', -, present'⟩
    split at found'
    · rename_i kept
      cases found'
      refine ⟨kept, fun deleted doomed => ?_⟩
      rw [name, bodies_prune_doomed doomed deleted] at present'
      cases present'
    · cases found'
  · rintro ⟨kept, spared⟩
    refine ⟨entry, if_pos kept, name, ?_⟩
    rw [name] at present ⊢
    cases left : stuck (urlToFilename url) with
    | false =>
        rw [bodies_prune (spared left)]
        exact present
    | true =>
        rw [bodies_prune_stuck left]
        exact present

end Kept

/-! ## Runs -/

section Runs

variable {codec : Codec} {path : String} {configs : Builder → Config}

theorem entry_pruneAndSave (store : Store) (keepUrls : List String) (stuck : String → Bool)
    (faults : SaveFaults) (url : String) :
    (pruneAndSave codec path store keepUrls stuck faults).cache.map[url]? =
      if url ∈ keepUrls then store.cache.map[url]? else none :=
  (congrArg (·[url]?) (saveToDisk_map _ _ _)).trans
    (entry_prune store.cache keepUrls store.bodies stuck url)

/-- A save does not change what is there. -/
theorem held_pruneAndSave_iff {store : Store} {keepUrls : List String} {stuck : String → Bool}
    {faults : SaveFaults} {url : String} (held : Held store.cache store.bodies url) :
    Held (pruneAndSave codec path store keepUrls stuck faults).cache
        (pruneAndSave codec path store keepUrls stuck faults).bodies url ↔
      SparesUrl store.cache keepUrls stuck url := by
  rw [← held_prune_iff held, Held, Held, entry_pruneAndSave, entry_prune]
  rfl

variable (configs) in
/-- The prune spares every URL of the latest config that the newer run has fetched. -/
def Spares (s : Rebuilds) : Section → Prop
  | .finish builder stuck _ => ∀ url ∈ (configs .newer).allUrls, url ∈ s.fetched →
      SparesUrl s.store.cache (configs builder).allUrls stuck url
  | _ => True

variable (configs) in
/-- What the newer run has fetched of the latest config is there. -/
def KeepsFetched (s : Rebuilds) : Prop :=
  ∀ url ∈ (configs .newer).allUrls, url ∈ s.fetched → Held s.store.cache s.store.bodies url

variable {s s' : Rebuilds}

theorem keepsFetched_step {a : Section} (keeps : KeepsFetched configs s)
    (allowed : Spares configs s a) (step : Rebuilds.Step codec path configs s a s') :
    KeepsFetched configs s' := by
  cases step with
  | plan starts => exact keeps
  | download planned results => exact keeps
  | merge downloaded results =>
      rename_i builder now results attempts
      intro url latest member
      apply @held_mergeDownloads now url s.store.cache s.store.bodies
      cases builder with
      | older => exact .inl (keeps url latest member)
      | newer =>
          rcases List.mem_append.mp member with fresh | earlier
          · exact .inr fresh
          · exact .inl (keeps url latest earlier)
  | finish merged =>
      rename_i builder stuck faults
      intro url latest member
      exact (held_pruneAndSave_iff (keeps url latest member)).mpr (allowed url latest member)

/-- **An old refresh does not destroy what a reload has cached**, in every run whose prunes
spare it. -/
theorem run_held (run : Run (rebuildSystem codec path configs) (Spares configs) s) :
    KeepsFetched configs s := by
  apply run.invariant
  · intro s initial url latest member
    rw [initial.2] at member
    cases member
  · intro s a s' keeps allowed step
    exact keepsFetched_step keeps allowed step

end Runs

/-! ## A list that a reload adds -/

def listConfig (urls : List String) : Config := ⟨⟨urls, [], [], [], 3600, none⟩, ⟨[], [], [], []⟩⟩

/-- The reload has the list of `fetched`; the config before it had the lists `urls`. -/
def reloadConfigs (urls : List String) : Builder → Config
  | .older => listConfig urls
  | .newer => listConfig [fetched.url]

/-- Both runs have merged: the older one nothing, the newer one its list. -/
theorem bothMerged (urls : List String) :
    ∃ s, Run (rebuildSystem exampleCodec "cache.json" (reloadConfigs urls))
        (Spares (reloadConfigs urls)) s ∧
      s.store = merged ∧ fetched.url ∈ s.fetched ∧ ∀ builder, s.phase builder = .merged := by
  have start : Run (rebuildSystem exampleCodec "cache.json" (reloadConfigs urls))
      (Spares (reloadConfigs urls)) ⟨started, fun _ => .started, []⟩ :=
    .init ⟨fun _ => rfl, rfl⟩
  have planned := start.step (a := Section.plan .older 1700000000) trivial (.plan rfl)
  have downloaded := planned.step (a := Section.download .older []) trivial
    (.download rfl (List.nil_subperm))
  have mergedNone := downloaded.step (a := Section.merge .older 1700000000 []) trivial
    (.merge rfl rfl)
  have planned := mergedNone.step (a := Section.plan .newer 1700000000) trivial (.plan rfl)
  have downloaded := planned.step (a := Section.download .newer [(fetched.url, fetched.result)])
    trivial (.download rfl (List.Subperm.refl _))
  have mergedOne := downloaded.step (a := Section.merge .newer 1700000000 [fetched]) trivial
    (.merge rfl rfl)
  refine ⟨_, mergedOne, rfl, List.mem_singleton_self _, fun builder => ?_⟩
  cases builder <;> rfl

theorem merged_spares (stuck : String → Bool) :
    SparesUrl merged.cache [fetched.url] stuck fetched.url := by
  refine ⟨List.mem_singleton_self _, fun _ => ?_⟩
  rintro ⟨url, entry, found, gone, -⟩
  rw [merged_cache] at found
  have other : fetched.url ≠ url := fun same => gone (same ▸ List.mem_singleton_self _)
  simp [fetchedMap, other] at found

/-- A prune right after a prune for the same URLs deletes nothing. -/
theorem not_dooms_pruneAndSave {codec : Codec} {path : String} {store : Store}
    {keepUrls : List String} {stuck : String → Bool} {faults : SaveFaults} {filename : String} :
    ¬ (pruneAndSave codec path store keepUrls stuck faults).cache.Dooms keepUrls filename := by
  rintro ⟨url, entry, found, gone, -⟩
  rw [entry_pruneAndSave, if_neg gone] at found
  cases found

/-- Nothing refuses to be deleted, and saves succeed. -/
def deletable : String → Bool := fun _ => false

def noFaults : SaveFaults := ⟨none, none⟩

/-- Both configs have the list. -/
theorem run_held_same :
    ∃ s, Run (rebuildSystem exampleCodec "cache.json" (reloadConfigs [fetched.url]))
        (Spares (reloadConfigs [fetched.url])) s ∧
      (∀ builder, s.phase builder = .finished) ∧ fetched.url ∈ s.fetched ∧
      Held s.store.cache s.store.bodies fetched.url := by
  obtain ⟨s, run, store, member, phase⟩ := bothMerged [fetched.url]
  have newer := run.step (a := Section.finish .newer deletable noFaults) ?_ (.finish (phase _))
  · have older := newer.step (a := Section.finish .older deletable noFaults) ?_ (.finish (phase _))
    · refine ⟨_, older, fun builder => ?_, member, ?_⟩
      · cases builder <;> rfl
      · exact run_held older _ (List.mem_singleton_self _) (member)
    · intro url latest _
      exact ⟨latest, fun _ => not_dooms_pruneAndSave⟩
  · intro url latest _
    obtain rfl := List.mem_singleton.mp latest
    rw [store]
    exact merged_spares deletable

/-- The older config has no list: when both runs have finished, the newer run's list has no
entry and no body file. -/
theorem olderPrune_drops_fetched :
    ∃ s, Reachable (rebuildSystem exampleCodec "cache.json" (reloadConfigs [])) s ∧
      (∀ builder, s.phase builder = .finished) ∧
      fetched.url ∈ (reloadConfigs [] .newer).allUrls ∧ fetched.url ∈ s.fetched ∧
      s.store.cache.map[fetched.url]? = none ∧
      s.store.bodies (urlToFilename fetched.url) = none := by
  obtain ⟨s, run, store, member, phase⟩ := bothMerged []
  have newer := run.reachable.step (a := Section.finish .newer deletable noFaults)
    (.finish (phase _))
  have older := newer.step (a := Section.finish .older deletable noFaults) (.finish (phase _))
  refine ⟨_, older, fun builder => ?_, List.mem_singleton_self _,
    member, entry_pruneAndSave _ _ _ _ _, ?_⟩
  · cases builder <;> rfl
  · apply bodies_prune_doomed ?_ rfl
    refine ⟨fetched.url, ⟨1700000000, none, urlToFilename fetched.url⟩, ?_, List.not_mem_nil, rfl⟩
    show (pruneAndSave _ _ s.store [fetched.url] _ _).cache.map[fetched.url]? = _
    rw [entry_pruneAndSave, if_pos (List.mem_singleton_self _), store, merged_cache]
    exact Std.ExtTreeMap.getElem?_insert_self

end DnsLigase.Main
