/-
# Main.Builders — any number of runs of `create_blocklist` over one cache

A build plans its downloads, waits for them, merges their results, parses what it has got, prunes
and saves.  It holds the cache lock for the plan, for the merge, and for the prune and the save,
so each of these is one step; in between the other builds go on, and the servers publish.  A
download holds no lock.  It is one step, too, but with answers of any versions since its build
began, and it may see its body file as it was before, or while another build is writing it
(`Look`).  The program may be killed at any time, in the middle of a merge or of a prune as well,
and started again with what was saved.

* `run_published`: every body that a build parses was published, and if it was downloaded, it is
  no older than what the server had when the build began.
* `run_watershed`: a build that begins when another one has merged never parses an older version
  of a list than that one did.
-/
import DnsLigase.Cache.Versions
import DnsLigase.Main.Build
import DnsLigase.Theory.Entries

namespace DnsLigase.Main

open DnsLigase.Cache DnsLigase.Theory.Case DnsLigase.Theory.Entries DnsLigase.Theory.Io
open DnsLigase.Theory.Transition DnsLigase.Theory.Utf8

set_option autoImplicit false

/-! ## Builds -/

abbrev Bodies := Std.ExtTreeMap String String compare

/-- How far a build is. -/
inductive BuildStage where
  /-- The jobs without an answer yet, and the answers. -/
  | downloading (jobs : List FetchJob) (arrived : List Arrived)
  /-- The results that were merged, and the bodies that are parsed. -/
  | parsing (results : List Arrived) (bodies : Bodies)
  | finished (results : List Arrived) (bodies : Bodies)
  | killed

namespace BuildStage

def jobs : BuildStage → List FetchJob
  | .downloading jobs _ => jobs
  | _ => []

def arrived : BuildStage → List Arrived
  | .downloading _ arrived => arrived
  | _ => []

def merged : BuildStage → Option (List Arrived × Bodies)
  | .parsing results bodies => some (results, bodies)
  | .finished results bodies => some (results, bodies)
  | _ => none

/-- What is left of a build when the program is killed. -/
def kill : BuildStage → BuildStage
  | .finished results bodies => .finished results bodies
  | _ => .killed

@[simp] theorem jobs_kill (stage : BuildStage) : stage.kill.jobs = [] := by
  cases stage <;> rfl

@[simp] theorem arrived_kill (stage : BuildStage) : stage.kill.arrived = [] := by
  cases stage <;> rfl

theorem merged_of_kill {stage : BuildStage} {parsed : List Arrived × Bodies}
    (merged : stage.kill.merged = some parsed) : stage.merged = some parsed := by
  cases stage with
  | finished results bodies => exact merged
  | downloading jobs arrived => cases merged
  | parsing results bodies => cases merged
  | killed => cases merged

end BuildStage

structure BuildTask where
  config : Config
  /-- The versions that the servers published when the downloads were planned. -/
  begun : String → Nat
  fresh : List (String × String)
  stage : BuildStage

structure Builders where
  version : String → Nat
  newest : String → Nat
  store : Store
  tasks : List BuildTask

inductive BuilderAct where
  | publish (url : String)
  | start (config : Config) (now : Nat)
  | download (i : Nat) (job : FetchJob) (http : Http) (look : Look)
  | lose (i : Nat) (job : FetchJob)
  | merge (i : Nat) (now : Nat) (picks : List (Arrived × Option BodyFault))
  | finish (i : Nat) (stuck : String → Bool) (faults : SaveFaults)
  | restart
  | killMerging (i : Nat) (now : Nat) (picks : List (Arrived × Option BodyFault))
  | killPruning (i : Nat) (stuck : String → Bool)
  | terminate (faults : SaveFaults)

def Builders.setStage (s : Builders) (i : Nat) (task : BuildTask) (stage : BuildStage) : Builders :=
  { s with tasks := s.tasks.set i { task with stage } }

def Builders.begin (s : Builders) (config : Config) (now : Nat) : BuildTask where
  config := config
  begun := s.version
  fresh := freshBodies config s.store now
  stage :=
    .downloading (s.store.cache.planFetches s.store.bodies config.allUrls config.cacheTtl now).2 []

/-- What the cache knows of the builds. -/
def Builders.sync (s : Builders) : Sync where
  version := s.version
  newest := s.newest
  store := s.store
  jobs := s.tasks.flatMap fun task => task.stage.jobs
  arrived := s.tasks.flatMap fun task => task.stage.arrived

/-- The answers of the builds that have got them all, and may be merging. -/
def Builders.merging (s : Builders) : List Arrived :=
  s.tasks.flatMap fun task => if task.stage.jobs.isEmpty then task.stage.arrived else []

section System

variable (ρ : Type) [UnicodeCase] [RegexEngine ρ]
variable (codec : Codec) (path : String) (origin : Origin) (lists : List String)

/-- The program is killed and started again. -/
def Builders.restarted (s : Builders) : Builders :=
  { s with
    store := { s.store with cache := loadOrDefault codec s.store.disk path }
    tasks := s.tasks.map fun task => { task with stage := task.stage.kill } }

inductive BuilderStep : Builders → BuilderAct → Builders → Prop
  | publish {s : Builders} (url : String) :
      BuilderStep s (.publish url)
        { s with version := Function.update s.version url (s.version url + 1) }
  | start {s : Builders} {config : Config} {now : Nat} : (∀ url ∈ config.allUrls, url ∈ lists) →
      BuilderStep s (.start config now) { s with tasks := s.tasks ++ [s.begin config now] }
  /-- A download has come to its end, with answers of any versions since the build began. -/
  | download {s : Builders} {i : Nat} {task : BuildTask} {jobs : List FetchJob}
      {arrived : List Arrived} {job : FetchJob} {http : Http} {look : Look} {v v' : Nat}
      {answer : Arrived} :
      s.tasks[i]? = some task → task.stage = .downloading jobs arrived → job ∈ jobs →
      task.begun job.url ≤ v → v ≤ v' → v' ≤ s.version job.url →
      origin.Honest job.url v v' http → look.Meets s.merging job.url →
      answer = job.answer http (look.seen s.store.bodies job.url) v v' →
      BuilderStep s (.download i job http look)
        { s.setStage i task (.downloading (jobs.erase job) (arrived ++ [answer])) with
          newest := seeNewest s.newest answer }
  /-- A download task panics. -/
  | lose {s : Builders} {i : Nat} {task : BuildTask} {jobs : List FetchJob}
      {arrived : List Arrived} {job : FetchJob} :
      s.tasks[i]? = some task → task.stage = .downloading jobs arrived → job ∈ jobs →
      BuilderStep s (.lose i job) (s.setStage i task (.downloading (jobs.erase job) arrived))
  | merge {s : Builders} {i : Nat} {task : BuildTask} {arrived : List Arrived} {now : Nat}
      {picks : List (Arrived × Option BodyFault)} :
      s.tasks[i]? = some task → task.stage = .downloading [] arrived →
      (picks.map Prod.fst).Perm arrived →
      BuilderStep s (.merge i now picks)
        { s.setStage i task (.parsing arrived (collectBodies task.fresh
            (mergeDownloads now s.store.cache s.store.bodies (picks.map Arrived.attempt)).bodies))
          with store := s.store.apply codec path (.merge now (picks.map Arrived.attempt)) }
  /-- A build whose parsers panic does not get here. -/
  | finish {s : Builders} {i : Nat} {task : BuildTask} {results : List Arrived} {bodies : Bodies}
      {stuck : String → Bool} {faults : SaveFaults} :
      s.tasks[i]? = some task → task.stage = .parsing results bodies →
      (createBlocklist task.config (fun url => bodies[url]?) : Option (Blocklist ρ)).isSome →
      BuilderStep s (.finish i stuck faults)
        { s.setStage i task (.finished results bodies) with
          store := pruneAndSave codec path s.store task.config.allUrls stuck faults }
  | restart {s : Builders} : BuilderStep s .restart (s.restarted codec path)
  /-- A build is killed when it has merged some of its answers. -/
  | killMerging {s : Builders} {i : Nat} {task : BuildTask} {arrived rest : List Arrived} {now : Nat}
      {picks : List (Arrived × Option BodyFault)} :
      s.tasks[i]? = some task → task.stage = .downloading [] arrived →
      (picks.map Prod.fst ++ rest).Perm arrived →
      BuilderStep s (.killMerging i now picks)
        (Builders.restarted codec path
          { s with store := s.store.apply codec path (.merge now (picks.map Arrived.attempt)) })
  /-- A build is killed when it has removed some of the files; the others are `stuck`. -/
  | killPruning {s : Builders} {i : Nat} {task : BuildTask} {results : List Arrived}
      {bodies : Bodies} {stuck : String → Bool} :
      s.tasks[i]? = some task → task.stage = .parsing results bodies →
      BuilderStep s (.killPruning i stuck)
        (Builders.restarted codec path
          { s with store := s.store.apply codec path (.prune task.config.allUrls stuck) })
  /-- At SIGTERM the cache is saved first. -/
  | terminate {s : Builders} {faults : SaveFaults} :
      BuilderStep s (.terminate faults)
        (Builders.restarted codec path
          { s with store := s.store.apply codec path (.save faults) })

/-- The program starts with no metadata, no files and no builds. -/
def builderSystem : System Builders BuilderAct where
  init s := (syncSystem codec path origin lists).init s.sync ∧ s.tasks = []
  step := BuilderStep ρ codec path origin lists

/-- No write of a body breaks off half-way, no download falls back to a file that another build
is writing, none is overtaken by a newer one of another build, and what a failed save leaves of the
metadata is what was there or a part of the new data. -/
def Unspoiled (s : Builders) : BuilderAct → Prop
  | .download _ job http look => ¬ look.Misleads s.store.bodies http job
  | .merge _ _ picks => ∀ pick ∈ picks, PickStands s.newest pick
  | .killMerging _ _ picks => ∀ pick ∈ picks, PickStands s.newest pick
  | .finish i stuck faults => ∀ task, s.tasks[i]? = some task →
      BreaksOffClean codec path (s.store.apply codec path (.prune task.config.allUrls stuck))
        (.work (.save faults))
  | .terminate faults => BreaksOffClean codec path s.store (.work (.save faults))
  | _ => True

end System

/-! ## What the cache knows -/

section Tasks

variable {s : Builders} {i : Nat} {task : BuildTask}

/-- A fresh body is one of a list of the config. -/
theorem url_of_freshBodies {config : Config} {store : Store} {now : Nat} {p : String × String}
    (member : p ∈ freshBodies config store now) : p.1 ∈ config.allUrls := by
  have planned : p.1 ∈ planned store.cache store.bodies config.allUrls config.cacheTtl now :=
    List.mem_map_of_mem member
  rw [(planned_queued _ _ _ _ _).1] at planned
  exact List.mem_of_mem_filter planned

theorem mem_of_collectBodies {fresh merged : List (String × String)} {url body : String}
    (found : (collectBodies fresh merged)[url]? = some body) :
    (url, body) ∈ fresh ∨ (url, body) ∈ merged := by
  refine (mem_of_getElem?_insertMany found).imp_left fun before => ?_
  rw [Std.ExtTreeMap.ofList_eq_insertMany_empty] at before
  exact (mem_of_getElem?_insertMany before).resolve_left (by simp)

/-- The list of builds around one of them. -/
theorem around_task (here : s.tasks[i]? = some task) : ∃ before behind,
    s.tasks = before ++ task :: behind ∧
      ∀ stage, (s.setStage i task stage).tasks = before ++ { task with stage } :: behind := by
  obtain ⟨bound, rfl⟩ := List.getElem?_eq_some_iff.mp here
  refine ⟨s.tasks.take i, s.tasks.drop (i + 1), ?_, fun stage => ?_⟩
  · rw [List.cons_getElem_drop_succ, List.take_append_drop]
  · exact List.set_eq_take_cons_drop _ bound

theorem mem_sync_jobs (here : s.tasks[i]? = some task) {job : FetchJob}
    (member : job ∈ task.stage.jobs) : job ∈ s.sync.jobs :=
  List.mem_flatMap.mpr ⟨task, List.mem_of_getElem? here, member⟩

theorem Builders.merging_subset (s : Builders) : s.merging ⊆ s.sync.arrived := by
  intro a member
  obtain ⟨task, among, mine⟩ := List.mem_flatMap.mp member
  split at mine
  · exact List.mem_flatMap.mpr ⟨task, among, mine⟩
  · cases mine

theorem mem_sync_arrived (here : s.tasks[i]? = some task) {a : Arrived}
    (member : a ∈ task.stage.arrived) : a ∈ s.sync.arrived :=
  List.mem_flatMap.mpr ⟨task, List.mem_of_getElem? here, member⟩

end Tasks

section Knowledge

variable {ρ : Type} [UnicodeCase] [RegexEngine ρ]
variable {codec : Codec} {path : String} {origin : Origin} {lists : List String}

omit [UnicodeCase] [RegexEngine ρ] in
theorem sync_setStage {s : Builders} {i : Nat} {task : BuildTask} {stage : BuildStage}
    (here : s.tasks[i]? = some task) (coherent : Coherent codec path origin lists s.sync)
    (jobs : stage.jobs ⊆ task.stage.jobs) (arrived : stage.arrived ⊆ task.stage.arrived) :
    Coherent codec path origin lists (s.setStage i task stage).sync := by
  obtain ⟨before, behind, tasks, changed⟩ := around_task here
  refine coherent.fewer (fun job member => ?_) fun a member => ?_
  · rw [changed] at member
    simp only [Builders.sync, tasks, List.flatMap_append, List.flatMap_cons, List.mem_append]
      at member ⊢
    exact member.imp_right (Or.imp_left (@jobs job))
  · rw [changed] at member
    simp only [Builders.sync, tasks, List.flatMap_append, List.flatMap_cons, List.mem_append]
      at member ⊢
    exact member.imp_right (Or.imp_left (@arrived a))

/-- **What the cache knows stays coherent**: the builds take no step that `syncSystem` does not
allow, but for the answers and the jobs that they lose. -/
theorem sync_step (faithful : codec.Faithful) (apart : Apart lists) {s s' : Builders}
    {act : BuilderAct} (coherent : Coherent codec path origin lists s.sync)
    (unspoiled : Unspoiled codec path s act)
    (step : BuilderStep ρ codec path origin lists s act s') :
    Coherent codec path origin lists s'.sync := by
  have stepped : ∀ {t t' : Sync} (a : SyncAct), Coherent codec path origin lists t →
      SyncStep codec path origin lists t a t' → Undisturbed codec path t a →
      Coherent codec path origin lists t' :=
    fun _ coherent step undisturbed => coherent_step faithful apart coherent undisturbed step
  have restarts : ∀ {t : Builders} {jobs : List FetchJob} {arrived : List Arrived},
      Coherent codec path origin lists ⟨t.version, t.newest, t.store, jobs, arrived⟩ →
      Coherent codec path origin lists (t.restarted codec path).sync := by
    intro t jobs arrived coherent
    have restarted := stepped .restart coherent .restart trivial
    refine restarted.fewer (fun job member => ?_) fun a member => ?_
    · simp [Builders.restarted, List.flatMap_map] at member
    · simp [Builders.restarted, List.flatMap_map] at member
  cases step with
  | publish url => exact stepped (.publish url) coherent (.publish url) trivial
  | start known =>
      rename_i config now
      have planned := stepped (.plan config.allUrls config.cacheTtl now) coherent (.plan known)
        trivial
      refine planned.fewer (fun job member => ?_) fun a member => ?_
      · simpa [Builders.sync, Builders.begin, BuildStage.jobs] using member
      · simpa [Builders.sync, Builders.begin, BuildStage.arrived] using member
  | download here downloading member since later published honest meets arrives =>
      rename_i i task jobs arrived job http look v v' answer
      obtain ⟨before, behind, tasks, changed⟩ := around_task here
      have among : job ∈ s.sync.jobs := mem_sync_jobs here (by rw [downloading]; exact member)
      have downloaded := stepped (.download job http look) coherent
        (.download among later published honest (meets.mono s.merging_subset) arrives) unspoiled
      refine downloaded.fewer (fun other rest => ?_) fun a rest => ?_
      · -- one of the jobs that are alike is gone, of whichever build it was
        rw [changed] at rest
        simp only [List.flatMap_append, List.flatMap_cons] at rest
        simp only [Builders.sync, tasks, List.flatMap_append, List.flatMap_cons, downloading,
          BuildStage.jobs] at rest ⊢
        have front := (List.perm_append_comm_assoc (before.flatMap fun task => task.stage.jobs)
          jobs (behind.flatMap fun task => task.stage.jobs)).erase job
        rw [List.erase_append_left _ member] at front
        refine front.mem_iff.mpr ?_
        simp only [List.mem_append] at rest ⊢
        tauto
      · rw [changed] at rest
        simp only [Builders.sync, tasks, List.flatMap_append, List.flatMap_cons, downloading,
          BuildStage.arrived, List.mem_append] at rest ⊢
        tauto
  | lose here downloading member =>
      refine sync_setStage here coherent (fun other rest => ?_) fun a rest => ?_
      · rw [downloading]
        exact List.mem_of_mem_erase rest
      · rw [downloading]
        exact rest
  | merge here downloading perm =>
      rename_i i task arrived now picks
      obtain ⟨before, behind, tasks, changed⟩ := around_task here
      have split : (picks.map Prod.fst ++ ((before.flatMap fun task => task.stage.arrived) ++
          behind.flatMap fun task => task.stage.arrived)).Perm s.sync.arrived := by
        simp only [Builders.sync, tasks, List.flatMap_append, List.flatMap_cons, downloading,
          BuildStage.arrived]
        exact (perm.append_right _).trans (List.perm_append_comm_assoc _ _ _)
      have merged := stepped (.merge now picks) coherent (.merge split) unspoiled
      refine merged.fewer (fun job member => ?_) fun a member => ?_
      · rw [changed] at member
        simp only [Builders.sync, tasks, List.flatMap_append, List.flatMap_cons, BuildStage.jobs,
          downloading] at member ⊢
        exact member
      · rw [changed] at member
        simpa [BuildStage.arrived] using member
  | finish here parsing created =>
      rename_i i task results bodies stuck faults
      have pruned := stepped (.prune task.config.allUrls stuck) coherent .prune trivial
      have saved := stepped (.save faults) pruned .save (unspoiled task here)
      exact @sync_setStage codec path origin lists
        { s with store := pruneAndSave codec path s.store task.config.allUrls stuck faults } i task
        (.finished results bodies) here saved (List.nil_subset _) (List.nil_subset _)
  | restart => exact restarts coherent
  | killMerging here downloading perm =>
      rename_i i task arrived rest now picks
      obtain ⟨before, behind, tasks, changed⟩ := around_task here
      have split : (picks.map Prod.fst ++ (rest ++ ((before.flatMap fun task => task.stage.arrived) ++
          behind.flatMap fun task => task.stage.arrived))).Perm s.sync.arrived := by
        simp only [Builders.sync, tasks, List.flatMap_append, List.flatMap_cons, downloading,
          BuildStage.arrived]
        rw [← List.append_assoc]
        exact (perm.append_right _).trans (List.perm_append_comm_assoc _ _ _)
      exact restarts (stepped (.merge now picks) coherent (.merge split) unspoiled)
  | killPruning here parsing =>
      rename_i i task results bodies stuck
      exact restarts (stepped (.prune task.config.allUrls stuck) coherent .prune trivial)
  | terminate =>
      rename_i faults
      exact restarts (stepped (.save faults) coherent .save unspoiled)

/-- A build that no other one interrupts while it merges, parses and saves is `finishBuild`. -/
theorem finishBuild_of_steps {s s₁ s₂ : Builders} {i : Nat} {task : BuildTask} {now : Nat}
    {picks : List (Arrived × Option BodyFault)} {stuck : String → Bool} {faults : SaveFaults}
    (here : s.tasks[i]? = some task)
    (merges : BuilderStep ρ codec path origin lists s (.merge i now picks) s₁)
    (finishes : BuilderStep ρ codec path origin lists s₁ (.finish i stuck faults) s₂) :
    ∃ bl : Blocklist ρ, finishBuild codec path task.config task.fresh s.store now
      (picks.map Arrived.attempt) stuck faults = (some bl, s₂.store) := by
  cases merges with
  | merge here' downloading perm =>
      obtain rfl := Option.some.inj (here.symm.trans here')
      cases finishes with
      | finish parsed parsing created =>
          obtain ⟨bound, -⟩ := List.getElem?_eq_some_iff.mp here
          rw [show ∀ stage, (s.setStage i task stage).tasks[i]? = some { task with stage } from
            fun stage => List.getElem?_set_self bound] at parsed
          obtain rfl := Option.some.inj parsed
          obtain ⟨rfl, rfl⟩ := BuildStage.parsing.inj parsing
          obtain ⟨bl, made⟩ := Option.isSome_iff_exists.mp created
          exact ⟨bl, finishBuild_of_created made⟩

end Knowledge

/-! ## What a build parses -/

section Sound

variable (origin : Origin)

/-- A body that `task` parses, where it merged `results`: a version of the list, read off the
cache, or given by a download, which has not missed what was published when `task` began. -/
def BuildTask.Parses (version : String → Nat) (task : BuildTask) (results : List Arrived)
    (url body : String) : Prop :=
  ∃ w ≤ version url, body = origin.body url w ∧
    ((url, body) ∈ task.fresh ∨
      ∃ a ∈ results, a.url = url ∧ (a.result.sees → task.begun url ≤ w))

structure BuildTask.Sound (version : String → Nat) (task : BuildTask) : Prop where
  begun : ∀ url, task.begun url ≤ version url
  fresh : ∀ p ∈ task.fresh, ∃ w ≤ version p.1, p.2 = origin.body p.1 w
  arrived : ∀ a ∈ task.stage.arrived, task.begun a.url ≤ a.version
  parses : ∀ results bodies, task.stage.merged = some (results, bodies) →
    ∀ url body, bodies[url]? = some body → task.Parses origin version results url body

variable {origin} {version version' : String → Nat} {task : BuildTask}

theorem BuildTask.Sound.mono (sound : task.Sound origin version)
    (later : ∀ url, version url ≤ version' url) : task.Sound origin version' where
  begun url := (sound.begun url).trans (later url)
  fresh p member := by
    obtain ⟨w, published, holds⟩ := sound.fresh p member
    exact ⟨w, published.trans (later p.1), holds⟩
  arrived := sound.arrived
  parses results bodies merged url body found := by
    obtain ⟨w, published, holds⟩ := sound.parses results bodies merged url body found
    exact ⟨w, published.trans (later url), holds⟩

/-- A build that goes on without new bodies. -/
theorem BuildTask.Sound.move (sound : task.Sound origin version) {stage : BuildStage}
    (arrived : ∀ a ∈ stage.arrived, task.begun a.url ≤ a.version)
    (merged : ∀ parsed, stage.merged = some parsed → task.stage.merged = some parsed) :
    BuildTask.Sound origin version { task with stage } where
  begun := sound.begun
  fresh := sound.fresh
  arrived := arrived
  parses results bodies parsed := sound.parses results bodies (merged _ parsed)

end Sound

section Merge

variable {codec : Codec} {path : String} {origin : Origin} {lists : List String}

variable (codec path origin lists) in
structure BuildersSound (s : Builders) : Prop where
  coherent : Coherent codec path origin lists s.sync
  tasks : ∀ task ∈ s.tasks, task.Sound origin s.version

theorem tasks_setStage {P : BuildTask → Prop} {s : Builders} {i : Nat} {task : BuildTask}
    {stage : BuildStage} (all : ∀ other ∈ s.tasks, P other) (changed : P { task with stage }) :
    ∀ other ∈ (s.setStage i task stage).tasks, P other := by
  intro other member
  rcases List.mem_or_eq_of_mem_set member with old | rfl
  · exact all other old
  · exact changed

theorem begin_sound {s : Builders} (coherent : Coherent codec path origin lists s.sync)
    {config : Config} (known : ∀ url ∈ config.allUrls, url ∈ lists) (now : Nat) :
    (s.begin config now).Sound origin s.version where
  begun _ := Nat.le_refl _
  fresh p member := by
    obtain ⟨w, seen, holds, -⟩ :=
      plan_serves coherent member (known _ (url_of_freshBodies member))
    exact ⟨w, seen.trans (coherent.seen _), holds⟩
  arrived _ member := nomatch member
  parses _ _ merged := nomatch merged

/-- **What a merge leaves to be parsed**: the fresh bodies, and what its own answers serve. -/
theorem merge_sound (apart : Apart lists) {s : Builders}
    (sound : BuildersSound codec path origin lists s) {i : Nat} {task : BuildTask}
    {arrived : List Arrived} {now : Nat} {picks : List (Arrived × Option BodyFault)}
    (here : s.tasks[i]? = some task) (downloading : task.stage = .downloading [] arrived)
    (perm : (picks.map Prod.fst).Perm arrived)
    (stands : ∀ pick ∈ picks, PickStands s.newest pick) :
    BuildTask.Sound origin s.version
      { task with
        stage := .parsing arrived (collectBodies task.fresh (mergeDownloads now s.store.cache
          s.store.bodies (picks.map Arrived.attempt)).bodies) } := by
  have mine : task.Sound origin s.version := sound.tasks task (List.mem_of_getElem? here)
  have own : ∀ pick ∈ picks, pick.1 ∈ arrived :=
    fun pick member => perm.mem_iff.mp (List.mem_map_of_mem member)
  have answered : ∀ a ∈ arrived, a ∈ task.stage.arrived := by
    rw [downloading]
    exact fun a => id
  refine ⟨mine.begun, mine.fresh, (fun a member => nomatch member), ?_⟩
  rintro results bodies ⟨⟩ url body found
  rcases mem_of_collectBodies found with fresh | merged
  · obtain ⟨w, published, holds⟩ := mine.fresh _ fresh
    exact ⟨w, published, holds, .inl fresh⟩
  · obtain ⟨pick, member, same, w, seen, holds, later⟩ := merge_serves apart sound.coherent
      (fun pick member => mem_sync_arrived here (answered _ (own pick member))) stands _ merged
    have mineToo : pick.1 ∈ arrived := own pick member
    rw [← show url = pick.1.url from same] at seen holds
    refine ⟨w, seen.trans (sound.coherent.seen url), holds, .inr ⟨pick.1, mineToo, same.symm, ?_⟩⟩
    intro sees
    have began := mine.arrived pick.1 (answered _ mineToo)
    rw [← show url = pick.1.url from same] at began
    exact began.trans (later sees)

end Merge

section Runs

variable {ρ : Type} [UnicodeCase] [RegexEngine ρ]
variable {codec : Codec} {path : String} {origin : Origin} {lists : List String}

theorem sound_init {s : Builders} (initial : (builderSystem ρ codec path origin lists).init s) :
    BuildersSound codec path origin lists s where
  coherent := coherent_init initial.1
  tasks task member := by
    rw [initial.2] at member
    cases member

theorem sound_step (faithful : codec.Faithful) (apart : Apart lists) {s s' : Builders}
    {act : BuilderAct} (sound : BuildersSound codec path origin lists s)
    (unspoiled : Unspoiled codec path s act)
    (step : BuilderStep ρ codec path origin lists s act s') :
    BuildersSound codec path origin lists s' := by
  refine ⟨sync_step faithful apart sound.coherent unspoiled step, ?_⟩
  have restarts : ∀ task ∈ s.tasks.map fun task => { task with stage := task.stage.kill },
      task.Sound origin s.version := by
    intro task member
    obtain ⟨before, old, rfl⟩ := List.mem_map.mp member
    exact (sound.tasks before old).move (by simp) fun _ => BuildStage.merged_of_kill
  cases step with
  | publish url =>
      intro task member
      refine (sound.tasks task member).mono fun url' => ?_
      dsimp only
      rw [Function.update_apply]
      split
      · rename_i same
        rw [same]
        exact Nat.le_succ _
      · exact Nat.le_refl _
  | start known =>
      intro task member
      rcases List.mem_append.mp member with old | new
      · exact sound.tasks task old
      · obtain rfl := List.mem_singleton.mp new
        exact begin_sound sound.coherent known _
  | download here downloading member since later published honest meets arrives =>
      have mine := sound.tasks _ (List.mem_of_getElem? here)
      refine tasks_setStage sound.tasks (mine.move (fun a among => ?_) nofun)
      rcases List.mem_append.mp among with old | new
      · refine mine.arrived a ?_
        rw [downloading]
        exact old
      · rw [List.mem_singleton.mp new, arrives]
        exact since.trans (answeredAt_bounds later).1
  | lose here downloading member =>
      have mine := sound.tasks _ (List.mem_of_getElem? here)
      refine tasks_setStage sound.tasks (mine.move (fun a among => mine.arrived a ?_) nofun)
      rw [downloading]
      exact among
  | merge here downloading perm =>
      exact tasks_setStage sound.tasks (merge_sound apart sound here downloading perm unspoiled)
  | finish here parsing created =>
      have mine := sound.tasks _ (List.mem_of_getElem? here)
      refine tasks_setStage sound.tasks (mine.move nofun fun parsed merged => ?_)
      rw [parsing]
      exact merged
  | restart | killMerging | killPruning | terminate => exact restarts

theorem builders_sound (faithful : codec.Faithful) (apart : Apart lists) {s : Builders}
    (run : Run (builderSystem ρ codec path origin lists) (Unspoiled codec path) s) :
    BuildersSound codec path origin lists s := by
  apply run.invariant
  · intro s initial
    exact sound_init initial
  · intro s act s' sound unspoiled step
    exact sound_step faithful apart sound unspoiled step

/-- **What a build parses was published, and not before it began**: in every unspoiled run of any
number of builds, whatever the others merge, prune and save meanwhile, each body that a build
parses is a version of its list; it comes from the cache as the build planned, or from one of
the build's own downloads, and if that download saw the server, it is no older than what the
server had when the build began. -/
theorem run_published (faithful : codec.Faithful) (apart : Apart lists) {s : Builders}
    (run : Run (builderSystem ρ codec path origin lists) (Unspoiled codec path) s)
    {task : BuildTask} (member : task ∈ s.tasks) {results : List Arrived} {bodies : Bodies}
    (merged : task.stage.merged = some (results, bodies)) {url body : String}
    (found : bodies[url]? = some body) : task.Parses origin s.version results url body := by
  have sound := builders_sound faithful apart run
  exact (sound.tasks task member).parses results bodies merged url body found

end Runs

/-! ## No older version -/

section Since

variable (origin : Origin) (lists : List String)

/-- All that `task` has read off the cache lies between two versions. -/
structure BuildTask.Between (low high : String → Nat) (task : BuildTask) : Prop where
  fresh : ∀ p ∈ task.fresh, origin.Between low high p.1 p.2
  falls : ∀ a ∈ task.stage.arrived, a.FallsBetween origin low high
  bodies : ∀ results bodies, task.stage.merged = some (results, bodies) →
    ∀ url body, bodies[url]? = some body → origin.Between low high url body

/-- The version below which the build at `i` reads nothing, where those from `n` on read nothing
below `low`. -/
def leastOf (n : Nat) (low : String → Nat) (i : Nat) (url : String) : Nat :=
  if n ≤ i then low url else 0

/-- The files hold the versions `held`, and no build has read a newer one. -/
structure Since (n : Nat) (low : String → Nat) (s : Builders) (held : String → Nat) : Prop where
  versioned : Versioned origin lists s.newest held s.store.bodies
  least : ∀ url, low url ≤ held url
  tasks : ∀ (i : Nat) (task : BuildTask), s.tasks[i]? = some task →
    task.Between origin (leastOf n low i) held

variable {origin lists} {low high high' : String → Nat} {task : BuildTask}

theorem leastOf_le {n : Nat} {held : String → Nat} (least : ∀ url, low url ≤ held url) (i : Nat)
    (url : String) : leastOf n low i url ≤ held url := by
  unfold leastOf
  split
  · exact least url
  · exact Nat.zero_le _

theorem BuildTask.Between.mono (between : task.Between origin low high)
    (higher : ∀ url, high url ≤ high' url) : task.Between origin low high' where
  fresh p member := (between.fresh p member).mono (fun _ => Nat.le_refl _) higher
  falls a member := (between.falls a member).mono higher
  bodies results bodies merged url body found :=
    (between.bodies results bodies merged url body found).mono (fun _ => Nat.le_refl _) higher

/-- A build that goes on without new bodies. -/
theorem BuildTask.Between.move (between : task.Between origin low high) {stage : BuildStage}
    (falls : ∀ a ∈ stage.arrived, a.FallsBetween origin low high)
    (merged : ∀ parsed, stage.merged = some parsed → task.stage.merged = some parsed) :
    BuildTask.Between origin low high { task with stage } where
  fresh := between.fresh
  falls := falls
  bodies results bodies parsed := between.bodies results bodies (merged _ parsed)

theorem between_setStage {n : Nat} {s : Builders} {i : Nat} {stage : BuildStage}
    (all : ∀ (j : Nat) (other : BuildTask), s.tasks[j]? = some other →
      other.Between origin (leastOf n low j) high)
    (changed : BuildTask.Between origin (leastOf n low i) high { task with stage }) :
    ∀ (j : Nat) (other : BuildTask), (s.setStage i task stage).tasks[j]? = some other →
      other.Between origin (leastOf n low j) high := by
  intro j other found
  rw [Builders.setStage, List.getElem?_set] at found
  split at found
  · rename_i same
    split at found
    · rw [← same, ← Option.some.inj found]
      exact changed
    · cases found
  · exact all j other found

end Since

section Watershed

variable {ρ : Type} [UnicodeCase] [RegexEngine ρ]
variable {codec : Codec} {path : String} {origin : Origin} {lists : List String}
variable {n : Nat} {low held : String → Nat}

/-- **The versions that are held only grow**, and bound what the builds read. -/
theorem since_step (apart : Apart lists) {s s' : Builders} {act : BuilderAct}
    (sound : BuildersSound codec path origin lists s) (since : Since origin lists n low s held)
    (unspoiled : Unspoiled codec path s act)
    (step : BuilderStep ρ codec path origin lists s act s') :
    ∃ held', (∀ url, held url ≤ held' url) ∧ Since origin lists n low s' held' := by
  have same : ∀ url, held url ≤ held url := fun _ => Nat.le_refl _
  have restarts : ∀ (i : Nat) (task : BuildTask),
      (s.tasks.map fun task => { task with stage := task.stage.kill })[i]? = some task →
        task.Between origin (leastOf n low i) held := by
    intro i task found
    rw [List.getElem?_map] at found
    obtain ⟨before, old, rfl⟩ := Option.map_eq_some_iff.mp found
    exact (since.tasks i before old).move (by simp) fun _ => BuildStage.merged_of_kill
  cases step with
  | publish url => exact ⟨held, same, since.versioned, since.least, since.tasks⟩
  | start known =>
      rename_i config now
      refine ⟨held, same, since.versioned, since.least, fun i task found => ?_⟩
      rw [List.getElem?_append] at found
      split at found
      · exact since.tasks i task found
      · obtain rfl := List.mem_singleton.mp (List.mem_of_getElem? found)
        refine ⟨fun p member => ?_, nofun, nofun⟩
        have fresh := sound.coherent.filed.cache.pathsAgree.reads _ _ _ _ (mem_planFetches member)
        exact since.versioned.read (leastOf_le since.least i) (known _ (url_of_freshBodies member))
          fresh
  | download here downloading member began later published honest meets arrives =>
      rename_i i task jobs arrived job http look v v' answer
      have mine := since.tasks i task here
      have listed : job.url ∈ lists :=
        sound.coherent.jobs job (mem_sync_jobs here (by rw [downloading]; exact member))
      refine ⟨held, same, ?_, since.least, between_setStage since.tasks ?_⟩
      · refine since.versioned.mono (fun url => ?_) fun _ _ => id
        subst arrives
        exact (seeNewest_bounds sound.coherent.seen
          ((answeredAt_bounds later).2.trans published) url).1
      · refine mine.move (fun a among => ?_) nofun
        rcases List.mem_append.mp among with old | new
        · refine mine.falls a ?_
          rw [downloading]
          exact old
        · rw [List.mem_singleton.mp new, arrives]
          intro body stale
          exact since.versioned.read (leastOf_le since.least i) listed
            (Look.fallback honest unspoiled stale)
  | lose here downloading member =>
      have mine := since.tasks _ _ here
      refine ⟨held, same, since.versioned, since.least, between_setStage since.tasks ?_⟩
      refine mine.move (fun a among => mine.falls a ?_) nofun
      rw [downloading]
      exact among
  | merge here downloading perm =>
      rename_i i task arrived now picks
      have mine := since.tasks i task here
      have answered : ∀ pick ∈ picks, pick.1 ∈ task.stage.arrived := by
        intro pick member
        rw [downloading]
        exact perm.mem_iff.mp (List.mem_map_of_mem member)
      obtain ⟨held', raised, written, below⟩ := merge_between apart now since.versioned
        sound.coherent.filed.cache (leastOf_le since.least i)
        (fun pick member => sound.coherent.arrived _ (mem_sync_arrived here (answered pick member)))
        unspoiled fun pick member => mine.falls _ (answered pick member)
      refine ⟨held', raised, written, fun url => (since.least url).trans (raised url), ?_⟩
      refine between_setStage (fun j other found => (since.tasks j other found).mono raised) ?_
      refine ⟨(mine.mono raised).fresh, nofun, ?_⟩
      rintro results bodies ⟨⟩ url body found
      rcases mem_of_collectBodies found with fresh | merged
      · exact (mine.mono raised).fresh _ fresh
      · exact below _ merged
  | finish here parsing created =>
      have mine := since.tasks _ _ here
      refine ⟨held, same, ?_, since.least, between_setStage since.tasks ?_⟩
      · exact since.versioned.mono (fun _ => Nat.le_refl _) fun _ _ => file_of_prune
      · refine mine.move nofun fun parsed merged => ?_
        rw [parsing]
        exact merged
  | killMerging here downloading perm =>
      rename_i i task arrived rest now picks
      have answered : ∀ pick ∈ picks, pick.1 ∈ task.stage.arrived := by
        intro pick member
        rw [downloading]
        exact perm.mem_iff.mp (List.mem_append_left _ (List.mem_map_of_mem member))
      obtain ⟨held', raised, written, -⟩ := merge_between apart now since.versioned
        sound.coherent.filed.cache (leastOf_le since.least i)
        (fun pick member => sound.coherent.arrived _ (mem_sync_arrived here (answered pick member)))
        unspoiled fun pick member => (since.tasks i task here).falls _ (answered pick member)
      exact ⟨held', raised, written, fun url => (since.least url).trans (raised url),
        fun i task found => (restarts i task found).mono raised⟩
  | killPruning here parsing =>
      refine ⟨held, same, ?_, since.least, restarts⟩
      exact since.versioned.mono (fun _ => Nat.le_refl _) fun _ _ => file_of_prune
  | restart | terminate => exact ⟨held, same, since.versioned, since.least, restarts⟩

theorem since_init {s : Builders} (initial : (builderSystem ρ codec path origin lists).init s) :
    Since origin lists 0 (fun _ => 0) s (fun _ => 0) := by
  obtain ⟨⟨-, -, noFiles, -⟩, noTasks⟩ := initial
  refine ⟨⟨fun _ => Nat.zero_le _, fun url _ data there => ?_⟩, fun _ => Nat.le_refl _, ?_⟩
  · rw [show s.store.bodies (urlToFilename url) = none from noFiles _] at there
    cases there
  · intro i task found
    rw [noTasks] at found
    cases found

/-- Both invariants, from a moment on when they hold. -/
theorem sound_since (faithful : codec.Faithful) (apart : Apart lists)
    {S : System Builders BuilderAct} (steps : S.step = BuilderStep ρ codec path origin lists)
    (start : ∀ s, S.init s → BuildersSound codec path origin lists s ∧
      Since origin lists n low s held) {s : Builders} (run : Run S (Unspoiled codec path) s) :
    BuildersSound codec path origin lists s ∧ ∃ held', Since origin lists n low s held' := by
  apply run.invariant
  · intro s initial
    obtain ⟨sound, since⟩ := start s initial
    exact ⟨sound, held, since⟩
  · rintro s act s' ⟨sound, held, since⟩ unspoiled step
    rw [steps] at step
    obtain ⟨held', -, since'⟩ := since_step apart sound since unspoiled step
    exact ⟨sound_step faithful apart sound unspoiled step, held', since'⟩

/-- **No build parses an older version of a list than a build that had merged before it began**:
at every moment of an unspoiled run there is a watershed between the versions of each list.
What was merged until then lies below it, and all that builds which begin later ever parse lies
above, through prunes, failed saves and restarts. -/
theorem run_watershed (faithful : codec.Faithful) (apart : Apart lists) {s s' : Builders}
    (run : Run (builderSystem ρ codec path origin lists) (Unspoiled codec path) s)
    (rest : Run ((builderSystem ρ codec path origin lists).after s) (Unspoiled codec path) s') :
    ∃ watershed : String → Nat,
      (∀ task ∈ s.tasks, ∀ results bodies, task.stage.merged = some (results, bodies) →
        ∀ url body, bodies[url]? = some body →
          ∃ w ≤ watershed url, body = origin.body url w) ∧
      ∀ i task, s.tasks.length ≤ i → s'.tasks[i]? = some task →
        ∀ results bodies, task.stage.merged = some (results, bodies) →
          ∀ url body, bodies[url]? = some body →
            ∃ w, watershed url ≤ w ∧ w ≤ s'.version url ∧ body = origin.body url w := by
  obtain ⟨sound, held, since⟩ := sound_since faithful apart rfl
    (fun s initial => ⟨sound_init initial, since_init initial⟩) run
  -- the builds until now are those below `s.tasks.length`, which are held to nothing
  have onward : Since origin lists s.tasks.length held s held := by
    refine ⟨since.versioned, fun _ => Nat.le_refl _, fun i task found => ?_⟩
    have early : ¬ s.tasks.length ≤ i := Nat.not_le.mpr (List.getElem?_eq_some_iff.mp found).1
    have none_ : leastOf s.tasks.length held i = leastOf 0 (fun _ => 0) i := by
      funext url
      simp [leastOf, early]
    rw [none_]
    exact since.tasks i task found
  have start : ∀ t, ((builderSystem ρ codec path origin lists).after s).init t →
      BuildersSound codec path origin lists t ∧
        Since origin lists s.tasks.length held t held := by
    rintro t rfl
    exact ⟨sound, onward⟩
  obtain ⟨sound', held', since'⟩ := sound_since faithful apart rfl start rest
  refine ⟨held, fun task member results bodies merged url body found => ?_, ?_⟩
  · obtain ⟨i, here⟩ := List.mem_iff_getElem?.mp member
    obtain ⟨w, -, most, holds⟩ :=
      (since.tasks i task here).bodies results bodies merged url body found
    exact ⟨w, most, holds⟩
  · intro i task late here results bodies merged url body found
    obtain ⟨w, least, most, holds⟩ :=
      (since'.tasks i task here).bodies results bodies merged url body found
    rw [leastOf, if_pos late] at least
    have published : held' url ≤ s'.version url :=
      (since'.versioned.seen url).trans (sound'.coherent.seen url)
    exact ⟨w, least, most.trans published, holds⟩

end Watershed

/-! ## A list that is built twice -/

attribute [local instance] smallCase

abbrev twiceSystem : System Builders BuilderAct :=
  builderSystem Literal exampleCodec "cache.json" exampleOrigin [fetched.url]

abbrev twiceGuard : Builders → BuilderAct → Prop := Unspoiled exampleCodec "cache.json"

/-- The build, before it has merged and then. -/
def firstBuild (stage : BuildStage) : BuildTask := ⟨oneList, fun _ => 0, [], stage⟩

def firstBodies : Bodies :=
  collectBodies [] (mergeDownloads 1700000000 started.cache started.bodies
    [Arrived.attempt (firstAnswer, none)]).bodies

def secondBodies : Bodies :=
  collectBodies [] (mergeDownloads 1700086400 afterFirst.cache afterFirst.bodies
    [Arrived.attempt (secondAnswer, none)]).bodies

def builtOnce : Builders :=
  ⟨fun _ => 0, seeNewest (fun _ => 0) firstAnswer, afterFirst,
    [firstBuild (.parsing [firstAnswer] firstBodies)]⟩

theorem firstBodies_eq : firstBodies[fetched.url]? = some "||ads.com^\n" :=
  collect_merged (List.nodup_singleton _) (List.mem_singleton_self _)

theorem secondBodies_eq : secondBodies[fetched.url]? = some "||ads.com^\n" := by
  obtain ⟨entry, file⟩ := afterFirst_eq
  have pushed : (mergeDownloads 1700086400 afterFirst.cache afterFirst.bodies
      [Arrived.attempt (secondAnswer, none)]).bodies = [(fetched.url, "||ads.com^\n")] := by
    simp [mergeDownloads, mergeOne, Arrived.attempt, secondAnswer, entry, file]
  rw [secondBodies, pushed]
  exact collect_merged (List.nodup_singleton _) (List.mem_singleton_self _)

theorem wholeWrites (n : Nat) (e : IoError) : (none : Option BodyFault) ≠ some (.torn n e) := nofun

/-- A build gets the list. -/
theorem run_builtOnce : Run twiceSystem twiceGuard builtOnce := by
  have planned : started.cache.planFetches started.bodies oneList.allUrls oneList.cacheTtl
      1700000000 = ([], [⟨fetched.url, none⟩]) := by decide +kernel
  have initial : Run twiceSystem twiceGuard ⟨fun _ => 0, fun _ => 0, started, []⟩ :=
    .init ⟨⟨rfl, rfl, fun _ => rfl, rfl, rfl, fun _ => Nat.le_refl _⟩, rfl⟩
  have began := initial.step (a := BuilderAct.start oneList 1700000000) trivial
    (.start fun url => id)
  simp only [Builders.begin, freshBodies, planned, List.nil_append] at began
  have answered := began.step (a := BuilderAct.download 0 ⟨fetched.url, none⟩ versionZero .whole) id
    (.download rfl rfl (List.mem_singleton_self _) (Nat.le_refl 0) (Nat.le_refl 0) (Nat.le_refl 0)
      (versionZero_honest _) trivial firstAnswer_eq)
  have stands : PickStands (seeNewest (fun _ => 0) firstAnswer) (firstAnswer, none) :=
    ⟨wholeWrites, fun _ _ _ => by simp [firstAnswer, seeNewest]⟩
  have merged := answered.step (a := BuilderAct.merge 0 1700000000 [(firstAnswer, none)])
    (List.forall_mem_singleton.mpr stands) (.merge rfl rfl (List.Perm.refl [firstAnswer]))
  exact merged

/-- A day later another one gets its 304. -/
theorem run_builtTwice : ∃ s', Run (twiceSystem.after builtOnce) twiceGuard s' ∧
    ∃ task, s'.tasks[1]? = some task ∧
      task.stage.merged = some ([secondAnswer], secondBodies) := by
  obtain ⟨entry, file⟩ := afterFirst_eq
  have planned : afterFirst.cache.planFetches afterFirst.bodies oneList.allUrls oneList.cacheTtl
      1700086400 = ([], [⟨fetched.url, some "\"0\""⟩]) := by
    show afterFirst.cache.planFetches afterFirst.bodies [fetched.url] 3600 1700086400 = _
    simp [CachedLists.planFetches, CachedLists.getIfFresh, entry]
  have initial : Run (twiceSystem.after builtOnce) twiceGuard builtOnce := .init rfl
  have began := initial.step (a := BuilderAct.start oneList 1700086400) trivial
    (.start fun url => id)
  simp only [Builders.begin, freshBodies, show builtOnce.store = afterFirst from rfl, planned]
    at began
  have answered := began.step
    (a := BuilderAct.download 1 ⟨fetched.url, some "\"0\""⟩ versionZero .whole) id
    (.download rfl rfl (List.mem_singleton_self _) (Nat.le_refl 0) (Nat.le_refl 0) (Nat.le_refl 0)
      (versionZero_honest _) trivial secondAnswer_eq)
  have stands : ∀ newest, PickStands newest (secondAnswer, none) :=
    fun _ => ⟨wholeWrites, fun _ _ fresh => by simp [secondAnswer] at fresh⟩
  have merged := answered.step (a := BuilderAct.merge 1 1700086400 [(secondAnswer, none)])
    (List.forall_mem_singleton.mpr (stands _))
    (.merge rfl rfl (List.Perm.refl [secondAnswer]))
  exact ⟨_, merged, _, rfl, rfl⟩

theorem twice_apart : Apart [fetched.url] := fun _ here _ there _ =>
  (List.mem_singleton.mp here).trans (List.mem_singleton.mp there).symm

/-- The second build parses what the first one fetched, as its 304 says. -/
theorem run_published_again : ∃ s task, Run twiceSystem twiceGuard s ∧ s.tasks[1]? = some task ∧
    task.stage.merged = some ([secondAnswer], secondBodies) ∧
    task.Parses exampleOrigin s.version [secondAnswer] fetched.url "||ads.com^\n" := by
  obtain ⟨s, rest, task, here, merged⟩ := run_builtTwice
  have run := run_builtOnce.append rest
  exact ⟨s, task, run, here, merged, run_published exampleCodec_faithful twice_apart run
    (List.mem_of_getElem? here) merged secondBodies_eq⟩

theorem run_watershed_again : ∃ s s', Run twiceSystem twiceGuard s ∧
    Run (twiceSystem.after s) twiceGuard s' ∧ ∃ watershed : String → Nat,
      (∃ w ≤ watershed fetched.url, "||ads.com^\n" = exampleOrigin.body fetched.url w) ∧
      ∃ w, watershed fetched.url ≤ w ∧ w ≤ s'.version fetched.url ∧
        "||ads.com^\n" = exampleOrigin.body fetched.url w := by
  obtain ⟨s', rest, task, here, merged⟩ := run_builtTwice
  obtain ⟨watershed, before, later⟩ :=
    run_watershed exampleCodec_faithful twice_apart run_builtOnce rest
  refine ⟨builtOnce, s', run_builtOnce, rest, watershed, ?_, ?_⟩
  · exact before _ (List.mem_singleton_self _) _ _ rfl _ _ firstBodies_eq
  · exact later 1 task (Nat.le_refl _) here _ _ merged _ _ secondBodies_eq

end DnsLigase.Main
