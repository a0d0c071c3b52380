/-
# Main.Reload — the refresh task and the SIGHUP task over one blocklist

Both tasks of `main.rs` clone the config, build a blocklist from the clone for as long as
the network takes, and then overwrite the shared one; the SIGHUP task first replaces the
config.  Each lock is held for one step only, so the steps of the two tasks interleave
freely.  A build that panics ends its task.

The README promises that a SIGHUP "reloads config and rebuilds the blocklist".  A refresh
that cloned the config before the reload and writes after it undoes the rebuild
(`staleRefresh_undoes_reload`), until the next one.  `run_current` is the converse: in a
run where no refresh does so, and no rebuild panics, whenever no build is in flight the
active blocklist is what one of the run's builds made of the current config.  A blocklist
stands with the build that made it (`Built`), since that of another config may look the same.
-/
import DnsLigase.Main.Create
import DnsLigase.Theory.Transition

namespace DnsLigase.Main

open DnsLigase.Theory.Case DnsLigase.Theory.Transition

set_option autoImplicit false

section Tasks

variable (ρ : Type) [UnicodeCase] [RegexEngine ρ]

/-- A blocklist with the build that made it: the config that was cloned, and the bodies that
were fetched. -/
structure Built where
  snapshot : Config
  bodies : String → Option String
  blocklist : Blocklist ρ
  created : createBlocklist snapshot bodies = some blocklist

/-- Where a task is with its build. -/
inductive Task where
  /-- In `sleep` or `recv`. -/
  | waiting
  /-- The SIGHUP task has written the new config. -/
  | accepted
  | building (snapshot : Config)
  | built (build : Built ρ)
  | dead

variable {ρ}

/-- No build is in flight in the task.  From the moment the SIGHUP task has written the
config, its build counts as in flight. -/
def Task.Idle : Task ρ → Prop
  | .waiting | .dead => True
  | _ => False

variable (ρ) in
structure Service where
  config : Config
  active : Built ρ
  refresh : Task ρ
  reload : Task ρ
  /-- The builds that have returned, the latest first. -/
  made : List (Built ρ)

def Service.Idle (s : Service ρ) : Prop := s.refresh.Idle ∧ s.reload.Idle

/-- The steps of the two tasks; `bodies` are what a build fetches. -/
inductive Act where
  | refreshClone
  | refreshBuild (bodies : String → Option String)
  | refreshWrite
  | reject
  | accept (config : Config)
  | reloadClone
  | reloadBuild (bodies : String → Option String)
  | reloadWrite

inductive Step : Service ρ → Act → Service ρ → Prop
  | refreshClone {s : Service ρ} : s.refresh = .waiting →
      Step s .refreshClone { s with refresh := .building s.config }
  | refreshBuild {s : Service ρ} (build : Built ρ) : s.refresh = .building build.snapshot →
      Step s (.refreshBuild build.bodies)
        { s with refresh := .built build, made := build :: s.made }
  | refreshPanic {s : Service ρ} {snapshot : Config} {bodies : String → Option String} :
      s.refresh = .building snapshot →
      (createBlocklist snapshot bodies : Option (Blocklist ρ)) = none →
      Step s (.refreshBuild bodies) { s with refresh := .dead }
  | refreshWrite {s : Service ρ} {build : Built ρ} : s.refresh = .built build →
      Step s .refreshWrite { s with active := build, refresh := .waiting }
  /-- The config cannot be loaded, or its upstream is bad: the reload is ignored. -/
  | reject {s : Service ρ} : s.reload = .waiting → Step s .reject s
  | accept {s : Service ρ} {config : Config} : s.reload = .waiting →
      Step s (.accept config) { s with config, reload := .accepted }
  | reloadClone {s : Service ρ} : s.reload = .accepted →
      Step s .reloadClone { s with reload := .building s.config }
  | reloadBuild {s : Service ρ} (build : Built ρ) : s.reload = .building build.snapshot →
      Step s (.reloadBuild build.bodies)
        { s with reload := .built build, made := build :: s.made }
  | reloadPanic {s : Service ρ} {snapshot : Config} {bodies : String → Option String} :
      s.reload = .building snapshot →
      (createBlocklist snapshot bodies : Option (Blocklist ρ)) = none →
      Step s (.reloadBuild bodies) { s with reload := .dead }
  | reloadWrite {s : Service ρ} {build : Built ρ} : s.reload = .built build →
      Step s .reloadWrite { s with active := build, reload := .waiting }

/-- The tasks are spawned after the first build. -/
def reloadSystem : System (Service ρ) Act where
  init s := s.active.snapshot = s.config ∧ s.made = [s.active] ∧
    s.refresh = .waiting ∧ s.reload = .waiting
  step := Step

variable {s s' : Service ρ} {a : Act}

/-- The writes that lose no reload: a refresh writes a build of the current config, or
before a reload that is under way does; and a rebuild does not panic. -/
def KeepsReload (s : Service ρ) : Act → Prop
  | .refreshWrite => ∀ build, s.refresh = .built build →
      build.snapshot = s.config ∨ ¬ s.reload.Idle
  | .reloadBuild bodies => ∀ snapshot, s.reload = .building snapshot → Buildable snapshot bodies
  | _ => True

/-- What is active, and what the two tasks carry, was made in the run, and a reload under way
carries the current config. -/
structure Current (s : Service ρ) : Prop where
  made : s.active ∈ s.made
  refreshed : ∀ build, s.refresh = .built build → build ∈ s.made
  reloading : ∀ snapshot, s.reload = .building snapshot → snapshot = s.config
  reloaded : ∀ build, s.reload = .built build → build ∈ s.made ∧ build.snapshot = s.config
  active : s.reload.Idle → s.active.snapshot = s.config

theorem current_init (initial : (reloadSystem : System (Service ρ) Act).init s) : Current s := by
  obtain ⟨first, made, refresh, reload⟩ := initial
  constructor
  · rw [made]
    exact List.mem_singleton_self _
  · rw [refresh]
    exact nofun
  · rw [reload]
    exact nofun
  · rw [reload]
    exact nofun
  · exact fun _ => first

theorem current_step (current : Current s) (allowed : KeepsReload s a) (step : Step s a s') :
    Current s' := by
  have older : ∀ {build : Built ρ} (latest : Built ρ), build ∈ s.made → build ∈ latest :: s.made :=
    fun latest => List.mem_cons_of_mem latest
  cases step with
  | refreshClone waits => exact { current with refreshed := nofun }
  | refreshBuild build building =>
      refine
        { made := older build current.made
          refreshed := ?_
          reloading := current.reloading
          reloaded := fun other built =>
            ⟨older build (current.reloaded other built).1, (current.reloaded other built).2⟩
          active := current.active }
      rintro _ ⟨⟩
      exact List.mem_cons_self
  | refreshPanic building panics => exact { current with refreshed := nofun }
  | refreshWrite built =>
      rename_i build
      refine
        { current with
          made := current.refreshed build built
          refreshed := nofun
          active := fun idle => ?_ }
      rcases allowed build built with same | busy
      · exact same
      · exact absurd idle busy
  | reject waits => exact current
  | accept waits => exact { current with reloading := nofun, reloaded := nofun, active := nofun }
  | reloadClone accepted =>
      refine { current with reloading := ?_, reloaded := nofun, active := nofun }
      rintro snapshot ⟨⟩
      rfl
  | reloadBuild build building =>
      refine
        { made := older build current.made
          refreshed := fun other built => older build (current.refreshed other built)
          reloading := nofun
          reloaded := ?_
          active := nofun }
      rintro _ ⟨⟩
      exact ⟨List.mem_cons_self, current.reloading build.snapshot building⟩
  | reloadPanic building panics =>
      rename_i snapshot bodies
      have returns : (createBlocklist snapshot bodies : Option (Blocklist ρ)).isSome :=
        createBlocklist_isSome _ _ |>.mpr (allowed snapshot building)
      rw [panics] at returns
      cases returns
  | reloadWrite built =>
      obtain ⟨member, same⟩ := current.reloaded _ built
      exact
        { current with
          made := member
          reloading := nofun
          reloaded := nofun
          active := fun _ => same }

/-- **No reload is lost**, in every run that undoes none: whenever no build is in flight, the
active blocklist was made in the run, by a build of the config accepted last. -/
theorem run_current (run : Run reloadSystem KeepsReload s) (idle : s.Idle) :
    s.active ∈ s.made ∧ s.active.snapshot = s.config := by
  have current : Current s := by
    apply run.invariant
    · intro s initial
      exact current_init initial
    · intro s a s' current allowed step
      exact current_step current allowed step
  exact ⟨current.made, current.active idle.2⟩

end Tasks

/-! ## A block that is taken out of the config -/

attribute [local instance] smallCase

/-- A config without lists. -/
def manualConfig (manualBlock : List String) : Config :=
  ⟨⟨[], [], [], [], 3600, none⟩, ⟨manualBlock, [], [], []⟩⟩

def noBodies : String → Option String := fun _ => none

theorem blockedAds :
    ∃ bl : Blocklist Literal, createBlocklist (manualConfig ["ads.com"]) noBodies = some bl ∧
      (bl.check "ads.com").IsBlocked := by
  have checked : ((createBlocklist (manualConfig ["ads.com"]) noBodies :
      Option (Blocklist Literal)).map fun bl => decide (bl.check "ads.com").IsBlocked) =
        some true := by
    decide +kernel
  obtain ⟨bl, created, blocked⟩ := Option.map_eq_some_iff.mp checked
  exact ⟨bl, created, of_decide_eq_true blocked⟩

/-- The build of the config without the block. -/
def unblocked : Built Literal := ⟨manualConfig [], noBodies, Blocklist.new, rfl⟩

/-- The state after the first build. -/
def spawned (first : Built Literal) : Service Literal :=
  ⟨first.snapshot, first, .waiting, .waiting, [first]⟩

/-- A reload that takes the block out, and a refresh after it. -/
theorem run_current_refreshed :
    ∃ s : Service Literal, Run reloadSystem KeepsReload s ∧ s.config = manualConfig [] ∧ s.Idle ∧
      s.active ∈ s.made ∧ s.active.snapshot = s.config := by
  obtain ⟨bl, created, -⟩ := blockedAds
  have start : Run reloadSystem KeepsReload (spawned ⟨_, _, bl, created⟩) :=
    .init ⟨rfl, rfl, rfl, rfl⟩
  have accepted := start.step (a := Act.accept (manualConfig [])) trivial (Step.accept rfl)
  have cloned := accepted.step (a := Act.reloadClone) trivial (Step.reloadClone rfl)
  have built := cloned.step (a := Act.reloadBuild noBodies) ?_ (Step.reloadBuild unblocked rfl)
  · have written := built.step (a := Act.reloadWrite) trivial (Step.reloadWrite rfl)
    have cloned := written.step (a := Act.refreshClone) trivial (Step.refreshClone rfl)
    have built := cloned.step (a := Act.refreshBuild noBodies) trivial
      (Step.refreshBuild unblocked rfl)
    have written := built.step (a := Act.refreshWrite) ?_ (Step.refreshWrite rfl)
    · exact ⟨_, written, rfl, ⟨trivial, trivial⟩, run_current written ⟨trivial, trivial⟩⟩
    · rintro _ ⟨⟩
      exact .inl rfl
  · rintro _ ⟨⟩
    exact ⟨nofun, nofun⟩

/-- A refresh clones the config, the reload takes the block out and rebuilds, and then the
refresh writes: the domain is blocked again, and nothing is in flight. -/
theorem staleRefresh_undoes_reload :
    ∃ s : Service Literal, Reachable reloadSystem s ∧ s.Idle ∧ s.config = manualConfig [] ∧
      (s.active.blocklist.check "ads.com").IsBlocked ∧ s.active.snapshot ≠ s.config ∧
      ∀ bodies, createBlocklist s.config bodies ≠ some s.active.blocklist := by
  obtain ⟨bl, created, blocked⟩ := blockedAds
  have start : Reachable reloadSystem (spawned ⟨_, _, bl, created⟩) :=
    Reachable.init ⟨rfl, rfl, rfl, rfl⟩
  have snapshot := start.step (a := Act.refreshClone) (Step.refreshClone rfl)
  have accepted := snapshot.step (a := Act.accept (manualConfig [])) (Step.accept rfl)
  have cloned := accepted.step (a := Act.reloadClone) (Step.reloadClone rfl)
  have built := cloned.step (a := Act.reloadBuild noBodies) (Step.reloadBuild unblocked rfl)
  have written := built.step (a := Act.reloadWrite) (Step.reloadWrite rfl)
  have stale := written.step (a := Act.refreshBuild noBodies)
    (Step.refreshBuild ⟨_, _, bl, created⟩ rfl)
  have undone := stale.step (a := Act.refreshWrite) (Step.refreshWrite rfl)
  refine ⟨_, undone, ⟨trivial, trivial⟩, rfl, blocked, ?_, ?_⟩
  · show manualConfig ["ads.com"] ≠ manualConfig []
    decide
  · intro bodies rebuilt
    have same : (Blocklist.new : Blocklist Literal) = bl := Option.some.inj rebuilt
    rw [← same] at blocked
    exact absurd blocked (by decide +kernel)

end DnsLigase.Main
