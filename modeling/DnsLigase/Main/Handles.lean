/-
# Main.Handles — the handles that a reload replaces, over whole runs

The tasks of the program share the config, the connection pool of the upstream, the logging flag
and the blocklist, each behind a lock of its own.  A SIGHUP checks the new upstream address and
then replaces them one after the other; a refresh builds from what it has cloned, and a query
keeps the pool that was current when it asked.

The doc of `UpstreamHandle` has it that "in-flight queries holding the old Arc finish against the
old address; new queries use the new one".  `Handled` is what this comes to in every reachable
state: from the swap on the pool has the address that the config names, and it is replaced exactly
when that address changes (`run_settled`, `run_pools`).  How addresses are parsed is left open.
-/
import DnsLigase.Main.Reload
import DnsLigase.Upstream.Serve

namespace DnsLigase.Main

open DnsLigase.Theory.Case DnsLigase.Theory.Transition DnsLigase.Upstream

set_option autoImplicit false

/-! ## What is shared -/

structure UpstreamConfig where
  address : String
  port : UInt16
  deriving DecidableEq, Repr

structure LoggingConfig where
  queries : Bool
  deriving DecidableEq, Repr

/-- What the tasks read of a loaded config. -/
structure FullConfig where
  upstream : UpstreamConfig
  logging : LoggingConfig
  lists : Config
  deriving DecidableEq, Repr

/-- The text that is parsed as the address of the upstream. -/
def FullConfig.upstreamText (config : FullConfig) : String :=
  s!"{config.upstream.address}:{config.upstream.port}"

/-- A pool of connections; `id` tells pools with the same address apart. -/
structure Pool where
  addr : SocketAddr
  id : Nat
  deriving DecidableEq, Repr

/-- Where the SIGHUP task is. -/
inductive Reloading (ρ : Type)
  | waiting
  /-- The config is written, for the upstream at `addr`. -/
  | written (addr : SocketAddr)
  /-- The logging flag is, too. -/
  | toggled (addr : SocketAddr)
  /-- The pool is cloned, to compare its address. -/
  | compared (addr : SocketAddr) (current : Pool)
  | swapped
  | cloned (lists : Config)
  | building (lists : Config) (pool : Pool)
  | built (bl : Blocklist ρ)
  | dead

/-- Where the refresh task is. -/
inductive Refreshing (ρ : Type)
  | waiting
  | cloned (lists : Config)
  | building (lists : Config) (pool : Pool)
  | built (bl : Blocklist ρ)
  | dead

structure Handles (ρ : Type) where
  config : FullConfig
  pool : Pool
  logQueries : Bool
  active : Blocklist ρ
  reload : Reloading ρ
  refresh : Refreshing ρ
  /-- The pools of the queries that are in flight. -/
  held : List Pool
  /-- The configs that were accepted, the latest first, and the addresses of their upstreams. -/
  accepted : List (FullConfig × SocketAddr)

/-! ## Steps -/

inductive HandleAct where
  | sighup (loaded : Option FullConfig)
  | toggle
  | readPool
  | swapPool
  | cloneConfig
  | clonePool
  | reloadBuild (bodies : String → Option String)
  | reloadWrite
  | refreshClone
  | refreshPool
  | refreshBuild (bodies : String → Option String)
  | refreshWrite
  | ask
  | answered (pool : Pool)

section System

variable {ρ : Type} [UnicodeCase] [RegexEngine ρ] (parse : String → Option SocketAddr)

/-- `create_blocklist` in the SIGHUP task. -/
def Reloading.afterBuild (lists : Config) (bodies : String → Option String) : Reloading ρ :=
  match createBlocklist lists bodies with
  | some bl => .built bl
  | none => .dead

def Refreshing.afterBuild (lists : Config) (bodies : String → Option String) : Refreshing ρ :=
  match createBlocklist lists bodies with
  | some bl => .built bl
  | none => .dead

inductive HandleStep : Handles ρ → HandleAct → Handles ρ → Prop
  /-- `load_config` fails, or the address of the upstream is bad. -/
  | ignore {s : Handles ρ} {loaded : Option FullConfig} : s.reload = .waiting →
      (∀ config, loaded = some config → parse config.upstreamText = none) →
      HandleStep s (.sighup loaded) s
  | accept {s : Handles ρ} {config : FullConfig} {addr : SocketAddr} : s.reload = .waiting →
      parse config.upstreamText = some addr →
      HandleStep s (.sighup (some config))
        { s with config, reload := .written addr, accepted := (config, addr) :: s.accepted }
  | toggle {s : Handles ρ} {addr : SocketAddr} : s.reload = .written addr →
      HandleStep s .toggle { s with logQueries := s.config.logging.queries, reload := .toggled addr }
  | readPool {s : Handles ρ} {addr : SocketAddr} : s.reload = .toggled addr →
      HandleStep s .readPool { s with reload := .compared addr s.pool }
  | keepPool {s : Handles ρ} {addr : SocketAddr} {current : Pool} :
      s.reload = .compared addr current → current.addr = addr →
      HandleStep s .swapPool { s with reload := .swapped }
  | swapPool {s : Handles ρ} {addr : SocketAddr} {current : Pool} :
      s.reload = .compared addr current → current.addr ≠ addr →
      HandleStep s .swapPool { s with pool := ⟨addr, s.pool.id + 1⟩, reload := .swapped }
  | cloneConfig {s : Handles ρ} : s.reload = .swapped →
      HandleStep s .cloneConfig { s with reload := .cloned s.config.lists }
  | clonePool {s : Handles ρ} {lists : Config} : s.reload = .cloned lists →
      HandleStep s .clonePool { s with reload := .building lists s.pool }
  | reloadBuild {s : Handles ρ} {lists : Config} {pool : Pool} {bodies : String → Option String} :
      s.reload = .building lists pool →
      HandleStep s (.reloadBuild bodies) { s with reload := .afterBuild lists bodies }
  | reloadWrite {s : Handles ρ} {bl : Blocklist ρ} : s.reload = .built bl →
      HandleStep s .reloadWrite { s with active := bl, reload := .waiting }
  | refreshClone {s : Handles ρ} : s.refresh = .waiting →
      HandleStep s .refreshClone { s with refresh := .cloned s.config.lists }
  | refreshPool {s : Handles ρ} {lists : Config} : s.refresh = .cloned lists →
      HandleStep s .refreshPool { s with refresh := .building lists s.pool }
  | refreshBuild {s : Handles ρ} {lists : Config} {pool : Pool} {bodies : String → Option String} :
      s.refresh = .building lists pool →
      HandleStep s (.refreshBuild bodies) { s with refresh := .afterBuild lists bodies }
  | refreshWrite {s : Handles ρ} {bl : Blocklist ρ} : s.refresh = .built bl →
      HandleStep s .refreshWrite { s with active := bl, refresh := .waiting }
  | ask {s : Handles ρ} : HandleStep s .ask { s with held := s.pool :: s.held }
  | answered {s : Handles ρ} {pool : Pool} : pool ∈ s.held →
      HandleStep s (.answered pool) { s with held := s.held.erase pool }

/-- `main`: the config is loaded, the pool opened, the first blocklist built, and then the tasks
are spawned. -/
def handleSystem : System (Handles ρ) HandleAct where
  init s := ∃ addr, parse s.config.upstreamText = some addr ∧ s.pool = ⟨addr, 0⟩ ∧
    s.logQueries = s.config.logging.queries ∧
    (∃ bodies, createBlocklist s.config.lists bodies = some s.active) ∧
    s.reload = .waiting ∧ s.refresh = .waiting ∧ s.held = [] ∧ s.accepted = [(s.config, addr)]
  step := HandleStep parse

end System

/-! ## What holds in every state -/

/-- How often the address has changed, from config to config. -/
def changes : List SocketAddr → Nat
  | addr :: before :: rest => (if addr = before then 0 else 1) + changes (before :: rest)
  | _ => 0

/-- The pool is the one that the latest of `addrs` calls for. -/
def Pool.Fits (pool : Pool) (addrs : List SocketAddr) : Prop :=
  addrs.head? = some pool.addr ∧ pool.id = changes addrs

/-- A comparison with the latest address keeps a pool that fits, and replaces one that does
not. -/
theorem Pool.Fits.keep {pool : Pool} {addrs : List SocketAddr} (fits : pool.Fits addrs.tail)
    (latest : addrs.head? = some pool.addr) : pool.Fits addrs := by
  obtain ⟨rest, rfl⟩ := List.head?_eq_some_iff.mp latest
  obtain ⟨before, count⟩ := fits
  obtain ⟨older, same⟩ := List.head?_eq_some_iff.mp before
  rw [List.tail_cons] at same count
  subst same
  exact ⟨rfl, by simp [changes, count]⟩

theorem Pool.Fits.swap {pool : Pool} {addrs : List SocketAddr} {addr : SocketAddr}
    (fits : pool.Fits addrs.tail) (latest : addrs.head? = some addr) (differ : pool.addr ≠ addr) :
    Pool.Fits ⟨addr, pool.id + 1⟩ addrs := by
  obtain ⟨rest, rfl⟩ := List.head?_eq_some_iff.mp latest
  obtain ⟨before, count⟩ := fits
  obtain ⟨older, same⟩ := List.head?_eq_some_iff.mp before
  rw [List.tail_cons] at same count
  subst same
  exact ⟨rfl, by simp [changes, count, differ.symm, Nat.add_comm]⟩

section Invariant

variable {ρ : Type} {parse : String → Option SocketAddr}

def Handles.addrs (s : Handles ρ) : List SocketAddr := s.accepted.map Prod.snd

/-- The pool is the current one or an older one. -/
def Handles.Knows (s : Handles ρ) (pool : Pool) : Prop :=
  pool = s.pool ∨ pool.addr ∈ s.addrs ∧ pool.id < s.pool.id

/-- A reload is between the config that it has written and the pool that it has to swap. -/
def Reloading.Lags : Reloading ρ → Prop
  | .written _ | .toggled _ | .compared _ _ => True
  | _ => False

/-- What each phase of a reload has to do with the handles. -/
def Reloading.Fits (s : Handles ρ) : Reloading ρ → Prop
  | .written addr => s.addrs.head? = some addr
  | .toggled addr => s.addrs.head? = some addr
  | .compared addr current => s.addrs.head? = some addr ∧ current = s.pool
  | .cloned lists => lists = s.config.lists
  | .building lists pool => lists = s.config.lists ∧ pool = s.pool
  | _ => True

def Refreshing.Fits (s : Handles ρ) : Refreshing ρ → Prop
  | .cloned lists => ∃ entry ∈ s.accepted, entry.1.lists = lists
  | .building lists pool => (∃ entry ∈ s.accepted, entry.1.lists = lists) ∧ s.Knows pool
  | _ => True

structure Handled (parse : String → Option SocketAddr) (s : Handles ρ) : Prop where
  parsed : ∀ entry ∈ s.accepted, parse entry.1.upstreamText = some entry.2
  latest : s.accepted.head?.map Prod.fst = some s.config
  flag : (∀ addr, s.reload ≠ .written addr) → s.logQueries = s.config.logging.queries
  reload : s.reload.Fits s
  lags : s.reload.Lags → s.pool.Fits s.addrs.tail
  settled : ¬ s.reload.Lags → s.pool.Fits s.addrs
  refresh : s.refresh.Fits s
  held : ∀ pool ∈ s.held, s.Knows pool

theorem Refreshing.Fits.mono {s s' : Handles ρ} (accepted : s.accepted ⊆ s'.accepted)
    (knows : ∀ pool, s.Knows pool → s'.Knows pool) {r : Refreshing ρ} (fits : r.Fits s) :
    r.Fits s' := by
  cases r with
  | waiting => trivial
  | cloned lists =>
      obtain ⟨entry, member, same⟩ := fits
      exact ⟨entry, accepted member, same⟩
  | building lists pool =>
      obtain ⟨⟨entry, member, same⟩, known⟩ := fits
      exact ⟨⟨entry, accepted member, same⟩, knows pool known⟩
  | built bl => trivial
  | dead => trivial

/-- The current config is among those that were accepted. -/
theorem Handled.mem_config {s : Handles ρ} (handled : Handled parse s) :
    ∃ entry ∈ s.accepted, entry.1 = s.config := by
  obtain ⟨entry, first, same⟩ := Option.map_eq_some_iff.mp handled.latest
  exact ⟨entry, List.mem_of_head? first, same⟩

/-- The pool that is replaced is an older one from then on. -/
theorem knows_of_swap {s : Handles ρ} (lags : s.pool.Fits s.addrs.tail) {pool : Pool}
    (known : s.Knows pool) : pool.addr ∈ s.addrs ∧ pool.id < s.pool.id + 1 := by
  rcases known with rfl | ⟨among, older⟩
  · exact ⟨List.mem_of_mem_tail (List.mem_of_head? lags.1), Nat.lt_succ_self _⟩
  · exact ⟨among, older.trans (Nat.lt_succ_self _)⟩

/-- The address of the current config is the latest of those that were accepted. -/
theorem Handled.addr {s : Handles ρ} (handled : Handled parse s) {addr : SocketAddr}
    (latest : s.addrs.head? = some addr) : parse s.config.upstreamText = some addr := by
  obtain ⟨entry, first, same⟩ := Option.map_eq_some_iff.mp handled.latest
  have parsed := handled.parsed entry (List.mem_of_head? first)
  rw [Handles.addrs, List.head?_map, first] at latest
  rw [← same, parsed]
  exact latest

variable [UnicodeCase] [RegexEngine ρ]

theorem handled_init {s : Handles ρ} (initial : (handleSystem parse).init s) : Handled parse s := by
  obtain ⟨addr, parsed, pool, flag, -, reload, refresh, held, accepted⟩ := initial
  constructor
  · simpa [accepted] using parsed
  · simp [accepted]
  · exact fun _ => flag
  · rw [reload]
    trivial
  · rw [reload]
    exact False.elim
  · intro _
    rw [pool, Handles.addrs, accepted]
    exact ⟨rfl, rfl⟩
  · rw [refresh]
    trivial
  · simp [held]

/-- **Every step keeps what is known of the handles.** -/
theorem handled_step {s s' : Handles ρ} {act : HandleAct} (handled : Handled parse s)
    (step : HandleStep parse s act s') : Handled parse s' := by
  have reloading := handled.reload
  have refreshing := handled.refresh
  have settled := handled.settled
  have lags := handled.lags
  have flag := handled.flag
  cases step with
  | ignore waits bad => exact handled
  | accept waits parsed =>
      rename_i config addr
      have old : s.accepted ⊆ (config, addr) :: s.accepted := List.subset_cons_self _ _
      have knows : ∀ pool, s.Knows pool → pool = s.pool ∨
          pool.addr ∈ addr :: s.addrs ∧ pool.id < s.pool.id :=
        fun pool known => known.imp_right fun older => ⟨List.mem_cons_of_mem _ older.1, older.2⟩
      exact
        { parsed := List.forall_mem_cons.mpr ⟨parsed, handled.parsed⟩
          latest := rfl
          flag := fun unwritten => absurd rfl (unwritten addr)
          reload := rfl
          lags := fun _ => settled (by simp [waits, Reloading.Lags])
          settled := fun done => absurd trivial done
          refresh := refreshing.mono old knows
          held := fun pool member => knows pool (handled.held pool member) }
  | toggle written =>
      rw [written] at reloading lags
      exact
        { handled with
          flag := fun _ => rfl
          reload := reloading
          lags := fun _ => lags trivial
          settled := fun done => absurd trivial done }
  | readPool toggled =>
      rw [toggled] at reloading lags
      exact
        { handled with
          flag := fun _ => flag (by simp [toggled])
          reload := ⟨reloading, rfl⟩
          lags := fun _ => lags trivial
          settled := fun done => absurd trivial done }
  | keepPool compared same =>
      rw [compared] at reloading lags
      obtain ⟨latest, rfl⟩ := reloading
      exact
        { handled with
          flag := fun _ => flag (by simp [compared])
          reload := trivial
          lags := False.elim
          settled := fun _ => (lags trivial).keep (same ▸ latest) }
  | swapPool compared differ =>
      rename_i addr current
      rw [compared] at reloading lags
      obtain ⟨latest, rfl⟩ := reloading
      have knows : ∀ pool, s.Knows pool →
          Handles.Knows { s with pool := ⟨addr, s.pool.id + 1⟩, reload := .swapped } pool :=
        fun pool known => .inr (knows_of_swap (lags trivial) known)
      have known : s.refresh.Fits
          { s with pool := ⟨addr, s.pool.id + 1⟩, reload := .swapped } := by
        refine Refreshing.Fits.mono ?_ knows refreshing
        exact List.Subset.refl _
      exact
        { handled with
          flag := fun _ => flag (by simp [compared])
          reload := trivial
          lags := False.elim
          settled := fun _ => (lags trivial).swap latest differ
          refresh := known
          held := fun pool member => knows pool (handled.held pool member) }
  | cloneConfig swapped =>
      exact
        { handled with
          flag := fun _ => flag (by simp [swapped])
          reload := rfl
          lags := False.elim
          settled := fun _ => settled (by simp [swapped, Reloading.Lags]) }
  | clonePool cloned =>
      rw [cloned] at reloading
      exact
        { handled with
          flag := fun _ => flag (by simp [cloned])
          reload := ⟨reloading, rfl⟩
          lags := False.elim
          settled := fun _ => settled (by simp [cloned, Reloading.Lags]) }
  | reloadBuild building =>
      have unwritten : ∀ addr, s.reload ≠ .written addr := by simp [building]
      have done : ¬ s.reload.Lags := by simp [building, Reloading.Lags]
      unfold Reloading.afterBuild
      split
      all_goals
        exact
          { handled with
            flag := fun _ => flag unwritten
            reload := trivial
            lags := False.elim
            settled := fun _ => settled done }
  | reloadWrite built =>
      exact
        { handled with
          flag := fun _ => flag (by simp [built])
          reload := trivial
          lags := False.elim
          settled := fun _ => settled (by simp [built, Reloading.Lags]) }
  | refreshClone waits =>
      obtain ⟨entry, member, same⟩ := handled.mem_config
      exact { handled with refresh := ⟨entry, member, same ▸ rfl⟩ }
  | refreshPool cloned =>
      rw [cloned] at refreshing
      exact { handled with refresh := ⟨refreshing, .inl rfl⟩ }
  | refreshBuild building =>
      unfold Refreshing.afterBuild
      split
      all_goals exact { handled with refresh := trivial }
  | refreshWrite built => exact { handled with refresh := trivial }
  | ask => exact { handled with held := List.forall_mem_cons.mpr ⟨.inl rfl, handled.held⟩ }
  | answered member =>
      exact { handled with held := fun pool among => handled.held pool (List.mem_of_mem_erase among) }

theorem run_handled {s : Handles ρ} (reachable : Reachable (handleSystem parse) s) :
    Handled parse s := by
  apply reachable.invariant
  · intro s initial
    exact handled_init initial
  · intro s act s' handled _ step
    exact handled_step handled step

/-- **The handles follow the config**: unless a reload has yet to swap the pool, it has the
address that the config names; the logging flag is the config's from its own step on; and a reload
builds the lists of the current config and looks up their hosts at the config's upstream. -/
theorem run_settled {s : Handles ρ} (reachable : Reachable (handleSystem parse) s) :
    (¬ s.reload.Lags → parse s.config.upstreamText = some s.pool.addr) ∧
    ((∀ addr, s.reload ≠ .written addr) → s.logQueries = s.config.logging.queries) ∧
    ∀ lists pool, s.reload = .building lists pool →
      lists = s.config.lists ∧ parse s.config.upstreamText = some pool.addr := by
  have handled := run_handled reachable
  refine ⟨fun done => handled.addr (handled.settled done).1, handled.flag, ?_⟩
  intro lists pool building
  have fits := handled.reload
  rw [building] at fits
  obtain ⟨rfl, rfl⟩ := fits
  exact ⟨rfl, handled.addr (handled.settled (by simp [building, Reloading.Lags])).1⟩

/-- **A pool is replaced exactly when an accepted config changes the address**, and whatever
query or refresh holds a pool, its address is that of a config that was accepted, and it is the
current pool or an older one. -/
theorem run_pools {s : Handles ρ} (reachable : Reachable (handleSystem parse) s) :
    (¬ s.reload.Lags → s.pool.id = changes s.addrs) ∧
    ∀ pool, pool ∈ s.held ∨ (∃ lists, s.refresh = .building lists pool) →
      (∃ entry ∈ s.accepted, parse entry.1.upstreamText = some pool.addr) ∧
        (pool = s.pool ∨ pool.id < s.pool.id) := by
  have handled := run_handled reachable
  refine ⟨fun done => (handled.settled done).2, fun pool holds => ?_⟩
  have known : s.Knows pool := by
    rcases holds with held | ⟨lists, building⟩
    · exact handled.held pool held
    · have fits := handled.refresh
      rw [building] at fits
      exact fits.2
  refine ⟨?_, known.imp_right And.right⟩
  have among : pool.addr ∈ s.addrs := by
    rcases known with rfl | ⟨among, -⟩
    · by_cases lags : s.reload.Lags
      · exact List.mem_of_mem_tail (List.mem_of_head? (handled.lags lags).1)
      · exact List.mem_of_head? (handled.settled lags).1
    · exact among
  obtain ⟨entry, member, same⟩ := List.mem_map.mp among
  exact ⟨entry, member, same ▸ handled.parsed entry member⟩

end Invariant

/-! ## A reload with another upstream -/

section Example

attribute [local instance] smallCase

def quad9 : SocketAddr := ⟨"9.9.9.9", 53⟩

def cloudflare : SocketAddr := ⟨"1.1.1.1", 53⟩

/-- The two addresses of the example, as they are parsed. -/
def parseExample (text : String) : Option SocketAddr :=
  if text = "9.9.9.9:53" then some quad9
  else if text = "1.1.1.1:53" then some cloudflare
  else none

def exampleConfig (address : String) : FullConfig :=
  ⟨⟨address, 53⟩, ⟨true⟩, manualConfig []⟩

def spawnedHandles : Handles Literal where
  config := exampleConfig "9.9.9.9"
  pool := ⟨quad9, 0⟩
  logQueries := true
  active := Blocklist.new
  reload := .waiting
  refresh := .waiting
  held := []
  accepted := [(exampleConfig "9.9.9.9", quad9)]

/-- A query asks, the upstream is replaced, and another query asks. -/
theorem reloadedHandles : ∃ s : Handles Literal, Reachable (handleSystem parseExample) s ∧
    s.config = exampleConfig "1.1.1.1" ∧ s.reload = .swapped ∧
    s.held = [⟨cloudflare, 1⟩, ⟨quad9, 0⟩] := by
  have start : Reachable (handleSystem parseExample) spawnedHandles :=
    Reachable.init ⟨quad9, by decide, rfl, rfl, ⟨noBodies, rfl⟩, rfl, rfl, rfl, rfl⟩
  have asked := start.step (a := HandleAct.ask) .ask
  have accepted := asked.step (a := HandleAct.sighup (some (exampleConfig "1.1.1.1")))
    (.accept rfl (show parseExample "1.1.1.1:53" = some cloudflare by decide))
  have toggled := accepted.step (a := HandleAct.toggle) (.toggle rfl)
  have compared := toggled.step (a := HandleAct.readPool) (.readPool rfl)
  have swapped := compared.step (a := HandleAct.swapPool) (.swapPool rfl (by decide))
  have again := swapped.step (a := HandleAct.ask) .ask
  exact ⟨_, again, rfl, rfl, rfl⟩

theorem run_settled_reloaded : ∃ s : Handles Literal, s.config = exampleConfig "1.1.1.1" ∧
    parseExample s.config.upstreamText = some s.pool.addr := by
  obtain ⟨s, reachable, config, swapped, -⟩ := reloadedHandles
  exact ⟨s, config, (run_settled reachable).1 (by simp [swapped, Reloading.Lags])⟩

theorem run_pools_reloaded : ∃ s : Handles Literal, s.held = [⟨cloudflare, 1⟩, ⟨quad9, 0⟩] ∧
    ∀ pool ∈ s.held, ∃ entry ∈ s.accepted,
      parseExample entry.1.upstreamText = some pool.addr := by
  obtain ⟨s, reachable, -, -, held⟩ := reloadedHandles
  exact ⟨s, held, fun pool member => ((run_pools reachable).2 pool (.inl member)).1⟩

end Example

end DnsLigase.Main
