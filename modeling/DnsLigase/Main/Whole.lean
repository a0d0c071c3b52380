/-
# Main.Whole — the whole program: what clients see goes back to configs that were accepted

The forwarder reads the blocklist and the logging flag; the refresh and the SIGHUP task write
them.  `Whole` is a run of all of these together: a step of the handles is nothing to the
forwarder but the swap that it makes, if it makes one (`Whole.reaches`), and each blocklist that
is ever active was made by a build of a config that had been accepted (`Whole.accounted`).

So the replies of the forwarder can be told from what the builds read (`whole_answered`), and its
journal from the configs (`whole_logged`).
-/
import DnsLigase.Main.Handles
import DnsLigase.Main.Sources

namespace DnsLigase.Main

open DnsLigase.Dns DnsLigase.Theory DnsLigase.Theory.Tasks
open DnsLigase.Theory.Bytes DnsLigase.Theory.Case DnsLigase.Theory.Program
open DnsLigase.Theory.Transition DnsLigase.Upstream

set_option autoImplicit false

/-! ## Runs of the whole program -/

/-- A run of `create_blocklist`: its config, and the bodies that it got hold of. -/
structure ListBuild where
  config : Config
  bodies : String → Option String

section Whole

variable {ρ : Type} [UnicodeCase] [RegexEngine ρ]

def ListBuild.Makes (build : ListBuild) (bl : Blocklist ρ) : Prop :=
  createBlocklist build.config build.bodies = some bl

variable (ρ) in
/-- What the build is to do with a name: some source of the block side matches it, and no source
of the allow side does. -/
def ListBuild.Blocks (build : ListBuild) (name : String) : Prop :=
  ¬ build.config.Speaks ρ build.bodies true (Blocklist.lowered name) ∧
    build.config.Speaks ρ build.bodies false (Blocklist.lowered name)

theorem ListBuild.Makes.isBlocked_iff {build : ListBuild} {bl : Blocklist ρ}
    (makes : build.Makes bl) (name : String) :
    (bl.check name).IsBlocked ↔ build.Blocks ρ name := by
  rw [MatchOutcome.isBlocked_iff, (Blocklist.check_decides bl name).blocked]
  exact and_congr (not_congr (speaks_iff makes true _)) (speaks_iff makes false _)

omit [UnicodeCase] [RegexEngine ρ] in
/-- What the forwarder sees of the handles. -/
def Handles.shared (s : Handles ρ) : Shared ρ := ⟨s.active, s.logQueries⟩

omit [UnicodeCase] [RegexEngine ρ] in
/-- What a step of the handles writes of that. -/
def Handles.swaps (s : Handles ρ) : HandleAct → List (Swap ρ)
  | .toggle => [.logQueries s.config.logging.queries]
  | .reloadWrite =>
      match s.reload with
      | .built bl => [.blocklist bl]
      | _ => []
  | .refreshWrite =>
      match s.refresh with
      | .built bl => [.blocklist bl]
      | _ => []
  | _ => []

omit [UnicodeCase] [RegexEngine ρ] in
/-- The build that a step of the handles is. -/
def Handles.builds (s : Handles ρ) : HandleAct → List ListBuild
  | .reloadBuild bodies =>
      match s.reload with
      | .building lists _ => [⟨lists, bodies⟩]
      | _ => []
  | .refreshBuild bodies =>
      match s.refresh with
      | .building lists _ => [⟨lists, bodies⟩]
      | _ => []
  | _ => []

variable (parse : String → Option SocketAddr)

/-- Runs of the program: the handles, the builds, and the history and the tasks of the
forwarder. -/
inductive Whole (s₀ : Handles ρ) :
    Handles ρ → List ListBuild → History ρ → List (Arrival × Handler ρ Unit) → Prop
  | spawned {build : ListBuild} : (handleSystem parse).init s₀ → build.config = s₀.config.lists →
      build.Makes s₀.active → Whole s₀ s₀ [build] [] []
  | handle {s s' : Handles ρ} {made : List ListBuild} {acts : History ρ}
      {tasks : List (Arrival × Handler ρ Unit)} {act : HandleAct} :
      Whole s₀ s made acts tasks → HandleStep parse s act s' →
      Whole s₀ s' (s.builds act ++ made) (acts ++ (s.swaps act).map .move) tasks
  | start {s : Handles ρ} {made : List ListBuild} {acts : History ρ}
      {tasks : List (Arrival × Handler ρ Unit)} (arrival : Arrival) : Whole s₀ s made acts tasks →
      Whole s₀ s made (acts ++ [.start arrival]) (tasks ++ [(arrival, arrival.task)])
  | answer {s : Handles ρ} {made : List ListBuild} {acts : History ρ}
      {tasks : List (Arrival × Handler ρ Unit)} {i : Nat} {arrival : Arrival} {γ : Type}
      {request : Request ρ γ} {next : γ → Handler ρ Unit} (answer : γ) :
      Whole s₀ s made acts tasks → tasks[i]? = some (arrival, .perform request next) →
      s.shared.admits request answer →
      Whole s₀ s made (acts ++ [.answer i ⟨request, answer⟩]) (tasks.set i (arrival, next answer))

variable {parse} {s₀ s s' : Handles ρ} {made : List ListBuild} {acts : History ρ}
  {tasks : List (Arrival × Handler ρ Unit)} {act : HandleAct}

/-! ## The parts of a run -/

theorem Whole.reachable (run : Whole parse s₀ s made acts tasks) :
    Reachable (handleSystem parse) s := by
  induction run with
  | spawned initial _ _ => exact .init initial
  | handle _ step ih => exact ih.step step
  | start arrival _ ih => exact ih
  | answer answer _ _ _ ih => exact ih

/-- The swaps of a step are all that it does to what the forwarder sees. -/
theorem HandleStep.shared (step : HandleStep parse s act s') :
    (udpForwarder ρ).after s.shared ((s.swaps act).map .move) = s'.shared := by
  cases step with
  | reloadWrite built => simp [Handles.swaps, built, Server.after, udpForwarder, Swap.apply,
      Handles.shared]
  | refreshWrite built => simp [Handles.swaps, built, Server.after, udpForwarder, Swap.apply,
      Handles.shared]
  | _ => rfl

/-- **The forwarder runs beside the handles**: its part of a run is a run of its own, with the
swaps in between. -/
theorem Whole.reaches (run : Whole parse s₀ s made acts tasks) :
    (udpForwarder ρ).Reaches s₀.shared acts tasks ∧
      (udpForwarder ρ).after s₀.shared acts = s.shared := by
  have moves : ∀ {acts : History ρ} {tasks : List (Arrival × Handler ρ Unit)}
      (swaps : List (Swap ρ)), (udpForwarder ρ).Reaches s₀.shared acts tasks →
      (udpForwarder ρ).Reaches s₀.shared (acts ++ swaps.map .move) tasks := by
    intro acts tasks swaps
    induction swaps generalizing acts with
    | nil => exact fun reaches => by rwa [List.map_nil, List.append_nil]
    | cons swap rest ih =>
        intro reaches
        rw [List.map_cons, List.append_cons]
        exact ih (reaches.move swap)
  induction run with
  | spawned _ _ _ => exact ⟨.init, rfl⟩
  | handle _ step ih =>
      refine ⟨moves _ ih.1, ?_⟩
      rw [Server.after_append, ih.2, step.shared]
  | start arrival _ ih =>
      refine ⟨ih.1.start arrival, ?_⟩
      rw [Server.after_append, ih.2]
      rfl
  | answer answer _ at_ admits ih =>
      refine ⟨ih.1.answer answer at_ (ih.2 ▸ admits), ?_⟩
      rw [Server.after_append, ih.2]
      rfl

/-! ## Where the lists and the flags come from -/

theorem HandleStep.accepted (step : HandleStep parse s act s') : s.accepted ⊆ s'.accepted := by
  cases step with
  | accept _ _ => exact List.subset_cons_self _ _
  | _ => exact List.Subset.refl _

theorem HandleStep.active (step : HandleStep parse s act s') :
    s'.active = s.active ∨ s.reload = .built s'.active ∨ s.refresh = .built s'.active := by
  cases step with
  | reloadWrite built => exact .inr (.inl built)
  | refreshWrite built => exact .inr (.inr built)
  | _ => exact .inl rfl

theorem HandleStep.flag (step : HandleStep parse s act s') :
    s'.logQueries = s.logQueries ∨ s'.logQueries = s.config.logging.queries := by
  cases step with
  | toggle _ => exact .inr rfl
  | _ => exact .inl rfl

/-- Between the acts of a step, the forwarder sees what was there before or after it. -/
theorem HandleStep.mem_states (step : HandleStep parse s act s') {w : Shared ρ}
    (member : w ∈ (udpForwarder ρ).states s.shared ((s.swaps act).map .move)) :
    w = s.shared ∨ w = s'.shared := by
  have single : ∀ {swap : Swap ρ}, w ∈ (udpForwarder ρ).states s.shared [.move swap] →
      swap.apply s.shared = s'.shared → w = s.shared ∨ w = s'.shared := by
    intro swap among same
    rcases List.mem_cons.mp among with rfl | among
    · exact .inl rfl
    · exact .inr (same ▸ List.mem_singleton.mp among)
  cases step with
  | toggle _ => exact single member rfl
  | reloadWrite built =>
      rw [Handles.swaps, built] at member
      exact single member rfl
  | refreshWrite built =>
      rw [Handles.swaps, built] at member
      exact single member rfl
  | _ => exact .inl (List.mem_singleton.mp member)

theorem HandleStep.reload_built (step : HandleStep parse s act s') {bl : Blocklist ρ}
    (built : s'.reload = .built bl) :
    s.reload = .built bl ∨ ∃ build ∈ s.builds act, build.Makes bl := by
  cases step with
  | @reloadBuild lists pool bodies building =>
      replace built : Reloading.afterBuild lists bodies = .built bl := built
      unfold Reloading.afterBuild at built
      split at built
      · rename_i created
        cases built
        exact .inr ⟨⟨lists, bodies⟩, by simp [Handles.builds, building], created⟩
      · cases built
  | ignore _ _ => exact .inl built
  | refreshClone _ => exact .inl built
  | refreshPool _ => exact .inl built
  | refreshBuild _ => exact .inl built
  | refreshWrite _ => exact .inl built
  | ask => exact .inl built
  | answered _ => exact .inl built
  | _ => cases built

theorem HandleStep.refresh_built (step : HandleStep parse s act s') {bl : Blocklist ρ}
    (built : s'.refresh = .built bl) :
    s.refresh = .built bl ∨ ∃ build ∈ s.builds act, build.Makes bl := by
  cases step with
  | @refreshBuild lists pool bodies building =>
      replace built : Refreshing.afterBuild lists bodies = .built bl := built
      unfold Refreshing.afterBuild at built
      split at built
      · rename_i created
        cases built
        exact .inr ⟨⟨lists, bodies⟩, by simp [Handles.builds, building], created⟩
      · cases built
  | refreshClone _ => cases built
  | refreshPool _ => cases built
  | refreshWrite _ => cases built
  | _ => exact .inl built

omit [UnicodeCase] [RegexEngine ρ] in
/-- A build starts from the lists of a config that was accepted. -/
theorem Handled.builds (handled : Handled parse s) {build : ListBuild}
    (begun : build ∈ s.builds act) : ∃ entry ∈ s.accepted, entry.1.lists = build.config := by
  have reloading := handled.reload
  have refreshing := handled.refresh
  cases act with
  | reloadBuild bodies =>
      unfold Handles.builds at begun
      cases phase : s.reload with
      | building lists pool =>
          rw [phase] at begun reloading
          obtain rfl := List.mem_singleton.mp begun
          obtain ⟨entry, member, same⟩ := handled.mem_config
          exact ⟨entry, member, same ▸ reloading.1.symm⟩
      | _ => simp [phase] at begun
  | refreshBuild bodies =>
      unfold Handles.builds at begun
      cases phase : s.refresh with
      | building lists pool =>
          rw [phase] at begun refreshing
          obtain rfl := List.mem_singleton.mp begun
          exact refreshing.1
      | _ => simp [phase] at begun
  | _ => cases begun

/-- What is known of a run: its builds are of configs that were accepted, they made whatever
blocklist was ever active, and the flag was always that of such a config. -/
structure Accounted (s₀ s : Handles ρ) (made : List ListBuild) (acts : History ρ) : Prop where
  builds : ∀ build ∈ made, ∃ entry ∈ s.accepted, entry.1.lists = build.config
  reload : ∀ bl, s.reload = .built bl → ∃ build ∈ made, build.Makes bl
  refresh : ∀ bl, s.refresh = .built bl → ∃ build ∈ made, build.Makes bl
  lists : ∀ w ∈ (udpForwarder ρ).states s₀.shared acts, ∃ build ∈ made, build.Makes w.blocklist
  flags : ∀ w ∈ (udpForwarder ρ).states s₀.shared acts,
    ∃ entry ∈ s.accepted, entry.1.logging.queries = w.logQueries

theorem Accounted.handle (accounted : Accounted s₀ s made acts)
    (now : (udpForwarder ρ).after s₀.shared acts = s.shared) (handled : Handled parse s)
    (step : HandleStep parse s act s') :
    Accounted s₀ s' (s.builds act ++ made) (acts ++ (s.swaps act).map .move) := by
  have grown : ∀ {P : ListBuild → Prop}, (∃ build ∈ made, P build) →
      ∃ build ∈ s.builds act ++ made, P build := by
    rintro P ⟨build, member, holds⟩
    exact ⟨build, List.mem_append_right _ member, holds⟩
  have begun : ∀ {P : ListBuild → Prop}, (∃ build ∈ s.builds act, P build) →
      ∃ build ∈ s.builds act ++ made, P build := by
    rintro P ⟨build, member, holds⟩
    exact ⟨build, List.mem_append_left _ member, holds⟩
  have kept : ∀ {P : FullConfig × SocketAddr → Prop}, (∃ entry ∈ s.accepted, P entry) →
      ∃ entry ∈ s'.accepted, P entry := by
    rintro P ⟨entry, member, holds⟩
    exact ⟨entry, step.accepted member, holds⟩
  have here : s.shared ∈ (udpForwarder ρ).states s₀.shared acts := by
    rw [← now]
    exact Server.after_mem_states
  have states : ∀ w ∈ (udpForwarder ρ).states s₀.shared (acts ++ (s.swaps act).map .move),
      w ∈ (udpForwarder ρ).states s₀.shared acts ∨ w = s'.shared := by
    intro w member
    rcases Server.mem_states_append member with before | after
    · exact .inl before
    · rw [now] at after
      exact (step.mem_states after).imp_left fun same => by rw [same]; exact here
  constructor
  · intro build member
    rcases List.mem_append.mp member with new | old
    · exact kept (handled.builds new)
    · exact kept (accounted.builds build old)
  · intro bl built
    exact (step.reload_built built).elim (fun old => grown (accounted.reload bl old)) begun
  · intro bl built
    exact (step.refresh_built built).elim (fun old => grown (accounted.refresh bl old)) begun
  · intro w member
    rcases states w member with old | rfl
    · exact grown (accounted.lists w old)
    · show ∃ build ∈ s.builds act ++ made, build.Makes s'.active
      rcases step.active with same | built | built
      · rw [same]
        exact grown (accounted.lists _ here)
      · exact grown (accounted.reload _ built)
      · exact grown (accounted.refresh _ built)
  · intro w member
    rcases states w member with old | rfl
    · exact kept (accounted.flags w old)
    · show ∃ entry ∈ s'.accepted, entry.1.logging.queries = s'.logQueries
      rcases step.flag with same | same
      · rw [same]
        exact kept (accounted.flags _ here)
      · obtain ⟨entry, among, config⟩ := handled.mem_config
        exact kept ⟨entry, among, by rw [same, config]⟩

/-- Acts of the forwarder's tasks change nothing of this. -/
theorem Accounted.quiet (accounted : Accounted s₀ s made acts)
    {act : Tasks.Act (Request ρ) Arrival (Swap ρ)}
    (quiet : ∀ w, (udpForwarder ρ).states w [act] = [w]) :
    Accounted s₀ s made (acts ++ [act]) where
  builds := accounted.builds
  reload := accounted.reload
  refresh := accounted.refresh
  lists w member := accounted.lists w (Server.mem_states_quiet quiet member)
  flags w member := accounted.flags w (Server.mem_states_quiet quiet member)

/-- **Every list that was ever active was made by a build of an accepted config.** -/
theorem Whole.accounted (run : Whole parse s₀ s made acts tasks) :
    Accounted s₀ s made acts := by
  induction run with
  | @spawned build initial config makes =>
      obtain ⟨addr, -, -, flag, -, reload, refresh, -, accepted⟩ := initial
      have mine : (s₀.config, addr) ∈ s₀.accepted := accepted ▸ List.mem_singleton_self _
      constructor
      · intro other member
        obtain rfl := List.mem_singleton.mp member
        exact ⟨_, mine, config.symm⟩
      · intro bl built
        cases reload.symm.trans built
      · intro bl built
        cases refresh.symm.trans built
      · intro w member
        obtain rfl := List.mem_singleton.mp member
        exact ⟨build, List.mem_singleton_self _, makes⟩
      · intro w member
        obtain rfl := List.mem_singleton.mp member
        exact ⟨_, mine, flag.symm⟩
  | handle run step ih =>
      exact ih.handle run.reaches.2 (run_handled run.reachable) step
  | start arrival run ih =>
      exact ih.quiet fun _ => rfl
  | answer answer run _ _ ih =>
      exact ih.quiet fun _ => rfl

/-! ## What leaves the program -/

variable (ρ) in
/-- A reply that some of the builds call for: NXDOMAIN, because one of them blocks what the query
asks for or a target of one of the responses; or what is relayed of a response, each of whose
names one of them lets pass. -/
def AnsweredByBuilds (made : List ListBuild) (responses : List (List UInt8))
    (relays : List UInt8 → List UInt8 → Prop) (msg : DnsMessage) (reply : List UInt8) : Prop :=
  (reply = (nxdomain msg).wire ∧ ∃ q, msg.questions.head? = some q ∧ ∃ build ∈ made,
      build.Blocks ρ q.name ∨
        ∃ resp ∈ responses, ∃ target ∈ responseTargets resp, build.Blocks ρ target) ∨
    ∃ resp ∈ responses, relays resp reply ∧ ∀ q, msg.questions.head? = some q →
      ∀ name ∈ q.name :: responseTargets resp, ∃ build ∈ made, ¬ build.Blocks ρ name

/-- Lists that builds have made decide as these builds do. -/
theorem answeredByBuilds {lists : List (Blocklist ρ)}
    (makes : ∀ bl ∈ lists, ∃ build ∈ made, build.Makes bl) {responses : List (List UInt8)}
    {relays : List UInt8 → List UInt8 → Prop} {msg : DnsMessage} {reply : List UInt8}
    (answered : AnsweredAmong lists responses relays msg reply) :
    AnsweredByBuilds ρ made responses relays msg reply := by
  rcases answered with ⟨nx, q, first, bl, active, blocked⟩ | ⟨resp, got, relay, passed⟩
  · obtain ⟨build, member, makes⟩ := makes bl active
    refine .inl ⟨nx, q, first, build, member, blocked.imp (makes.isBlocked_iff _).mp ?_⟩
    rintro ⟨resp, got, target, among, hit⟩
    exact ⟨resp, got, target, among, (makes.isBlocked_iff _).mp hit⟩
  · refine .inr ⟨resp, got, relay, fun q first name among => ?_⟩
    obtain ⟨bl, active, passes⟩ := passed q first name among
    obtain ⟨build, member, makes⟩ := makes bl active
    exact ⟨build, member, mt (makes.isBlocked_iff _).mpr passes⟩

theorem Whole.active_made (run : Whole parse s₀ s made acts tasks) {i : Nat} :
    ∀ bl ∈ activeSince s₀.shared i acts, ∃ build ∈ made, build.Makes bl := by
  intro bl member
  obtain ⟨w, since, rfl⟩ := List.mem_map.mp member
  exact run.accounted.lists w (Server.mem_states_of_since since)

/-- **From the configs to the clients**: in every run of the program, whatever is sent for a
datagram or written on a connection is called for by builds of configs that were accepted. -/
theorem whole_answered (run : Whole parse s₀ s made acts tasks) :
    (∀ build ∈ made, ∃ entry ∈ s.accepted, entry.1.lists = build.config) ∧
    (∀ i addr octets left msg, tasks[i]? = some (.datagram addr octets, left) →
      DnsMessage.parse (octets.take recvBufferSize) = .ok msg →
      ∀ reply ∈ sent (eventsOf i acts),
        AnsweredByBuilds ρ made (responses (eventsOf i acts)) (IsRelayed msg) msg reply) ∧
    ∀ i addr stream left, tasks[i]? = some (.connection addr stream, left) →
      ∃ (rounds : List (Round ρ)) (rest : List (Event (Request ρ))),
        rounds.map Round.packet <+: messages stream ∧
          eventsOf i acts = rounds.flatMap Round.events ++ rest ∧
          written (eventsOf i acts) <+: rounds.flatMap (fun round => frame round.reply) ∧
          ∀ round ∈ rounds, ∃ msg, DnsMessage.parse round.packet = .ok msg ∧
            AnsweredByBuilds ρ made (responses round.events) Eq msg round.reply := by
  obtain ⟨reaches, -⟩ := run.reaches
  refine ⟨run.accounted.builds, ?_, ?_⟩
  · intro i addr octets left msg at_ parsed reply member
    exact answeredByBuilds run.active_made (sent_among reaches at_ parsed member)
  · intro i addr stream left at_
    obtain ⟨rounds, rest, taken, events, part, answered⟩ :=
      (connection_serves reaches at_).rounds fun _ read => mem_activeSince reaches at_ read
    refine ⟨rounds, rest, taken, events, part, fun round member => ?_⟩
    obtain ⟨msg, parsed, answered⟩ := answered round member
    exact ⟨msg, parsed, answeredByBuilds run.active_made answered⟩

variable (ρ) in
/-- A record that is true by some of the builds and one of the responses. -/
def TruthfulByBuilds (made : List ListBuild) (responses : List (List UInt8)) (q : DnsQuestion)
    (action : String) : Prop :=
  (action = "blocked" ∧ ∃ build ∈ made, build.Blocks ρ q.name ∨
      ∃ resp ∈ responses, ∃ target ∈ responseTargets resp, build.Blocks ρ target) ∨
    (action = "allowed" ∧ ∃ build ∈ made,
      build.config.Speaks ρ build.bodies true (Blocklist.lowered q.name)) ∨
    action = "forwarded" ∧ ∃ resp ∈ responses, ∀ name ∈ q.name :: responseTargets resp,
      ∃ build ∈ made, ¬ build.Blocks ρ name

theorem ListBuild.Makes.blocks {build : ListBuild} {bl : Blocklist ρ} (makes : build.Makes bl)
    {name rule : String} (blocked : bl.check name = .blocked rule) : build.Blocks ρ name := by
  rw [← makes.isBlocked_iff, blocked]
  trivial

theorem truthfulByBuilds {lists : List (Blocklist ρ)}
    (makes : ∀ bl ∈ lists, ∃ build ∈ made, build.Makes bl) {responses : List (List UInt8)}
    {msg : DnsMessage} {q : DnsQuestion} (first : msg.questions.head? = some q)
    {action rule : String} (truthful : TruthfulAmong lists responses msg q action rule) :
    TruthfulByBuilds ρ made responses q action := by
  rcases truthful with ⟨rfl, bl, active, blocked⟩ | ⟨rfl, bl, active, allowed⟩ |
    ⟨rfl, rfl, resp, got, passed⟩
  · obtain ⟨build, member, makes⟩ := makes bl active
    refine .inl ⟨rfl, build, member, blocked.imp makes.blocks ?_⟩
    rintro ⟨resp, got, target, among, why, hit, -⟩
    exact ⟨resp, got, target, among, makes.blocks hit⟩
  · obtain ⟨build, member, makes⟩ := makes bl active
    refine .inr (.inl ⟨rfl, build, member, (speaks_iff makes true _).mp ?_⟩)
    refine (Blocklist.check_decides bl q.name).allowed.mp ?_
    rw [allowed]
    rfl
  · refine .inr (.inr ⟨rfl, resp, got, fun name among => ?_⟩)
    obtain ⟨bl, active, passes⟩ := passed q first name among
    obtain ⟨build, member, makes⟩ := makes bl active
    exact ⟨build, member, mt (makes.isBlocked_iff _).mpr passes⟩

/-- What the journal is told of a client. -/
theorem Whole.logged (run : Whole parse s₀ s made acts tasks) {i : Nat} {arrival : Arrival}
    {left : Handler ρ Unit} (at_ : tasks[i]? = some (arrival, left)) {record : QueryRecord}
    (member : record ∈ Upstream.logged (eventsOf i acts)) :
    record.source = arrival.addr.ip ∧ ∃ packet ∈ arrival.packets, ∃ msg q,
      DnsMessage.parse packet = .ok msg ∧ msg.questions.head? = some q ∧
        record.domain = q.name ∧ record.qtype = qtypeStr q.qtype ∧
        TruthfulByBuilds ρ made (responses (eventsOf i acts)) q record.action := by
  obtain ⟨source, packet, own, msg, q, parsed, first, domain, qtype, truthful⟩ :=
    logged_truthful run.reaches.1 at_ member
  exact ⟨source, packet, own, msg, q, parsed, first, domain, qtype,
    truthfulByBuilds run.active_made first truthful⟩

/-- **What the forwarder tells others of its clients**: it asks the upstream only what some build
of an accepted config let pass; the journal is told only if some config that was accepted has the
logging on, and what it is told is true: of the client, its question, and what some build has to do
with it.  The builds ask the upstream as well, for the hosts of their lists. -/
theorem whole_disclosed (run : Whole parse s₀ s made acts tasks) {i : Nat} {arrival : Arrival}
    {left : Handler ρ Unit} (at_ : tasks[i]? = some (arrival, left)) :
    (∀ build ∈ made, ∃ entry ∈ s.accepted, entry.1.lists = build.config) ∧
    (∀ query ∈ asked (eventsOf i acts), ∃ packet ∈ arrival.packets, ∃ msg,
      DnsMessage.parse packet = .ok msg ∧ query = (toSend msg).wire ∧
        ∀ q, msg.questions.head? = some q → ∃ build ∈ made, ¬ build.Blocks ρ q.name) ∧
    ∀ record ∈ logged (eventsOf i acts),
      (∃ entry ∈ s.accepted, entry.1.logging.queries = true) ∧
        record.source = arrival.addr.ip ∧ ∃ packet ∈ arrival.packets, ∃ msg q,
          DnsMessage.parse packet = .ok msg ∧ msg.questions.head? = some q ∧
            record.domain = q.name ∧ record.qtype = qtypeStr q.qtype ∧
            TruthfulByBuilds ρ made (responses (eventsOf i acts)) q record.action := by
  obtain ⟨reaches, -⟩ := run.reaches
  refine ⟨run.accounted.builds, ?_, ?_⟩
  · intro query member
    obtain ⟨packet, own, msg, round, parsed, part, asks, passed⟩ := asked_round reaches at_ member
    refine ⟨packet, own, msg, parsed, asks, fun q first => ?_⟩
    obtain ⟨bl, read, passes⟩ := passed.among part first
    obtain ⟨build, among, makes⟩ := run.active_made bl (mem_activeSince reaches at_ read)
    exact ⟨build, among, mt (makes.isBlocked_iff _).mpr passes⟩
  · intro record member
    obtain ⟨w, since, on⟩ := logging_on reaches at_ member
    obtain ⟨entry, among, same⟩ := run.accounted.flags w (Server.mem_states_of_since since)
    exact ⟨⟨entry, among, same.trans on⟩, run.logged at_ member⟩

/-- A task that nothing else comes in between of goes on. -/
theorem Whole.resumes {i : Nat} {arrival : Arrival} {p left : Handler ρ Unit}
    {events : List (Event (Request ρ))} (resumes : Resumes p events left) :
    ∀ {acts : History ρ} {tasks : List (Arrival × Handler ρ Unit)},
      Whole parse s₀ s made acts tasks → tasks[i]? = some (arrival, p) →
      (∀ event ∈ events, s.shared.admits event.request event.answer) →
      Whole parse s₀ s made (acts ++ events.map (.answer i)) (tasks.set i (arrival, left)) := by
  exact Server.resumes_alone (fun answer run at_ admits => run.answer answer at_ admits) resumes

end Whole

/-! ## A datagram that an entry of the config refuses -/

attribute [local instance] smallCase

/-- The config of the program, with `site.com` under `manual_block`. -/
def siteConfig : FullConfig := ⟨⟨"9.9.9.9", 53⟩, ⟨true⟩, manualConfig ["site.com"]⟩

def siteHandles : Handles Literal where
  config := siteConfig
  pool := ⟨quad9, 0⟩
  logQueries := true
  active := siteList
  reload := .waiting
  refresh := .waiting
  held := []
  accepted := [(siteConfig, quad9)]

theorem makes_siteList {build : ListBuild}
    (checked : ((createBlocklist build.config build.bodies : Option (Blocklist Literal)).map
      fun bl =>
        decide (bl.blockDomains = {"site.com"} ∧ bl.allowDomains = ∅ ∧ bl.allowSuffixes = ∅ ∧
          bl.blockSuffixes = ∅ ∧ bl.allowRegex = [] ∧ bl.blockRegex = [])) = some true) :
    build.Makes siteList := by
  obtain ⟨bl, created, fields⟩ := Option.map_eq_some_iff.mp checked
  obtain ⟨block, allow, allow', block', patterns, patterns'⟩ := of_decide_eq_true fields
  have same : bl = siteList := by
    obtain ⟨⟩ := bl
    subst block allow allow' block' patterns patterns'
    rfl
  exact created.trans (congrArg some same)

theorem siteBuild_makes : (ListBuild.mk siteConfig.lists noBodies).Makes siteList :=
  makes_siteList (by decide +kernel)

/-- The phone's query arrives and is refused. -/
def refusedActs (rule : String) : History Literal :=
  .start (.datagram phone siteQuery) :: (blockedEvents rule).map (.answer 0)

theorem siteList_rule : siteList.check "site.com" = .blocked "block:site.com" := by
  decide +kernel

theorem siteRun : ∃ left, Whole parseExample siteHandles siteHandles
    [⟨siteConfig.lists, noBodies⟩] (refusedActs "block:site.com")
    [(.datagram phone siteQuery, left)] := by
  obtain ⟨left, resumes⟩ := blockedEvents_resumes siteList_rule
  have spawned : Whole parseExample siteHandles siteHandles [⟨siteConfig.lists, noBodies⟩] [] [] :=
    .spawned ⟨quad9, by decide, rfl, rfl, ⟨noBodies, siteBuild_makes⟩, rfl, rfl, rfl, rfl⟩ rfl
      siteBuild_makes
  have asks := spawned.start (Arrival.datagram phone siteQuery)
  refine ⟨left, Whole.resumes resumes asks rfl ?_⟩
  simp [blockedEvents, siteHandles, Handles.shared, Shared.admits]

/-- The refusal that was sent to the phone is due to the entry. -/
theorem whole_answered_phone :
    sent (eventsOf 0 (refusedActs "block:site.com")) = [(nxdomain siteMessage).wire] ∧
      AnsweredByBuilds Literal [⟨siteConfig.lists, noBodies⟩] [] (IsRelayed siteMessage) siteMessage
        (nxdomain siteMessage).wire := by
  obtain ⟨left, run⟩ := siteRun
  exact ⟨rfl, (whole_answered run).2.1 0 phone siteQuery left siteMessage rfl parse_received _
    (List.mem_singleton_self _)⟩

/-- So is the record in the journal due to its logging. -/
theorem whole_disclosed_phone :
    logged (eventsOf 0 (refusedActs "block:site.com")) =
        [⟨phone.ip, "site.com", "A", "blocked", "block:site.com"⟩] ∧
      ∃ entry ∈ siteHandles.accepted, entry.1.logging.queries = true := by
  obtain ⟨left, run⟩ := siteRun
  have record := (whole_disclosed run (i := 0) rfl).2.2
    ⟨phone.ip, "site.com", "A", "blocked", "block:site.com"⟩ (List.mem_singleton_self _)
  exact ⟨rfl, record.1⟩

end DnsLigase.Main
