/-
# Main.Process — the whole program over its cache: what clients are refused goes back to servers

`Main.Whole` has the builds get hold of whatever bodies they like; `Main.Builders` has them plan,
download and merge over one cache.  `Process` is a run of both: each build that the handles wait
for is one that has merged there.  So a refusal can be traced from the reply through the
blocklist and the build to an entry of an accepted config, or to a line of a version of a list
that its server has published (`process_refused`), whatever earlier processes have left in the
cache.
-/
import DnsLigase.Main.Builders
import DnsLigase.Main.Whole

namespace DnsLigase.Main

open DnsLigase.Cache DnsLigase.Dns DnsLigase.Theory DnsLigase.Theory.Tasks DnsLigase.Theory.Text
open DnsLigase.Theory.Bytes DnsLigase.Theory.Case DnsLigase.Theory.Program
open DnsLigase.Theory.Transition DnsLigase.Upstream

set_option autoImplicit false

/-! ## Runs -/

/-- The process goes on. -/
def BuilderAct.Lives : BuilderAct → Prop
  | .restart => False
  | .killMerging _ _ _ => False
  | .killPruning _ _ => False
  | .terminate _ => False
  | _ => True

/-- The build has merged, of what it parses. -/
def Builders.Merged (b : Builders) (build : ListBuild) : Prop :=
  ∃ task ∈ b.tasks, ∃ results bodies, task.stage.merged = some (results, bodies) ∧
    build = ⟨task.config, fun url => bodies[url]?⟩

section Process

variable {ρ : Type} [UnicodeCase] [RegexEngine ρ] (parse : String → Option SocketAddr)
variable (codec : Codec) (path : String) (origin : Origin) (lists : List String)

/-- Runs of the program: those of `Whole`, with the cache that its builds share. -/
inductive Process (s₀ : Handles ρ) :
    Handles ρ → List ListBuild → History ρ → List (Arrival × Handler ρ Unit) → Builders → Prop
  /-- The cache may have been filled by processes before this one. -/
  | spawned {build : ListBuild} {b : Builders} : (handleSystem parse).init s₀ →
      build.config = s₀.config.lists → build.Makes s₀.active →
      Run (builderSystem ρ codec path origin lists) (Unspoiled codec path) b → b.Merged build →
      Process s₀ s₀ [build] [] [] b
  | cache {s : Handles ρ} {made : List ListBuild} {acts : History ρ}
      {tasks : List (Arrival × Handler ρ Unit)} {b b' : Builders} {act : BuilderAct} :
      Process s₀ s made acts tasks b → act.Lives → Unspoiled codec path b act →
      BuilderStep ρ codec path origin lists b act b' → Process s₀ s made acts tasks b'
  | handle {s s' : Handles ρ} {made : List ListBuild} {acts : History ρ}
      {tasks : List (Arrival × Handler ρ Unit)} {b : Builders} {act : HandleAct} :
      Process s₀ s made acts tasks b → HandleStep parse s act s' →
      (∀ build ∈ s.builds act, b.Merged build) →
      Process s₀ s' (s.builds act ++ made) (acts ++ (s.swaps act).map .move) tasks b
  | start {s : Handles ρ} {made : List ListBuild} {acts : History ρ}
      {tasks : List (Arrival × Handler ρ Unit)} {b : Builders} (arrival : Arrival) :
      Process s₀ s made acts tasks b →
      Process s₀ s made (acts ++ [.start arrival]) (tasks ++ [(arrival, arrival.task)]) b
  | answer {s : Handles ρ} {made : List ListBuild} {acts : History ρ}
      {tasks : List (Arrival × Handler ρ Unit)} {b : Builders} {i : Nat} {arrival : Arrival}
      {γ : Type} {request : Request ρ γ} {next : γ → Handler ρ Unit} (answer : γ) :
      Process s₀ s made acts tasks b → tasks[i]? = some (arrival, .perform request next) →
      s.shared.admits request answer →
      Process s₀ s made (acts ++ [.answer i ⟨request, answer⟩]) (tasks.set i (arrival, next answer))
        b

variable {parse codec path origin lists} {s₀ s : Handles ρ} {made : List ListBuild}
  {acts : History ρ} {tasks : List (Arrival × Handler ρ Unit)} {b b' : Builders}

/-! ## The parts of a run -/

theorem Process.whole (run : Process parse codec path origin lists s₀ s made acts tasks b) :
    Whole parse s₀ s made acts tasks := by
  induction run with
  | spawned initial config makes _ _ => exact .spawned initial config makes
  | cache _ _ _ _ ih => exact ih
  | handle _ step _ ih => exact ih.handle step
  | start arrival _ ih => exact ih.start arrival
  | answer answer _ at_ admits ih => exact ih.answer answer at_ admits

theorem Process.builders (run : Process parse codec path origin lists s₀ s made acts tasks b) :
    Run (builderSystem ρ codec path origin lists) (Unspoiled codec path) b := by
  induction run with
  | spawned _ _ _ run _ => exact run
  | cache _ _ unspoiled step ih => exact ih.step unspoiled step
  | handle _ _ _ ih => exact ih
  | start _ _ ih => exact ih
  | answer _ _ _ _ ih => exact ih

omit [UnicodeCase] [RegexEngine ρ] in
theorem merged_setStage {i : Nat} {task : BuildTask} {stage : BuildStage} {build : ListBuild}
    (here : b.tasks[i]? = some task)
    (kept : ∀ parsed, task.stage.merged = some parsed → stage.merged = some parsed)
    (merged : b.Merged build) : (b.setStage i task stage).Merged build := by
  obtain ⟨before, behind, around, changed⟩ := around_task here
  obtain ⟨other, member, results, bodies, parses, same⟩ := merged
  rw [around] at member
  rcases List.mem_append.mp member with old | old
  · refine ⟨other, ?_, results, bodies, parses, same⟩
    rw [changed]
    exact List.mem_append_left _ old
  · rcases List.mem_cons.mp old with rfl | old
    · refine ⟨{ other with stage }, ?_, results, bodies, kept _ parses, same⟩
      rw [changed]
      exact List.mem_append_right _ List.mem_cons_self
    · refine ⟨other, ?_, results, bodies, parses, same⟩
      rw [changed]
      exact List.mem_append_right _ (List.mem_cons_of_mem _ old)

/-- While the process goes on, what has merged has merged. -/
theorem merged_step {act : BuilderAct} (lives : act.Lives)
    (step : BuilderStep ρ codec path origin lists b act b') {build : ListBuild}
    (merged : b.Merged build) : b'.Merged build := by
  have fresh : ∀ {i : Nat} {task : BuildTask} {stage : BuildStage} {jobs : List FetchJob}
      {arrived : List Arrived}, b.tasks[i]? = some task →
      task.stage = .downloading jobs arrived → (b.setStage i task stage).Merged build := by
    intro i task stage jobs arrived here downloading
    refine merged_setStage here (fun parsed parses => ?_) merged
    rw [downloading] at parses
    cases parses
  cases step with
  | publish url => exact merged
  | start known =>
      obtain ⟨task, member, rest⟩ := merged
      exact ⟨task, List.mem_append_left _ member, rest⟩
  | download here downloading => exact fresh here downloading
  | lose here downloading member => exact fresh here downloading
  | merge here downloading perm => exact fresh here downloading
  | finish here parsing created =>
      rename_i i task results bodies stuck faults
      have still : (b.setStage i task (.finished results bodies)).Merged build :=
        merged_setStage here (fun parsed parses => by rwa [parsing] at parses) merged
      exact still
  | restart | killMerging | killPruning | terminate => exact lives.elim

theorem Process.merged (run : Process parse codec path origin lists s₀ s made acts tasks b) :
    ∀ build ∈ made, b.Merged build := by
  induction run with
  | spawned _ _ _ _ merged => exact List.forall_mem_singleton.mpr merged
  | cache _ lives _ step ih => exact fun build member => merged_step lives step (ih build member)
  | handle _ _ merged ih =>
      intro build member
      exact (List.mem_append.mp member).elim (merged build) (ih build)
  | start _ _ ih => exact ih
  | answer _ _ _ _ ih => exact ih

/-! ## Why a name is refused -/

/-- An entry of the config, or a line of a version of a list that its server has published. -/
def Source.Published (origin : Origin) (version : String → Nat) : Source → Prop
  | .listed _ url line => ∃ w ≤ version url, line ∈ lines (origin.body url w).toList
  | _ => True

variable (ρ origin) in
/-- The build reads something published that is against the name. -/
def ListBuild.Blames (version : String → Nat) (build : ListBuild) (name : String) : Prop :=
  ∃ source ∈ build.config.sources build.bodies, source.Published origin version ∧
    source.isAllow = false ∧ ∃ rule ∈ source.gives ρ, rule.Matches (Blocklist.lowered name)

omit [UnicodeCase] [RegexEngine ρ] in
/-- The lines of a list are those of its body. -/
theorem listed_of_sources {config : Config} {bodies : String → Option String}
    {kind : Blocklist.ListKind} {url : String} {line : List Char}
    (member : .listed kind url line ∈ config.sources bodies) :
    ∃ body, bodies url = some body ∧ line ∈ lines body.toList := by
  have read : ∀ kind' urls, Source.listed kind url line ∈ listLines bodies kind' urls →
      ∃ body, bodies url = some body ∧ line ∈ lines body.toList := by
    intro kind' urls among
    obtain ⟨url', -, there⟩ := List.mem_flatMap.mp among
    cases got : bodies url' with
    | none => simp [got] at there
    | some body =>
        rw [got] at there
        obtain ⟨line', listed, same⟩ := List.mem_map.mp there
        cases same
        exact ⟨body, got, listed⟩
  simp only [Config.sources, List.mem_append, List.mem_map, reduceCtorEq, and_false, exists_false,
    false_or] at member
  rcases member with listed | listed | listed | listed
  · exact read _ _ listed
  · exact read _ _ listed
  · exact read _ _ listed
  · exact read _ _ listed

/-- **A build blocks a name because of something published.** -/
theorem Process.blames (faithful : codec.Faithful) (apart : Apart lists)
    (run : Process parse codec path origin lists s₀ s made acts tasks b) {build : ListBuild}
    (member : build ∈ made) {name : String} (blocks : build.Blocks ρ name) :
    build.Blames ρ origin b.version name := by
  obtain ⟨-, source, among, side, speaks⟩ := blocks
  refine ⟨source, among, ?_, side, speaks⟩
  cases source with
  | manualBlock domain => trivial
  | manualAllow domain => trivial
  | regex isAllow pattern => trivial
  | listed kind url line =>
      obtain ⟨body, got, listed⟩ := listed_of_sources among
      obtain ⟨task, here, results, bodies, parses, rfl⟩ := run.merged build member
      have sound := builders_sound faithful apart run.builders
      obtain ⟨w, published, rfl, -⟩ :=
        (sound.tasks task here).parses results bodies parses url body got
      exact ⟨w, published, listed⟩

variable (ρ origin) in
/-- Something published to a build is against the question, or against a target of a response. -/
def Against (version : String → Nat) (made : List ListBuild) (responses : List (List UInt8))
    (q : DnsQuestion) : Prop :=
  ∃ build ∈ made, ∃ name, (name = q.name ∨ ∃ resp ∈ responses, name ∈ responseTargets resp) ∧
    build.Blames ρ origin version name

variable (ρ origin) in
/-- The reply refuses the question for something published that is against it, or it relays a
response. -/
def Explained (version : String → Nat) (made : List ListBuild) (responses : List (List UInt8))
    (relays : List UInt8 → List UInt8 → Prop) (msg : DnsMessage) (reply : List UInt8) : Prop :=
  (reply = (nxdomain msg).wire ∧ ∃ q, msg.questions.head? = some q ∧
      Against ρ origin version made responses q) ∨
    ∃ resp ∈ responses, relays resp reply

theorem Process.against (faithful : codec.Faithful) (apart : Apart lists)
    (run : Process parse codec path origin lists s₀ s made acts tasks b) {build : ListBuild}
    (member : build ∈ made) {responses : List (List UInt8)} {q : DnsQuestion}
    (blocks : build.Blocks ρ q.name ∨
      ∃ resp ∈ responses, ∃ target ∈ responseTargets resp, build.Blocks ρ target) :
    Against ρ origin b.version made responses q := by
  rcases blocks with blocks | ⟨resp, got, target, among, blocks⟩
  · exact ⟨build, member, q.name, .inl rfl, run.blames faithful apart member blocks⟩
  · exact ⟨build, member, target, .inr ⟨resp, got, among⟩, run.blames faithful apart member blocks⟩

theorem Process.explained (faithful : codec.Faithful) (apart : Apart lists)
    (run : Process parse codec path origin lists s₀ s made acts tasks b)
    {responses : List (List UInt8)} {relays : List UInt8 → List UInt8 → Prop} {msg : DnsMessage}
    {reply : List UInt8} (answered : AnsweredByBuilds ρ made responses relays msg reply) :
    Explained ρ origin b.version made responses relays msg reply := by
  rcases answered with ⟨nx, q, first, build, member, blocks⟩ | ⟨resp, got, relay, -⟩
  · exact .inl ⟨nx, q, first, run.against faithful apart member blocks⟩
  · exact .inr ⟨resp, got, relay⟩

/-- **Nothing is refused that nobody has published**: in every run of the program over its cache,
each reply that is sent for a datagram or written on a connection relays a response, or refuses
a question for an entry of an accepted config or a line of a version of a list that its server
has published; and each record of a refusal in the journal has such a reason. -/
theorem process_refused (faithful : codec.Faithful) (apart : Apart lists)
    (run : Process parse codec path origin lists s₀ s made acts tasks b) :
    (∀ build ∈ made, ∃ entry ∈ s.accepted, entry.1.lists = build.config) ∧
    (∀ i addr octets left msg, tasks[i]? = some (.datagram addr octets, left) →
      DnsMessage.parse (octets.take recvBufferSize) = .ok msg →
      ∀ reply ∈ sent (eventsOf i acts),
        Explained ρ origin b.version made (responses (eventsOf i acts)) (IsRelayed msg) msg reply) ∧
    (∀ i addr stream left, tasks[i]? = some (.connection addr stream, left) →
      ∃ rounds : List (Round ρ), rounds.map Round.packet <+: messages stream ∧
        written (eventsOf i acts) <+: rounds.flatMap (fun round => frame round.reply) ∧
        ∀ round ∈ rounds, ∃ msg, DnsMessage.parse round.packet = .ok msg ∧
          Explained ρ origin b.version made (responses round.events) Eq msg round.reply) ∧
    ∀ i arrival left, tasks[i]? = some (arrival, left) →
      ∀ record ∈ logged (eventsOf i acts), record.action = "blocked" →
        ∃ packet ∈ arrival.packets, ∃ msg q, DnsMessage.parse packet = .ok msg ∧
          msg.questions.head? = some q ∧ record.domain = q.name ∧
          Against ρ origin b.version made (responses (eventsOf i acts)) q := by
  obtain ⟨reaches, -⟩ := run.whole.reaches
  refine ⟨run.whole.accounted.builds, ?_, ?_, ?_⟩
  · intro i addr octets left msg at_ parsed reply member
    have among := sent_among reaches at_ parsed member
    exact run.explained faithful apart (answeredByBuilds run.whole.active_made among)
  · intro i addr stream left at_
    obtain ⟨rounds, rest, taken, -, part, answered⟩ :=
      (connection_serves reaches at_).rounds fun _ read => mem_activeSince reaches at_ read
    refine ⟨rounds, taken, part, fun round member => ?_⟩
    obtain ⟨msg, parsed, answered⟩ := answered round member
    exact ⟨msg, parsed,
      run.explained faithful apart (answeredByBuilds run.whole.active_made answered)⟩
  · intro i arrival left at_ record member blocked
    obtain ⟨-, packet, own, msg, q, parsed, first, domain, -, truthful⟩ :=
      run.whole.logged at_ member
    refine ⟨packet, own, msg, q, parsed, first, domain, ?_⟩
    rw [blocked] at truthful
    rcases truthful with ⟨-, build, among, blocks⟩ | ⟨allowed, -⟩ | ⟨forwarded, -⟩
    · exact run.against faithful apart among blocks
    · exact absurd allowed (by decide)
    · exact absurd forwarded (by decide)

/-- A task that nothing else comes in between of goes on. -/
theorem Process.resumes {i : Nat} {arrival : Arrival} {p left : Handler ρ Unit}
    {events : List (Event (Request ρ))} (resumes : Resumes p events left) :
    ∀ {acts : History ρ} {tasks : List (Arrival × Handler ρ Unit)},
      Process parse codec path origin lists s₀ s made acts tasks b →
      tasks[i]? = some (arrival, p) →
      (∀ event ∈ events, s.shared.admits event.request event.answer) →
      Process parse codec path origin lists s₀ s made (acts ++ events.map (.answer i))
        (tasks.set i (arrival, left)) b := by
  intro acts tasks run
  exact Server.resumes_alone (R := fun acts tasks =>
      Process parse codec path origin lists s₀ s made acts tasks b)
    (fun answer run at_ admits => run.answer answer at_ admits) resumes run

end Process

/-! ## A datagram that a line of a list refuses -/

attribute [local instance] smallCase

/-- One list, which never changes and has no etag. -/
def hostsOrigin : Origin where
  body _ _ := "0.0.0.0 site.com\n"
  etag _ _ := none
  distinct _ _ _ _ first _ := by cases first

def hostsHttp : Http := fun _ _ _ => .ok ⟨200, "200 OK", none, .ok "0.0.0.0 site.com\n"⟩

theorem hostsHttp_honest (url : String) : hostsOrigin.Honest url 0 0 hostsHttp where
  unchanged _ _ answered status := by
    cases answered
    cases status
  list _ _ _ answered _ text := by
    cases answered
    cases text
    exact ⟨rfl, rfl⟩
  again _ _ answered text := by
    cases answered
    cases text
    exact ⟨rfl, rfl⟩

def hostsAnswer : Arrived := ⟨fetched.url, 0, .fresh "0.0.0.0 site.com\n" none⟩

def hostsBodies : Bodies :=
  collectBodies [] (mergeDownloads 1700000000 started.cache started.bodies
    [Arrived.attempt (hostsAnswer, none)]).bodies

def hostsBuild : ListBuild := ⟨oneList, fun url => hostsBodies[url]?⟩

/-- A build has got the list. -/
theorem run_hosts : ∃ b, Run (builderSystem Literal exampleCodec "cache.json" hostsOrigin
    [fetched.url]) (Unspoiled exampleCodec "cache.json") b ∧ b.Merged hostsBuild := by
  have planned : started.cache.planFetches started.bodies oneList.allUrls oneList.cacheTtl
      1700000000 = ([], [⟨fetched.url, none⟩]) := by decide +kernel
  have initial : Run (builderSystem Literal exampleCodec "cache.json" hostsOrigin [fetched.url])
      (Unspoiled exampleCodec "cache.json") ⟨fun _ => 0, fun _ => 0, started, []⟩ :=
    .init ⟨⟨rfl, rfl, fun _ => rfl, rfl, rfl, fun _ => Nat.le_refl _⟩, rfl⟩
  have began := initial.step (a := BuilderAct.start oneList 1700000000) trivial
    (.start fun url => id)
  simp only [Builders.begin, freshBodies, planned, List.nil_append] at began
  have answered := began.step (a := BuilderAct.download 0 ⟨fetched.url, none⟩ hostsHttp .whole) id
    (.download rfl rfl (List.mem_singleton_self _) (Nat.le_refl 0) (Nat.le_refl 0) (Nat.le_refl 0)
      (hostsHttp_honest _) trivial (show hostsAnswer = _ from rfl))
  have stands : PickStands (seeNewest (fun _ => 0) hostsAnswer) (hostsAnswer, none) :=
    ⟨wholeWrites, fun _ _ _ => by simp [hostsAnswer, seeNewest]⟩
  have merged := answered.step (a := BuilderAct.merge 0 1700000000 [(hostsAnswer, none)])
    (List.forall_mem_singleton.mpr stands) (.merge rfl rfl (List.Perm.refl [hostsAnswer]))
  exact ⟨_, merged, _, List.mem_singleton_self _, _, _, rfl, rfl⟩

theorem hostsBuild_makes : hostsBuild.Makes siteList := makes_siteList (by decide +kernel)

def hostsConfig : FullConfig := ⟨⟨"9.9.9.9", 53⟩, ⟨true⟩, oneList⟩

def hostsHandles : Handles Literal :=
  { siteHandles with
    config := hostsConfig
    accepted := [(hostsConfig, quad9)] }

/-- The phone asks for `site.com`, and is refused for the line of the list. -/
theorem process_refused_phone :
    sent (eventsOf 0 (refusedActs "block:site.com")) = [(nxdomain siteMessage).wire] ∧
      ∃ b : Builders, Explained Literal hostsOrigin b.version [hostsBuild] []
        (IsRelayed siteMessage) siteMessage (nxdomain siteMessage).wire := by
  obtain ⟨b, run, merged⟩ := run_hosts
  obtain ⟨left, resumes⟩ := blockedEvents_resumes siteList_rule
  have spawned : Process parseExample exampleCodec "cache.json" hostsOrigin [fetched.url]
      hostsHandles hostsHandles [hostsBuild] [] [] b :=
    .spawned ⟨quad9, by decide, rfl, rfl, ⟨_, hostsBuild_makes⟩, rfl, rfl, rfl, rfl⟩ rfl
      hostsBuild_makes run merged
  have asks := spawned.start (Arrival.datagram phone siteQuery)
  have refused : Process parseExample exampleCodec "cache.json" hostsOrigin [fetched.url]
      hostsHandles hostsHandles [hostsBuild] (refusedActs "block:site.com")
      [(.datagram phone siteQuery, left)] b := by
    refine Process.resumes resumes asks rfl ?_
    simp [blockedEvents, hostsHandles, siteHandles, Handles.shared, Shared.admits]
  exact ⟨rfl, b, (process_refused exampleCodec_faithful twice_apart refused).2.1 0 phone siteQuery
    left siteMessage rfl parse_received _ (List.mem_singleton_self _)⟩

end DnsLigase.Main
