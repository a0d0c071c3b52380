/-
# Upstream.Peers — two forwarders that answer each other

A forwarder takes whatever reaches its port for a query; no part of it looks at the QR bit.
Two instances that treat each other's address as a client are a transition system here: a
datagram is on its way to one of them, the network may duplicate or lose it, and the UDP
handler of the receiver may answer it to the other.

`nxdomain_answered` says what becomes of an NXDOMAIN that one instance built and the other
receives: it is handled like a query for its question, so that it is answered with NXDOMAIN
again exactly when the receiver blocks that name or a CNAME target of the response that its
upstream gives.  `pingPong`: where both block the name this goes on forever.
-/
import DnsLigase.Theory.Transition
import DnsLigase.Upstream.LaterQuestions

namespace DnsLigase.Upstream.Peers

open DnsLigase.Theory DnsLigase.Dns
open DnsLigase.Theory.Case DnsLigase.Theory.Io DnsLigase.Theory.Program
open DnsLigase.Theory.Transition

set_option autoImplicit false

inductive Peer where
  | left
  | right
  deriving DecidableEq, Repr

def Peer.other : Peer → Peer
  | .left => .right
  | .right => .left

/-- A datagram on its way to a peer; `refuses` tells whether `build_nxdomain` made it. -/
structure Mail where
  receiver : Peer
  octets : List UInt8
  refuses : Bool
  deriving DecidableEq, Repr

/-- A datagram that was answered: the queries that were sent upstream because of it, what the
upstream responds to them, and the reply. -/
structure Answer where
  mail : Mail
  queries : List (List UInt8)
  resp : List UInt8
  reply : Mail
  deriving DecidableEq, Repr

structure Net where
  flying : List Mail
  answers : List Answer

inductive Act where
  | deliver
  | duplicate
  | lose
  deriving DecidableEq

/-! ## An NXDOMAIN is a query for its question -/

/-- The datagram is read as one question with a whole name. -/
def Mail.Asks (mail : Mail) (id : UInt16) (q : DnsQuestion) : Prop :=
  DnsMessage.parse mail.octets = .ok (refusal id q) ∧ dropEmpty q.name = q.name

theorem asks_of_nxdomain {packet : List UInt8} {msg : DnsMessage} {mail : Mail}
    (parsed : DnsMessage.parse packet = .ok msg) (asks : msg.questions ≠ [])
    (built : mail.octets = (nxdomain msg).wire) : ∃ id q, mail.Asks id q := by
  obtain ⟨q, rest, questions⟩ := List.exists_cons_of_ne_nil asks
  have short := (parse_decoded parsed).encodable.questions q (by simp [questions])
  refine ⟨msg.header.id, q.dropEmpty, ?_, dropEmpty_dropEmpty q.name⟩
  rw [built]
  exact DnsMessage.parse_eq_ok.mpr ⟨_, parseReader_nxdomain questions short⟩

/-! ## The two instances -/

section System

variable {ρ : Type} [UnicodeCase] [RegexEngine ρ]

/-- The UDP handler of an instance with the blocklist `bl` gave this answer to the message
that it read from the datagram, and no I/O failed. -/
structure ServedAs (bl : Blocklist ρ) (a : Answer) (msg : DnsMessage) : Prop where
  parsed : DnsMessage.parse a.mail.octets = .ok msg
  receiver : a.reply.receiver = a.mail.receiver.other
  run : ∃ (udp tcp : List UInt8) (client : String) (events : List (Event (Request ρ)))
    (out : Except IoError Unit), Runs (handleUdpQuery client a.mail.octets) events out ∧
      Answered (smooth bl udp tcp) events ∧ a.resp = finalResponse udp tcp ∧
      a.queries = asked events ∧ sent events = [a.reply.octets]
  refuses : a.reply.refuses = true ↔ Refused bl msg a.resp

/-- A delivered datagram is gone, as is one that is lost. -/
inductive Step (lists : Peer → Blocklist ρ) : Net → Act → Net → Prop
  | deliver {s : Net} {a : Answer} {msg : DnsMessage} : a.mail ∈ s.flying →
      ServedAs (lists a.mail.receiver) a msg →
      Step lists s .deliver ⟨a.reply :: s.flying.erase a.mail, a :: s.answers⟩
  | duplicate {s : Net} {mail : Mail} : mail ∈ s.flying →
      Step lists s .duplicate ⟨mail :: s.flying, s.answers⟩
  | lose {s : Net} {mail : Mail} : Step lists s .lose ⟨s.flying.erase mail, s.answers⟩

/-- Two instances and one datagram that someone injected. -/
def peers (lists : Peer → Blocklist ρ) : System Net Act where
  init s := ∃ receiver octets, s = ⟨[⟨receiver, octets, false⟩], []⟩
  step := Step lists

variable {lists : Peer → Blocklist ρ} {bl : Blocklist ρ} {a : Answer} {msg : DnsMessage}

theorem questions_of_refused {resp : List UInt8} (refused : Refused bl msg resp) :
    msg.questions ≠ [] := by
  rcases refused with ⟨q, first, -⟩ | ⟨asks, -⟩
  · rintro none_
    rw [none_] at first
    cases first
  · exact asks

/-- A reply that was built by `build_nxdomain` holds its octets. -/
theorem ServedAs.built (served : ServedAs bl a msg) (refuses : a.reply.refuses = true) :
    a.reply.octets = (nxdomain msg).wire := by
  obtain ⟨udp, tcp, client, events, out, runs, answered, resp, -, only⟩ := served.run
  have refused := served.refuses.mp refuses
  rw [resp] at refused
  have nx := (handleUdpQuery_smooth served.parsed runs answered).1 refused
  exact List.singleton_inj.mp (only.symm.trans nx)

/-- What the receiver makes of an NXDOMAIN for `q`. -/
structure Treated (bl : Blocklist ρ) (a : Answer) (id : UInt16) (q : DnsQuestion) : Prop where
  asks : a.mail.Asks id q
  blocked : (bl.check q.name).IsBlocked →
    a.queries = [] ∧ a.reply.refuses = true ∧ a.reply.octets = (refusal id q).wire
  passed : ¬ (bl.check q.name).IsBlocked →
    a.queries ≠ [] ∧ (a.reply.refuses = true ↔ Cloaked bl (refusal id q) a.resp)

theorem ServedAs.treated (served : ServedAs bl a msg) {id : UInt16} {q : DnsQuestion}
    (asks : a.mail.Asks id q) : Treated bl a id q := by
  cases served.parsed.symm.trans asks.1
  have screened : Screened bl (Upstream.refusal id q) ↔ (bl.check q.name).IsBlocked := by
    simp [Screened, Upstream.refusal]
  obtain ⟨udp, tcp, client, events, out, runs, answered, -, queries, -⟩ := served.run
  have fixed := answered.mono reading_of_smooth
  refine ⟨asks, fun blocked => ?_, fun passes => ?_⟩
  · have refuses := served.refuses.mpr (.inl (screened.mpr blocked))
    have unasked := ((handleUdpQuery_runs served.parsed runs fixed).1 (screened.mpr blocked)).1
    exact ⟨queries.trans unasked, refuses, served.built refuses⟩
  · have notScreened := mt screened.mp passes
    have asked := asked_of_passes served.parsed (.inl runs) fixed notScreened
    rw [queries, served.refuses, Refused, or_iff_right notScreened]
    exact ⟨List.ne_nil_of_mem asked, Iff.rfl⟩

/-! ## Every run -/

/-- Every NXDOMAIN on its way asks one question, and every one that was answered was treated
as a query for it. -/
structure Treats (lists : Peer → Blocklist ρ) (s : Net) : Prop where
  flying : ∀ mail ∈ s.flying, mail.refuses = true → ∃ id q, mail.Asks id q
  answers : ∀ a ∈ s.answers, a.mail.refuses = true → ∃ id q, Treated (lists a.mail.receiver) a id q

theorem step_treats {s s' : Net} {act : Act} (treats : Treats lists s)
    (stepped : Step lists s act s') : Treats lists s' := by
  cases stepped with
  | @deliver a msg member served =>
      constructor
      · intro mail found refuses
        rcases List.mem_cons.mp found with rfl | found
        · exact asks_of_nxdomain served.parsed
            (questions_of_refused (served.refuses.mp refuses)) (served.built refuses)
        · exact treats.flying mail (List.mem_of_mem_erase found) refuses
      · intro a' found refuses
        rcases List.mem_cons.mp found with rfl | found
        · obtain ⟨id, q, asks⟩ := treats.flying _ member refuses
          exact ⟨id, q, served.treated asks⟩
        · exact treats.answers a' found refuses
  | duplicate member =>
      refine ⟨fun mail found => ?_, treats.answers⟩
      rcases List.mem_cons.mp found with rfl | found
      · exact treats.flying _ member
      · exact treats.flying mail found
  | lose => exact ⟨fun mail found => treats.flying mail (List.mem_of_mem_erase found), treats.answers⟩

theorem treats_init {s : Net} (initial : (peers lists).init s) : Treats lists s := by
  obtain ⟨receiver, octets, rfl⟩ := initial
  constructor
  · intro mail found refuses
    obtain rfl := List.mem_singleton.mp found
    cases refuses
  · intro a found
    cases found

/-- **In every run an NXDOMAIN that is delivered is treated as a query for its question.** -/
theorem nxdomain_answered {s : Net} (reached : Reachable (peers lists) s) :
    ∀ a ∈ s.answers, a.mail.refuses = true →
      ∃ id q, Treated (lists a.mail.receiver) a id q := by
  have treats : Treats lists s :=
    Run.invariant (fun _ initial => treats_init initial)
      (fun _ _ _ treats _ stepped => step_treats treats stepped) reached
  exact treats.answers

end System

/-! ## Two instances that block the same name -/

attribute [local instance] smallCase

/-- A question for `ads.net`. -/
def adsQuestion : DnsQuestion := ⟨"ads.net", 1, 1⟩

def adsMail (receiver : Peer) (refuses : Bool) : Mail :=
  ⟨receiver, (refusal 0x1234 adsQuestion).wire, refuses⟩

/-- An instance that blocks `ads.net` answers the NXDOMAIN for it with that NXDOMAIN. -/
def adsAnswer (receiver : Peer) (refuses : Bool) : Answer :=
  ⟨adsMail receiver refuses, [], [], adsMail receiver.other true⟩

theorem adsAnswer_served (receiver : Peer) (refuses : Bool) :
    ServedAs adsList (adsAnswer receiver refuses) (refusal 0x1234 adsQuestion) := by
  have parsed : DnsMessage.parse (refusal 0x1234 adsQuestion).wire =
      .ok (refusal 0x1234 adsQuestion) := by decide +kernel
  have screened : Screened adsList (refusal 0x1234 adsQuestion) :=
    ⟨adsQuestion, rfl, adsName_blocked.2⟩
  have runs := exec_runs (smoothly adsList [] []) (handleUdpQuery "" (adsMail receiver refuses).octets)
  have answered := exec_answered (smooth_smoothly adsList [] [])
    (handleUdpQuery "" (adsMail receiver refuses).octets)
  have stops := (handleUdpQuery_runs parsed runs (answered.mono reading_of_smooth)).1 screened
  exact ⟨parsed, rfl, ⟨[], [], "", _, _, runs, answered, rfl, stops.1.symm, stops.2⟩,
    iff_of_true rfl (.inl screened)⟩

/-- No datagram is duplicated or lost. -/
def OnlyDelivers (_ : Net) (act : Act) : Prop := act = .deliver

theorem adsAnswer_step (receiver : Peer) (refuses : Bool) (answers : List Answer) :
    (peers fun _ => adsList).step ⟨[adsMail receiver refuses], answers⟩ .deliver
      ⟨[adsMail receiver.other true], adsAnswer receiver refuses :: answers⟩ := by
  have stepped : Step (fun _ => adsList) ⟨[adsMail receiver refuses], answers⟩ .deliver
      ⟨adsMail receiver.other true ::
        [adsMail receiver refuses].erase (adsMail receiver refuses), _⟩ :=
    .deliver (a := adsAnswer receiver refuses) (List.mem_singleton.mpr rfl)
      (adsAnswer_served receiver refuses)
  rw [List.erase_cons_head] at stepped
  exact stepped

/-- **NXDOMAIN goes back and forth without end**: after the injected datagram every reply is
an NXDOMAIN to an NXDOMAIN. -/
theorem pingPong (n : Nat) : ∃ s receiver, Run (peers fun _ => adsList) OnlyDelivers s ∧
    s.flying = [adsMail receiver true] ∧
    (s.answers.filter fun a => a.mail.refuses && a.reply.refuses).length = n := by
  induction n with
  | zero =>
      have start : Run (peers fun _ => adsList) OnlyDelivers ⟨[adsMail .left false], []⟩ :=
        .init ⟨.left, _, rfl⟩
      exact ⟨_, .right, start.step rfl (adsAnswer_step .left false []), rfl, rfl⟩
  | succ n ih =>
      obtain ⟨⟨flying, answers⟩, receiver, run, rfl, counted⟩ := ih
      have next := run.step rfl (adsAnswer_step receiver true answers)
      exact ⟨_, receiver.other, next, rfl, congrArg (· + 1) counted⟩

/-- An NXDOMAIN is sent in reply to an NXDOMAIN. -/
theorem nxdomain_loops : ∃ s, Reachable (peers fun _ => adsList) s ∧
    ∃ a ∈ s.answers, a.mail.refuses = true ∧ a.reply.refuses = true := by
  obtain ⟨s, receiver, run, -, counted⟩ := pingPong 1
  obtain ⟨a, member⟩ := List.exists_mem_of_length_pos (counted ▸ Nat.one_pos)
  obtain ⟨found, both⟩ := List.mem_filter.mp member
  exact ⟨s, run.reachable, a, found, Bool.and_eq_true_iff.mp both⟩

/-- An exchange in which an NXDOMAIN was answered. -/
theorem nxdomain_answered_pingPong :
    ∃ s, Reachable (peers fun _ => adsList) s ∧
      ∃ a ∈ s.answers, a.mail.refuses = true ∧ ∃ id q, Treated adsList a id q := by
  obtain ⟨s, receiver, run, -, counted⟩ := pingPong 1
  obtain ⟨a, member⟩ := List.exists_mem_of_length_pos (counted ▸ Nat.one_pos)
  obtain ⟨found, both⟩ := List.mem_filter.mp member
  have refuses := (Bool.and_eq_true_iff.mp both).1
  exact ⟨s, run.reachable, a, found, refuses, nxdomain_answered run.reachable a found refuses⟩

end DnsLigase.Upstream.Peers
