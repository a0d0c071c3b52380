/-
# Upstream.UdpPool — concurrent `udp_query` calls on one pool of sockets

Any number of calls run against one pool, one await at a time: check a socket out or
bind a new one, send, receive, give the socket back.  The operating system keeps a
queue of received datagrams per open port; a closed port may be bound again.  The
network keeps a datagram in flight until it drops it, so it may deliver it late, many
times or never, and the upstream answers a request that reaches it with any datagrams
that are `answers` to its query.

A call takes what it receives for its answer when the first two bytes agree.  So a
datagram that is still outstanding on a port when a different query with the same ID is
sent from it can be taken for the answer: `strayAnswer_leaks` is a duplicated datagram
doing so.  `run_answered` is the converse, for runs whose queries are all sent from ports
that are `Clear` of such datagrams.
-/
import DnsLigase.Theory.Pool
import DnsLigase.Theory.Transition
import DnsLigase.Upstream.Forward

namespace DnsLigase.Upstream

open DnsLigase.Theory
open DnsLigase.Theory.Bytes DnsLigase.Theory.Io DnsLigase.Theory.Transition

set_option autoImplicit false

def udpPoolCap : Nat := 16

/-- The first two bytes, by which `udp_query` identifies a query and a response. -/
def wireId (bytes : List UInt8) : UInt16 := if 2 ≤ bytes.length then be16 bytes 0 else 0

/-- What `recv` leaves of a datagram in the buffer. -/
def received (bytes : List UInt8) : List UInt8 := bytes.take ednsBufferSize.toNat

/-- Cutting a datagram to the buffer keeps its ID. -/
theorem wireId_received : ∀ bytes : List UInt8, wireId (received bytes) = wireId bytes
  | [] => rfl
  | [_] => rfl
  | _ :: _ :: _ => by simp [wireId, received, ednsBufferSize, be16]

abbrev Port := UInt16

/-- A datagram of the upstream, with the query that it answers. -/
structure Datagram where
  query : List UInt8
  bytes : List UInt8
  deriving DecidableEq, Repr

/-- Where a call of `udp_query` is. -/
inductive Call where
  | idle
  | holding (p : Port) (query : List UInt8)
  | waiting (p : Port) (query : List UInt8)
  | accepted (p : Port) (query resp : List UInt8)
  | returned (query resp : List UInt8)
  | failed (error : IoError)
  deriving DecidableEq, Repr

/-- The socket that a call holds. -/
def Call.port? : Call → Option Port
  | .holding p _ => some p
  | .waiting p _ => some p
  | .accepted p _ _ => some p
  | _ => none

/-- The calls and the pool, the open ports with their receive queues, and what is in flight. -/
structure Net where
  calls : Nat → Call
  pool : List Port
  sockets : Port → Option (List Datagram)
  requests : List (Port × List UInt8)
  responses : List (Port × Datagram)

namespace Net

def setCall (s : Net) (c : Nat) (call : Call) : Net :=
  { s with calls := Function.update s.calls c call }

/-- `none` closes the port, and discards what is queued on it. -/
def setSocket (s : Net) (p : Port) (socket : Option (List Datagram)) : Net :=
  { s with sockets := Function.update s.sockets p socket }

end Net

/-- Which call goes on, or what the network does. -/
inductive Act where
  | checkout (c : Nat) (query : List UInt8)
  | bind (c : Nat) (query : List UInt8) (p : Port)
  | bindFails (c : Nat) (query : List UInt8) (error : IoError)
  | send (c : Nat)
  | sendFails (c : Nat) (error : IoError)
  | recv (c : Nat)
  | recvFails (c : Nat) (error : IoError)
  | giveBack (c : Nat)
  | answer (p : Port) (d : Datagram)
  | deliver (p : Port) (d : Datagram)
  | dropRequest (request : Port × List UInt8)
  | dropResponse (response : Port × Datagram)

def idMismatch : IoError :=
  ⟨.invalidData, "Upstream UDP response ID mismatch — stale datagram discarded"⟩

/-- The awaits of `udp_query`, and the network between them. -/
inductive Step (answers : List UInt8 → List UInt8 → Prop) : Net → Act → Net → Prop
  | checkout {s : Net} {c : Nat} {query : List UInt8} {p : Port} {rest : List Port} :
      s.calls c = .idle → s.pool = rest ++ [p] →
      Step answers s (.checkout c query) ({ s with pool := rest }.setCall c (.holding p query))
  | bind {s : Net} {c : Nat} {query : List UInt8} {p : Port} :
      s.calls c = .idle → s.pool = [] → s.sockets p = none →
      Step answers s (.bind c query p) ((s.setSocket p (some [])).setCall c (.holding p query))
  | bindFails {s : Net} {c : Nat} {query : List UInt8} {error : IoError} :
      s.calls c = .idle → s.pool = [] →
      Step answers s (.bindFails c query error) (s.setCall c (.failed error))
  | send {s : Net} {c : Nat} {p : Port} {query : List UInt8} :
      s.calls c = .holding p query →
      Step answers s (.send c)
        ({ s with requests := (p, query) :: s.requests }.setCall c (.waiting p query))
  | sendFails {s : Net} {c : Nat} {p : Port} {query : List UInt8} {error : IoError} :
      s.calls c = .holding p query →
      Step answers s (.sendFails c error) ((s.setSocket p none).setCall c (.failed error))
  | accept {s : Net} {c : Nat} {p : Port} {query : List UInt8} {d : Datagram}
      {rest : List Datagram} :
      s.calls c = .waiting p query → s.sockets p = some (d :: rest) →
      wireId (received d.bytes) = wireId query →
      Step answers s (.recv c) ((s.setSocket p (some rest)).setCall c
        (.accepted p query (received d.bytes)))
  | discard {s : Net} {c : Nat} {p : Port} {query : List UInt8} {d : Datagram}
      {rest : List Datagram} :
      s.calls c = .waiting p query → s.sockets p = some (d :: rest) →
      wireId (received d.bytes) ≠ wireId query →
      Step answers s (.recv c) ((s.setSocket p none).setCall c (.failed idMismatch))
  /-- `recv` fails, or nothing arrives in time. -/
  | recvFails {s : Net} {c : Nat} {p : Port} {query : List UInt8} {error : IoError} :
      s.calls c = .waiting p query →
      Step answers s (.recvFails c error) ((s.setSocket p none).setCall c (.failed error))
  | giveBack {s : Net} {c : Nat} {p : Port} {query resp : List UInt8} :
      s.calls c = .accepted p query resp → s.pool.length < udpPoolCap →
      Step answers s (.giveBack c)
        ({ s with pool := s.pool ++ [p] }.setCall c (.returned query resp))
  | letDrop {s : Net} {c : Nat} {p : Port} {query resp : List UInt8} :
      s.calls c = .accepted p query resp → udpPoolCap ≤ s.pool.length →
      Step answers s (.giveBack c) ((s.setSocket p none).setCall c (.returned query resp))
  | answer {s : Net} {p : Port} {d : Datagram} :
      (p, d.query) ∈ s.requests → answers d.query d.bytes →
      Step answers s (.answer p d) { s with responses := (p, d) :: s.responses }
  | deliver {s : Net} {p : Port} {d : Datagram} {queue : List Datagram} :
      (p, d) ∈ s.responses → s.sockets p = some queue →
      Step answers s (.deliver p d) (s.setSocket p (some (queue ++ [d])))
  | dropRequest {s : Net} {request : Port × List UInt8} :
      Step answers s (.dropRequest request) { s with requests := s.requests.erase request }
  | dropResponse {s : Net} {response : Port × Datagram} :
      Step answers s (.dropResponse response) { s with responses := s.responses.erase response }

/-- A pool starts empty. -/
def Net.start : Net := ⟨fun _ => .idle, [], fun _ => none, [], []⟩

def udpSystem (answers : List UInt8 → List UInt8 → Prop) : System Net Act where
  init s := s = .start
  step := Step answers

section Invariant

variable {answers : List UInt8 → List UInt8 → Prop} {s s' : Net} {a : Act}

theorem calls_setCall (s : Net) (c c' : Nat) (call : Call) :
    (s.setCall c call).calls c' = if c' = c then call else s.calls c' :=
  Function.update_apply _ _ _ _

theorem sockets_setSocket (s : Net) (p p' : Port) (socket : Option (List Datagram)) :
    (s.setSocket p socket).sockets p' = if p' = p then socket else s.sockets p' :=
  Function.update_apply _ _ _ _

/-! ## Who holds a socket -/

/-- A socket is in the pool or held by one call, and open. -/
structure Owned (s : Net) : Prop where
  nodup : s.pool.Nodup
  pooledOpen : ∀ p ∈ s.pool, s.sockets p ≠ none
  heldOpen : ∀ c p, (s.calls c).port? = some p → s.sockets p ≠ none
  apart : ∀ c p, (s.calls c).port? = some p → p ∉ s.pool
  exclusive : ∀ c c' p, (s.calls c).port? = some p → (s.calls c').port? = some p → c = c'

/-- The calls, as parties that take sockets out of the pool. -/
theorem owned_iff : Owned s ↔
    Pool.Owned s.pool (fun c => (s.calls c).port?) fun p => s.sockets p ≠ none := by
  constructor
  · rintro ⟨nodup, pooled, held, apart, exclusive⟩
    exact ⟨nodup, pooled, held, apart, exclusive⟩
  · rintro ⟨nodup, pooled, held, apart, exclusive⟩
    exact ⟨nodup, pooled, held, apart, exclusive⟩

theorem owned_start : Owned Net.start := owned_iff.mpr (.empty _)

theorem ports_setCall (s : Net) (c : Nat) (call : Call) :
    (fun c' => ((s.setCall c call).calls c').port?) =
      Function.update (fun c' => (s.calls c').port?) c call.port? := by
  funext c'
  exact Function.apply_update (fun _ call => Call.port? call) s.calls c call c'

/-- A socket that gets or loses a datagram stays open. -/
theorem open_setSocket {p p' : Port} {queue : List Datagram} (isOpen : s.sockets p' ≠ none) :
    (s.setSocket p (some queue)).sockets p' ≠ none := by
  rw [sockets_setSocket]
  split
  · exact Option.some_ne_none queue
  · exact isOpen

theorem open_setSocket_self {p : Port} {queue : List Datagram} :
    (s.setSocket p (some queue)).sockets p ≠ none := by
  rw [sockets_setSocket, if_pos rfl]
  exact Option.some_ne_none queue

/-- Closing a socket leaves the others open. -/
theorem open_close {p : Port} (p' : Port) (other : p' ≠ p) (isOpen : s.sockets p' ≠ none) :
    (s.setSocket p none).sockets p' ≠ none := by
  rwa [sockets_setSocket, if_neg other]

/-- **Every step keeps each socket with one owner.** -/
theorem owned_step (owned : Owned s) (step : Step answers s a s') : Owned s' := by
  have owned := owned_iff.mp owned
  apply owned_iff.mpr
  cases step with
  | checkout idle pool =>
      rw [ports_setCall]
      rw [pool] at owned
      exact owned.checkout
  | bind idle empty shut =>
      rw [ports_setCall]
      exact owned.create (fun isOpen => isOpen shut) open_setSocket_self fun _ => open_setSocket
  | bindFails idle empty =>
      rw [ports_setCall]
      exact owned.release
  | send held =>
      have holds : (s.calls _).port? = some _ := congrArg Call.port? held
      rw [ports_setCall]
      exact owned.keep holds
  | sendFails held | discard held | recvFails held | letDrop held =>
      rw [ports_setCall]
      exact owned.drop (congrArg Call.port? held) open_close
  | accept held socket same =>
      have holds : (s.calls _).port? = some _ := congrArg Call.port? held
      rw [ports_setCall]
      exact (owned.keep holds).mono (fun _ _ => open_setSocket) fun _ _ _ => open_setSocket
  | giveBack held room =>
      rw [ports_setCall]
      exact owned.giveBack (congrArg Call.port? held)
  | answer | dropRequest | dropResponse => exact owned
  | deliver => exact owned.mono (fun _ _ => open_setSocket) fun _ _ _ => open_setSocket

/-! ## What is outstanding on a port -/

/-- A datagram of `query` is on its way from or to port `p`, or waits there to be read. -/
def Outstanding (s : Net) (p : Port) (query : List UInt8) : Prop :=
  (p, query) ∈ s.requests ∨ (∃ bytes, (p, ⟨query, bytes⟩) ∈ s.responses) ∨
    ∃ queue bytes, s.sockets p = some queue ∧ ⟨query, bytes⟩ ∈ queue

/-- No outstanding datagram belongs to another query with the same ID. -/
def Clear (s : Net) (p : Port) (query : List UInt8) : Prop :=
  ∀ other, Outstanding s p other → wireId other = wireId query → other = query

theorem outstanding_setSocket {p p' : Port} {query : List UInt8} {socket : Option (List Datagram)}
    (fewer : ∀ queue, socket = some queue → ∀ d ∈ queue, Outstanding s p d.query)
    (out : Outstanding (s.setSocket p socket) p' query) : Outstanding s p' query := by
  rcases out with request | response | ⟨queue, bytes, isOpen, member⟩
  · exact .inl request
  · exact .inr (.inl response)
  · rw [sockets_setSocket] at isOpen
    split at isOpen
    · rename_i same
      exact same ▸ fewer queue isOpen _ member
    · exact .inr (.inr ⟨queue, bytes, isOpen, member⟩)

/-- Only a send puts a query on the wire. -/
theorem outstanding_step {p : Port} {query : List UInt8} (step : Step answers s a s')
    (out : Outstanding s' p query) :
    Outstanding s p query ∨ ∃ c, a = .send c ∧ s.calls c = .holding p query := by
  cases step with
  | checkout | bindFails | giveBack => exact .inl out
  | bind =>
      refine .inl (outstanding_setSocket ?_ out)
      rintro _ ⟨⟩ d member
      exact absurd member List.not_mem_nil
  | sendFails | discard | recvFails | letDrop =>
      refine .inl (outstanding_setSocket ?_ out)
      exact nofun
  | send held =>
      rename_i c p' query'
      rcases out with request | rest
      · rcases List.mem_cons.mp request with same | request
        · cases same
          exact .inr ⟨c, rfl, held⟩
        · exact .inl (.inl request)
      · exact .inl (.inr rest)
  | accept held socket same =>
      refine .inl (outstanding_setSocket ?_ out)
      rintro _ ⟨⟩ d member
      exact .inr (.inr ⟨_, d.bytes, socket, List.mem_cons_of_mem _ member⟩)
  | answer inFlight answered =>
      rcases out with request | ⟨bytes, response⟩ | rest
      · exact .inl (.inl request)
      · rcases List.mem_cons.mp response with same | response
        · cases same
          exact .inl (.inl inFlight)
        · exact .inl (.inr (.inl ⟨bytes, response⟩))
      · exact .inl (.inr (.inr rest))
  | deliver inFlight socket =>
      rename_i p' d queue
      refine .inl (outstanding_setSocket ?_ out)
      rintro _ ⟨⟩ d' member
      rcases List.mem_append.mp member with member | member
      · exact .inr (.inr ⟨queue, d'.bytes, socket, member⟩)
      · rw [List.mem_singleton.mp member]
        exact .inr (.inl ⟨d.bytes, inFlight⟩)
  | dropRequest =>
      rcases out with request | rest
      · exact .inl (.inl (List.mem_of_mem_erase request))
      · exact .inl (.inr rest)
  | dropResponse =>
      rcases out with request | ⟨bytes, response⟩ | rest
      · exact .inl (.inl request)
      · exact .inl (.inr (.inl ⟨bytes, List.mem_of_mem_erase response⟩))
      · exact .inl (.inr (.inr rest))

/-! ## What a step makes of a call -/

/-- The response that a call took, and its query. -/
def Call.taken? : Call → Option (List UInt8 × List UInt8)
  | .accepted _ query resp => some (query, resp)
  | .returned query resp => some (query, resp)
  | _ => none

/-- A call waits from its send on. -/
theorem waiting_step {c : Nat} {p : Port} {query : List UInt8} (step : Step answers s a s')
    (waits : s'.calls c = .waiting p query) :
    s.calls c = .waiting p query ∨ a = .send c ∧ s.calls c = .holding p query := by
  cases step with
  | answer | deliver | dropRequest | dropResponse => exact .inl waits
  | send held =>
      rw [calls_setCall] at waits
      split at waits
      · rename_i same
        cases waits
        exact .inr ⟨same ▸ rfl, same ▸ held⟩
      · exact .inl waits
  | _ =>
      rw [calls_setCall] at waits
      split at waits
      · cases waits
      · exact .inl waits

/-- A call takes a response off its socket, by the ID. -/
theorem taken_step {c : Nat} {query resp : List UInt8} (step : Step answers s a s')
    (took : (s'.calls c).taken? = some (query, resp)) :
    (s.calls c).taken? = some (query, resp) ∨
      ∃ p d rest, s.calls c = .waiting p query ∧ s.sockets p = some (d :: rest) ∧
        wireId (received d.bytes) = wireId query ∧ resp = received d.bytes := by
  cases step with
  | answer | deliver | dropRequest | dropResponse => exact .inl took
  | accept held socket same =>
      rw [calls_setCall] at took
      split at took
      · rename_i eq
        cases took
        exact .inr ⟨_, _, _, eq ▸ held, socket, same, rfl⟩
      · exact .inl took
  | giveBack held | letDrop held =>
      rw [calls_setCall] at took
      split at took
      · rename_i eq
        cases took
        exact .inl (by rw [eq, held]; rfl)
      · exact .inl took
  | _ =>
      rw [calls_setCall] at took
      split at took
      · cases took
      · exact .inl took

/-- Every datagram on its way back answers its query. -/
structure Genuine (answers : List UInt8 → List UInt8 → Prop) (s : Net) : Prop where
  inFlight : ∀ p d, (p, d) ∈ s.responses → answers d.query d.bytes
  queued : ∀ p queue, s.sockets p = some queue → ∀ d ∈ queue, answers d.query d.bytes

theorem Genuine.setSocket {p : Port} {socket : Option (List Datagram)} (genuine : Genuine answers s)
    (queued : ∀ queue, socket = some queue → ∀ d ∈ queue, answers d.query d.bytes) :
    Genuine answers (s.setSocket p socket) where
  inFlight := genuine.inFlight
  queued p' queue isOpen := by
    rw [sockets_setSocket] at isOpen
    split at isOpen
    · exact queued queue isOpen
    · exact genuine.queued p' queue isOpen

theorem Genuine.setCall {c : Nat} {call : Call} (genuine : Genuine answers s) :
    Genuine answers (s.setCall c call) :=
  ⟨genuine.inFlight, genuine.queued⟩

theorem genuine_step (genuine : Genuine answers s) (step : Step answers s a s') :
    Genuine answers s' := by
  cases step with
  | checkout | bindFails | send | giveBack => exact ⟨genuine.inFlight, genuine.queued⟩
  | bind =>
      refine (genuine.setSocket ?_).setCall
      rintro _ ⟨⟩ d member
      exact absurd member List.not_mem_nil
  | sendFails | discard | recvFails | letDrop =>
      refine (genuine.setSocket ?_).setCall
      exact nofun
  | accept held socket same =>
      refine (genuine.setSocket ?_).setCall
      rintro _ ⟨⟩ d member
      exact genuine.queued _ _ socket d (List.mem_cons_of_mem _ member)
  | answer inFlight answered =>
      refine ⟨fun p' d' member => ?_, genuine.queued⟩
      rcases List.mem_cons.mp member with same | member
      · cases same
        exact answered
      · exact genuine.inFlight p' d' member
  | deliver inFlight socket =>
      apply genuine.setSocket
      rintro _ ⟨⟩ d' member
      rcases List.mem_append.mp member with member | member
      · exact genuine.queued _ _ socket d' member
      · rw [List.mem_singleton.mp member]
        exact genuine.inFlight _ _ inFlight
  | dropRequest => exact ⟨genuine.inFlight, genuine.queued⟩
  | dropResponse =>
      exact ⟨fun p' d' member => genuine.inFlight p' d' (List.mem_of_mem_erase member),
        genuine.queued⟩

/-! ## The invariant -/

/-- `resp` is what the buffer holds of an answer to `query`. -/
def IsAnswer (answers : List UInt8 → List UInt8 → Prop) (query resp : List UInt8) : Prop :=
  ∃ bytes, answers query bytes ∧ resp = received bytes

/-- A call that waits has a port clear of other queries' datagrams. -/
structure Sound (answers : List UInt8 → List UInt8 → Prop) (s : Net) : Prop where
  owned : Owned s
  genuine : Genuine answers s
  clear : ∀ c p query, s.calls c = .waiting p query → Clear s p query
  taken : ∀ c query resp, (s.calls c).taken? = some (query, resp) → IsAnswer answers query resp

theorem sound_start : Sound answers .start where
  owned := owned_start
  genuine := ⟨nofun, nofun⟩
  clear := nofun
  taken := nofun

/-- Queries are sent from clear ports only. -/
def SendsClear (s : Net) : Act → Prop
  | .send c => ∀ p query, s.calls c = .holding p query → Clear s p query
  | _ => True

/-- The port of a waiting call stays clear: only the call itself could send from it. -/
theorem clear_step (sound : Sound answers s) (allowed : SendsClear s a) (step : Step answers s a s')
    {c : Nat} {p : Port} {query : List UInt8} (waits : s'.calls c = .waiting p query) :
    Clear s' p query := by
  intro other out sameId
  rcases waiting_step step waits with waited | ⟨rfl, held⟩
  · rcases outstanding_step step out with before | ⟨c', rfl, held'⟩
    · exact sound.clear c p query waited other before sameId
    · have same := sound.owned.exclusive c c' p (congrArg Call.port? waited)
        (congrArg Call.port? held')
      rw [same, held'] at waited
      cases waited
  · rcases outstanding_step step out with before | ⟨c', sent, held'⟩
    · exact allowed p query held other before sameId
    · cases sent
      rw [held] at held'
      cases held'
      rfl

/-- **The step lemma**: what a call takes for an answer is one. -/
theorem sound_step (sameId : ∀ query bytes, answers query bytes → wireId bytes = wireId query)
    (sound : Sound answers s) (allowed : SendsClear s a) (step : Step answers s a s') :
    Sound answers s' where
  owned := owned_step sound.owned step
  genuine := genuine_step sound.genuine step
  clear c p query := clear_step sound allowed step
  taken c query resp took := by
    rcases taken_step step took with before | ⟨p, d, rest, waited, socket, same, rfl⟩
    · exact sound.taken c query resp before
    · have genuine := sound.genuine.queued p _ socket d List.mem_cons_self
      have queued : Outstanding s p d.query :=
        .inr (.inr ⟨_, d.bytes, socket, List.mem_cons_self⟩)
      rw [wireId_received, sameId d.query d.bytes genuine] at same
      have own := sound.clear c p query waited d.query queued same
      exact ⟨d.bytes, own ▸ genuine, rfl⟩

end Invariant

/-- Every call that returned has an answer to its own query. -/
def Net.Answered (answers : List UInt8 → List UInt8 → Prop) (s : Net) : Prop :=
  ∀ c query resp, s.calls c = .returned query resp → IsAnswer answers query resp

/-- **No stray datagram becomes an answer**, in every run whose queries are sent from ports
with nothing outstanding of another query with the same ID. -/
theorem run_answered {answers : List UInt8 → List UInt8 → Prop} {s : Net}
    (sameId : ∀ query bytes, answers query bytes → wireId bytes = wireId query)
    (run : Run (udpSystem answers) SendsClear s) : s.Answered answers := by
  have sound : Sound answers s := by
    apply run.invariant
    · rintro _ rfl
      exact sound_start
    · intro s a s' sound allowed step
      exact sound_step sameId sound allowed step
  intro c query resp returned
  exact sound.taken c query resp (congrArg Call.taken? returned)

/-! ## Two queries with one ID -/

/-- A query with ID `0x1234` for the A record of the one-letter name `letter`. -/
def letterQuery (letter : UInt8) : List UInt8 :=
  [0x12, 0x34, 1, 0, 0, 1, 0, 0, 0, 0, 0, 0, 1, letter, 0, 0, 1, 0, 1]

/-- An upstream that knows no records: the query comes back with the QR and RA bits set. -/
def noData (query bytes : List UInt8) : Prop :=
  bytes = (query.set 2 0x81).set 3 0x80

theorem noData_sameId : ∀ query bytes, noData query bytes → wireId bytes = wireId query
  | [], _, rfl => rfl
  | [_], _, rfl => rfl
  | _ :: _ :: _, _, rfl => by simp [wireId, be16]

def letterAnswer (letter : UInt8) : Datagram :=
  ⟨letterQuery letter, ((letterQuery letter).set 2 0x81).set 3 0x80⟩

/-- A query for `b` with another ID. -/
def laterQuery : List UInt8 := (letterQuery 98).set 1 0x35

def laterAnswer : Datagram := ⟨laterQuery, (laterQuery.set 2 0x81).set 3 0x80⟩

/-- A query for `a` is answered on a new socket.  Another one has it next, and tells its answer from
the first one, which is still in flight. -/
theorem run_answered_later :
    ∃ s, Run (udpSystem noData) SendsClear s ∧
      s.calls 0 = .returned (letterQuery 97) (letterAnswer 97).bytes ∧
      s.calls 1 = .returned laterQuery laterAnswer.bytes ∧
      (40000, letterAnswer 97) ∈ s.responses ∧ s.Answered noData := by
  have start : Run (udpSystem noData) SendsClear Net.start := .init rfl
  have bound := start.step (a := Act.bind 0 (letterQuery 97) 40000) trivial (Step.bind rfl rfl rfl)
  have sent := bound.step (a := Act.send 0) ?_ (Step.send rfl)
  · have answered := sent.step (a := Act.answer 40000 (letterAnswer 97)) trivial
      (Step.answer List.mem_cons_self rfl)
    have arrived := answered.step (a := Act.deliver 40000 (letterAnswer 97)) trivial
      (Step.deliver List.mem_cons_self rfl)
    have taken := arrived.step (a := Act.recv 0) trivial (Step.accept rfl rfl (by decide))
    have returned := taken.step (a := Act.giveBack 0) trivial (Step.giveBack rfl (by decide))
    have taken := returned.step (a := Act.checkout 1 laterQuery) trivial
      (Step.checkout rfl (List.nil_append [40000]).symm)
    have sent := taken.step (a := Act.send 1) ?_ (Step.send rfl)
    · have answered := sent.step (a := Act.answer 40000 laterAnswer) trivial
        (Step.answer List.mem_cons_self rfl)
      have arrived := answered.step (a := Act.deliver 40000 laterAnswer) trivial
        (Step.deliver List.mem_cons_self rfl)
      have taken := arrived.step (a := Act.recv 1) trivial (Step.accept rfl rfl (by decide))
      have returned := taken.step (a := Act.giveBack 1) trivial (Step.giveBack rfl (by decide))
      exact ⟨_, returned, rfl, rfl, List.mem_cons_of_mem _ List.mem_cons_self,
        run_answered noData_sameId returned⟩
    · -- what is outstanding belongs to the query for `a`, whose ID is another one
      intro p query held other out sameId
      obtain ⟨rfl, rfl⟩ := Call.holding.inj held
      have first : other = letterQuery 97 := by
        rcases out with request | ⟨bytes, response⟩ | ⟨queue, bytes, isOpen, member⟩
        · exact congrArg Prod.snd (List.mem_singleton.mp request)
        · exact congrArg (fun response => response.2.query) (List.mem_singleton.mp response)
        · cases isOpen
          exact absurd member List.not_mem_nil
      rw [first] at sameId
      exact absurd sameId (by decide)
  · intro p query held other out _
    obtain ⟨rfl, rfl⟩ := Call.holding.inj held
    rcases out with request | ⟨_, response⟩ | ⟨queue, bytes, isOpen, member⟩
    · exact absurd request List.not_mem_nil
    · exact absurd response List.not_mem_nil
    · cases isOpen
      exact absurd member List.not_mem_nil

/-- The answer to a query for `a` arrives twice.  The second copy is taken by the next
call on that socket, whose query for `b` has the same ID. -/
theorem strayAnswer_leaks :
    (∀ query bytes, noData query bytes → wireId bytes = wireId query) ∧
      ∃ s, Reachable (udpSystem noData) s ∧
        s.calls 1 = .returned (letterQuery 98) (letterAnswer 97).bytes ∧ ¬ s.Answered noData := by
  refine ⟨noData_sameId, ?_⟩
  have start : Reachable (udpSystem noData) Net.start := Reachable.init rfl
  have bound := start.step (a := Act.bind 0 (letterQuery 97) 40000) (Step.bind rfl rfl rfl)
  have sent := bound.step (a := Act.send 0) (Step.send rfl)
  have answered := sent.step (a := Act.answer 40000 (letterAnswer 97))
    (Step.answer List.mem_cons_self rfl)
  have arrived := answered.step (a := Act.deliver 40000 (letterAnswer 97))
    (Step.deliver List.mem_cons_self rfl)
  have again := arrived.step (a := Act.deliver 40000 (letterAnswer 97))
    (Step.deliver List.mem_cons_self rfl)
  have taken := again.step (a := Act.recv 0) (Step.accept rfl rfl (by decide))
  have returned := taken.step (a := Act.giveBack 0) (Step.giveBack rfl (by decide))
  have reused := returned.step (a := Act.checkout 1 (letterQuery 98)) (Step.checkout rfl rfl)
  have sent' := reused.step (a := Act.send 1) (Step.send rfl)
  have taken' := sent'.step (a := Act.recv 1) (Step.accept rfl rfl (by decide))
  have returned' := taken'.step (a := Act.giveBack 1) (Step.giveBack rfl (by decide))
  refine ⟨_, returned', rfl, fun answered => ?_⟩
  obtain ⟨_, rfl, stray⟩ := answered 1 _ _ rfl
  exact absurd stray (by decide)

end DnsLigase.Upstream
