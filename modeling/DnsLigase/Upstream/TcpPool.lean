/-
# Upstream.TcpPool — concurrent `tcp_query` calls on one pool of connections

Any number of calls run against one pool, one await at a time, and each await of
`tcp_query_on` may stop half way: with a timeout, or because the connection broke.  The
upstream reads requests off a connection by their length prefix and answers each with one
framed response, in order, or closes the connection wherever it likes, and what it had sent
may be cut short.

A response carries nothing that the client would match with its query but its place in the
stream.  So it belongs to the query that was the `n`-th on its connection when it is the
`n`-th response there, and the invariant is that a connection in the pool is `InStep`: all
that was asked on it has been answered, and all answers have been read.

* `Conn.Turn` is what holds of a connection while a call has it, through every partial write
  and read (`turn_progress`) and whatever the upstream does (`turn_serve`);
* `run_inStep`: in every run the pool is in step, and a call returns the answer to its own
  query;
* `run_sends`: a call sends its query at most twice, the second time on a fresh connection.
-/
import Mathlib.Algebra.BigOperators.Group.Finset.Piecewise
import Mathlib.Algebra.Order.BigOperators.Group.Finset
import DnsLigase.Theory.Bytes
import DnsLigase.Theory.Io
import DnsLigase.Theory.Pool
import DnsLigase.Theory.Transition

namespace DnsLigase.Upstream.Tcp

open DnsLigase.Theory
open DnsLigase.Theory.Bytes DnsLigase.Theory.Io DnsLigase.Theory.Transition

set_option autoImplicit false

def tcpPoolCap : Nat := 8

/-! ## A connection -/

/-- What is on its way in both directions, and the history: who asked for what on the
connection, which requests the upstream has read with its answers, and what was read of
these. -/
structure Conn where
  up : List UInt8
  down : List UInt8
  isOpen : Bool
  askers : List (Nat × List UInt8)
  replies : List (List UInt8 × List UInt8)
  taken : List UInt8
  deriving DecidableEq, Repr

namespace Conn

def fresh : Conn := ⟨[], [], true, [], [], []⟩

/-- Call `c` gets the connection, for `query`. -/
def ask (conn : Conn) (c : Nat) (query : List UInt8) : Conn :=
  { conn with askers := conn.askers ++ [(c, query)] }

def write (conn : Conn) (chunk : List UInt8) : Conn := { conn with up := conn.up ++ chunk }

/-- `chunk` is read, and leaves `rest`. -/
def read (conn : Conn) (chunk rest : List UInt8) : Conn :=
  { conn with down := rest, taken := conn.taken ++ chunk }

end Conn

/-- What the upstream does with a connection. -/
inductive Serve : Conn → Conn → Prop
  | reply {conn : Conn} {request rest resp : List UInt8} :
      conn.isOpen → conn.up = frame request ++ rest → request.length ≤ 65535 →
      resp.length ≤ 65535 →
      Serve conn { conn with
        up := rest
        down := conn.down ++ frame resp
        replies := conn.replies ++ [(request, resp)] }
  /-- Closing may lose the end of what was sent. -/
  | close {conn : Conn} (arrives : Nat) :
      Serve conn { conn with isOpen := false, down := conn.down.take arrives }

/-- Where `tcp_query_on` is, with what is left to write of a buffer or read into it. -/
inductive Stage where
  | writeLen (left : List UInt8)
  | writeQuery (left : List UInt8)
  | flush
  | readLen (got : List UInt8)
  | readBody (lenBuf got : List UInt8)
  deriving DecidableEq, Repr

/-- `len_buf`; the cast to `u16` truncates. -/
def Stage.start (query : List UInt8) : Stage :=
  .writeLen (beBytes16 (UInt16.ofNat query.length))

/-- One await of `tcp_query_on` gets on, by `chunk` octets where it writes or reads. -/
inductive Progress (query : List UInt8) : Stage → Conn → Stage → Conn → Prop
  | writeLen {conn : Conn} {chunk left : List UInt8} :
      Progress query (.writeLen (chunk ++ left)) conn (.writeLen left) (conn.write chunk)
  | lenWritten {conn : Conn} : Progress query (.writeLen []) conn (.writeQuery query) conn
  | writeQuery {conn : Conn} {chunk left : List UInt8} :
      Progress query (.writeQuery (chunk ++ left)) conn (.writeQuery left) (conn.write chunk)
  | queryWritten {conn : Conn} : Progress query (.writeQuery []) conn .flush conn
  | flushed {conn : Conn} : Progress query .flush conn (.readLen []) conn
  | readLen {conn : Conn} {got chunk rest : List UInt8} :
      conn.down = chunk ++ rest → got.length + chunk.length ≤ 2 →
      Progress query (.readLen got) conn (.readLen (got ++ chunk)) (conn.read chunk rest)
  | lenRead {conn : Conn} {got : List UInt8} :
      got.length = 2 → Progress query (.readLen got) conn (.readBody got []) conn
  | readBody {conn : Conn} {lenBuf got chunk rest : List UInt8} :
      conn.down = chunk ++ rest → got.length + chunk.length ≤ (be16 lenBuf 0).toNat →
      Progress query (.readBody lenBuf got) conn (.readBody lenBuf (got ++ chunk))
        (conn.read chunk rest)

/-! ## Calls -/

/-- Where a call of `tcp_query` is.  A call on a pooled connection has one retry. -/
inductive Call where
  | idle
  | running (k : Nat) (pooled : Bool) (query : List UInt8) (stage : Stage)
  | connecting (query : List UInt8)
  | answered (k : Nat) (query resp : List UInt8)
  | returned (query resp : List UInt8)
  | failed (error : IoError)
  deriving DecidableEq, Repr

/-- The connection that a call owns. -/
def Call.conn? : Call → Option Nat
  | .running k _ _ _ => some k
  | .answered k _ _ => some k
  | _ => none

/-- The calls, the pool, and every connection that was ever made.  One that is neither pooled
nor owned by a call has been dropped; its number is not used again. -/
structure Net where
  calls : Nat → Call
  pool : List Nat
  conns : Nat → Option Conn

namespace Net

def setCall (s : Net) (c : Nat) (call : Call) : Net :=
  { s with calls := Function.update s.calls c call }

def setConn (s : Net) (k : Nat) (conn : Conn) : Net :=
  { s with conns := Function.update s.conns k (some conn) }

end Net

/-- Which call goes on, or which connection the upstream attends to. -/
inductive Act where
  | checkout (c : Nat) (query : List UInt8)
  | connect (c : Nat) (k : Nat)
  | connectFails (c : Nat) (error : IoError)
  | progress (c : Nat)
  | breaks (c : Nat) (error : IoError)
  | finish (c : Nat)
  | giveBack (c : Nat)
  | serve (k : Nat)

/-- The awaits of `tcp_query` and `return_tcp`, and the upstream between them. -/
inductive Step : Net → Act → Net → Prop
  | checkout {s : Net} {c k : Nat} {query : List UInt8} {rest : List Nat} {conn : Conn} :
      s.calls c = .idle → s.pool = rest ++ [k] → s.conns k = some conn →
      Step s (.checkout c query) (({ s with pool := rest }.setConn k (conn.ask c query)).setCall c
        (.running k true query (.start query)))
  | poolEmpty {s : Net} {c : Nat} {query : List UInt8} :
      s.calls c = .idle → s.pool = [] →
      Step s (.checkout c query) (s.setCall c (.connecting query))
  | connect {s : Net} {c k : Nat} {query : List UInt8} :
      s.calls c = .connecting query → s.conns k = none →
      Step s (.connect c k) ((s.setConn k (Conn.fresh.ask c query)).setCall c
        (.running k false query (.start query)))
  | connectFails {s : Net} {c : Nat} {query : List UInt8} {error : IoError} :
      s.calls c = .connecting query →
      Step s (.connectFails c error) (s.setCall c (.failed error))
  | progress {s : Net} {c k : Nat} {pooled : Bool} {query : List UInt8} {stage stage' : Stage}
      {conn conn' : Conn} :
      s.calls c = .running k pooled query stage → s.conns k = some conn →
      Progress query stage conn stage' conn' →
      Step s (.progress c) ((s.setConn k conn').setCall c (.running k pooled query stage'))
  /-- A pooled connection times out or breaks: it is dropped, and a new one is tried. -/
  | retry {s : Net} {c k : Nat} {query : List UInt8} {stage : Stage} {error : IoError} :
      s.calls c = .running k true query stage →
      Step s (.breaks c error) (s.setCall c (.connecting query))
  | fails {s : Net} {c k : Nat} {query : List UInt8} {stage : Stage} {error : IoError} :
      s.calls c = .running k false query stage →
      Step s (.breaks c error) (s.setCall c (.failed error))
  | finish {s : Net} {c k : Nat} {pooled : Bool} {query lenBuf resp : List UInt8} :
      s.calls c = .running k pooled query (.readBody lenBuf resp) →
      resp.length = (be16 lenBuf 0).toNat →
      Step s (.finish c) (s.setCall c (.answered k query resp))
  | giveBack {s : Net} {c k : Nat} {query resp : List UInt8} :
      s.calls c = .answered k query resp → s.pool.length < tcpPoolCap →
      Step s (.giveBack c) ({ s with pool := s.pool ++ [k] }.setCall c (.returned query resp))
  | letDrop {s : Net} {c k : Nat} {query resp : List UInt8} :
      s.calls c = .answered k query resp → tcpPoolCap ≤ s.pool.length →
      Step s (.giveBack c) (s.setCall c (.returned query resp))
  | serve {s : Net} {k : Nat} {conn conn' : Conn} :
      s.conns k = some conn → Serve conn conn' → Step s (.serve k) (s.setConn k conn')

/-- A pool starts empty. -/
def Net.start : Net := ⟨fun _ => .idle, [], fun _ => none⟩

def tcpSystem : System Net Act where
  init s := s = .start
  step := Step

/-- The queries of at most 65535 octets. -/
def QueriesFit (_ : Net) : Act → Prop
  | .checkout _ query => query.length ≤ 65535
  | _ => True

/-! ## A connection while a call has it -/

namespace Stage

/-- What a stage has still to write. -/
def unsent (query : List UInt8) : Stage → List UInt8
  | .writeLen left => left ++ query
  | .writeQuery left => left
  | _ => []

/-- What a stage has read of the response. -/
def read : Stage → List UInt8
  | .readLen got => got
  | .readBody lenBuf got => lenBuf ++ got
  | _ => []

/-- The length prefix is two octets once it has been read. -/
def Fits : Stage → Prop
  | .readBody lenBuf _ => lenBuf.length = 2
  | _ => True

end Stage

/-- The octets of the responses. -/
def responses (replies : List (List UInt8 × List UInt8)) : List UInt8 :=
  replies.flatMap fun reply => frame reply.2

namespace Conn

/-- Nothing was asked that is not answered, and every answer has been read to its end. -/
structure InStep (conn : Conn) : Prop where
  up : conn.up = []
  down : conn.down = []
  replied : conn.replies.map Prod.fst = conn.askers.map Prod.snd
  taken : conn.taken = responses conn.replies

/-- It is call `c`'s turn: `replies` answered every request before its own, and have been
read; of its own answer `read` has been. -/
structure TurnOf (conn : Conn) (c : Nat) (query read : List UInt8)
    (replies : List (List UInt8 × List UInt8)) : Prop where
  asked : ∃ askers, conn.askers = askers ++ [(c, query)] ∧
    replies.map Prod.fst = askers.map Prod.snd
  taken : conn.taken = responses replies ++ read

/-- The upstream has not yet answered call `c`. -/
structure Asking (conn : Conn) (c : Nat) (query unsent read : List UInt8) : Prop where
  turn : conn.TurnOf c query read conn.replies
  up : conn.up ++ unsent = frame query
  down : conn.down = []
  read : read = []

/-- The upstream has answered call `c` with `resp`. -/
structure Answering (conn : Conn) (c : Nat) (query unsent read resp : List UInt8) : Prop where
  turn : ∃ replies, conn.replies = replies ++ [(query, resp)] ∧ conn.TurnOf c query read replies
  fits : resp.length ≤ 65535
  up : conn.up = []
  unsent : unsent = []
  down : read ++ conn.down <+: frame resp

/-- A connection that call `c` owns: either all of its request that is not written is in
flight, or all of its response that is not read, as far as it arrives. -/
def Turn (conn : Conn) (c : Nat) (query unsent read : List UInt8) : Prop :=
  conn.Asking c query unsent read ∨ ∃ resp, conn.Answering c query unsent read resp

/-- Call `c` has read its answer. -/
structure Done (conn : Conn) (c : Nat) (query resp : List UInt8) : Prop where
  inStep : conn.InStep
  turn : ∃ replies, conn.replies = replies ++ [(query, resp)] ∧
    conn.TurnOf c query (frame resp) replies

variable {conn conn' : Conn} {c : Nat} {query unsent got resp : List UInt8}

theorem inStep_fresh : fresh.InStep := ⟨rfl, rfl, rfl, rfl⟩

/-- A call that gets a connection in step has its whole request to write. -/
theorem InStep.ask (inStep : conn.InStep) : (conn.ask c query).Turn c query (frame query) [] := by
  refine .inl ⟨⟨⟨conn.askers, rfl, inStep.replied⟩, ?_⟩, ?_, inStep.down, rfl⟩
  · rw [List.append_nil]
    exact inStep.taken
  · show conn.up ++ frame query = frame query
    rw [inStep.up, List.nil_append]

theorem Turn.write {chunk : List UInt8} (turn : conn.Turn c query (chunk ++ unsent) got) :
    (conn.write chunk).Turn c query unsent got := by
  rcases turn with asking | ⟨resp, answering⟩
  · obtain ⟨asked, taken⟩ := asking.turn
    refine .inl ⟨⟨asked, taken⟩, ?_, asking.down, asking.read⟩
    rw [← asking.up, Conn.write, List.append_assoc]
  · obtain ⟨rfl, rfl⟩ := List.append_eq_nil_iff.mp answering.unsent
    obtain ⟨replies, replied, asked, taken⟩ := answering.turn
    refine .inr ⟨resp, ⟨replies, replied, asked, taken⟩, answering.fits, ?_, rfl, answering.down⟩
    rw [Conn.write, List.append_nil, answering.up]

theorem Turn.read {chunk rest : List UInt8} (turn : conn.Turn c query unsent got)
    (down : conn.down = chunk ++ rest) :
    (conn.read chunk rest).Turn c query unsent (got ++ chunk) := by
  rcases turn with asking | ⟨resp, answering⟩
  · obtain ⟨asked, taken⟩ := asking.turn
    obtain ⟨rfl, rfl⟩ := List.append_eq_nil_iff.mp (down.symm.trans asking.down)
    refine .inl ⟨⟨asked, ?_⟩, asking.up, rfl, ?_⟩
    · rw [Conn.read, taken, List.append_assoc]
    · rw [asking.read, List.append_nil]
  · obtain ⟨replies, replied, asked, taken⟩ := answering.turn
    refine .inr ⟨resp, ⟨replies, replied, asked, ?_⟩, answering.fits, answering.up,
      answering.unsent, ?_⟩
    · rw [Conn.read, taken, List.append_assoc]
    · rw [List.append_assoc]
      exact down ▸ answering.down

/-- **What an await does to the connection of its call.** -/
theorem turn_progress {stage stage' : Stage}
    (turn : conn.Turn c query (stage.unsent query) stage.read) (fits : stage.Fits)
    (progress : Progress query stage conn stage' conn') :
    conn'.Turn c query (stage'.unsent query) stage'.read ∧ stage'.Fits := by
  cases progress with
  | writeLen =>
      rw [Stage.unsent, List.append_assoc] at turn
      exact ⟨turn.write, trivial⟩
  | lenWritten | queryWritten | flushed => exact ⟨turn, trivial⟩
  | writeQuery => exact ⟨turn.write, trivial⟩
  | readLen down short => exact ⟨turn.read down, trivial⟩
  | lenRead two =>
      refine ⟨?_, two⟩
      rw [Stage.read, List.append_nil]
      exact turn
  | readBody down short =>
      rw [Stage.read, ← List.append_assoc]
      exact ⟨turn.read down, fits⟩

/-- **What the upstream does to the connection of a call.** -/
theorem turn_serve (turn : conn.Turn c query unsent got) (short : query.length ≤ 65535)
    (serve : Serve conn conn') : conn'.Turn c query unsent got := by
  cases serve with
  | @reply request rest resp isOpen front short' fits =>
      rcases turn with asking | ⟨resp', answering⟩
      · have whole : frame request ++ (rest ++ unsent) = frame query ++ [] := by
          rw [← List.append_assoc, ← front, asking.up, List.append_nil]
        obtain ⟨rfl, behind⟩ := frame_append_inj short' short whole
        obtain ⟨rfl, rfl⟩ := List.append_eq_nil_iff.mp behind
        obtain ⟨asked, taken⟩ := asking.turn
        refine .inr ⟨resp, ⟨conn.replies, rfl, asked, taken⟩, fits, rfl, rfl, ?_⟩
        rw [asking.read, asking.down]
        exact List.prefix_rfl
      · rw [answering.up] at front
        cases front
  | close arrives =>
      rcases turn with asking | ⟨resp, answering⟩
      · obtain ⟨asked, taken⟩ := asking.turn
        refine .inl ⟨⟨asked, taken⟩, asking.up, ?_, asking.read⟩
        rw [asking.down, List.take_nil]
      · obtain ⟨replies, replied, asked, taken⟩ := answering.turn
        refine .inr ⟨resp, ⟨replies, replied, asked, taken⟩, answering.fits, answering.up,
          answering.unsent, ?_⟩
        have part : conn.down.take arrives <+: conn.down := List.take_prefix _ _
        exact ((List.prefix_append_right_inj got).mpr part).trans answering.down

theorem InStep.serve (inStep : conn.InStep) (serve : Serve conn conn') : conn'.InStep := by
  cases serve with
  | reply isOpen front =>
      rw [inStep.up] at front
      cases front
  | close arrives =>
      refine ⟨inStep.up, ?_, inStep.replied, inStep.taken⟩
      rw [inStep.down, List.take_nil]

/-- A call that has read as much as the prefix counts has read its whole answer. -/
theorem Turn.done {lenBuf : List UInt8} (turn : conn.Turn c query unsent (lenBuf ++ resp))
    (two : lenBuf.length = 2) (counted : resp.length = (be16 lenBuf 0).toNat) :
    conn.Done c query resp := by
  rcases turn with asking | ⟨resp', answering⟩
  · have empty := (List.append_eq_nil_iff.mp asking.read).1
    rw [empty] at two
    cases two
  · obtain ⟨tail, whole⟩ := answering.down
    have read := readFrame_parts two counted (conn.down ++ tail)
    rw [← List.append_assoc, ← List.append_assoc, whole, ← List.append_nil (frame resp'),
      (framed_iff resp').mpr answering.fits, Option.some.injEq, Prod.mk.injEq] at read
    obtain ⟨rfl, nothing⟩ := read
    obtain ⟨down, rfl⟩ := List.append_eq_nil_iff.mp nothing.symm
    rw [down, List.append_nil, List.append_nil] at whole
    obtain ⟨replies, replied, asked, taken⟩ := answering.turn
    rw [whole] at taken
    refine ⟨⟨answering.up, down, ?_, ?_⟩, replies, replied, asked, taken⟩
    · obtain ⟨askers, asks, same⟩ := asked
      rw [replied, asks, List.map_append, List.map_append, same]
      rfl
    · rw [taken, replied, responses, responses, List.flatMap_append, List.flatMap_singleton]

theorem Done.serve (done : conn.Done c query resp) (serve : Serve conn conn') :
    conn'.Done c query resp := by
  refine ⟨done.inStep.serve serve, ?_⟩
  obtain ⟨replies, replied, asked, taken⟩ := done.turn
  cases serve with
  | reply isOpen front =>
      rw [done.inStep.up] at front
      cases front
  | close arrives => exact ⟨replies, replied, asked, taken⟩

/-- The history of a connection only grows. -/
structure Grows (conn conn' : Conn) : Prop where
  askers : conn.askers <+: conn'.askers
  replies : conn.replies <+: conn'.replies

theorem Grows.of_progress {stage stage' : Stage}
    (progress : Progress query stage conn stage' conn') : conn.Grows conn' := by
  cases progress <;> exact ⟨List.prefix_rfl, List.prefix_rfl⟩

theorem Grows.of_serve (serve : Serve conn conn') : conn.Grows conn' := by
  cases serve with
  | reply => exact ⟨List.prefix_rfl, List.prefix_append _ _⟩
  | close => exact ⟨List.prefix_rfl, List.prefix_rfl⟩

end Conn

/-! ## The invariant -/

/-- The response to the `n`-th request on some connection, and call `c` made that request. -/
def OwnAnswer (conns : Nat → Option Conn) (c : Nat) (query resp : List UInt8) : Prop :=
  ∃ (k : Nat) (conn : Conn) (n : Nat), conns k = some conn ∧
    conn.askers[n]? = some (c, query) ∧ conn.replies[n]? = some (query, resp)

/-- What holds of a call, by where it is. -/
def Good (conns : Nat → Option Conn) (c : Nat) : Call → Prop
  | .idle => True
  | .running k _ query stage => query.length ≤ 65535 ∧ stage.Fits ∧
      ∃ conn, conns k = some conn ∧ conn.Turn c query (stage.unsent query) stage.read
  | .connecting query => query.length ≤ 65535
  | .answered k query resp => ∃ conn, conns k = some conn ∧ conn.Done c query resp
  | .returned query resp => OwnAnswer conns c query resp
  | .failed _ => True

structure Sound (s : Net) : Prop where
  owned : Pool.Owned s.pool (fun c => (s.calls c).conn?) fun k => s.conns k ≠ none
  pooled : ∀ k ∈ s.pool, ∃ conn, s.conns k = some conn ∧ conn.InStep
  calls : ∀ c, Good s.conns c (s.calls c)
  cap : s.pool.length ≤ tcpPoolCap

theorem sound_start : Sound .start where
  owned := .empty _
  pooled := nofun
  calls _ := trivial
  cap := Nat.zero_le _

section Step

variable {s s' : Net} {a : Act} {c k : Nat} {conn conn' : Conn} {call : Call}
  {pooled : Bool} {query resp : List UInt8} {stage : Stage}

/-! ### What the invariant says of one connection -/

theorem Sound.inStep (sound : Sound s) (member : k ∈ s.pool) (found : s.conns k = some conn) :
    conn.InStep := by
  obtain ⟨conn', found', inStep⟩ := sound.pooled k member
  cases found.symm.trans found'
  exact inStep

theorem Sound.turn (sound : Sound s) (running : s.calls c = .running k pooled query stage) :
    query.length ≤ 65535 ∧ stage.Fits ∧
      ∃ conn, s.conns k = some conn ∧ conn.Turn c query (stage.unsent query) stage.read := by
  have good := sound.calls c
  rwa [running] at good

theorem Sound.done (sound : Sound s) (answered : s.calls c = .answered k query resp) :
    ∃ conn, s.conns k = some conn ∧ conn.Done c query resp := by
  have good := sound.calls c
  rwa [answered] at good

/-! ### Who owns a connection -/

theorem conns_setCall (s : Net) (c : Nat) (call : Call) :
    (fun c' => ((s.setCall c call).calls c').conn?) =
      Function.update (fun c' => (s.calls c').conn?) c call.conn? := by
  funext c'
  exact Function.apply_update (fun _ call => Call.conn? call) s.calls c call c'

theorem live_setConn {k' : Nat} (live : s.conns k' ≠ none) :
    (s.setConn k conn).conns k' ≠ none := by
  show Function.update s.conns k (some conn) k' ≠ none
  rw [Function.update_apply]
  split
  · exact Option.some_ne_none conn
  · exact live

theorem live_setConn_self : (s.setConn k conn).conns k ≠ none := by
  show Function.update s.conns k (some conn) k ≠ none
  rw [Function.update_self]
  exact Option.some_ne_none conn

/-- **Every connection is in the pool or owned by one call.** -/
theorem owned_step (sound : Sound s) (step : Step s a s') :
    Pool.Owned s'.pool (fun c => (s'.calls c).conn?) fun k => s'.conns k ≠ none := by
  have owned := sound.owned
  cases step with
  | checkout idle pool found =>
      rw [conns_setCall]
      rw [pool] at owned
      exact owned.checkout.mono (fun _ _ => live_setConn) fun _ _ _ => live_setConn
  | poolEmpty idle empty =>
      rw [conns_setCall]
      exact owned.release
  | connect connecting unused =>
      rw [conns_setCall]
      exact owned.create (fun live => live unused) live_setConn_self fun _ => live_setConn
  | connectFails | retry | fails | letDrop =>
      rw [conns_setCall]
      exact owned.release
  | progress running found progress =>
      rw [conns_setCall]
      exact (owned.keep (congrArg Call.conn? running)).mono (fun _ _ => live_setConn)
        fun _ _ _ => live_setConn
  | finish running counted =>
      have holds : (s.calls _).conn? = some _ := congrArg Call.conn? running
      rw [conns_setCall]
      exact owned.keep holds
  | giveBack answered room =>
      rw [conns_setCall]
      exact owned.giveBack (congrArg Call.conn? answered)
  | serve => exact owned.mono (fun _ _ => live_setConn) fun _ _ _ => live_setConn

/-! ### What is in the pool -/

/-- Other connections are as they were. -/
theorem conns_setConn {k' : Nat} (other : k' ≠ k) : (s.setConn k conn).conns k' = s.conns k' :=
  Function.update_of_ne other _ _

theorem conns_setConn_self : (s.setConn k conn).conns k = some conn :=
  Function.update_self _ _ _

/-- A change to a connection outside the pool. -/
theorem pooled_setConn {pool : List Nat}
    (pooled : ∀ k ∈ pool, ∃ conn, s.conns k = some conn ∧ conn.InStep) (apart : k ∉ pool) :
    ∀ k' ∈ pool, ∃ conn', (s.setConn k conn).conns k' = some conn' ∧ conn'.InStep := by
  intro k' member
  rw [conns_setConn (ne_of_mem_of_not_mem member apart)]
  exact pooled k' member

/-- **The pool is in step.** -/
theorem pooled_step (sound : Sound s) (step : Step s a s') :
    ∀ k ∈ s'.pool, ∃ conn, s'.conns k = some conn ∧ conn.InStep := by
  have pooled := sound.pooled
  cases step with
  | checkout idle pool found =>
      obtain ⟨-, -, distinct⟩ := List.nodup_append.mp (pool ▸ sound.owned.nodup)
      have rest : ∀ k' ∈ _, k' ∈ s.pool := fun k' member => pool ▸ List.mem_append_left _ member
      refine pooled_setConn (fun k' member => pooled k' (rest k' member)) ?_
      exact fun member => distinct _ member _ (List.mem_singleton_self _) rfl
  | poolEmpty | connectFails | retry | fails | finish | letDrop => exact pooled
  | connect connecting unused =>
      exact pooled_setConn pooled fun member => sound.owned.pooled _ member unused
  | progress running found progress =>
      exact pooled_setConn pooled (sound.owned.apart _ _ (congrArg Call.conn? running))
  | giveBack answered room =>
      intro k' member
      rcases List.mem_append.mp member with member | member
      · exact pooled k' member
      · obtain ⟨conn, found, done⟩ := sound.done answered
        rw [List.mem_singleton.mp member]
        exact ⟨conn, found, done.inStep⟩
  | @serve k conn conn' found serve =>
      intro k' member
      by_cases same : k' = k
      · subst same
        exact ⟨conn', conns_setConn_self, (sound.inStep member found).serve serve⟩
      · rw [conns_setConn same]
        exact pooled k' member

theorem cap_step (sound : Sound s) (step : Step s a s') : s'.pool.length ≤ tcpPoolCap := by
  have cap := sound.cap
  cases step with
  | checkout idle pool found =>
      rw [pool, List.length_append] at cap
      exact Nat.le_of_add_right_le cap
  | giveBack answered room =>
      show (s.pool ++ [_]).length ≤ tcpPoolCap
      rw [List.length_append]
      exact room
  | _ => exact cap

/-! ### What the calls have -/

theorem getElem?_of_prefix {α : Type} {xs ys : List α} {n : Nat} {x : α} (front : xs <+: ys)
    (found : xs[n]? = some x) : ys[n]? = some x := by
  obtain ⟨rest, rfl⟩ := front
  rw [List.getElem?_append_left (List.getElem?_eq_some_iff.mp found).1, found]

/-- What a call found out about its connection, or has returned, stays so while others change
their connections. -/
theorem Good.setConn (good : Good s.conns c call)
    (grows : ∀ before, s.conns k = some before → before.Grows conn)
    (other : call.conn? ≠ some k) : Good (s.setConn k conn).conns c call := by
  have apart : ∀ k', call.conn? = some k' → (s.setConn k conn).conns k' = s.conns k' := by
    rintro k' owns
    refine conns_setConn ?_
    rintro rfl
    exact other owns
  cases call with
  | idle => trivial
  | running k' pooled query stage =>
      obtain ⟨short, fits, conn', found, turn⟩ := good
      exact ⟨short, fits, conn', (apart k' rfl).trans found, turn⟩
  | connecting query => exact good
  | answered k' query resp =>
      obtain ⟨conn', found, done⟩ := good
      exact ⟨conn', (apart k' rfl).trans found, done⟩
  | returned query resp =>
      obtain ⟨k', conn', n, found, asked, replied⟩ := good
      by_cases same : k' = k
      · subst same
        have grown := grows conn' found
        exact ⟨k', conn, n, conns_setConn_self, getElem?_of_prefix grown.askers asked,
          getElem?_of_prefix grown.replies replied⟩
      · exact ⟨k', conn', n, (conns_setConn same).trans found, asked, replied⟩
  | failed error => trivial

/-- A connection that is there has grown to what it is now. -/
theorem grows_of_found (found : s.conns k = some conn) (grows : conn.Grows conn') :
    ∀ before, s.conns k = some before → before.Grows conn' := by
  intro before found'
  cases found.symm.trans found'
  exact grows

/-- The upstream does what a call expects of it. -/
theorem Good.serve (good : Good s.conns c call) (found : s.conns k = some conn)
    (serve : Serve conn conn') : Good (s.setConn k conn').conns c call := by
  by_cases owns : call.conn? = some k
  · cases call with
    | idle | connecting | returned | failed => cases owns
    | running k' pooled query stage =>
        obtain rfl : k' = k := Option.some.inj owns
        obtain ⟨short, fits, conn₀, found₀, turn⟩ := good
        cases found.symm.trans found₀
        exact ⟨short, fits, conn', conns_setConn_self, Conn.turn_serve turn short serve⟩
    | answered k' query resp =>
        obtain rfl : k' = k := Option.some.inj owns
        obtain ⟨conn₀, found₀, done⟩ := good
        cases found.symm.trans found₀
        exact ⟨conn', conns_setConn_self, done.serve serve⟩
  · exact good.setConn (grows_of_found found (.of_serve serve)) owns

/-- The call that moved is checked on its own, and the others did not notice. -/
theorem good_setCall {conns : Nat → Option Conn} (others : ∀ c' ≠ c, Good conns c' (s.calls c'))
    (good : Good conns c call) (c' : Nat) : Good conns c' ((s.setCall c call).calls c') := by
  show Good conns c' (Function.update s.calls c call c')
  rw [Function.update_apply]
  split
  · rename_i same
    exact same ▸ good
  · rename_i other
    exact others c' other

/-- So it is when it moved on a connection that no other call owns. -/
theorem good_setConn (calls : ∀ c, Good s.conns c (s.calls c))
    (grows : ∀ before, s.conns k = some before → before.Grows conn)
    (free : ∀ c' ≠ c, (s.calls c').conn? ≠ some k) (good : Good (s.setConn k conn).conns c call) :
    ∀ c', Good (s.setConn k conn).conns c' (((s.setConn k conn).setCall c call).calls c') :=
  good_setCall (fun c' other => (calls c').setConn grows (free c' other)) good

/-- A call that has read its answer has its own. -/
theorem ownAnswer_of_done {query resp : List UInt8} (found : s.conns k = some conn)
    (done : conn.Done c query resp) : OwnAnswer s.conns c query resp := by
  obtain ⟨replies, replied, ⟨askers, asked, same⟩, -⟩ := done.turn
  have lengths := congrArg List.length same
  rw [List.length_map, List.length_map] at lengths
  refine ⟨k, conn, askers.length, found, ?_, ?_⟩
  · rw [asked, List.getElem?_concat_length]
  · rw [replied, ← lengths, List.getElem?_concat_length]

/-- **Every call keeps to its own answer.** -/
theorem calls_step (sound : Sound s) (fit : QueriesFit s a) (step : Step s a s') :
    ∀ c, Good s'.conns c (s'.calls c) := by
  have calls := sound.calls
  have owned := sound.owned
  cases step with
  | @checkout c k query rest conn idle pool found =>
      have member : k ∈ s.pool := by simp [pool]
      refine good_setConn calls (grows_of_found found ⟨List.prefix_append _ _, List.prefix_rfl⟩)
        (fun c' _ owns => owned.apart c' k owns member) ?_
      exact ⟨fit, trivial, _, conns_setConn_self, (sound.inStep member found).ask⟩
  | poolEmpty idle empty => exact good_setCall (fun c' _ => calls c') fit
  | @connect c k query connecting unused =>
      have short := calls c
      rw [connecting] at short
      refine good_setConn calls (fun before found => ?_)
        (fun c' _ owns => owned.held c' k owns unused) ?_
      · cases unused.symm.trans found
      · exact ⟨short, trivial, _, conns_setConn_self, Conn.inStep_fresh.ask⟩
  | connectFails connecting => exact good_setCall (fun c' _ => calls c') trivial
  | @progress c k pooled query stage stage' conn conn' running found progress =>
      obtain ⟨short, fits, conn₀, found₀, turn⟩ := sound.turn running
      cases found.symm.trans found₀
      obtain ⟨turn', fits'⟩ := Conn.turn_progress turn fits progress
      refine good_setConn calls (grows_of_found found (.of_progress progress))
        (fun c' other owns => ?_) ⟨short, fits', _, conns_setConn_self, turn'⟩
      exact other (owned.exclusive c' c k owns (congrArg Call.conn? running))
  | retry running => exact good_setCall (fun c' _ => calls c') (sound.turn running).1
  | fails running => exact good_setCall (fun c' _ => calls c') trivial
  | finish running counted =>
      obtain ⟨-, two, conn, found, turn⟩ := sound.turn running
      exact good_setCall (fun c' _ => calls c') ⟨conn, found, turn.done two counted⟩
  | giveBack answered | letDrop answered =>
      obtain ⟨conn, found, done⟩ := sound.done answered
      exact good_setCall (fun c' _ => calls c') (ownAnswer_of_done found done)
  | serve found serve => exact fun c' => (calls c').serve found serve

/-- **The step lemma.** -/
theorem sound_step (sound : Sound s) (fit : QueriesFit s a) (step : Step s a s') : Sound s' where
  owned := owned_step sound step
  pooled := pooled_step sound step
  calls := calls_step sound fit step
  cap := cap_step sound step

end Step

/-- **The pool stays in step**: what is in it has answered all that was asked of it and has
been read to the end, there is never too much in it, and every call that returned has the
answer to its own request. -/
theorem run_inStep {s : Net} (run : Run tcpSystem QueriesFit s) :
    (∀ k ∈ s.pool, ∃ conn, s.conns k = some conn ∧ conn.InStep) ∧
      s.pool.length ≤ tcpPoolCap ∧
      ∀ c query resp, s.calls c = .returned query resp → OwnAnswer s.conns c query resp := by
  have sound : Sound s := by
    apply run.invariant
    · rintro _ rfl
      exact sound_start
    · intro s a s' sound fit step
      exact sound_step sound fit step
  refine ⟨sound.pooled, sound.cap, fun c query resp returned => ?_⟩
  have good := sound.calls c
  rwa [returned] at good

/-! ## How often a query is sent -/

/-- How often a call sends its query: on a pooled connection, and once more on a fresh one. -/
def maxSends : Nat := 2

/-- How often call `c` has asked on connection `k`. -/
def Net.asks (s : Net) (c k : Nat) : Nat :=
  match s.conns k with
  | some conn => conn.askers.countP fun asker => asker.1 = c
  | none => 0

/-- How often a call may still ask. -/
def Call.asksLeft : Call → Nat
  | .idle => maxSends
  | .running _ true _ _ => 1
  | .connecting _ => 1
  | _ => 0

/-- Whatever connections a call has asked on, with what it has left it has not asked too often. -/
def Spares (s : Net) : Prop :=
  ∀ c (ks : Finset Nat), ∑ k ∈ ks, s.asks c k + (s.calls c).asksLeft ≤ maxSends

theorem sum_le_of_one {f f' : Nat → Nat} {k n : Nat} (others : ∀ k' ≠ k, f' k' = f k')
    (one : f' k ≤ f k + n) (ks : Finset Nat) : ∑ i ∈ ks, f' i ≤ ∑ i ∈ ks, f i + n := by
  have each : ∀ i ∈ ks, f' i ≤ f i + if i = k then n else 0 := by
    intro i _
    by_cases same : i = k
    · rw [same, if_pos rfl]
      exact one
    · rw [others i same]
      exact Nat.le_add_right _ _
  have most : (∑ i ∈ ks, if i = k then n else 0) ≤ n := by
    rw [Finset.sum_ite_eq']
    split
    · exact Nat.le_refl n
    · exact Nat.zero_le n
  have summed := Finset.sum_le_sum each
  rw [Finset.sum_add_distrib] at summed
  omega

section Sends

variable {s s' : Net} {a : Act} {c k : Nat} {conn conn' : Conn} {call : Call} {query : List UInt8}

theorem Progress.askers {stage stage' : Stage} (progress : Progress query stage conn stage' conn') :
    conn'.askers = conn.askers := by
  cases progress <;> rfl

theorem Serve.askers (serve : Serve conn conn') : conn'.askers = conn.askers := by
  cases serve <;> rfl

theorem asks_of_found (found : s.conns k = some conn) :
    s.asks c k = conn.askers.countP fun asker => asker.1 = c := by
  rw [Net.asks, found]

theorem asks_setConn_self :
    (s.setConn k conn).asks c k = conn.askers.countP fun asker => asker.1 = c :=
  asks_of_found conns_setConn_self

theorem asks_setConn {k' : Nat} (other : k' ≠ k) : (s.setConn k conn).asks c k' = s.asks c k' := by
  rw [Net.asks, conns_setConn other, Net.asks]

/-- A change that nobody asks with. -/
theorem spares_setConn (spares : Spares s) (found : s.conns k = some conn)
    (same : conn'.askers = conn.askers) : Spares (s.setConn k conn') := by
  intro c ks
  have asks : ∀ k', (s.setConn k conn').asks c k' = s.asks c k' := by
    intro k'
    by_cases here : k' = k
    · rw [here, asks_setConn_self, asks_of_found found, same]
    · exact asks_setConn here
  simp only [asks]
  exact spares c ks

/-- The call that moved is checked on its own, and the others did not notice. -/
theorem spares_setCall
    (others : ∀ c' ≠ c, ∀ ks : Finset Nat, ∑ k ∈ ks, s.asks c' k + (s.calls c').asksLeft ≤ maxSends)
    (still : ∀ ks : Finset Nat, ∑ k ∈ ks, s.asks c k + call.asksLeft ≤ maxSends) :
    Spares (s.setCall c call) := by
  intro c' ks
  show ∑ k ∈ ks, s.asks c' k + (Function.update s.calls c call c').asksLeft ≤ maxSends
  rw [Function.update_apply]
  split
  · rename_i same
    exact same ▸ still ks
  · rename_i other
    exact others c' other ks

/-- A call that moves on has no more left than before. -/
theorem spares_move (spares : Spares s) (less : call.asksLeft ≤ (s.calls c).asksLeft) :
    Spares (s.setCall c call) := by
  refine spares_setCall (fun c' _ => spares c') fun ks => ?_
  have before := spares c ks
  omega

/-- A call asks, which it had left to do. -/
theorem spares_ask (spares : Spares s) (less : call.asksLeft + 1 ≤ (s.calls c).asksLeft)
    (before : ∀ c', s.asks c' k = conn.askers.countP fun asker => asker.1 = c') :
    Spares ((s.setConn k (conn.ask c query)).setCall c call) := by
  have asked : ∀ c', (s.setConn k (conn.ask c query)).asks c' k =
      s.asks c' k + if c = c' then 1 else 0 := by
    intro c'
    rw [asks_setConn_self, before, Conn.ask, List.countP_append, List.countP_singleton]
    simp only [decide_eq_true_eq]
  refine spares_setCall (fun c' other ks => ?_) fun ks => ?_
  · have after := sum_le_of_one (fun _ away => asks_setConn away) (asked c').le ks
    rw [if_neg (Ne.symm other), Nat.add_zero] at after
    exact (Nat.add_le_add_right after _).trans (spares c' ks)
  · have after := sum_le_of_one (fun _ away => asks_setConn away) (asked c).le ks
    rw [if_pos rfl] at after
    have before := spares c ks
    omega

/-- **The step lemma.** -/
theorem spares_step (spares : Spares s) (step : Step s a s') : Spares s' := by
  cases step with
  | @checkout c k query rest conn idle pool found =>
      refine spares_ask (s := { s with pool := rest }) spares ?_ fun c' => asks_of_found found
      rw [idle]
      rfl
  | poolEmpty idle empty => exact spares_move spares (by rw [idle]; exact Nat.le_succ 1)
  | @connect c k query connecting unused =>
      refine spares_ask spares (by rw [connecting]; rfl) fun c' => ?_
      rw [Net.asks, unused]
      rfl
  | connectFails | fails | finish | letDrop => exact spares_move spares (Nat.zero_le _)
  | @progress c k pooled query stage stage' conn conn' running found progress =>
      exact spares_move (spares_setConn spares found progress.askers) (by
        show _ ≤ (s.calls c).asksLeft
        rw [running]
        cases pooled <;> rfl)
  | retry running => exact spares_move spares (by rw [running]; exact Nat.le_refl 1)
  | giveBack answered room => exact spares_move (s := { s with pool := _ }) spares (Nat.zero_le _)
  | serve found serve => exact spares_setConn spares found serve.askers

end Sends

/-- **A call sends its query at most twice**, on all connections together. -/
theorem run_sends {s : Net} (run : Reachable tcpSystem s) (c : Nat) (ks : Finset Nat) :
    ∑ k ∈ ks, s.asks c k ≤ maxSends := by
  have spares : Spares s := by
    refine Run.invariant ?_ ?_ run
    · rintro _ rfl c ks
      simp [Net.asks, Net.start, Call.asksLeft]
    · intro s a s' spares _ step
      exact spares_step spares step
  exact (Nat.le_add_right _ _).trans (spares c ks)

/-! ## An exchange that nothing disturbs -/

/-- Call `c` is at `call`, and connection `k` is `conn`. -/
def Net.at_ (s : Net) (c k : Nat) (call : Call) (conn : Conn) : Net :=
  (s.setConn k conn).setCall c call

section Exchange

variable {s : Net} {c k : Nat} {conn conn' : Conn} {call call' : Call}

theorem at_calls : (s.at_ c k call conn).calls c = call := Function.update_self _ _ _

theorem at_conns : (s.at_ c k call conn).conns k = some conn := Function.update_self _ _ _

theorem at_self (calls : s.calls c = call) (found : s.conns k = some conn) :
    s.at_ c k call conn = s := by
  unfold Net.at_ Net.setCall Net.setConn
  rw [← calls, ← found]
  simp only [Function.update_eq_self]

theorem at_setCall : (s.at_ c k call conn).setCall c call' = s.at_ c k call' conn := by
  simp only [Net.at_, Net.setCall, Function.update_idem]

theorem at_setConn : (s.at_ c k call conn).setConn k conn' = s.at_ c k call conn' := by
  simp only [Net.at_, Net.setCall, Net.setConn, Function.update_idem]

variable {pooled : Bool} {query resp : List UInt8} {stage stage' : Stage}

/-- One await after the other. -/
theorem run_progress
    (run : Run tcpSystem QueriesFit (s.at_ c k (.running k pooled query stage) conn))
    (progress : Progress query stage conn stage' conn') :
    Run tcpSystem QueriesFit (s.at_ c k (.running k pooled query stage') conn') := by
  have next := run.step (a := Act.progress c) trivial (Step.progress at_calls at_conns progress)
  rwa [at_setConn, at_setCall] at next

/-- A call on an open connection in step, whose request the upstream gets and answers,
returns the answer, and the connection goes back into the pool. -/
theorem run_exchange (run : Run tcpSystem QueriesFit s)
    (running : s.calls c = .running k pooled query (.start query)) (found : s.conns k = some conn)
    (isOpen : conn.isOpen = true) (up : conn.up = []) (down : conn.down = [])
    (short : query.length ≤ 65535) (fits : resp.length ≤ 65535)
    (room : s.pool.length < tcpPoolCap) :
    Run tcpSystem QueriesFit ({ s with pool := s.pool ++ [k] }.at_ c k (.returned query resp)
      { conn with
        replies := conn.replies ++ [(query, resp)]
        taken := conn.taken ++ frame resp }) := by
  obtain ⟨_, _, _, askers, replies, taken⟩ := conn
  obtain rfl := up
  obtain rfl := down
  obtain rfl := isOpen
  have write : ∀ conn bs, Progress query (.writeLen bs) conn (.writeLen []) (conn.write bs) :=
    fun conn bs => by simpa using @Progress.writeLen query conn bs []
  have writeQuery : ∀ conn bs,
      Progress query (.writeQuery bs) conn (.writeQuery []) (conn.write bs) :=
    fun conn bs => by simpa using @Progress.writeQuery query conn bs []
  rw [← at_self running found] at run
  have asked := run_progress (run_progress (run_progress (run_progress (run_progress run
    (write _ _)) .lenWritten) (writeQuery _ _)) .queryWritten) .flushed
  have replied := asked.step (a := Act.serve k) trivial (Step.serve at_conns
    (@Serve.reply _ query [] resp rfl (List.append_nil _).symm short fits))
  rw [at_setConn] at replied
  have length := run_progress replied (@Progress.readLen query _ []
    (beBytes16 (UInt16.ofNat resp.length)) resp rfl (by simp))
  have counted : resp.length = (be16 (beBytes16 (UInt16.ofNat resp.length)) 0).toNat := by
    have count := be16_ofNat resp.length []
    rw [List.append_nil] at count
    omega
  have read := run_progress (run_progress length (.lenRead rfl))
    (@Progress.readBody query _ _ [] resp [] (List.append_nil _).symm
      ((Nat.zero_add _).trans_le counted.le))
  have finished := read.step (a := Act.finish c) trivial (Step.finish at_calls counted)
  rw [at_setCall] at finished
  have back : Run tcpSystem QueriesFit
      (({ s with pool := s.pool ++ [k] }.at_ c k (.answered k query resp) _).setCall c
        (.returned query resp)) :=
    finished.step (a := Act.giveBack c) trivial (Step.giveBack at_calls room)
  rw [at_setCall] at back
  simpa only [Conn.read, Conn.write, frame, List.append_assoc, List.nil_append] using back

end Exchange

/-- A first call pools its connection, and the upstream closes it.  The second call finds it
broken and gets its answer on a new one. -/
theorem run_inStep_retried : ∃ s : Net, s.pool = [1] ∧
    s.calls 0 = .returned [1] [11] ∧ s.calls 1 = .returned [2] [22] ∧
    (∀ k ∈ s.pool, ∃ conn, s.conns k = some conn ∧ conn.InStep) ∧
      OwnAnswer s.conns 0 [1] [11] ∧ OwnAnswer s.conns 1 [2] [22] := by
  have start : Run tcpSystem QueriesFit Net.start := .init rfl
  have empty := start.step (a := Act.checkout 0 [1]) (Nat.le_of_ble_eq_true rfl)
    (Step.poolEmpty rfl rfl)
  have connected := empty.step (a := Act.connect 0 0) trivial (Step.connect rfl rfl)
  have pooled := @run_exchange _ 0 0 (Conn.fresh.ask 0 [1]) false [1] [11] connected rfl rfl rfl
    rfl rfl (by decide) (by decide) (by decide)
  have reused := pooled.step (a := Act.checkout 1 [2]) (Nat.le_of_ble_eq_true rfl)
    (@Step.checkout _ 1 0 [2] [] _ rfl rfl rfl)
  have closed := reused.step (a := Act.serve 0) trivial (Step.serve rfl (Serve.close 0))
  have broken := closed.step (a := Act.breaks 1 ⟨.unexpectedEof, "early eof"⟩) trivial
    (Step.retry rfl)
  have renewed := broken.step (a := Act.connect 1 1) trivial (Step.connect rfl rfl)
  have answered := @run_exchange _ 1 1 (Conn.fresh.ask 1 [2]) false [2] [22] renewed rfl rfl rfl
    rfl rfl (by decide) (by decide) (by decide)
  obtain ⟨inStep, -, own⟩ := run_inStep answered
  exact ⟨_, rfl, rfl, rfl, inStep, own 0 _ _ rfl, own 1 _ _ rfl⟩

end DnsLigase.Upstream.Tcp
