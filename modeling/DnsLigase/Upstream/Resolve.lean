/-
# Upstream.Resolve — lookups of list hosts among the clients' queries

`resolve_a` asks for the A records of a host over the pool of sockets that the clients' queries
are sent over.  The IDs of its queries come from one counter of 16 bits, which wraps; the clients
choose theirs.  `lookupSystem` is any number of lookups and clients' queries over `udpSystem`.

`run_resolved`: as long as nothing outstanding on a port, when a query is sent from it, has the
same ID, where for two lookups it is enough that less than `2 ^ 16` others were begun between
them, each lookup gives the addresses of a datagram that answers its own query, and all of them,
also where the datagram was longer than the buffer.  `foreignAnswer_resolves` is a client's query
with the ID of the next lookup.
-/
import DnsLigase.Dns.Addresses
import DnsLigase.Dns.NewQuery
import DnsLigase.Upstream.UdpPool

namespace DnsLigase.Upstream

open DnsLigase.Dns DnsLigase.Theory
open DnsLigase.Theory.Bytes DnsLigase.Theory.Io DnsLigase.Theory.Transition DnsLigase.Theory.Utf8

set_option autoImplicit false

/-- `INTERNAL_QUERY_ID.fetch_add(1)`, the `n`-th time: the counter starts at 1. -/
def internalQueryId (n : Nat) : UInt16 := UInt16.ofNat (n + 1)

def resolveA (udpQuery : List UInt8 → Except IoError (List UInt8)) (id : UInt16) (host : String) :
    Except IoError (List Ipv4Addr) := do
  let query := DnsMessage.newQuery id host 1
  let wire ← query.serialize
  let respBytes ← udpQuery wire
  let resp ← DnsMessage.parse respBytes
  return resp.aRecords

/-- The query of a lookup on the wire. -/
def lookupQuery (n : Nat) (host : String) : List UInt8 :=
  (DnsMessage.newQuery (internalQueryId n) host 1).wire

/-! ## IDs -/

theorem wireId_wire (m : DnsMessage) : wireId m.wire = m.header.id := by
  rw [wireId, DnsMessage.wire, DnsHeader.wire, List.append_assoc, be16_beBytes16]
  exact if_pos (by simp)

@[simp] theorem wireId_lookupQuery (n : Nat) (host : String) :
    wireId (lookupQuery n host) = internalQueryId n :=
  wireId_wire _

/-- The counter repeats itself after `2 ^ 16` lookups and not before. -/
theorem internalQueryId_inj {n n' : Nat} (same : internalQueryId n = internalQueryId n')
    (near : n < n' + 65536 ∧ n' < n + 65536) : n = n' := by
  have values := congrArg UInt16.toNat same
  simp only [internalQueryId, UInt16.toNat_ofNat'] at values
  omega

/-! ## Lookups and clients over one pool -/

/-- What a call of `udp_query` is made for: the lookup that was begun as the `n`-th, or a
client's query. -/
inductive Purpose where
  | lookup (n : Nat) (host : String)
  | client (query : List UInt8)
  deriving DecidableEq, Repr

def Purpose.query : Purpose → List UInt8
  | .lookup n host => lookupQuery n host
  | .client query => query

/-- The calls of `udp_query`, what each is made for, and how often the counter was read. -/
structure Lookups where
  net : Net
  purpose : Nat → Option Purpose
  counted : Nat

inductive LookupAct where
  | lookup (c : Nat) (host : String)
  | client (c : Nat) (query : List UInt8)
  | net (a : Act)

/-- The call that a step of the pool starts, with its query. -/
def Act.starts : Act → Option (Nat × List UInt8)
  | .checkout c query => some (c, query)
  | .bind c query _ => some (c, query)
  | .bindFails c query _ => some (c, query)
  | _ => none

/-- A lookup counts up and has its query built, a client has sent one; then the calls run. -/
inductive LookupStep (answers : List UInt8 → List UInt8 → Prop) :
    Lookups → LookupAct → Lookups → Prop
  | lookup {s : Lookups} {c : Nat} {host : String} : s.purpose c = none →
      LookupStep answers s (.lookup c host) { s with
        purpose := Function.update s.purpose c (some (.lookup s.counted host))
        counted := s.counted + 1 }
  | client {s : Lookups} {c : Nat} {query : List UInt8} : s.purpose c = none →
      LookupStep answers s (.client c query)
        { s with purpose := Function.update s.purpose c (some (.client query)) }
  | net {s : Lookups} {a : Act} {net : Net} :
      (∀ c query, a.starts = some (c, query) → (s.purpose c).map Purpose.query = some query) →
      Step answers s.net a net → LookupStep answers s (.net a) { s with net }

def lookupSystem (answers : List UInt8 → List UInt8 → Prop) : System Lookups LookupAct where
  init s := s = ⟨.start, fun _ => none, 0⟩
  step := LookupStep answers

/-- What a call of `udp_query` returned. -/
def Call.outcome? : Call → Option (Except IoError (List UInt8))
  | .returned _ resp => some (.ok resp)
  | .failed error => some (.error error)
  | _ => none

/-- Call `c` belongs to a lookup of `host`, which returned `out`. -/
def Lookups.Resolved (s : Lookups) (c : Nat) (host : String)
    (out : Except IoError (List Ipv4Addr)) : Prop :=
  ∃ n outcome, s.purpose c = some (.lookup n host) ∧ (s.net.calls c).outcome? = some outcome ∧
    out = resolveA (fun _ => outcome) (internalQueryId n) host

/-- Queries that are not taken for each other: two lookups between which less than `2 ^ 16` were
begun, or queries that are the same if their IDs are. -/
def Purpose.Apart : Purpose → Purpose → Prop
  | .lookup n _, .lookup n' _ => n < n' + 65536 ∧ n' < n + 65536
  | mine, other => wireId other.query = wireId mine.query → other.query = mine.query

theorem Purpose.Apart.refl : ∀ mine : Purpose, mine.Apart mine
  | .lookup n _ => ⟨Nat.lt_add_of_pos_right (by decide), Nat.lt_add_of_pos_right (by decide)⟩
  | .client _ => fun _ => rfl

/-- A query is sent from a port only where what is outstanding there is apart from it. -/
def SendsApart (s : Lookups) : LookupAct → Prop
  | .net (.send c) => ∀ p query mine, s.net.calls c = .holding p query → s.purpose c = some mine →
      ∀ c' other, s.purpose c' = some other → Outstanding s.net p other.query → mine.Apart other
  | _ => True

section Invariant

variable {answers : List UInt8 → List UInt8 → Prop} {s s' : Lookups} {a : LookupAct}

/-! ## Numbers and queries -/

/-- The query of a call, from its socket on. -/
def Call.query? : Call → Option (List UInt8)
  | .holding _ query => some query
  | .waiting _ query => some query
  | .accepted _ query _ => some query
  | .returned query _ => some query
  | _ => none

/-- Lookups have numbers of their own, and every query on its way was made for a purpose. -/
structure Numbered (s : Lookups) : Prop where
  counted : ∀ c n host, s.purpose c = some (.lookup n host) → n < s.counted
  own : ∀ c c' n host host', s.purpose c = some (.lookup n host) →
    s.purpose c' = some (.lookup n host') → c = c'
  carried : ∀ c query, (s.net.calls c).query? = some query →
    (s.purpose c).map Purpose.query = some query
  outstanding : ∀ p query, Outstanding s.net p query →
    ∃ c, (s.purpose c).map Purpose.query = some query

/-- A step of the pool gives a call its query when it starts, and leaves it. -/
theorem query_step {n n' : Net} {a : Act} {c : Nat} {query : List UInt8}
    (step : Step answers n a n') (carries : (n'.calls c).query? = some query) :
    (n.calls c).query? = some query ∨ a.starts = some (c, query) := by
  cases step with
  | answer | deliver | dropRequest | dropResponse => exact .inl carries
  | checkout | bind =>
      rw [calls_setCall] at carries
      split at carries
      · rename_i same
        cases carries
        exact .inr (same ▸ rfl)
      · exact .inl carries
  | send held | accept held | giveBack held | letDrop held =>
      rw [calls_setCall] at carries
      split at carries
      · rename_i same
        cases carries
        exact .inl (by rw [same, held]; rfl)
      · exact .inl carries
  | bindFails | sendFails | discard | recvFails =>
      rw [calls_setCall] at carries
      split at carries
      · cases carries
      · exact .inl carries

/-- A purpose that a call gets does not change the others'. -/
theorem purpose_update {purpose : Nat → Option Purpose} {c c' : Nat} {given found : Purpose}
    (fresh : purpose c = none) :
    Function.update purpose c (some given) c' = some found ↔
      purpose c' = some found ∨ c' = c ∧ found = given := by
  rw [Function.update_apply]
  split
  · rename_i same
    rw [same, fresh]
    simp [eq_comm]
  · rename_i differ
    simp [differ]

theorem mapped_update {purpose : Nat → Option Purpose} {c c' : Nat} {given : Purpose}
    {query : List UInt8} (fresh : purpose c = none)
    (found : (purpose c').map Purpose.query = some query) :
    (Function.update purpose c (some given) c').map Purpose.query = some query := by
  obtain ⟨mine, known, rfl⟩ := Option.map_eq_some_iff.mp found
  rw [(purpose_update fresh).mpr (.inl known)]
  rfl

theorem numbered_step (numbered : Numbered s) (step : LookupStep answers s a s') : Numbered s' := by
  cases step with
  | @lookup c host fresh =>
      refine ⟨fun c' n host' known => ?_, fun c' c'' n host' host'' known known' => ?_,
        fun c' query carries => mapped_update fresh (numbered.carried c' query carries),
        fun p query out => ?_⟩
      · rcases (purpose_update fresh).mp known with old | ⟨-, new⟩
        · exact Nat.lt_succ_of_lt (numbered.counted c' n host' old)
        · cases new
          exact Nat.lt_succ_self _
      · rcases (purpose_update fresh).mp known with old | ⟨rfl, new⟩ <;>
          rcases (purpose_update fresh).mp known' with old' | ⟨rfl, new'⟩
        · exact numbered.own c' c'' n host' host'' old old'
        · cases new'
          exact absurd (numbered.counted _ _ _ old) (Nat.lt_irrefl _)
        · cases new
          exact absurd (numbered.counted _ _ _ old') (Nat.lt_irrefl _)
        · rfl
      · obtain ⟨c', known⟩ := numbered.outstanding p query out
        exact ⟨c', mapped_update fresh known⟩
  | @client c query fresh =>
      have old : ∀ {c' n host}, Function.update s.purpose c (some (.client query)) c' =
          some (.lookup n host) → s.purpose c' = some (.lookup n host) := by
        intro c' n host known
        rcases (purpose_update fresh).mp known with old | ⟨-, new⟩
        · exact old
        · cases new
      refine ⟨fun c' n host known => numbered.counted c' n host (old known),
        fun c' c'' n host host' known known' =>
          numbered.own c' c'' n host host' (old known) (old known'),
        fun c' query' carries => mapped_update fresh (numbered.carried c' query' carries),
        fun p query' out => ?_⟩
      obtain ⟨c', known⟩ := numbered.outstanding p query' out
      exact ⟨c', mapped_update fresh known⟩
  | net begun step =>
      refine ⟨numbered.counted, numbered.own, fun c query carries => ?_, fun p query out => ?_⟩
      · rcases query_step step carries with before | starts
        · exact numbered.carried c query before
        · exact begun c query starts
      · rcases outstanding_step step out with before | ⟨c, -, held⟩
        · exact numbered.outstanding p query before
        · exact ⟨c, numbered.carried c query (by rw [held]; rfl)⟩

/-- Where queries are sent apart from what is outstanding, they are sent from clear ports. -/
theorem sendsClear_of_apart (numbered : Numbered s) {a : Act} (apart : SendsApart s (.net a)) :
    SendsClear s.net a := by
  cases a with
  | send c =>
      intro p query held other out sameId
      obtain ⟨mine, known, rfl⟩ :=
        Option.map_eq_some_iff.mp (numbered.carried c query (by rw [held]; rfl))
      obtain ⟨c', made⟩ := numbered.outstanding p other out
      obtain ⟨its, known', rfl⟩ := Option.map_eq_some_iff.mp made
      have differ := apart p _ mine held known c' its known' out
      cases mine with
      | client => cases its <;> exact differ sameId
      | lookup n host =>
          cases its with
          | client => exact differ sameId
          | lookup n' host' =>
              rw [Purpose.query, Purpose.query, wireId_lookupQuery, wireId_lookupQuery] at sameId
              obtain rfl := internalQueryId_inj sameId.symm differ
              obtain rfl := numbered.own c c' n host host' known known'
              rw [Option.some.inj (known.symm.trans known')]
  | _ => trivial

theorem sound_numbered_step
    (sameId : ∀ query bytes, answers query bytes → wireId bytes = wireId query)
    (sound : Sound answers s.net ∧ Numbered s) (apart : SendsApart s a)
    (step : LookupStep answers s a s') : Sound answers s'.net ∧ Numbered s' := by
  refine ⟨?_, numbered_step sound.2 step⟩
  cases step with
  | lookup | client => exact sound.1
  | net begun step => exact sound_step sameId sound.1 (sendsClear_of_apart sound.2 apart) step

end Invariant

/-! ## What a lookup gives -/

/-- The addresses of a datagram that answers the query which the upstream was asked. -/
def AddressesOf (answers : List UInt8 → List UInt8 → Prop) (query : List UInt8)
    (addrs : List Ipv4Addr) : Prop :=
  ∃ datagram m, answers query datagram ∧ DnsMessage.parse datagram = .ok m ∧ addrs = m.aRecords

/-- A query that asks for the A records of `host`, and for nothing else. -/
def AsksAddressesOf (host : String) (query : List UInt8) : Prop :=
  ∃ q, DnsMessage.parse query = .ok q ∧ q.questions = [{ name := host, qtype := 1, qclass := 1 }]

/-- Every lookup that returned addresses has those of an answer to its own query, which asks for
its host if the labels of the host can be written. -/
def Lookups.Resolves (answers : List UInt8 → List UInt8 → Prop) (s : Lookups) : Prop :=
  ∀ c host addrs, s.Resolved c host (.ok addrs) → ∃ n, s.purpose c = some (.lookup n host) ∧
    AddressesOf answers (lookupQuery n host) addrs ∧
    ((∀ l ∈ splitDots host, l ≠ "" ∧ (utf8 l).length < 192) →
      AsksAddressesOf host (lookupQuery n host))

theorem asksAddressesOf_lookupQuery {n : Nat} {host : String}
    (writable : ∀ l ∈ splitDots host, l ≠ "" ∧ (utf8 l).length < 192) :
    AsksAddressesOf host (lookupQuery n host) := by
  have asks : AsksFor (internalQueryId n) host := asksFor_of_short
    (fun l member => (writable l member).1) fun l member => (writable l member).2
  rcases asks with ⟨e, failed⟩ | ⟨bs, m, written, read, asked⟩
  · cases (DnsMessage.serialize_eq _).symm.trans failed
  · cases (DnsMessage.serialize_eq _).symm.trans written
    exact ⟨m, DnsMessage.parse_eq_ok.mpr ⟨_, read⟩, asked⟩

/-- A lookup reads the addresses off what it received of the datagram; cut or not, they are all
that the datagram has. -/
theorem addressesOf_resolveA {answers : List UInt8 → List UInt8 → Prop} {n : Nat} {host : String}
    {query resp : List UInt8} {addrs : List Ipv4Addr} (answer : IsAnswer answers query resp)
    (given : .ok addrs = resolveA (fun _ => .ok resp) (internalQueryId n) host) :
    AddressesOf answers query addrs := by
  obtain ⟨datagram, answered, rfl⟩ := answer
  cases read : DnsMessage.parse (received datagram) with
  | error e =>
      simp [resolveA, DnsMessage.serialize_eq, read, bind, Except.bind] at given
  | ok m =>
      simp only [resolveA, DnsMessage.serialize_eq, read, bind, Except.bind, pure, Except.pure,
        Except.ok.injEq] at given
      have whole := parse_append read (datagram.drop ednsBufferSize.toNat)
      rw [received, List.take_append_drop] at whole
      obtain ⟨m', read', agrees⟩ := whole
      exact ⟨datagram, m', answered, read', given.trans agrees.aRecords.symm⟩

theorem resolves_of_sound {answers : List UInt8 → List UInt8 → Prop} {s : Lookups}
    (sound : Sound answers s.net) (numbered : Numbered s) : s.Resolves answers := by
  rintro c host addrs ⟨n, outcome, known, out, given⟩
  refine ⟨n, known, ?_, asksAddressesOf_lookupQuery⟩
  cases state : s.net.calls c with
  | returned query resp =>
      rw [state] at out
      cases out
      have carried := numbered.carried c query (by rw [state]; rfl)
      rw [known] at carried
      cases carried
      exact addressesOf_resolveA (sound.taken c _ resp (congrArg Call.taken? state)) given
  | failed error =>
      rw [state] at out
      cases out
      simp [resolveA, DnsMessage.serialize_eq, bind, Except.bind] at given
  | _ =>
      rw [state] at out
      cases out

theorem sound_of_run {answers : List UInt8 → List UInt8 → Prop} {s : Lookups}
    (sameId : ∀ query bytes, answers query bytes → wireId bytes = wireId query)
    (run : Run (lookupSystem answers) SendsApart s) : Sound answers s.net ∧ Numbered s := by
  apply run.invariant
  · rintro _ rfl
    refine ⟨sound_start, nofun, nofun, nofun, ?_⟩
    rintro p query (request | ⟨_, response⟩ | ⟨queue, bytes, isOpen, member⟩)
    · exact absurd request List.not_mem_nil
    · exact absurd response List.not_mem_nil
    · cases isOpen
  · intro s a s' sound allowed step
    exact sound_numbered_step sameId sound allowed step

/-- **A lookup gives the addresses of an answer to its own query**, in every run in which queries
are sent apart from what is outstanding on their port. -/
theorem run_resolved {answers : List UInt8 → List UInt8 → Prop} {s : Lookups}
    (sameId : ∀ query bytes, answers query bytes → wireId bytes = wireId query)
    (run : Run (lookupSystem answers) SendsApart s) : s.Resolves answers :=
  resolves_of_sound (sound_of_run sameId run).1 (sound_of_run sameId run).2

/-! ## Lookups on a pool of their own -/

/-- At most `2 ^ 16` lookups are begun, and no client asks. -/
def LookupsOnly (s : Lookups) : LookupAct → Prop
  | .lookup _ _ => s.counted < 65536
  | .client _ _ => False
  | .net _ => True

/-- **The counter is enough for the lookups alone**: as many of them as it has values are not
taken for each other, whatever the network does. -/
theorem run_resolved_alone {answers : List UInt8 → List UInt8 → Prop} {s : Lookups}
    (sameId : ∀ query bytes, answers query bytes → wireId bytes = wireId query)
    (run : Run (lookupSystem answers) LookupsOnly s) : s.Resolves answers := by
  have sound : (Sound answers s.net ∧ Numbered s) ∧ s.counted ≤ 65536 ∧
      ∀ c mine, s.purpose c = some mine → ∃ n host, mine = .lookup n host := by
    apply run.invariant
    · rintro _ rfl
      exact ⟨sound_of_run sameId (.init rfl), Nat.zero_le _, nofun⟩
    · rintro s a s' ⟨sound, few, lookups⟩ allowed step
      have apart : SendsApart s a := by
        cases a with
        | net a =>
            cases a with
            | send c =>
                intro p query mine held known c' other known' out
                obtain ⟨n, host, rfl⟩ := lookups c mine known
                obtain ⟨n', host', rfl⟩ := lookups c' other known'
                have below := sound.2.counted c n host known
                have below' := sound.2.counted c' n' host' known'
                exact ⟨by omega, by omega⟩
            | _ => trivial
        | _ => trivial
      refine ⟨sound_numbered_step sameId sound apart step, ?_⟩
      cases step with
      | lookup fresh =>
          refine ⟨allowed, fun c mine known => ?_⟩
          rcases (purpose_update fresh).mp known with old | ⟨-, rfl⟩
          · exact lookups c mine old
          · exact ⟨_, _, rfl⟩
      | client => exact absurd allowed id
      | net => exact ⟨few, lookups⟩
  exact resolves_of_sound sound.1.1 sound.1.2

/-! ## Lookups of two hosts -/

/-- The answer of an upstream that knows an address for every name, by the first letter of it. -/
def hosted (query : List UInt8) : List UInt8 :=
  query.take 2 ++ ([0x81, 0x80, 0, 1, 0, 1, 0, 0, 0, 0] ++ (query.drop 12 ++
    ([0xC0, 12] ++ [0, 1, 0, 1, 0, 0, 0, 60, 0, 4] ++ [192, 0, 2, query.getD 13 0])))

def hosting (query bytes : List UInt8) : Prop :=
  2 ≤ query.length ∧ bytes = hosted query

theorem hosting_sameId : ∀ query bytes, hosting query bytes → wireId bytes = wireId query
  | [], _, ⟨long, _⟩ => absurd long (by decide)
  | [_], _, ⟨long, _⟩ => absurd long (Nat.not_succ_le_self 1)
  | _ :: _ :: _, _, ⟨_, rfl⟩ => by simp [hosted, wireId, be16]

def hostedAnswer (query : List UInt8) : Datagram := ⟨query, hosted query⟩

/-- A call that is alone with its socket, on which nothing has to be read, is answered and gives it
back. -/
theorem exchange {s : Lookups} {c : Nat} {p : Port} {mine : Purpose}
    (run : Run (lookupSystem hosting) SendsApart s) (held : s.net.calls c = .holding p mine.query)
    (read : s.net.sockets p = some []) (pool : s.net.pool = []) (long : 2 ≤ mine.query.length)
    (known : s.purpose c = some mine)
    (apart : ∀ c' other, s.purpose c' = some other → mine.Apart other) :
    ∃ net, Run (lookupSystem hosting) SendsApart ⟨net, s.purpose, s.counted⟩ ∧ net.pool = [p] ∧
      net.sockets p = some [] ∧ net.calls =
        Function.update s.net.calls c (.returned mine.query (received (hosted mine.query))) := by
  have sent := run.step (a := LookupAct.net (.send c)) ?_ (LookupStep.net nofun (Step.send held))
  · have answered := sent.step (a := LookupAct.net (.answer p (hostedAnswer mine.query))) trivial
      (LookupStep.net nofun (Step.answer List.mem_cons_self ⟨long, rfl⟩))
    have arrived := answered.step (a := LookupAct.net (.deliver p (hostedAnswer mine.query))) trivial
      (LookupStep.net nofun (Step.deliver List.mem_cons_self read))
    have same : wireId (received (hosted mine.query)) = wireId mine.query := by
      rw [wireId_received, hosting_sameId mine.query _ ⟨long, rfl⟩]
    have taken := arrived.step (a := LookupAct.net (.recv c)) trivial (LookupStep.net nofun
      (Step.accept (Function.update_self _ _ _) (Function.update_self _ _ _) same))
    have returned := taken.step (a := LookupAct.net (.giveBack c)) trivial (LookupStep.net nofun
      (Step.giveBack (Function.update_self _ _ _) (by
        show s.net.pool.length < udpPoolCap
        rw [pool]
        decide)))
    refine ⟨_, returned, ?_, Function.update_self _ _ _, ?_⟩
    · show s.net.pool ++ [p] = [p]
      rw [pool, List.nil_append]
    · show Function.update (Function.update (Function.update s.net.calls c _) c _) c _ = _
      rw [Function.update_idem, Function.update_idem]
      rfl
  · intro p' query mine' _ known' c' other there _
    cases known.symm.trans known'
    exact apart c' other there

/-- So is one that takes the only socket out of the pool. -/
theorem exchange_pooled {s : Lookups} {c : Nat} {p : Port} {mine : Purpose}
    (run : Run (lookupSystem hosting) SendsApart s) (idle : s.net.calls c = .idle)
    (read : s.net.sockets p = some []) (pool : s.net.pool = [p]) (long : 2 ≤ mine.query.length)
    (known : s.purpose c = some mine)
    (apart : ∀ c' other, s.purpose c' = some other → mine.Apart other) :
    ∃ net, Run (lookupSystem hosting) SendsApart ⟨net, s.purpose, s.counted⟩ ∧ net.pool = [p] ∧
      net.sockets p = some [] ∧ net.calls =
        Function.update s.net.calls c (.returned mine.query (received (hosted mine.query))) := by
  have took := run.step (a := LookupAct.net (.checkout c mine.query)) trivial
    (LookupStep.net (by rintro _ _ ⟨⟩; rw [known]; rfl)
      (Step.checkout idle (pool.trans (List.nil_append [p]).symm)))
  obtain ⟨net, returned, pooled, left, calls⟩ :=
    exchange took (Function.update_self _ _ _) read rfl long known apart
  refine ⟨net, returned, pooled, left, calls.trans ?_⟩
  show Function.update (Function.update s.net.calls c _) c _ = _
  rw [Function.update_idem]

/-- A client's query with an ID that no lookup has had yet. -/
def otherQuery : List UInt8 := (DnsMessage.newQuery 0x1234 "c.net" 1).wire

/-- `a.net` is looked up on a new socket, a client's query is sent from it next, and `b.net` is looked
up behind that, with the answers of the others still in flight. -/
theorem exists_resolved : ∃ s, Run (lookupSystem hosting) SendsApart s ∧
    s.Resolved 0 "a.net" (.ok [⟨192, 0, 2, 97⟩]) ∧ s.purpose 1 = some (.client otherQuery) ∧
    s.Resolved 2 "b.net" (.ok [⟨192, 0, 2, 98⟩]) := by
  have start : Run (lookupSystem hosting) SendsApart ⟨.start, fun _ => none, 0⟩ := .init rfl
  have begun := start.step (a := LookupAct.lookup 0 "a.net") trivial (LookupStep.lookup rfl)
  have bound := begun.step (a := LookupAct.net (.bind 0 (lookupQuery 0 "a.net") 40000)) trivial
    (LookupStep.net (by rintro _ _ ⟨⟩; rfl) (Step.bind rfl rfl rfl))
  obtain ⟨net₁, first, pool₁, read₁, calls₁⟩ :=
    @exchange _ 0 40000 (.lookup 0 "a.net") bound rfl rfl rfl (by decide +kernel) rfl (by
      intro c' other known
      obtain ⟨-, rfl⟩ := ((purpose_update rfl).mp known).resolve_left nofun
      exact .refl _)
  have asked := first.step (a := LookupAct.client 1 otherQuery) trivial (LookupStep.client rfl)
  obtain ⟨net₂, second, pool₂, read₂, calls₂⟩ :=
    @exchange_pooled _ 1 40000 (.client otherQuery) asked (by dsimp only; rw [calls₁]; rfl) read₁
      pool₁ (by decide +kernel) rfl (by
      intro c' other known
      rcases (purpose_update rfl).mp known with old | ⟨-, rfl⟩
      · obtain ⟨-, rfl⟩ := ((purpose_update rfl).mp old).resolve_left nofun
        exact fun sameId => absurd sameId (by decide +kernel)
      · exact .refl _)
  have begun := second.step (a := LookupAct.lookup 2 "b.net") trivial (LookupStep.lookup rfl)
  obtain ⟨net₃, third, -, -, calls₃⟩ :=
    @exchange_pooled _ 2 40000 (.lookup 1 "b.net") begun
      (by dsimp only; rw [calls₂]; dsimp only; rw [calls₁]; rfl) read₂ pool₂ (by decide +kernel) rfl
      (by
      intro c' other known
      rcases (purpose_update rfl).mp known with old | ⟨-, rfl⟩
      · rcases (purpose_update rfl).mp old with old | ⟨-, rfl⟩
        · obtain ⟨-, rfl⟩ := ((purpose_update rfl).mp old).resolve_left nofun
          exact ⟨by decide, by decide⟩
        · exact fun sameId => absurd sameId (by decide +kernel)
      · exact .refl _)
  refine ⟨_, third, ⟨0, .ok (received (hosted (lookupQuery 0 "a.net"))), rfl, ?_, ?_⟩, rfl,
    1, .ok (received (hosted (lookupQuery 1 "b.net"))), rfl, ?_, ?_⟩
  · dsimp only
    rw [calls₃, calls₂]
    dsimp only
    rw [calls₁]
    rfl
  · decide +kernel
  · dsimp only
    rw [calls₃]
    rfl
  · decide +kernel

theorem run_resolved_again : ∃ s, Run (lookupSystem hosting) SendsApart s ∧
    s.Resolved 0 "a.net" (.ok [⟨192, 0, 2, 97⟩]) ∧ s.purpose 1 = some (.client otherQuery) ∧
    s.Resolved 2 "b.net" (.ok [⟨192, 0, 2, 98⟩]) ∧ s.Resolves hosting := by
  obtain ⟨s, run, first, client, second⟩ := exists_resolved
  exact ⟨s, run, first, client, second, run_resolved hosting_sameId run⟩

/-- A client's query with ID 1. -/
def clientQuery : List UInt8 := (DnsMessage.newQuery 1 "b.net" 1).wire

/-- The answer to a client's query for `b.net` arrives twice.  The first lookup has the same ID
and takes the second copy, with the address of `b.net`, for the answer to its query for `a.net`. -/
theorem foreignAnswer_resolves :
    ∃ s, Reachable (lookupSystem hosting) s ∧
      s.Resolved 1 "a.net" (.ok [⟨192, 0, 2, 98⟩]) ∧ ¬ s.Resolves hosting := by
  have start : Reachable (lookupSystem hosting) ⟨.start, fun _ => none, 0⟩ := Reachable.init rfl
  have asked := start.step (a := LookupAct.client 0 clientQuery) (LookupStep.client rfl)
  have bound := asked.step (a := LookupAct.net (.bind 0 clientQuery 40000))
    (LookupStep.net (by rintro _ _ ⟨⟩; rfl) (Step.bind rfl rfl rfl))
  have sent := bound.step (a := LookupAct.net (.send 0)) (LookupStep.net nofun (Step.send rfl))
  have answered := sent.step (a := LookupAct.net (.answer 40000 (hostedAnswer clientQuery)))
    (LookupStep.net nofun (Step.answer List.mem_cons_self ⟨by decide, rfl⟩))
  have arrived := answered.step (a := LookupAct.net (.deliver 40000 (hostedAnswer clientQuery)))
    (LookupStep.net nofun (Step.deliver List.mem_cons_self rfl))
  have again := arrived.step (a := LookupAct.net (.deliver 40000 (hostedAnswer clientQuery)))
    (LookupStep.net nofun (Step.deliver List.mem_cons_self rfl))
  have taken := again.step (a := LookupAct.net (.recv 0))
    (LookupStep.net nofun (Step.accept rfl rfl (by decide +kernel)))
  have returned := taken.step (a := LookupAct.net (.giveBack 0))
    (LookupStep.net nofun (Step.giveBack rfl (by decide)))
  have begun := returned.step (a := LookupAct.lookup 1 "a.net") (LookupStep.lookup rfl)
  have reused := begun.step (a := LookupAct.net (.checkout 1 (lookupQuery 0 "a.net")))
    (LookupStep.net (by rintro _ _ ⟨⟩; rfl) (Step.checkout rfl rfl))
  have sent' := reused.step (a := LookupAct.net (.send 1)) (LookupStep.net nofun (Step.send rfl))
  have taken' := sent'.step (a := LookupAct.net (.recv 1))
    (LookupStep.net nofun (Step.accept rfl rfl (by decide +kernel)))
  have returned' := taken'.step (a := LookupAct.net (.giveBack 1))
    (LookupStep.net nofun (Step.giveBack rfl (by decide)))
  obtain ⟨s, run, known, resolved⟩ : ∃ s, Reachable (lookupSystem hosting) s ∧
      s.purpose 1 = some (.lookup 0 "a.net") ∧ s.Resolved 1 "a.net" (.ok [⟨192, 0, 2, 98⟩]) :=
    ⟨_, returned', rfl, 0, _, rfl, rfl, by decide +kernel⟩
  refine ⟨s, run, resolved, fun resolves => ?_⟩
  obtain ⟨n, known', ⟨datagram, m, ⟨-, rfl⟩, read, same⟩, -⟩ := resolves 1 _ _ resolved
  obtain ⟨rfl, -⟩ := Purpose.lookup.inj (Option.some.inj (known.symm.trans known'))
  have own : (DnsMessage.parse (hosted (lookupQuery 0 "a.net"))).map DnsMessage.aRecords =
      .ok [⟨192, 0, 2, 97⟩] := by decide +kernel
  rw [read] at own
  cases same.trans (Except.ok.inj own)

end DnsLigase.Upstream
