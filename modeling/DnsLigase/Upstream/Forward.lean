/-
# Upstream.Forward — the query handlers of `upstream.rs`

The UDP and the TCP handler are programs over the requests below: reads of the
shared blocklist and of the logging flag (each a separate acquisition of its
lock), a query to the upstream, a reply to the client.  The part that follows the
blocklist check has the same middle in both, a walk over the CNAME targets of the
response (`cloakingCheck`).
-/
import DnsLigase.Blocklist.Rules
import DnsLigase.Dns.RoundTrip
import DnsLigase.Theory.Program

namespace DnsLigase.Upstream

open DnsLigase.Theory DnsLigase.Dns
open DnsLigase.Theory.Bytes DnsLigase.Theory.Case DnsLigase.Theory.Io DnsLigase.Theory.Program

set_option autoImplicit false

/-- What a handler awaits.  Timeouts are among the errors of an answer. -/
inductive Request (ρ : Type) : Type → Type
  | readBlocklist : Request ρ (Blocklist ρ)
  | readLogQueries : Request ρ Bool
  | logQuery (source domain qtype action rule : String) : Request ρ Unit
  | udpQuery (query : List UInt8) : Request ρ (Except IoError (List UInt8))
  | tcpQuery (query : List UInt8) : Request ρ (Except IoError (List UInt8))
  | sendTo (datagram : List UInt8) : Request ρ (Except IoError Unit)
  | writeAll (octets : List UInt8) : Request ρ (Except IoError Unit)
  | flush : Request ρ (Except IoError Unit)

abbrev Handler (ρ α : Type) := Program (Request ρ) IoError α

/-- What `tcp_query_on` awaits of the upstream's stream. -/
inductive StreamRequest : Type → Type
  | writeAll (octets : List UInt8) : StreamRequest (Except IoError Unit)
  | flush : StreamRequest (Except IoError Unit)
  | readExact (n : Nat) : StreamRequest (Except IoError (List UInt8))

/-! ## Messages the forwarder builds -/

def ednsBufferSize : UInt16 := 1232

def qtypeStr (qtype : UInt16) : String :=
  match qtype with
  | 1 => "A"
  | 2 => "NS"
  | 5 => "CNAME"
  | 6 => "SOA"
  | 12 => "PTR"
  | 15 => "MX"
  | 16 => "TXT"
  | 28 => "AAAA"
  | 33 => "SRV"
  | 41 => "OPT"
  | 43 => "DS"
  | 46 => "RRSIG"
  | 47 => "NSEC"
  | 48 => "DNSKEY"
  | 50 => "NSEC3"
  | 52 => "TLSA"
  | 255 => "ANY"
  | _ => "OTHER"

/-- The NXDOMAIN answer to `msg`: its questions behind a header that counts one. -/
def nxdomain (msg : DnsMessage) : DnsMessage :=
  { msg with
    header := { msg.header with flags := 0x8183, qdcount := 1, ancount := 0, nscount := 0 }
    answers := []
    authorities := []
    additionals := [] }

def buildNxdomain (msg : DnsMessage) : Except IoError (List UInt8) := (nxdomain msg).serialize

def tcBitSet (msg : List UInt8) : Bool :=
  if msg.length < 4 then false else be16 msg 2 &&& 0x0200 != 0

/-- The response cut down to its questions and OPT records, with TC set. -/
def truncated (msg : DnsMessage) : DnsMessage :=
  { msg with
    header := { msg.header with flags := msg.header.flags ||| 0x0200, ancount := 0, nscount := 0 }
    answers := []
    authorities := []
    additionals := msg.additionals.filter (·.rtype = optType) }

def truncateResponse (resp : List UInt8) : Except IoError (List UInt8) := do
  (truncated (← DnsMessage.parse resp)).serialize

/-- The size of the client's first OPT record, if it is usable, else that of RFC 1035. -/
def clientUdpSize (msg : DnsMessage) : Nat :=
  match msg.additionals.find? (·.rtype = optType) with
  | none => 512
  | some opt => if 0 < opt.rclass.toNat ∧ opt.rclass.toNat ≤ 4096 then opt.rclass.toNat else 512

/-- The client's message with the DO bit and the forwarder's own buffer size. -/
def toSend (msg : DnsMessage) : DnsMessage :=
  { msg with ednsDo := true }.addOptRecord ednsBufferSize

def packetToSend (msg : DnsMessage) : Except IoError (List UInt8) := (toSend msg).serialize

/-! ## Frames -/

/-- A message behind its length as two octets; the cast to `u16` truncates. -/
def writeFramed {E : Type → Type} (writeAll : List UInt8 → E (Except IoError Unit))
    (flush : E (Except IoError Unit)) (msg : List UInt8) : Program E IoError Unit := do
  attempt (writeAll (beBytes16 (UInt16.ofNat msg.length)))
  attempt (writeAll msg)
  attempt flush

def tcpQueryOn (query : List UInt8) : Program StreamRequest IoError (List UInt8) := do
  writeFramed .writeAll .flush query
  let respLen ← attempt (.readExact 2)
  attempt (.readExact (be16 respLen 0).toNat)

variable {ρ : Type}

def writeTcpMessage (msg : List UInt8) : Handler ρ Unit := writeFramed .writeAll .flush msg

/-! ## The handlers -/

def logIfEnabled (client : String) (q : DnsQuestion) (action rule : String) : Handler ρ Unit := do
  if ← call .readLogQueries then
    call (.logQuery client q.name (qtypeStr q.qtype) action rule)

section

variable [UnicodeCase] [RegexEngine ρ]

/-- The walk over the answer section: the first CNAME target that is blocked, and the
rule.  The lock is taken anew for every target. -/
def blockedTarget : List DnsResourceRecord → Handler ρ (Option (String × String))
  | [] => pure none
  | rr :: rest =>
      if rr.rtype = 5 then
        match rr.cnameTarget with
        | none => blockedTarget rest
        | some target => do
            match (← call .readBlocklist).check target with
            | .blocked rule => pure (some (target, rule))
            | _ => blockedTarget rest
      else blockedTarget rest

/-- Is the response to be replaced by NXDOMAIN?  A response that does not parse is not. -/
def cloakingCheck (client : String) (msg : DnsMessage) (resp : List UInt8) : Handler ρ Bool :=
  match msg.questions.head? with
  | none => pure false
  | some q =>
      match DnsMessage.parse resp with
      | .error _ => pure false
      | .ok respMsg => do
          match ← blockedTarget respMsg.answers with
          | none => pure false
          | some (target, rule) => do
              logIfEnabled client q "blocked" ("cname:" ++ target ++ " " ++ rule)
              pure true

/-- The record of a query that was relayed. -/
def logForwarded (client : String) (msg : DnsMessage) : Handler ρ Unit := do
  if ← call .readLogQueries then
    match msg.questions.head? with
    | none => pure ()
    | some q => call (.logQuery client q.name (qtypeStr q.qtype) "forwarded" "")

/-- The upstream's response over UDP, or over TCP when that one is cut short. -/
def exchangeUdp (packet : List UInt8) : Handler ρ (List UInt8) := do
  let first ← attempt (.udpQuery packet)
  if tcBitSet first then attempt (.tcpQuery packet) else pure first

/-- What is relayed of a response that passed the check. -/
def relayed (msg : DnsMessage) (resp : List UInt8) : Except IoError (List UInt8) :=
  if resp.length > clientUdpSize msg then truncateResponse resp else .ok resp

/-- `handle_udp_query` behind the exchange with the upstream. -/
def deliverUdp (client : String) (msg : DnsMessage) (resp : List UInt8) : Handler ρ Unit := do
  if ← cloakingCheck client msg resp then
    let nx ← ofExcept (buildNxdomain msg)
    attempt (.sendTo nx)
  else
    let reply ← ofExcept (relayed msg resp)
    attempt (.sendTo reply)
    logForwarded client msg

/-- `handle_udp_query` behind the check of the question. -/
def forwardUdp (client : String) (msg : DnsMessage) : Handler ρ Unit := do
  let packet ← ofExcept (packetToSend msg)
  let resp ← exchangeUdp packet
  deliverUdp client msg resp

def handleUdpQuery (client : String) (packet : List UInt8) : Handler ρ Unit := do
  let msg ← ofExcept (DnsMessage.parse packet)
  match msg.questions.head? with
  | none => forwardUdp client msg
  | some q =>
      match (← call .readBlocklist).check q.name with
      | .blocked rule =>
          logIfEnabled client q "blocked" rule
          let response ← ofExcept (buildNxdomain msg)
          attempt (.sendTo response)
      | .allowed rule =>
          logIfEnabled client q "allowed" rule
          forwardUdp client msg
      | .forwarded => forwardUdp client msg

/-- One round of `handle_tcp_query` behind the exchange with the upstream. -/
def deliverTcp (client : String) (msg : DnsMessage) (resp : List UInt8) : Handler ρ Unit := do
  if ← cloakingCheck client msg resp then
    let nx ← ofExcept (buildNxdomain msg)
    writeTcpMessage nx
  else
    writeTcpMessage resp
    logForwarded client msg

/-- One round of `handle_tcp_query` behind the check of the question. -/
def forwardTcp (client : String) (msg : DnsMessage) : Handler ρ Unit := do
  let packet ← ofExcept (packetToSend msg)
  let resp ← attempt (.tcpQuery packet)
  deliverTcp client msg resp

/-- One round of `handle_tcp_query`, from the packet that was read. -/
def serveTcpMessage (client : String) (packet : List UInt8) : Handler ρ Unit := do
  let msg ← ofExcept (DnsMessage.parse packet)
  match msg.questions.head? with
  | none => forwardTcp client msg
  | some q =>
      match (← call .readBlocklist).check q.name with
      | .blocked rule =>
          let response ← ofExcept (buildNxdomain msg)
          writeTcpMessage response
          logIfEnabled client q "blocked" rule
      | .allowed rule =>
          logIfEnabled client q "allowed" rule
          forwardTcp client msg
      | .forwarded => forwardTcp client msg

end

end DnsLigase.Upstream
