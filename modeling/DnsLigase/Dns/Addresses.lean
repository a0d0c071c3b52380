/-
# Dns.Addresses — the IPv4 addresses of a response

`a_records` takes the addresses of the answer section: the records of type A with four octets of
rdata, in their order, whatever they are owned by.  A cut response that is accepted has the
addresses of the whole one (`DnsMessage.Agrees.aRecords`), and a response that is written and
read back keeps them (`aRecords_reencoded`).
-/
import DnsLigase.Dns.Prefix
import DnsLigase.Dns.RoundTrip

namespace DnsLigase.Dns

set_option autoImplicit false

structure Ipv4Addr where
  octets : UInt8 × UInt8 × UInt8 × UInt8
  deriving DecidableEq, Repr

/-- The rdata of the A record of an address. -/
def Ipv4Addr.rdata : Ipv4Addr → List UInt8
  | ⟨a, b, c, d⟩ => [a, b, c, d]

def DnsMessage.aRecords (m : DnsMessage) : List Ipv4Addr :=
  (m.answers.filter fun rr => rr.rtype = 1 ∧ rr.rdata.length = 4).map fun rr =>
    ⟨rr.rdata.getD 0 0, rr.rdata.getD 1 0, rr.rdata.getD 2 0, rr.rdata.getD 3 0⟩

/-- The addresses are the rdata of the A records that have room for one. -/
theorem mem_aRecords {m : DnsMessage} {ip : Ipv4Addr} :
    ip ∈ m.aRecords ↔ ∃ rr ∈ m.answers, rr.rtype = 1 ∧ rr.rdata = ip.rdata := by
  simp only [DnsMessage.aRecords, List.mem_map, List.mem_filter, decide_eq_true_eq]
  constructor
  · rintro ⟨rr, ⟨member, a, four⟩, rfl⟩
    obtain ⟨w, x, y, z, octets⟩ : ∃ w x y z, rr.rdata = [w, x, y, z] := by
      match rr.rdata, four with
      | [w, x, y, z], _ => exact ⟨w, x, y, z, rfl⟩
    exact ⟨rr, member, a, by simp [octets, Ipv4Addr.rdata]⟩
  · rintro ⟨rr, member, a, octets⟩
    obtain ⟨w, x, y, z⟩ := ip
    refine ⟨rr, ⟨member, a, ?_⟩, ?_⟩
    · rw [octets]
      rfl
    · rw [octets]
      rfl

/-- Neither the owners of records nor their targets matter. -/
theorem aRecords_congr {m m' : DnsMessage} (same : List.Forall₂
    (fun rr rr' : DnsResourceRecord => rr'.rtype = rr.rtype ∧ rr'.rdata = rr.rdata)
      m.answers m'.answers) : m'.aRecords = m.aRecords := by
  unfold DnsMessage.aRecords
  generalize m.answers = answers, m'.answers = answers' at same
  induction same with
  | nil => rfl
  | @cons rr rr' rest rest' head _ ih =>
      obtain ⟨rtype, rdata⟩ := head
      rw [List.filter_cons, List.filter_cons, rtype, rdata]
      split
      · rw [List.map_cons, List.map_cons, ih, rdata]
      · exact ih

theorem DnsMessage.Agrees.aRecords {m m' : DnsMessage} (agrees : m.Agrees m') :
    m'.aRecords = m.aRecords := by
  refine aRecords_congr (agrees.answers.imp fun rr rr' head => ?_)
  rw [head.same]
  exact ⟨rfl, rfl⟩

/-- **A response that is written and read back gives the same addresses.** -/
theorem aRecords_reencoded {data : List UInt8} {m : DnsMessage}
    (parsed : DnsMessage.parse data = .ok m) :
    ∃ m', DnsMessage.parse m.wire = .ok m' ∧ m'.aRecords = m.aRecords := by
  obtain ⟨encodable, counted⟩ := parse_encodable parsed
  obtain ⟨m', read, -, -, answers, -⟩ := parse_wire encodable
    (counted ▸ m.header.arcount.toNat_lt) []
  refine ⟨m', by rwa [List.append_nil] at read, aRecords_congr (answers.imp fun rr rr' head => ?_)⟩
  obtain ⟨target, rfl, -⟩ := head
  exact ⟨rfl, rfl⟩

end DnsLigase.Dns
