/-
# Upstream.Cloaking — CNAME targets in the upstream's response

The walk over the CNAME targets only happens when the whole response parses, so a
name anywhere in it that the parser cannot read turns the filter off.  For the
well-formed responses of `Dns.Legal` this module says exactly when a blocked target
is caught (`caught_iff`): when every question name and every owner name is readable,
and so is the target.
-/
import DnsLigase.Dns.Legal
import DnsLigase.Upstream.Runs

namespace DnsLigase.Upstream

open DnsLigase.Theory DnsLigase.Dns
open DnsLigase.Theory.Bytes DnsLigase.Theory.Case DnsLigase.Theory.Cursor DnsLigase.Theory.Io
open DnsLigase.Theory.Program DnsLigase.Theory.Utf8

set_option autoImplicit false

/-! ## NXDOMAIN is told apart from what is relayed -/

theorem be16_wire_flags (msg : DnsMessage) : be16 msg.wire 2 = msg.header.flags :=
  word16_eq msg.header.flags

theorem be16_wire_ancount (msg : DnsMessage) : be16 msg.wire 6 = msg.header.ancount :=
  word16_eq msg.header.ancount

theorem truncated_ne_nxdomain (resp msg : DnsMessage) :
    (truncated resp).wire ≠ (nxdomain msg).wire := by
  intro same
  have flags := congrArg (be16 · 2) same
  simp only [be16_wire_flags, truncated, nxdomain] at flags
  have tc := congrArg (fun v => v.toNat.testBit 9) flags
  simp only [UInt16.toNat_or, Nat.testBit_or] at tc
  have left : (0x0200 : UInt16).toNat.testBit 9 = true := by decide
  have right : (0x8183 : UInt16).toNat.testBit 9 = false := by decide
  rw [left, right, Bool.or_true] at tc
  cases tc

/-- What is relayed of a response with an answer is not NXDOMAIN. -/
theorem relayed_ne_nxdomain {msg : DnsMessage} {resp : List UInt8}
    (answers : (be16 resp 6).toNat ≠ 0) :
    (relayed msg resp).toOption.toList ≠ [(nxdomain msg).wire] := by
  have uncut : resp ≠ (nxdomain msg).wire := by
    rintro rfl
    rw [be16_wire_ancount] at answers
    exact answers rfl
  unfold relayed
  split
  · unfold truncateResponse
    cases DnsMessage.parse resp with
    | error e => exact (List.cons_ne_nil _ _).symm
    | ok respMsg =>
        intro same
        have wire : (truncated respMsg).serialize.toOption.toList = [(nxdomain msg).wire] := same
        rw [DnsMessage.serialize_eq] at wire
        exact truncated_ne_nxdomain respMsg msg (List.singleton_inj.mp wire)
  · intro same
    exact uncut (List.singleton_inj.mp same)

/-- Only CNAME records have targets. -/
theorem rtype_of_target {r : LegalMessage} {rec : WireRecord} {w : WireName}
    (member : rec ∈ r.answers) (target : rec.target = some w) : rec.rtype = 5 := by
  obtain ⟨p₁, p₂, p₃, -, answers, -⟩ := r.sections
  obtain ⟨p, p', ⟨q, -, -, -, rdata⟩, -⟩ := answers.item member
  rw [target] at rdata
  exact rdata.1

/-! ## When the handlers see a blocked target -/

section Handlers

variable {ρ : Type} [UnicodeCase] [RegexEngine ρ]

/-- The answer section holds a CNAME record whose target is a UTF-8 name that `bl` blocks. -/
def Cloaks (bl : Blocklist ρ) (r : LegalMessage) : Prop :=
  ∃ rec ∈ r.answers, ∃ w, rec.target = some w ∧ ∃ t, w.Spells t ∧ (bl.check t).IsBlocked

/-- The parser reads the response and such a target in it. -/
structure Visible (bl : Blocklist ρ) (r : LegalMessage) : Prop where
  names : r.NamesReadable
  target : ∃ rec ∈ r.answers, ∃ w, rec.target = some w ∧ w.jumps ≤ maxJumps ∧
    ∃ t, w.Spells t ∧ (bl.check t).IsBlocked

theorem cloaked_iff_visible {bl : Blocklist ρ} {msg : DnsMessage} (asks : msg.questions ≠ [])
    (r : LegalMessage) : Cloaked bl msg r.octets ↔ Visible bl r := by
  obtain ⟨reads, only⟩ := r.parse_iff
  constructor
  · rintro ⟨-, m, parsed, rr, member, -, t, target, blocked⟩
    have names := only m parsed
    obtain ⟨m', parsed', keeps⟩ := reads names
    cases parsed.symm.trans parsed'
    obtain ⟨rec, found, -, same⟩ := Reader.exists_left keeps member
    obtain ⟨w, at_, jumps, spells⟩ := (same t).mp target
    exact ⟨names, rec, found, w, at_, jumps, t, spells, blocked⟩
  · rintro ⟨names, rec, found, w, at_, jumps, t, spells, blocked⟩
    obtain ⟨m, parsed, keeps⟩ := reads names
    obtain ⟨rr, member, rtype, same⟩ := Reader.exists_right keeps found
    exact ⟨asks, m, parsed, rr, member, rtype.trans (rtype_of_target found at_), t,
      (same t).mpr ⟨w, at_, jumps, spells⟩, blocked⟩

/-- Over UDP the client is sent NXDOMAIN, whichever way the upstream came to give `resp`. -/
def CaughtUdp (bl : Blocklist ρ) (packet : List UInt8) (msg : DnsMessage) (resp : List UInt8) :
    Prop :=
  ∀ udp tcp, finalResponse udp tcp = resp →
    ∀ (client : String) (events : List (Event (Request ρ))) (out : Except IoError Unit),
      Runs (handleUdpQuery client packet) events out → Answered (smooth bl udp tcp) events →
      sent events = [(nxdomain msg).wire]

/-- Over TCP the client is sent NXDOMAIN when the upstream gives `resp`. -/
def CaughtTcp (bl : Blocklist ρ) (packet : List UInt8) (msg : DnsMessage) (resp : List UInt8) :
    Prop :=
  ∀ (udp : List UInt8) (client : String) (events : List (Event (Request ρ)))
    (out : Except IoError Unit),
      Runs (serveTcpMessage client packet) events out → Answered (smooth bl udp resp) events →
      written events = frame (nxdomain msg).wire

section

variable {bl : Blocklist ρ} {packet : List UInt8} {msg : DnsMessage}
  (parsed : DnsMessage.parse packet = .ok msg) (passes : ¬ Screened bl msg)

include parsed passes

theorem caughtUdp_iff {resp : List UInt8} (answers : (be16 resp 6).toNat ≠ 0) :
    CaughtUdp bl packet msg resp ↔ Cloaked bl msg resp := by
  constructor
  · intro caught
    by_contra clean
    have same := finalResponse_self resp
    have runs := exec_runs (smoothly bl resp resp) (handleUdpQuery "" packet)
    have answered := exec_answered (smooth_smoothly bl resp resp) (handleUdpQuery "" packet)
    have nx := caught resp resp same "" _ _ runs answered
    have refuses : ¬ Refused bl msg (finalResponse resp resp) :=
      not_or.mpr ⟨passes, same.symm ▸ clean⟩
    rw [(handleUdpQuery_smooth parsed runs answered).2 refuses, same] at nx
    exact relayed_ne_nxdomain answers nx
  · rintro cloaked udp tcp rfl client events out runs answered
    exact (handleUdpQuery_smooth parsed runs answered).1 (.inr cloaked)

theorem caughtTcp_iff {resp : List UInt8} (answers : (be16 resp 6).toNat ≠ 0) :
    CaughtTcp bl packet msg resp ↔ Cloaked bl msg resp := by
  constructor
  · intro caught
    by_contra clean
    have runs := exec_runs (smoothly bl [] resp) (serveTcpMessage "" packet)
    have answered := exec_answered (smooth_smoothly bl [] resp) (serveTcpMessage "" packet)
    have nx := caught [] "" _ _ runs answered
    rw [(serveTcpMessage_smooth parsed runs answered).2 (not_or.mpr ⟨passes, clean⟩)] at nx
    have same : resp = (nxdomain msg).wire := congrArg (List.drop 2) nx
    rw [same, be16_wire_ancount] at answers
    exact answers rfl
  · intro cloaked udp client events out runs answered
    exact (serveTcpMessage_smooth parsed runs answered).1 (.inr cloaked)

/-- **A blocked CNAME target in a well-formed response is caught, over UDP and over TCP,
exactly when it is visible.** -/
theorem caught_iff (asks : msg.questions ≠ []) (r : LegalMessage) (cloaks : Cloaks bl r) :
    (CaughtUdp bl packet msg r.octets ↔ Visible bl r) ∧
      (CaughtTcp bl packet msg r.octets ↔ Visible bl r) := by
  have answers : (be16 r.octets 6).toNat ≠ 0 := by
    obtain ⟨rec, member, -⟩ := cloaks
    rw [r.ancount]
    exact (List.length_pos_of_mem member).ne'
  rw [← cloaked_iff_visible asks r]
  exact ⟨caughtUdp_iff parsed passes answers, caughtTcp_iff parsed passes answers⟩

end

end Handlers

/-! ## A response with one unreadable owner -/

/-- A query for `site.com`. -/
def siteQuery : List UInt8 :=
  [0x12, 0x34, 1, 0, 0, 1, 0, 0, 0, 0, 0, 0] ++
    [4, 115, 105, 116, 101, 3, 99, 111, 109, 0] ++ [0, 1, 0, 1]

def siteMessage : DnsMessage where
  header := { id := 0x1234, flags := 0x0100, qdcount := 1, ancount := 0, nscount := 0, arcount := 0 }
  questions := [{ name := "site.com", qtype := 1, qclass := 1 }]
  answers := []
  authorities := []
  additionals := []
  ednsDo := false

/-- `site.com` is an alias of `ads.net`; one authority record has the owner label `[x]`. -/
def aliasOctets (x : UInt8) : List UInt8 :=
  [0x12, 0x34, 0x81, 0x80, 0, 1, 0, 1, 0, 1, 0, 0] ++
    [4, 115, 105, 116, 101, 3, 99, 111, 109, 0] ++ [0, 1, 0, 1] ++
    [0xC0, 12, 0, 5, 0, 1, 0, 0, 1, 44, 0, 9] ++ [3, 97, 100, 115, 3, 110, 101, 116, 0] ++
    [1, x, 0, 0, 16, 0, 1, 0, 0, 0, 0, 0, 0]

def siteName : WireName := ⟨[[115, 105, 116, 101], [99, 111, 109]], 0⟩

def adsName : WireName := ⟨[[97, 100, 115], [110, 101, 116]], 0⟩

theorem siteName_at (x : UInt8) : LegalName (aliasOctets x) 12 siteName 22 where
  labels := .label (n := 4) rfl (by decide) (by decide) (by simp [aliasOctets])
    (.label (n := 3) rfl (by decide) (by decide) (by simp [aliasOctets]) (.root rfl))
  octets := by decide

def aliasResponse (x : UInt8) : LegalMessage where
  octets := aliasOctets x
  questions := [siteName]
  answers := [⟨{ siteName with jumps := 1 }, 5, some adsName⟩]
  authorities := [⟨⟨[[x]], 0⟩, 16, none⟩]
  additionals := []
  header := by simp [aliasOctets]
  qdcount := by simp [be16, aliasOctets]
  ancount := by simp [be16, aliasOctets]
  nscount := by simp [be16, aliasOctets]
  arcount := by simp [be16, aliasOctets]
  sections := by
    have question : QuestionAt (aliasOctets x) 12 siteName 26 :=
      ⟨22, siteName_at x, rfl, by simp [aliasOctets]⟩
    have answer : RecordAt (aliasOctets x) 26 ⟨{ siteName with jumps := 1 }, 5, some adsName⟩ 47 :=
      { fields := by
          refine ⟨28, ⟨.pointer rfl (by decide) rfl (by decide)
            (siteName_at x).labels, by decide⟩, by simp [be16, aliasOctets],
            by simp [be16, aliasOctets], rfl, ?_, by decide⟩
          exact .label (n := 3) rfl (by decide) (by decide) (by simp [aliasOctets])
            (.label (n := 3) rfl (by decide) (by decide) (by simp [aliasOctets]) (.root rfl))
        inside := by simp [aliasOctets] }
    have authority : RecordAt (aliasOctets x) 47 ⟨⟨[[x]], 0⟩, 16, none⟩ 60 :=
      { fields := by
          refine ⟨50, ⟨.label (n := 1) rfl (by decide) (by decide) (by simp [aliasOctets])
            (.root rfl), by simp [WireName.octets]⟩, by simp [be16, aliasOctets],
            by simp [be16, aliasOctets], ?_⟩
          show (16 : UInt16) ≠ 5
          decide
        inside := by simp [aliasOctets] }
    exact ⟨26, 47, 60, .cons question .nil, .cons answer .nil, .cons authority .nil, .nil⟩

attribute [local instance] smallCase

/-- The list that blocks `ads.net`. -/
def adsList : Blocklist Literal := Blocklist.blocking "ads.net"

theorem parse_siteQuery : DnsMessage.parse siteQuery = .ok siteMessage := by decide +kernel

theorem siteMessage_passes : ¬ Screened adsList siteMessage := by
  rintro ⟨q, first, blocked⟩
  cases first
  exact absurd blocked (by decide +kernel)

theorem adsName_blocked : adsName.Spells "ads.net" ∧ (adsList.check "ads.net").IsBlocked :=
  ⟨⟨["ads", "net"], by decide, by decide⟩, by decide +kernel⟩

theorem aliasResponse_cloaks (x : UInt8) : Cloaks adsList (aliasResponse x) :=
  ⟨_, List.mem_singleton.mpr rfl, adsName, rfl, "ads.net", adsName_blocked⟩

theorem siteName_readable {jumps : Nat} (few : jumps ≤ maxJumps) :
    WireName.Readable { siteName with jumps } :=
  ⟨⟨"site.com", ["site", "com"], show siteName.labels = _ by decide, by decide⟩, few⟩

theorem aliasResponse_hidden : ¬ Visible adsList (aliasResponse 0xFF) := by
  intro visible
  have readable :=
    visible.names.owners ⟨⟨[[0xFF]], 0⟩, 16, none⟩ (by simp [LegalMessage.records, aliasResponse])
  exact readable.label List.mem_cons_self (by decide)

/-- With an owner that is not UTF-8 beside it, the alias for a blocked name is relayed. -/
theorem aliasResponse_relayed : Cloaks adsList (aliasResponse 0xFF) ∧
    ¬ CaughtUdp adsList siteQuery siteMessage (aliasResponse 0xFF).octets ∧
    ¬ CaughtTcp adsList siteQuery siteMessage (aliasResponse 0xFF).octets := by
  have answers : (be16 (aliasResponse 0xFF).octets 6).toNat ≠ 0 := by decide
  have asks : siteMessage.questions ≠ [] := List.cons_ne_nil _ _
  rw [caughtUdp_iff parse_siteQuery siteMessage_passes answers,
    caughtTcp_iff parse_siteQuery siteMessage_passes answers, cloaked_iff_visible asks]
  exact ⟨aliasResponse_cloaks 0xFF, aliasResponse_hidden, aliasResponse_hidden⟩

/-- With a readable owner the same alias is caught. -/
theorem caught_iff_aliasResponse :
    CaughtUdp adsList siteQuery siteMessage (aliasResponse 97).octets ∧
      CaughtTcp adsList siteQuery siteMessage (aliasResponse 97).octets := by
  have visible : Visible adsList (aliasResponse 97) :=
    { names :=
        { questions := by
            intro w member
            obtain rfl := List.mem_singleton.mp member
            exact siteName_readable (Nat.zero_le _)
          owners := by
            intro rec member
            rcases List.mem_cons.mp member with rfl | member
            · exact siteName_readable (by decide)
            · obtain rfl := List.mem_singleton.mp member
              exact ⟨⟨"a", ["a"], by decide, by decide⟩, by decide⟩ }
      target := ⟨_, List.mem_singleton.mpr rfl, adsName, rfl, by decide, "ads.net",
        adsName_blocked⟩ }
  have both := caught_iff parse_siteQuery siteMessage_passes (List.cons_ne_nil _ _)
    (aliasResponse 97) (aliasResponse_cloaks 97)
  exact ⟨both.1.mpr visible, both.2.mpr visible⟩

end DnsLigase.Upstream
