/-
# Journal.Entry — the datagram that `log_query` sends to journald

The fields of an entry are framed by line ends, and names of queries may contain any octet, so
`sanitize_field` takes the line ends out of what a client chose.  `logQuery_fields`: journald
reads the eight fields that were meant, whatever the arguments are; a `=` in a value does no
harm, for a key ends at the first one.
-/
import DnsLigase.Theory.Fields
import DnsLigase.Theory.Utf8

namespace DnsLigase.Journal

open DnsLigase.Theory.Fields DnsLigase.Theory.Utf8

set_option autoImplicit false

/-! ## `log_query` -/

def sanitizeField (s : String) : String :=
  if (utf8 s).any fun b => b = 10 || b = 13 then
    String.ofList (s.toList.map fun c => if c = '\n' || c = '\r' then '_' else c)
  else s

/-- The syslog level of an action. -/
def priority (action : String) : Nat :=
  match action with
  | "blocked" => 6
  | "allowed" => 7
  | _ => 6

def message (source domain qtype action rule : String) : String :=
  if rule.isEmpty then s!"query {action} {domain} ({qtype}) from {source}"
  else s!"query {action} {domain} ({qtype}) from {source} [{rule}]"

/-- The datagram of `log_query`. -/
def logQuery (source domain qtype action rule : String) : List UInt8 :=
  let source := sanitizeField source
  let domain := sanitizeField domain
  let qtype := sanitizeField qtype
  let action := sanitizeField action
  let rule := sanitizeField rule
  let priority := priority action
  let message := message source domain qtype action rule
  utf8 (s!"PRIORITY={priority}\n" ++
    "SYSLOG_IDENTIFIER=dns-ligase\n" ++
    s!"MESSAGE={message}\n" ++
    s!"QUERY_SOURCE={source}\n" ++
    s!"QUERY_DOMAIN={domain}\n" ++
    s!"QUERY_QTYPE={qtype}\n" ++
    s!"QUERY_ACTION={action}\n" ++
    s!"QUERY_RULE={rule}\n")

/-! ## What is left of an argument -/

/-- The text with every line end replaced. -/
def underscored (s : String) : String :=
  String.ofList (s.toList.map fun c => if c = '\n' || c = '\r' then '_' else c)

/-- The text has no line end. -/
def OneLine (s : String) : Prop := '\n' ∉ s.toList

theorem oneLine_underscored (s : String) : OneLine (underscored s) := by
  rw [OneLine, underscored, String.toList_ofList, List.mem_map]
  rintro ⟨c, -, same⟩
  split at same
  · cases same
  · rename_i other
    subst same
    exact other rfl

/-- A text is sanitized whether or not it needs to be. -/
theorem sanitizeField_eq (s : String) : sanitizeField s = underscored s := by
  unfold sanitizeField
  split
  · rfl
  · rename_i clean
    have kept : ∀ c ∈ s.toList, (if c = '\n' || c = '\r' then '_' else c) = c := by
      intro c member
      refine if_neg fun lineEnd => clean (List.any_eq_true.mpr ?_)
      have octets := octet_of_mem member
      rcases Bool.or_eq_true_iff.mp lineEnd with newline | return_
      · obtain rfl := of_decide_eq_true newline
        exact ⟨10, octets 10 (by decide), by decide⟩
      · obtain rfl := of_decide_eq_true return_
        exact ⟨13, octets 13 (by decide), by decide⟩
    rw [underscored, List.map_congr_left kept, List.map_id', String.ofList_toList]

theorem OneLine.append {s t : String} (first : OneLine s) (second : OneLine t) :
    OneLine (s ++ t) := by
  rw [OneLine, String.toList_append, List.mem_append]
  exact not_or.mpr ⟨first, second⟩

theorem OneLine.octets {s : String} (oneLine : OneLine s) : 10 ∉ utf8 s :=
  fun member => oneLine (mem_of_ascii_octet member (by decide) (by decide))

/-- A message is on one line when its parts are. -/
theorem oneLine_message {source domain qtype action rule : String} (inSource : OneLine source)
    (inDomain : OneLine domain) (inQtype : OneLine qtype) (inAction : OneLine action)
    (inRule : OneLine rule) : OneLine (message source domain qtype action rule) := by
  unfold OneLine at *
  unfold message
  split
  · simp [toString, inSource, inDomain, inQtype, inAction]
  · simp [toString, inSource, inDomain, inQtype, inAction, inRule]

theorem oneLine_priority (action : String) : OneLine (toString (priority action)) := by
  unfold OneLine priority
  split <;> decide

/-! ## What journald reads -/

/-- A field as the octets of its key and its value. -/
def octets (field : String × String) : List UInt8 × List UInt8 := (utf8 field.1, utf8 field.2)

/-- journald's native format: a line for each field, the key in front of the first `=`. -/
def nativeFields (datagram : List UInt8) : Option (List (List UInt8 × List UInt8)) :=
  readFields 10 61 datagram

theorem utf8_field (key value : String) :
    utf8 (key ++ "=" ++ value ++ "\n") = line 61 (octets (key, value)) ++ [10] := by
  have equals : utf8 "=" = [61] := by decide
  have newline : utf8 "\n" = [10] := by decide
  simp [utf8_append, equals, newline, line, octets]

/-- The eight fields of an entry. -/
def fields (source domain qtype action rule : String) : List (String × String) :=
  [("PRIORITY", toString (priority action)), ("SYSLOG_IDENTIFIER", "dns-ligase"),
    ("MESSAGE", message source domain qtype action rule), ("QUERY_SOURCE", source),
    ("QUERY_DOMAIN", domain), ("QUERY_QTYPE", qtype), ("QUERY_ACTION", action),
    ("QUERY_RULE", rule)]

theorem keys_clean (source domain qtype action rule : String) :
    ∀ field ∈ fields source domain qtype action rule, 10 ∉ utf8 field.1 ∧ 61 ∉ utf8 field.1 := by
  simp only [fields, List.forall_mem_cons]
  refine ⟨?_, ?_, ?_, ?_, ?_, ?_, ?_, ?_, List.forall_mem_nil _⟩ <;> decide

/-- The datagram is the fields of the sanitized arguments, one behind the other. -/
theorem logQuery_eq (source domain qtype action rule : String) :
    logQuery source domain qtype action rule = written 10 61 ((fields (underscored source)
      (underscored domain) (underscored qtype) (underscored action) (underscored rule)).map
        octets) := by
  simp only [logQuery, sanitizeField_eq, fields, written, List.map_cons, List.map_nil,
    List.flatMap_cons, List.flatMap_nil, List.append_nil, ← utf8_field, ← utf8_append]
  have text : ∀ s : String, toString s = s := fun _ => rfl
  simp only [text, String.reduceAppend]
  simp only [String.append_assoc]

/-- **A query cannot forge journal fields**: whatever the arguments are, the datagram has the
eight fields, with the arguments in them but for their line ends. -/
theorem logQuery_fields (source domain qtype action rule : String) :
    nativeFields (logQuery source domain qtype action rule) =
      some ((fields (underscored source) (underscored domain) (underscored qtype)
        (underscored action) (underscored rule)).map octets) := by
  have values : ∀ field ∈ fields (underscored source) (underscored domain) (underscored qtype)
      (underscored action) (underscored rule), OneLine field.2 := by
    simp only [fields, List.forall_mem_cons]
    have clean := oneLine_underscored
    exact ⟨oneLine_priority _, by unfold OneLine; decide,
      oneLine_message (clean _) (clean _) (clean _) (clean _) (clean _), clean _, clean _, clean _,
      clean _, clean _, List.forall_mem_nil _⟩
  rw [logQuery_eq, nativeFields]
  refine readFields_written (by decide) (List.forall_mem_map.mpr fun field member => ?_)
  exact ⟨keys_clean _ _ _ _ _ field member, (values field member).octets⟩

/-- A name with a line end and a field of its own in it. -/
example : nativeFields (logQuery "10.0.0.2" "evil\nQUERY_ACTION=allowed" "A" "blocked" "") =
    some ((fields "10.0.0.2" "evil_QUERY_ACTION=allowed" "A" "blocked" "").map octets) := by
  decide +kernel

end DnsLigase.Journal
