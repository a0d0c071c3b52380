/-
# Cache.Download — `download_one`, and what each HTTP outcome leaves of the copy on disk

A download makes a conditional request, and after a 304 without a body file an
unconditional one.  What a request comes to is the environment's (`Http`): an error, or
a response with a status, an etag, and what reading its body to the end gives.

The comment on `download_one` promises that "any failure falls back to the on-disk copy
when present" (`FallsBack`).  Send errors and bad statuses do; a body that breaks off
does not (`breaksOff_fails`), and a copy that is not UTF-8 is not read at all.
`fallsBack_iff` is the exact condition.

What arrives is taken for a list if the status is 200, but the status of the second request
is not looked at: `freshIsOk_iff`.
-/
import DnsLigase.Cache.Lists

namespace DnsLigase.Cache

open DnsLigase.Theory.Io DnsLigase.Theory.Utf8

set_option autoImplicit false

structure Response where
  status : Nat
  /-- The status as `StatusCode` displays it. -/
  statusText : String
  /-- `resp_etag`. -/
  etag : Option String
  /-- `text().await`. -/
  text : Except String String

/-- The outcome of the `n`-th request for a URL, with the `If-None-Match` header it carries. -/
abbrev Http := Nat → String → Option String → Except String Response

/-- `Fresh`, if the body can be read to its end. -/
def readWhole (resp : Response) : DownloadResult :=
  match resp.text with
  | .ok body => .fresh body resp.etag
  | .error e => .failed s!"read body: {e}"

/-- `read_cached().map(StaleFallback).unwrap_or_else(|| Failed(message))`. -/
def orStale (cached : Option String) (message : String) : DownloadResult :=
  match cached with
  | some body => .staleFallback body
  | none => .failed message

def downloadOne (http : Http) (dir : Directory) (url : String) (etag : Option String) :
    DownloadResult :=
  let cached := readBodyFile dir (urlToFilename url)
  match http 0 url etag with
  | .error e => orStale cached s!"request failed: {e}"
  | .ok resp =>
      if resp.status = 304 then
        if cached.isSome then .notModified
        else
          match http 1 url none with
          | .ok r => readWhole r
          | .error e => .failed s!"refetch failed: {e}"
      else if resp.status = 200 then readWhole resp
      else orStale cached s!"HTTP {resp.statusText}"

section Fallback

variable (http : Http) (dir : Directory) (url : String) (etag : Option String)

/-- The outcomes a URL with a body file may have: a complete body of some response, the
file itself, or the word that it is current. -/
def Usable : DownloadResult → Prop
  | .fresh body _ => ∃ n condition resp, http n url condition = .ok resp ∧ resp.text = .ok body
  | .notModified => True
  | .staleFallback body => readBodyFile dir (urlToFilename url) = some body
  | .failed _ => False

/-- Any failure falls back to the copy on disk. -/
def FallsBack : Prop :=
  (dir (urlToFilename url)).isSome → Usable http dir url (downloadOne http dir url etag)

/-- The list arrives, but not to its end. -/
def BreaksOff : Prop :=
  ∃ resp e, http 0 url etag = .ok resp ∧ resp.status = 200 ∧ resp.text = .error e

/-- A complete body arrives, at once or after a 304. -/
def Delivers : Prop :=
  ∃ resp body, http 0 url etag = .ok resp ∧
    (resp.status = 200 ∧ resp.text = .ok body ∨
      resp.status = 304 ∧ ∃ r, http 1 url none = .ok r ∧ r.text = .ok body)

variable {http dir url etag}

theorem usable_readWhole {n : Nat} {condition : Option String} {resp : Response}
    (response : http n url condition = .ok resp) :
    Usable http dir url (readWhole resp) ↔ ∃ body, resp.text = .ok body := by
  unfold readWhole
  cases text : resp.text with
  | ok body => exact iff_of_true ⟨n, condition, resp, response, text⟩ ⟨body, rfl⟩
  | error e => simp [Usable]

theorem usable_orStale {message : String} :
    Usable http dir url (orStale (readBodyFile dir (urlToFilename url)) message) ↔
      (readBodyFile dir (urlToFilename url)).isSome := by
  cases cached : readBodyFile dir (urlToFilename url) with
  | none => simp [orStale, Usable]
  | some body => simp [orStale, Usable, cached]

/-- A body that breaks off is a failure, whatever is on disk. -/
theorem breaksOff_fails (breaks : BreaksOff http url etag) :
    ∃ message, downloadOne http dir url etag = .failed message := by
  obtain ⟨resp, e, response, status, text⟩ := breaks
  exact ⟨s!"read body: {e}", by simp [downloadOne, response, status, readWhole, text]⟩

/-- **When a download has a usable outcome**: a complete body arrives, or the copy on disk
can be read and the list did not break off. -/
theorem usable_iff :
    Usable http dir url (downloadOne http dir url etag) ↔
      Delivers http url etag ∨
        (readBodyFile dir (urlToFilename url)).isSome ∧ ¬ BreaksOff http url etag := by
  unfold downloadOne
  cases first : http 0 url etag with
  | error e => simp [usable_orStale, Delivers, BreaksOff, first]
  | ok resp =>
      dsimp only
      by_cases unchanged : resp.status = 304
      · rw [if_pos unchanged]
        cases cached : readBodyFile dir (urlToFilename url) with
        | some body => simp [Usable, BreaksOff, first, unchanged]
        | none =>
            rw [if_neg (by simp)]
            cases second : http 1 url none with
            | error e => simp [Usable, Delivers, first, second, unchanged]
            | ok r =>
                dsimp only
                rw [usable_readWhole second]
                simp [Delivers, first, second, unchanged]
      · rw [if_neg unchanged]
        by_cases found : resp.status = 200
        · rw [if_pos found, usable_readWhole first]
          cases text : resp.text with
          | ok body => simp [Delivers, first, found, text]
          | error e => simp [Delivers, BreaksOff, first, found, text]
        · rw [if_neg found, usable_orStale]
          simp [Delivers, BreaksOff, first, unchanged, found]

end Fallback

/-- **A download falls back to the copy on disk exactly when** the copy is readable and the
list does not break off, or a complete body arrives anyway. -/
theorem fallsBack_iff (http : Http) (dir : Directory) (url : String) (etag : Option String) :
    FallsBack http dir url etag ↔
      ((dir (urlToFilename url)).isSome →
        Delivers http url etag ∨
          (readBodyFile dir (urlToFilename url)).isSome ∧ ¬ BreaksOff http url etag) := by
  unfold FallsBack
  rw [usable_iff]

/-- A response whose connection is closed half-way through the body. -/
def closedHalfway : Http := fun _ _ _ =>
  .ok ⟨200, "200 OK", none, .error "error decoding response body"⟩

/-- The last good copy of every list. -/
def goodCopies : Directory := fun _ => some (utf8 "||ads.com^\n")

/-- The list breaks off, and the good copy on disk is not used. -/
theorem closedHalfway_not_fallsBack :
    ¬ FallsBack closedHalfway goodCopies "https://example.com/list.txt" none ∧
      readBodyFile goodCopies (urlToFilename "https://example.com/list.txt") =
        some "||ads.com^\n" := by
  constructor
  · intro fallsBack
    exact fallsBack rfl
  · show fromUtf8 (utf8 "||ads.com^\n") = _
    exact fromUtf8_utf8 _

/-! ## What is taken for a list -/

section Fresh

variable (http : Http) (dir : Directory) (url : String) (etag : Option String)

/-- A new list is the complete body, with the etag, of a response with status 200. -/
def FreshIsOk : Prop :=
  ∀ body newEtag, downloadOne http dir url etag = .fresh body newEtag →
    ∃ resp, (http 0 url etag = .ok resp ∨ http 1 url none = .ok resp) ∧ resp.status = 200 ∧
      resp.text = .ok body ∧ resp.etag = newEtag

/-- After a 304 without a readable copy, the second request gets a complete body whose status
is another one. -/
structure RefetchesOther : Prop where
  unchanged : ∃ resp, http 0 url etag = .ok resp ∧ resp.status = 304
  missing : readBodyFile dir (urlToFilename url) = none
  other : ∃ resp body, http 1 url none = .ok resp ∧ resp.status ≠ 200 ∧ resp.text = .ok body

variable {http dir url etag}

theorem readWhole_eq_fresh {resp : Response} {body : String} {newEtag : Option String} :
    readWhole resp = .fresh body newEtag ↔ resp.text = .ok body ∧ resp.etag = newEtag := by
  unfold readWhole
  cases resp.text <;> simp

theorem orStale_ne_fresh (cached : Option String) (message body : String)
    (newEtag : Option String) : orStale cached message ≠ .fresh body newEtag := by
  cases cached <;> simp [orStale]

/-- The response that a new list comes from: the first one with status 200, or the second one
after a 304 without a readable copy, whatever its status. -/
theorem downloadOne_eq_fresh {body : String} {newEtag : Option String} :
    downloadOne http dir url etag = .fresh body newEtag ↔
      ∃ resp, (http 0 url etag = .ok resp ∧ resp.status = 200 ∨
        (∃ first, http 0 url etag = .ok first ∧ first.status = 304) ∧
          readBodyFile dir (urlToFilename url) = none ∧ http 1 url none = .ok resp) ∧
        resp.text = .ok body ∧ resp.etag = newEtag := by
  unfold downloadOne
  cases first : http 0 url etag with
  | error e => simp [orStale_ne_fresh]
  | ok resp =>
      dsimp only
      by_cases unchanged : resp.status = 304
      · rw [if_pos unchanged]
        cases cached : readBodyFile dir (urlToFilename url) with
        | some copy => simp [unchanged]
        | none =>
            rw [if_neg (by simp)]
            cases second : http 1 url none with
            | error e => simp [unchanged]
            | ok again => simp [unchanged, readWhole_eq_fresh]
      · rw [if_neg unchanged]
        by_cases found : resp.status = 200
        · simp [found, readWhole_eq_fresh]
        · simp [unchanged, found, orStale_ne_fresh]

/-- **A new list comes from a status of 200 exactly when** the second request gets no other
complete body. -/
theorem freshIsOk_iff : FreshIsOk http dir url etag ↔ ¬ RefetchesOther http dir url etag := by
  constructor
  · rintro freshIsOk ⟨⟨first, unchanged, status⟩, missing, second, body, refetched, other, text⟩
    have fresh : downloadOne http dir url etag = .fresh body second.etag :=
      downloadOne_eq_fresh.mpr ⟨second, .inr ⟨⟨first, unchanged, status⟩, missing, refetched⟩,
        text, rfl⟩
    obtain ⟨resp, made, ok, -⟩ := freshIsOk body second.etag fresh
    rcases made with made | made
    · cases unchanged.symm.trans made
      exact absurd (status.symm.trans ok) (by decide)
    · cases refetched.symm.trans made
      exact other ok
  · intro alike body newEtag fresh
    obtain ⟨resp, source, text, sameEtag⟩ := downloadOne_eq_fresh.mp fresh
    rcases source with ⟨made, ok⟩ | ⟨unchanged, missing, refetched⟩
    · exact ⟨resp, .inl made, ok, text, sameEtag⟩
    · refine ⟨resp, .inr refetched, ?_, text, sameEtag⟩
      by_contra other
      exact alike ⟨unchanged, missing, resp, body, refetched, other, text⟩

end Fresh

/-- The list is unchanged, and then the server fails. -/
def failsLater : Http := fun n _ _ =>
  if n = 0 then .ok ⟨304, "304 Not Modified", none, .ok ""⟩
  else .ok ⟨503, "503 Service Unavailable", some "\"e\"", .ok "unavailable.example"⟩

/-- The error page is the new list, and its etag that of the list. -/
theorem failsLater_fresh :
    downloadOne failsLater (fun _ => none) "https://example.com/list.txt" (some "\"s\"") =
      .fresh "unavailable.example" (some "\"e\"") ∧
    ¬ FreshIsOk failsLater (fun _ => none) "https://example.com/list.txt" (some "\"s\"") := by
  have fresh : downloadOne failsLater (fun _ => none) "https://example.com/list.txt"
      (some "\"s\"") = .fresh "unavailable.example" (some "\"e\"") := rfl
  refine ⟨fresh, fun freshIsOk => ?_⟩
  obtain ⟨resp, made, ok, -⟩ := freshIsOk _ _ fresh
  rcases made with made | made
  · cases made
    cases ok
  · cases made
    cases ok

end DnsLigase.Cache
