/-
# Cache.Merge — which results `merge_downloads` loses when a body write fails

A fresh result is to be returned whether or not its body can be stored, and a body that
cannot be stored is to leave the entry and the file of its URL alone (`Keeps`, for one
turn of the loop; `LosesNothing`, for all of them).  The error branch does neither: it
goes on to the next result without pushing the body, and the file was truncated before
the write stopped.  `losesNothing_iff`: nothing is lost exactly when every fresh body
can be written.
-/
import DnsLigase.Cache.Lists

namespace DnsLigase.Cache

open DnsLigase.Theory.Io DnsLigase.Theory.Utf8

set_option autoImplicit false

/-- The turn on `a` returns its body, and if the body cannot be stored, leaves the entry
and the file of the URL as they were. -/
def Keeps (now : Nat) (s : Merging) (a : Attempt) : Prop :=
  ∀ body etag, a.result = .fresh body etag →
    (mergeOne now s a).bodies = s.bodies ++ [(a.url, body)] ∧
    (a.fault.isSome →
      (mergeOne now s a).cache.map[a.url]? = s.cache.map[a.url]? ∧
      (mergeOne now s a).dir (urlToFilename a.url) = s.dir (urlToFilename a.url))

/-- A fresh body is written without a fault. -/
def Persisted (a : Attempt) : Prop := ∀ body etag, a.result = .fresh body etag → a.fault = none

/-- A turn keeps what it must exactly when it can write. -/
theorem keeps_iff {now : Nat} {s : Merging} {a : Attempt} : Keeps now s a ↔ Persisted a := by
  constructor
  · intro keeps body etag result
    cases failed : a.fault with
    | none => rfl
    | some fault =>
        have pushed := (keeps body etag result).1
        rw [mergeOne_fault result failed] at pushed
        have shorter := congrArg List.length pushed
        simp at shorter
  · intro persisted body etag result
    have wrote := persisted body etag result
    rw [mergeOne_fresh result wrote, wrote]
    exact ⟨rfl, nofun⟩

/-! ## The whole loop -/

section Loop

variable (now : Nat) (cache : CachedLists) (dir : Directory)

/-- Every fresh body is among those returned. -/
def ReturnsFresh (attempts : List Attempt) : Prop :=
  ∀ a ∈ attempts, ∀ body etag, a.result = .fresh body etag →
    (a.url, body) ∈ (mergeDownloads now cache dir attempts).bodies

/-- Every turn keeps what it must, and so every fresh body is returned in the end. -/
structure LosesNothing (attempts : List Attempt) : Prop where
  turns : ∀ before a after, attempts = before ++ a :: after →
    Keeps now (mergeDownloads now cache dir before) a
  returned : ReturnsFresh now cache dir attempts

variable {now cache dir}

theorem mergeDownloads_append (before after : List Attempt) :
    mergeDownloads now cache dir (before ++ after) =
      after.foldl (mergeOne now) (mergeDownloads now cache dir before) :=
  List.foldl_append

variable (now) in
/-- What the loop has pushed stays, and what it pushes is of the URLs it passes. -/
theorem foldl_bodies : ∀ (attempts : List Attempt) (s : Merging),
    ∃ more, (attempts.foldl (mergeOne now) s).bodies = s.bodies ++ more ∧
      ∀ p ∈ more, p.1 ∈ attempts.map Attempt.url
  | [], s => ⟨[], (List.append_nil _).symm, nofun⟩
  | a :: rest, s => by
      obtain ⟨cache, dir, pushed, turn, -, own⟩ := mergeOne_cases now s a
      obtain ⟨later, whole, others⟩ := foldl_bodies rest ⟨cache, dir, s.bodies ++ pushed⟩
      refine ⟨pushed ++ later, ?_, fun p member => ?_⟩
      · rw [List.foldl_cons, turn, whole, List.append_assoc]
      · rw [List.map_cons, List.mem_cons]
        rcases List.mem_append.mp member with member | member
        · exact .inl (own p member)
        · exact .inr (others p member)

/-- What a turn has pushed is returned. -/
theorem mem_bodies {before after : List Attempt} {a : Attempt} {p : String × String}
    (member : p ∈ (mergeOne now (mergeDownloads now cache dir before) a).bodies) :
    p ∈ (mergeDownloads now cache dir (before ++ a :: after)).bodies := by
  obtain ⟨more, whole, -⟩ :=
    foldl_bodies now after (mergeOne now (mergeDownloads now cache dir before) a)
  rw [mergeDownloads_append, List.foldl_cons, whole]
  exact List.mem_append_left _ member

theorem returnsFresh_of_persisted {attempts : List Attempt}
    (persisted : ∀ a ∈ attempts, Persisted a) : ReturnsFresh now cache dir attempts := by
  intro a member body etag result
  obtain ⟨before, after, rfl⟩ := List.append_of_mem member
  have keeps : Keeps now (mergeDownloads now cache dir before) a :=
    keeps_iff.mpr (persisted a member)
  apply mem_bodies
  rw [(keeps body etag result).1]
  exact List.mem_append_right _ (List.mem_singleton_self _)

/-- With one result per URL, a fresh body that is not written is not returned. -/
theorem persisted_of_returnsFresh {attempts : List Attempt}
    (distinct : (attempts.map Attempt.url).Nodup) (returns : ReturnsFresh now cache dir attempts) :
    ∀ a ∈ attempts, Persisted a := by
  intro a member body etag result
  cases failed : a.fault with
  | none => rfl
  | some fault =>
      have found := returns a member body etag result
      obtain ⟨before, after, rfl⟩ := List.append_of_mem member
      rw [List.map_append, List.map_cons] at distinct
      obtain ⟨-, restDistinct, apart⟩ := List.nodup_append.mp distinct
      obtain ⟨earlier, start, first⟩ := foldl_bodies now before ⟨cache, dir, []⟩
      obtain ⟨later, whole, others⟩ :=
        foldl_bodies now after (mergeOne now (mergeDownloads now cache dir before) a)
      rw [mergeDownloads_append, List.foldl_cons, whole, mergeOne_fault result failed] at found
      rcases List.mem_append.mp found with found | found
      · rw [mergeDownloads, start, List.nil_append] at found
        exact absurd rfl (apart a.url (first _ found) a.url List.mem_cons_self)
      · exact absurd (others _ found) (List.nodup_cons.mp restDistinct).1

end Loop

/-- **Nothing is lost exactly when every fresh body can be written.**  When no URL has two
results, that is also exactly when every fresh body is returned. -/
theorem losesNothing_iff (now : Nat) (cache : CachedLists) (dir : Directory)
    (attempts : List Attempt) :
    (LosesNothing now cache dir attempts ↔ ∀ a ∈ attempts, Persisted a) ∧
      ((attempts.map Attempt.url).Nodup →
        (ReturnsFresh now cache dir attempts ↔ ∀ a ∈ attempts, Persisted a)) := by
  refine ⟨⟨fun keeps a member => ?_, fun persisted => ⟨?_, returnsFresh_of_persisted persisted⟩⟩,
    fun distinct => ⟨persisted_of_returnsFresh distinct, returnsFresh_of_persisted⟩⟩
  · obtain ⟨before, after, whole⟩ := List.append_of_mem member
    exact keeps_iff.mp (keeps.turns before a after whole)
  · rintro before a after rfl
    exact keeps_iff.mpr (persisted a (List.mem_append_right _ List.mem_cons_self))

/-- The disk is full: the file is opened, which empties it, and nothing can be written. -/
def diskFull : BodyFault := .torn 0 ⟨.other, "No space left on device (os error 28)"⟩

/-- One list, fetched before, whose new body does not fit on the disk. -/
def refetched : Attempt where
  url := "https://example.com/list.txt"
  result := .fresh "||ads.com^\n||bad.net^\n" none
  fault := some diskFull

/-- The last good copy of that list, and its entry. -/
def lastGood : Directory :=
  Directory.set (fun _ => none) (urlToFilename refetched.url) (some (utf8 "||ads.com^\n"))

def lastEntry : CachedLists :=
  ⟨Std.ExtTreeMap.empty.insert refetched.url ⟨1700000000, none, urlToFilename refetched.url⟩, false⟩

/-- The new body is not returned, and of the last good copy nothing is left. -/
theorem diskFull_loses :
    ¬ ReturnsFresh 1700086400 lastEntry lastGood [refetched] ∧
      ¬ LosesNothing 1700086400 lastEntry lastGood [refetched] ∧
      readBodyFile lastGood (urlToFilename refetched.url) = some "||ads.com^\n" ∧
      (mergeDownloads 1700086400 lastEntry lastGood [refetched]).dir
        (urlToFilename refetched.url) = some [] := by
  have merged : mergeDownloads 1700086400 lastEntry lastGood [refetched] =
      ⟨lastEntry, lastGood.set (urlToFilename refetched.url) (some []), []⟩ := by
    show mergeOne 1700086400 ⟨lastEntry, lastGood, []⟩ refetched = _
    rw [mergeOne_fault (a := refetched) rfl rfl]
    rfl
  have missing : ¬ ReturnsFresh 1700086400 lastEntry lastGood [refetched] := by
    intro returns
    have found := returns refetched List.mem_cons_self _ _ rfl
    rw [merged] at found
    exact absurd found List.not_mem_nil
  refine ⟨missing, fun keeps => missing keeps.returned, ?_, ?_⟩
  · simp [readBodyFile, Directory.readToString, lastGood]
  · simp [merged]

end DnsLigase.Cache
