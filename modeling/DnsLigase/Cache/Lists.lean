/-
# Cache.Lists — `CachedLists` of `blocklist.rs`: metadata in memory, bodies on disk

The metadata is a map from URLs to entries with a `dirty` flag; the bodies are the
files of one directory, which `merge_downloads` writes and `prune` deletes.  The
operating system's part in a call is an argument of it: which body write fails
(`BodyFault`), and which files refuse to be deleted.

`merge_downloads` is a fold of its loop body `mergeOne`, whose state is the cache,
the directory and the vector of bodies to be returned.
-/
import DnsLigase.Theory.Io
import DnsLigase.Theory.Text
import Mathlib.Data.Finset.Basic

namespace DnsLigase.Cache

open DnsLigase.Theory.Io DnsLigase.Theory.Text DnsLigase.Theory.Utf8

set_option autoImplicit false

/-! ## File names -/

def stripScheme (url : List Char) : List Char :=
  ((stripPrefix "https://".toList url).or (stripPrefix "http://".toList url)).getD url

/-- The character of a file name that stands for `c`. -/
def sanitizeChar (c : Char) : Char :=
  if c.isAlphanum ∨ c = '.' ∨ c = '_' ∨ c = '-' then c else '_'

theorem sanitizeChar_single (c : Char) : (sanitizeChar c).utf8Size = 1 := by
  unfold sanitizeChar
  split
  · rename_i plain
    rcases plain with alphanum | rfl | rfl | rfl
    · have bound : c.val ≤ 0x7F := by
        rw [UInt32.le_iff_toNat_le]
        delta Char.isAlphanum Char.isAlpha Char.isUpper Char.isLower Char.isDigit at alphanum
        simp only [Bool.or_eq_true, Bool.and_eq_true, decide_eq_true_eq, ge_iff_le,
          UInt32.le_iff_toNat_le] at alphanum
        simp at alphanum ⊢
        omega
      simp [Char.utf8Size, bound]
    all_goals rfl
  · rfl

/-- `&sanitized[..100]`, which never cuts a character in two: all of them are one byte. -/
def truncated (cs : List Char) (single : ∀ c ∈ cs, c.utf8Size = 1) : List Char :=
  if long : 100 < blen cs then (takeBytes 100 cs).get (takeBytes_isSome single long.le) else cs

theorem truncated_eq {cs : List Char} (single : ∀ c ∈ cs, c.utf8Size = 1) :
    truncated cs single = cs.take 100 := by
  unfold truncated
  split
  · rename_i long
    simp only [takeBytes_single single long.le, Option.get_some]
  · rename_i short
    rw [blen_single single, Nat.not_lt] at short
    exact (List.take_of_length_le short).symm

/-- FNV-1a over 64 bits. -/
def fnv1a (bytes : List UInt8) : UInt64 :=
  bytes.foldl (fun h b => (h ^^^ b.toUInt64) * 0x100000001b3) 0xcbf29ce484222325

/-- `{h:016x}`. -/
def hex16 (h : UInt64) : List Char :=
  (List.range 16).reverse.map fun i => Nat.digitChar (h.toNat / 16 ^ i % 16)

def urlToFilename (url : String) : String :=
  let stripped := stripScheme url.toList
  let sanitized := stripped.map sanitizeChar
  let readable := truncated sanitized (by simp [sanitized, sanitizeChar_single])
  String.ofList (readable ++ '_' :: hex16 (fnv1a (utf8 url)) ++ ".txt".toList)

example : urlToFilename "https://example.com/list.txt" =
    "example.com_list.txt_2141ad301fe5de0a.txt" := by decide +kernel

/-! ## Body files -/

/-- `read_body_file`. -/
def readBodyFile (dir : Directory) (filename : String) : Option String :=
  dir.readToString filename

/-- How `write_body` fails: before it touches the file (the directory cannot be created or
the file not opened), or with the file truncated and `n` bytes of the body written. -/
inductive BodyFault where
  | refused (error : IoError)
  | torn (n : Nat) (error : IoError)

def BodyFault.asWrite (dir : Directory) (filename body : String) : BodyFault → WriteFault
  | .refused error => ⟨dir filename, error⟩
  | .torn n error => ⟨some ((utf8 body).take n), error⟩

def writeBody (dir : Directory) (filename body : String) (fault : Option BodyFault) :
    Except IoError Unit × Directory :=
  dir.write filename body (fault.map (BodyFault.asWrite dir filename body))

/-! ## The cache -/

structure CachedList where
  /-- Unix time in seconds. -/
  fetchedAt : Nat
  etag : Option String
  filename : String
  deriving DecidableEq, Repr

/-- The `HashMap` from URLs to entries. -/
abbrev ListMap := Std.ExtTreeMap String CachedList compare

structure CachedLists where
  map : ListMap
  dirty : Bool

/-- `CachedLists::default`. -/
def CachedLists.default : CachedLists := ⟨∅, false⟩

/-- What came of downloading one URL. -/
inductive DownloadResult where
  | fresh (body : String) (etag : Option String)
  | notModified
  | staleFallback (body : String)
  | failed (message : String)
  deriving DecidableEq, Repr

/-- One turn of the loop of `merge_downloads`: a URL, its result, and what the operating
system does if the turn writes the body file. -/
structure Attempt where
  url : String
  result : DownloadResult
  fault : Option BodyFault

/-- The state of that loop. -/
structure Merging where
  cache : CachedLists
  dir : Directory
  bodies : List (String × String)

/-- The loop body; `now` is the time read before the loop. -/
def mergeOne (now : Nat) (s : Merging) (a : Attempt) : Merging :=
  match a.result with
  | .fresh body etag =>
      let filename := urlToFilename a.url
      match writeBody s.dir filename body a.fault with
      | (.error _, dir) => { s with dir }
      | (.ok (), dir) =>
          { cache := ⟨s.cache.map.insert a.url ⟨now, etag, filename⟩, true⟩
            dir
            bodies := s.bodies ++ [(a.url, body)] }
  | .notModified =>
      match s.cache.map[a.url]? with
      | some entry =>
          let cache := ⟨s.cache.map.insert a.url { entry with fetchedAt := now }, true⟩
          match readBodyFile s.dir entry.filename with
          | some body => { s with cache, bodies := s.bodies ++ [(a.url, body)] }
          | none => { s with cache }
      | none =>
          match readBodyFile s.dir (urlToFilename a.url) with
          | some body => { s with bodies := s.bodies ++ [(a.url, body)] }
          | none => s
  | .staleFallback body => { s with bodies := s.bodies ++ [(a.url, body)] }
  | .failed _ => s

section Turn

variable {now : Nat} {s : Merging} {a : Attempt} {body : String} {etag : Option String}

/-- A fresh body that can be written. -/
theorem mergeOne_fresh (result : a.result = .fresh body etag) (wrote : a.fault = none) :
    mergeOne now s a =
      { cache := ⟨s.cache.map.insert a.url ⟨now, etag, urlToFilename a.url⟩, true⟩
        dir := s.dir.set (urlToFilename a.url) (some (utf8 body))
        bodies := s.bodies ++ [(a.url, body)] } := by
  simp [mergeOne, result, wrote, writeBody, Directory.write]

/-- A fresh body whose write fails: only the file changes. -/
theorem mergeOne_fault {fault : BodyFault} (result : a.result = .fresh body etag)
    (failed : a.fault = some fault) :
    mergeOne now s a =
      { s with
        dir := s.dir.set (urlToFilename a.url)
          (fault.asWrite s.dir (urlToFilename a.url) body).left } := by
  simp [mergeOne, result, failed, writeBody, Directory.write]

/-- **What a turn can do**: it pushes bodies of its own URL, and leaves the cache as it is
or sets the flag. -/
theorem mergeOne_cases (now : Nat) (s : Merging) (a : Attempt) :
    ∃ cache dir more, mergeOne now s a = ⟨cache, dir, s.bodies ++ more⟩ ∧
      (cache = s.cache ∨ cache.dirty = true) ∧ ∀ p ∈ more, p.1 = a.url := by
  have nothing : ∀ cache dir, (⟨cache, dir, s.bodies⟩ : Merging) = ⟨cache, dir, s.bodies ++ []⟩ := by
    simp
  have own : ∀ body : String, ∀ p ∈ [(a.url, body)], p.1 = a.url := by
    intro body p member
    rw [List.mem_singleton.mp member]
  cases result : a.result with
  | fresh body etag =>
      cases failed : a.fault with
      | none =>
          rw [mergeOne_fresh result failed]
          exact ⟨_, _, _, rfl, .inr rfl, own body⟩
      | some fault =>
          rw [mergeOne_fault result failed]
          exact ⟨_, _, [], nothing _ _, .inl rfl, nofun⟩
  | notModified =>
      simp only [mergeOne, result]
      split <;> split
      · exact ⟨_, _, _, rfl, .inr rfl, own _⟩
      · exact ⟨_, _, [], nothing _ _, .inr rfl, nofun⟩
      · exact ⟨_, _, _, rfl, .inl rfl, own _⟩
      · exact ⟨_, _, [], nothing s.cache s.dir, .inl rfl, nofun⟩
  | staleFallback body =>
      simp only [mergeOne, result]
      exact ⟨_, _, _, rfl, .inl rfl, own body⟩
  | failed message =>
      simp only [mergeOne, result]
      exact ⟨_, _, [], nothing s.cache s.dir, .inl rfl, nofun⟩

end Turn

def mergeDownloads (now : Nat) (cache : CachedLists) (dir : Directory)
    (attempts : List Attempt) : Merging :=
  attempts.foldl (mergeOne now) ⟨cache, dir, []⟩

/-- `stuck` are the file names whose deletion fails. -/
def removeBodies (dir : Directory) (stuck : String → Bool) (entries : List CachedList) :
    Directory :=
  entries.foldl (fun dir e => if stuck e.filename then dir else dir.remove e.filename) dir

def CachedLists.prune (c : CachedLists) (keepUrls : List String) (dir : Directory)
    (stuck : String → Bool) : CachedLists × Directory :=
  let kept := c.map.filter fun url _ => keepUrls.contains url
  let gone := c.map.filter fun url _ => !keepUrls.contains url
  (⟨kept, c.dirty || kept.size < c.map.size⟩, removeBodies dir stuck gone.values)

/-- A merge that leaves the flag clear has not changed the cache. -/
theorem mergeDownloads_clean {now : Nat} {cache : CachedLists} {dir : Directory}
    {attempts : List Attempt} (clean : (mergeDownloads now cache dir attempts).cache.dirty = false) :
    (mergeDownloads now cache dir attempts).cache = cache := by
  suffices ∀ (attempts : List Attempt) (s : Merging),
      (attempts.foldl (mergeOne now) s).cache.dirty = false →
      (attempts.foldl (mergeOne now) s).cache = s.cache from this attempts ⟨cache, dir, []⟩ clean
  intro attempts
  induction attempts with
  | nil => exact fun s _ => rfl
  | cons a rest ih =>
      intro s clean
      obtain ⟨cache, dir, more, turn, same | dirty, -⟩ := mergeOne_cases now s a
      · rw [List.foldl_cons, turn] at clean ⊢
        exact (ih _ clean).trans same
      · rw [List.foldl_cons, turn] at clean
        rw [ih _ clean, dirty] at clean
        cases clean

/-- A prune that leaves the flag clear has not changed the metadata. -/
theorem prune_clean {c : CachedLists} {keepUrls : List String} {dir : Directory}
    {stuck : String → Bool} (clean : (c.prune keepUrls dir stuck).1.dirty = false) :
    (c.prune keepUrls dir stuck).1 = c := by
  obtain ⟨map, dirty⟩ := c
  simp only [CachedLists.prune, Bool.or_eq_false_iff, decide_eq_false_iff_not,
    Nat.not_lt] at clean ⊢
  obtain ⟨rfl, whole⟩ := clean
  have size := Nat.le_antisymm Std.ExtTreeMap.size_filter_le_size whole
  have same := Std.ExtTreeMap.filter_eq_self_iff.mpr
    (Std.ExtTreeMap.size_filter_eq_size_iff.mp size)
  rw [same]
  simp

end DnsLigase.Cache
