/-
# Cache.Order — the downloads of a build in whatever order they complete

`download_jobs` collects its tasks as they complete, so the order of the results, and with it
the order of the turns of `merge_downloads`, is up to the network.  Each turn comes to what its
own result makes of its own entry and its own file (`entryOf`, `fileOf`, `bodyOf`), as long as
no two results have a URL or a file in common, and so every order comes to the same
(`merge_order`).
-/
import DnsLigase.Cache.Paths

namespace DnsLigase.Cache

open DnsLigase.Theory.Io DnsLigase.Theory.Utf8

set_option autoImplicit false

/-! ## One result -/

/-- The entry that a result leaves for its URL. -/
def entryOf (now : Nat) (c : CachedLists) (a : Attempt) : Option CachedList :=
  match a.result, a.fault with
  | .fresh _ etag, none => some ⟨now, etag, urlToFilename a.url⟩
  | .notModified, _ => c.map[a.url]?.map fun entry => { entry with fetchedAt := now }
  | _, _ => c.map[a.url]?

/-- What it leaves of its body file. -/
def fileOf (dir : Directory) (a : Attempt) : Option (List UInt8) :=
  match a.result with
  | .fresh body _ => (writeBody dir (urlToFilename a.url) body a.fault).2 (urlToFilename a.url)
  | _ => dir (urlToFilename a.url)

/-- The body that it gives. -/
def bodyOf (dir : Directory) (a : Attempt) : Option String :=
  match a.result with
  | .fresh body _ => if a.fault.isNone then some body else none
  | .notModified => readBodyFile dir (urlToFilename a.url)
  | .staleFallback body => some body
  | .failed _ => none

/-- The result sets the flag. -/
def touches (c : CachedLists) (a : Attempt) : Bool :=
  match a.result with
  | .fresh _ _ => a.fault.isNone
  | .notModified => (c.map[a.url]?).isSome
  | _ => false

section Turn

variable {now : Nat} {s : Merging} {a : Attempt}

/-- **What a turn comes to**, where the entry names the file of its URL. -/
theorem mergeOne_own (filed : Filed s.cache a.url) :
    (mergeOne now s a).cache.map[a.url]? = entryOf now s.cache a ∧
    (mergeOne now s a).cache.dirty = (s.cache.dirty || touches s.cache a) ∧
    (mergeOne now s a).dir (urlToFilename a.url) = fileOf s.dir a ∧
    (mergeOne now s a).bodies =
      s.bodies ++ ((bodyOf s.dir a).map fun body => (a.url, body)).toList := by
  cases result : a.result with
  | fresh body etag =>
      cases failed : a.fault with
      | none =>
          rw [mergeOne_fresh result failed]
          simp [entryOf, touches, fileOf, bodyOf, result, failed, writeBody, Directory.write]
      | some fault =>
          rw [mergeOne_fault result failed]
          simp [entryOf, touches, fileOf, bodyOf, result, failed, writeBody, Directory.write]
  | notModified =>
      simp only [mergeOne, result]
      cases found : s.cache.map[a.url]? with
      | none =>
          cases read : readBodyFile s.dir (urlToFilename a.url) <;>
            simp [entryOf, touches, fileOf, bodyOf, result, found, read]
      | some entry =>
          have name := filed entry found
          cases read : readBodyFile s.dir (urlToFilename a.url) <;>
            simp [entryOf, touches, fileOf, bodyOf, result, found, name, read]
  | staleFallback body => simp [mergeOne, entryOf, touches, fileOf, bodyOf, result]
  | failed message => simp [mergeOne, entryOf, touches, fileOf, bodyOf, result]

/-- A turn leaves other entries alone. -/
theorem mergeOne_entry {url : String} (other : a.url ≠ url) :
    (mergeOne now s a).cache.map[url]? = s.cache.map[url]? :=
  mergeOne_other fun own => other own.1

/-- A turn leaves other files alone. -/
theorem mergeOne_file {name : String} (other : urlToFilename a.url ≠ name) :
    (mergeOne now s a).dir name = s.dir name := by
  cases result : a.result with
  | fresh body etag =>
      cases failed : a.fault with
      | none =>
          rw [mergeOne_fresh result failed]
          dsimp only
          rw [Directory.set, if_neg other.symm]
      | some fault =>
          rw [mergeOne_fault result failed]
          dsimp only
          rw [Directory.set, if_neg other.symm]
  | notModified =>
      simp only [mergeOne, result]
      split <;> split <;> rfl
  | staleFallback body => simp only [mergeOne, result]
  | failed message => simp only [mergeOne, result]

end Turn

/-! ## All results -/

/-- No two results have a URL or a body file in common. -/
def Separate (attempts : List Attempt) : Prop :=
  (attempts.map fun a => urlToFilename a.url).Nodup

/-- What the results come to, each for itself. -/
structure MergesTo (now : Nat) (c : CachedLists) (dir : Directory) (attempts : List Attempt)
    (m : Merging) : Prop where
  entries : ∀ a ∈ attempts, m.cache.map[a.url]? = entryOf now c a
  others : ∀ url, url ∉ attempts.map Attempt.url → m.cache.map[url]? = c.map[url]?
  dirty : m.cache.dirty = (c.dirty || attempts.any (touches c))
  files : ∀ a ∈ attempts, m.dir (urlToFilename a.url) = fileOf dir a
  untouched : ∀ name, name ∉ attempts.map (fun a => urlToFilename a.url) → m.dir name = dir name
  bodies : m.bodies = attempts.filterMap fun a => (bodyOf dir a).map fun body => (a.url, body)

section Merge

variable {now : Nat} {c : CachedLists} {dir : Directory} {attempts : List Attempt}

/-- **What a merge comes to**: each result does what it does alone. -/
theorem mergesTo (filed : AllFiled c) (separate : Separate attempts) :
    MergesTo now c dir attempts (mergeDownloads now c dir attempts) := by
  induction attempts using List.reverseRecOn with
  | nil =>
      exact
        { entries := fun a member => absurd member List.not_mem_nil
          others := fun url _ => rfl
          dirty := (Bool.or_false _).symm
          files := fun a member => absurd member List.not_mem_nil
          untouched := fun name _ => rfl
          bodies := rfl }
  | append_singleton attempts a ih =>
      rw [Separate, List.map_append, List.nodup_append] at separate
      obtain ⟨earlier, -, apart⟩ := separate
      have merged := ih earlier
      have otherFile : ∀ b ∈ attempts, urlToFilename a.url ≠ urlToFilename b.url :=
        fun b member => (apart _ (List.mem_map_of_mem member) _ List.mem_cons_self).symm
      have otherUrl : ∀ b ∈ attempts, a.url ≠ b.url :=
        fun b member same => otherFile b member (congrArg urlToFilename same)
      have newUrl : a.url ∉ attempts.map Attempt.url := by
        intro member
        obtain ⟨b, among, same⟩ := List.mem_map.mp member
        exact otherUrl b among same.symm
      have newFile : urlToFilename a.url ∉ attempts.map fun b => urlToFilename b.url := by
        intro member
        obtain ⟨b, among, same⟩ := List.mem_map.mp member
        exact otherFile b among same.symm
      have turn : mergeDownloads now c dir (attempts ++ [a]) =
          mergeOne now (mergeDownloads now c dir attempts) a := List.foldl_append
      obtain ⟨entry, dirty, file, bodies⟩ :=
        @mergeOne_own now _ a ((filed.merge now dir attempts) a.url)
      rw [turn]
      -- what the turn looks at is what was there before the loop
      have entrySame : entryOf now (mergeDownloads now c dir attempts).cache a = entryOf now c a := by
        simp only [entryOf, merged.others a.url newUrl]
      have touchesSame : touches (mergeDownloads now c dir attempts).cache a = touches c a := by
        simp only [touches, merged.others a.url newUrl]
      have there := merged.untouched _ newFile
      have fileSame : fileOf (mergeDownloads now c dir attempts).dir a = fileOf dir a := by
        cases result : a.result <;> cases failed : a.fault <;>
          simp [fileOf, result, failed, there, writeBody, Directory.write]
        rename_i fault
        cases fault <;> simp [BodyFault.asWrite, there]
      have bodySame : bodyOf (mergeDownloads now c dir attempts).dir a = bodyOf dir a := by
        simp only [bodyOf, readBodyFile, Directory.readToString, there]
      refine
        { entries := ?_
          others := ?_
          dirty := ?_
          files := ?_
          untouched := ?_
          bodies := ?_ }
      · intro b member
        rcases List.mem_append.mp member with old | new
        · rw [mergeOne_entry (otherUrl b old), merged.entries b old]
        · obtain rfl := List.mem_singleton.mp new
          rw [entry, entrySame]
      · intro url absent
        rw [List.map_append, List.mem_append, not_or] at absent
        rw [mergeOne_entry, merged.others url absent.1]
        exact fun same => absent.2 (same ▸ List.mem_singleton_self _)
      · rw [dirty, merged.dirty, touchesSame, Bool.or_assoc, List.any_append, List.any_cons,
          List.any_nil, Bool.or_false]
      · intro b member
        rcases List.mem_append.mp member with old | new
        · rw [mergeOne_file (otherFile b old), merged.files b old]
        · obtain rfl := List.mem_singleton.mp new
          rw [file, fileSame]
      · intro name absent
        rw [List.map_append, List.mem_append, not_or] at absent
        rw [mergeOne_file, merged.untouched name absent.1]
        exact fun same => absent.2 (same ▸ List.mem_singleton_self _)
      · rw [bodies, merged.bodies, bodySame, List.filterMap_append]
        cases body : (bodyOf dir a).map fun body => (a.url, body) <;> simp [body]

theorem separate_perm {attempts' : List Attempt} (separate : Separate attempts)
    (perm : attempts.Perm attempts') : Separate attempts' :=
  (perm.map _).nodup_iff.mp separate

/-- Results of different URLs are separate when the URLs have files of their own. -/
theorem separate_of_nodup (distinct : (attempts.map Attempt.url).Nodup)
    (own : ∀ a ∈ attempts, ∀ b ∈ attempts, urlToFilename a.url = urlToFilename b.url →
      a.url = b.url) : Separate attempts := by
  rw [Separate, List.nodup_map_iff_inj_on (distinct.of_map _)]
  exact fun a here b there same =>
    List.inj_on_of_nodup_map distinct here there (own a here b there same)

/-- **The order of the results does not matter**: every order leaves the same cache and the same
files, and returns the same bodies. -/
theorem merge_order (filed : AllFiled c) (separate : Separate attempts) {attempts' : List Attempt}
    (perm : attempts.Perm attempts') :
    (mergeDownloads now c dir attempts).cache = (mergeDownloads now c dir attempts').cache ∧
    (mergeDownloads now c dir attempts).dir = (mergeDownloads now c dir attempts').dir ∧
    (mergeDownloads now c dir attempts).bodies.Perm
      (mergeDownloads now c dir attempts').bodies := by
  have one : MergesTo now c dir attempts _ := mergesTo filed separate
  have other : MergesTo now c dir attempts' _ := mergesTo filed (separate_perm separate perm)
  refine ⟨?_, ?_, ?_⟩
  · have map : (mergeDownloads now c dir attempts).cache.map =
        (mergeDownloads now c dir attempts').cache.map := by
      refine Std.ExtTreeMap.ext_getElem? fun url => ?_
      by_cases listed : url ∈ attempts.map Attempt.url
      · obtain ⟨a, member, rfl⟩ := List.mem_map.mp listed
        rw [one.entries a member, other.entries a (perm.mem_iff.mp member)]
      · rw [one.others url listed, other.others url fun member =>
          listed ((perm.map _).mem_iff.mpr member)]
    have dirty : (mergeDownloads now c dir attempts).cache.dirty =
        (mergeDownloads now c dir attempts').cache.dirty := by
      rw [one.dirty, other.dirty, perm.any_eq]
    generalize (mergeDownloads now c dir attempts).cache = first at map dirty
    generalize (mergeDownloads now c dir attempts').cache = second at map dirty
    obtain ⟨_, _⟩ := first
    obtain ⟨_, _⟩ := second
    obtain rfl : _ = _ := map
    obtain rfl : _ = _ := dirty
    rfl
  · funext name
    by_cases listed : name ∈ attempts.map fun a => urlToFilename a.url
    · obtain ⟨a, member, rfl⟩ := List.mem_map.mp listed
      rw [one.files a member, other.files a (perm.mem_iff.mp member)]
    · rw [one.untouched name listed, other.untouched name fun member =>
        listed ((perm.map _).mem_iff.mpr member)]
  · rw [one.bodies, other.bodies]
    exact perm.filterMap _

end Merge

end DnsLigase.Cache
