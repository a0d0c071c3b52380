/-
# Cache.Paths — one file for each list, inside `cache.d`

The path of a body file comes from two places: an entry stores its file name, which
`get_if_fresh` and `prune` use, and `download_one` and the 304 branch compute the name
again from the URL.  `run_filed` says that the two agree in every state that a run from
the empty cache reaches, through restarts and saves that break off too.

Whatever the URL, the name is made of one-byte characters before it is cut, so the cut at
byte 100 is never inside one, and what comes out is a plain name of a file in the
directory (`safeFilename`).
-/
import DnsLigase.Cache.Plan

namespace DnsLigase.Cache

open DnsLigase.Theory.Io DnsLigase.Theory.Text DnsLigase.Theory.Transition DnsLigase.Theory.Utf8

set_option autoImplicit false

/-! ## Names -/

/-- The characters that `url_to_filename` leaves as they are. -/
def FilenameChar (c : Char) : Prop := c.isAlphanum ∨ c = '.' ∨ c = '_' ∨ c = '-'

/-- `sanitized`. -/
def sanitized (url : String) : List Char := (stripScheme url.toList).map sanitizeChar

/-- A name that joined to a directory stays in it. -/
structure PlainName (name : String) : Prop where
  nonempty : name ≠ ""
  notHere : name ≠ "."
  notParent : name ≠ ".."
  noSeparator : '/' ∉ name.toList
  noNul : '\x00' ∉ name.toList

/-- What `url_to_filename` makes of a URL. -/
structure SafeFilename (url : String) : Prop where
  /-- `&sanitized[..100]` has a value: it cuts no character in two. -/
  cut : 100 < blen (sanitized url) → (takeBytes 100 (sanitized url)).isSome
  bytes : (utf8 (urlToFilename url)).length ≤ 121
  chars : ∀ c ∈ (urlToFilename url).toList, FilenameChar c
  shape : ∃ readable digits, (urlToFilename url).toList = readable ++ '_' :: digits ++ ".txt".toList ∧
    digits.length = 16 ∧ ∀ d ∈ digits, d ∈ "0123456789abcdef".toList
  plain : PlainName (urlToFilename url)

theorem filenameChar_sanitizeChar (c : Char) : FilenameChar (sanitizeChar c) := by
  unfold sanitizeChar
  split
  · assumption
  · exact .inr (.inr (.inl rfl))

/-- All of these characters are one byte, because `sanitizeChar` keeps them. -/
theorem FilenameChar.single {c : Char} (plain : FilenameChar c) : c.utf8Size = 1 := by
  have kept : sanitizeChar c = c := if_pos plain
  rw [← kept]
  exact sanitizeChar_single c

theorem length_utf8_ofList (cs : List Char) : (utf8 (String.ofList cs)).length = blen cs := by
  simp [utf8_ofList, blen, List.length_flatMap]

theorem hex16_digits (h : UInt64) :
    (hex16 h).length = 16 ∧ ∀ d ∈ hex16 h, d ∈ "0123456789abcdef".toList := by
  have table : ∀ k < 16, Nat.digitChar k ∈ "0123456789abcdef".toList := by decide
  refine ⟨by simp [hex16], fun d member => ?_⟩
  obtain ⟨i, -, rfl⟩ := List.mem_map.mp member
  exact table _ (Nat.mod_lt _ (by decide))

theorem filenameChar_of_digit {d : Char} (digit : d ∈ "0123456789abcdef".toList) :
    FilenameChar d := by
  have table : "0123456789abcdef".toList.all Char.isAlphanum := by decide
  exact .inl (List.all_eq_true.mp table d digit)

theorem toList_urlToFilename (url : String) :
    (urlToFilename url).toList =
      (sanitized url).take 100 ++ '_' :: hex16 (fnv1a (utf8 url)) ++ ".txt".toList := by
  have single : ∀ c ∈ sanitized url, c.utf8Size = 1 := by simp [sanitized, sanitizeChar_single]
  rw [urlToFilename, String.toList_ofList]
  exact congrArg (· ++ '_' :: hex16 (fnv1a (utf8 url)) ++ ".txt".toList) (truncated_eq single)

theorem chars_urlToFilename (url : String) : ∀ c ∈ (urlToFilename url).toList, FilenameChar c := by
  intro c member
  rw [toList_urlToFilename, List.mem_append, List.mem_append, List.mem_cons] at member
  rcases member with (readable | rfl | digit) | extension
  · obtain ⟨d, -, rfl⟩ := List.mem_map.mp (List.mem_of_mem_take readable)
    exact filenameChar_sanitizeChar d
  · exact .inr (.inr (.inl rfl))
  · exact filenameChar_of_digit ((hex16_digits _).2 c digit)
  · have table : ".txt".toList.all fun d => d.isAlphanum ∨ d = '.' := by decide
    have known := of_decide_eq_true (List.all_eq_true.mp table c extension)
    exact known.imp id .inl

/-- **Every URL has a safe file name.** -/
theorem safeFilename (url : String) : SafeFilename url := by
  have single : ∀ c ∈ sanitized url, c.utf8Size = 1 := by simp [sanitized, sanitizeChar_single]
  have chars := chars_urlToFilename url
  have whole := toList_urlToFilename url
  obtain ⟨sixteen, digits⟩ := hex16_digits (fnv1a (utf8 url))
  have length : (urlToFilename url).toList.length = ((sanitized url).take 100).length + 21 := by
    rw [whole]
    simp [sixteen]
  have long : ∀ short : String, short.toList.length < 21 → urlToFilename url ≠ short := by
    rintro short few rfl
    omega
  have absent : ∀ c, ¬ FilenameChar c → c ∉ (urlToFilename url).toList :=
    fun c other member => other (chars c member)
  refine
    { cut := fun long => takeBytes_isSome single long.le
      bytes := ?_
      chars
      shape := ⟨_, _, whole, sixteen, digits⟩
      plain := ⟨long _ (by decide), long _ (by decide), long _ (by decide),
        absent '/' (by simp [FilenameChar]), absent '\x00' (by simp [FilenameChar])⟩ }
  have bytes := length_utf8_ofList (urlToFilename url).toList
  rw [String.ofList_toList, blen_single fun c member => (chars c member).single, length,
    List.length_take] at bytes
  omega

/-! ## Paths -/

/-- `Path::join`: a name that starts at the root replaces the directory. -/
def joinPath (dir name : List Char) : List Char :=
  if ['/'].isPrefixOf name then name
  else if dir = [] ∨ ['/'].isSuffixOf dir then dir ++ name
  else dir ++ '/' :: name

/-- `bodies_dir`, from the parent of the metadata's path, if it has one. -/
def bodiesDir (parent : Option (List Char)) : List Char :=
  joinPath (parent.getD ['.']) "cache.d".toList

/-- The path of a body file. -/
def bodyPath (parent : Option (List Char)) (filename : String) : List Char :=
  joinPath (bodiesDir parent) filename.toList

theorem bodiesDir_suffix (parent : Option (List Char)) :
    "cache.d".toList <:+ bodiesDir parent := by
  have relative : ['/'].isPrefixOf "cache.d".toList = false := by decide
  rw [bodiesDir, joinPath, relative, if_neg Bool.false_ne_true]
  split
  · exact List.suffix_append _ _
  · exact (List.suffix_cons '/' _).trans (List.suffix_append _ _)

/-- **A body file is in `cache.d`.** -/
theorem bodyPath_plain (parent : Option (List Char)) {filename : String}
    (plain : PlainName filename) :
    bodyPath parent filename = bodiesDir parent ++ '/' :: filename.toList := by
  have suffix := bodiesDir_suffix parent
  have relative : ¬ ['/'].isPrefixOf filename.toList := by
    intro absolute
    obtain ⟨rest, whole⟩ := List.isPrefixOf_iff_prefix.mp absolute
    exact plain.noSeparator (whole ▸ List.mem_cons_self)
  have inside : ¬ (bodiesDir parent = [] ∨ ['/'].isSuffixOf (bodiesDir parent)) := by
    rintro (empty | slash)
    · rw [empty] at suffix
      exact absurd suffix.length_le (by decide)
    · have ends := List.suffix_of_suffix_length_le (List.isSuffixOf_iff_suffix.mp slash) suffix
        (by decide)
      exact absurd ends (by decide)
  rw [bodyPath, joinPath, if_neg relative, if_neg inside]

/-! ## Runs with restarts -/

/-- A step of the cache, or a start of the program, which loads the metadata. -/
inductive RunOp where
  | work (op : Op)
  | restart

/-- `serde_json` as the cache relies on it: what is written is read back, and what is left of
it when the write broke off is no metadata. -/
structure Codec.Faithful (codec : Codec) : Prop where
  lawful : codec.Lawful
  cut : ∀ map data n text, codec.toString map = .ok data → n < (utf8 data).length →
    fromUtf8 ((utf8 data).take n) = some text → (codec.fromStr text).toOption = none

section Runs

variable (codec : Codec) (path : String)

/-- The cache starts empty, and no metadata have been saved. -/
def restartSystem : System Store RunOp where
  init s := s.cache = .default ∧ loadOrDefault codec s.disk path = .default
  step s a s' :=
    match a with
    | .work op => s' = s.apply codec path op
    | .restart => s' = { s with cache := loadOrDefault codec s.disk path }

/-- A write of the metadata that fails leaves the file as it was, or with the first part of
the data. -/
def BreaksOffClean (s : Store) : RunOp → Prop
  | .work (.save faults) => ∀ fault, faults.write = some fault →
      ∀ data, codec.toString s.cache.map = .ok data →
        fault.left = s.disk path ∨ ∃ n, fault.left = some ((utf8 data).take n)
  | _ => True

end Runs

/-- Every entry stores the file name of its URL. -/
def AllFiled (c : CachedLists) : Prop := ∀ url, Filed c url

section Steps

variable {codec : Codec} {path : String}

theorem AllFiled.merge {c : CachedLists} (filed : AllFiled c) (now : Nat) (dir : Directory)
    (attempts : List Attempt) : AllFiled (mergeDownloads now c dir attempts).cache := by
  intro url entry found
  have merged : (∃ etag, (mergeDownloads now c dir attempts).cache.map[url]? =
      some ⟨now, etag, urlToFilename url⟩) ∨
        (mergeDownloads now c dir attempts).cache.map[url]? = c.map[url]? :=
    (entry_mergeDownloads (filed url) attempts).imp And.right And.right
  rcases merged with ⟨etag, same⟩ | same
  · rw [same] at found
    cases found
    rfl
  · exact filed url entry (same ▸ found)

theorem AllFiled.prune {c : CachedLists} (filed : AllFiled c) (keepUrls : List String)
    (dir : Directory) (stuck : String → Bool) : AllFiled (c.prune keepUrls dir stuck).1 := by
  intro url entry found
  rw [entry_prune] at found
  split at found
  · exact filed url entry found
  · cases found

theorem AllFiled.of_map {c c' : CachedLists} (filed : AllFiled c) (same : c'.map = c.map) :
    AllFiled c' := by
  intro url entry found
  exact filed url entry (same ▸ found)

theorem allFiled_default : AllFiled .default := by
  intro url entry found
  simp [CachedLists.default] at found

theorem loadOrDefault_congr {disk disk' : Directory} (same : disk' path = disk path) :
    loadOrDefault codec disk' path = loadOrDefault codec disk path := by
  simp [loadOrDefault, loadFromDisk, Directory.readToString, same]

/-- Of the first part of the data nothing is loaded, or all of it is there. -/
theorem loadOrDefault_cut (faithful : codec.Faithful) {map : ListMap} {data : String}
    (encoded : codec.toString map = .ok data) (disk : Directory) (n : Nat) :
    loadOrDefault codec (disk.set path (some ((utf8 data).take n))) path = .default ∨
      (loadOrDefault codec (disk.set path (some ((utf8 data).take n))) path).map = map := by
  by_cases whole : (utf8 data).length ≤ n
  · right
    rw [List.take_of_length_le whole]
    have wrote := loadOrDefault_write faithful.lawful encoded disk path
    rw [Directory.write] at wrote
    rw [wrote]
  left
  cases decoded : fromUtf8 ((utf8 data).take n) with
  | none => simp [loadOrDefault, loadFromDisk, Directory.readToString, decoded]
  | some text =>
      have rejected := faithful.cut map data n text encoded (Nat.not_le.mp whole) decoded
      simp [loadOrDefault, loadFromDisk, Directory.readToString, decoded, rejected]

/-- **What is loaded after a save**: what was before, nothing, or what was saved. -/
theorem loadOrDefault_save (faithful : codec.Faithful) {s : Store} {faults : SaveFaults}
    (clean : BreaksOffClean codec path s (.work (.save faults))) :
    let disk := (s.apply codec path (.save faults)).disk
    loadOrDefault codec disk path = loadOrDefault codec s.disk path ∨
      loadOrDefault codec disk path = .default ∨
      (loadOrDefault codec disk path).map = s.cache.map := by
  cases dirty : s.cache.dirty with
  | false => exact .inl (by rw [apply_save_of_clean dirty])
  | true =>
  cases created : faults.createDir with
  | some e => exact .inl (by simp [Store.apply, CachedLists.saveToDisk, dirty, created])
  | none =>
  cases encoded : codec.toString s.cache.map with
  | error e => exact .inl (by simp [Store.apply, CachedLists.saveToDisk, dirty, created, encoded])
  | ok data =>
  have saved : (s.apply codec path (.save faults)).disk =
      (s.disk.write path data faults.write).2 := by
    simp [Store.apply, CachedLists.saveToDisk, dirty, created, encoded]
  dsimp only
  rw [saved]
  cases failed : faults.write with
  | none => exact .inr (.inr (by rw [loadOrDefault_write faithful.lawful encoded]))
  | some fault =>
      have left : (s.disk.write path data (some fault)).2 = s.disk.set path fault.left := rfl
      rw [left]
      rcases clean fault failed data encoded with same | ⟨n, part⟩
      · exact .inl (loadOrDefault_congr (by rw [Directory.set_same, same]))
      · rw [part]
        exact .inr (loadOrDefault_cut faithful encoded s.disk n)

end Steps

/-- Entries and URLs lead to the same files. -/
structure PathsAgree (s : Store) : Prop where
  filed : AllFiled s.cache
  /-- `get_if_fresh` reads the file that `download_one` would fall back to. -/
  reads : ∀ url intervalSecs now body,
    s.cache.getIfFresh s.bodies url intervalSecs now = some body →
    readBodyFile s.bodies (urlToFilename url) = some body
  /-- `prune` deletes the files of the URLs that it drops. -/
  deletes : ∀ keepUrls filename, s.cache.Dooms keepUrls filename ↔
    ∃ url, (s.cache.map[url]?).isSome ∧ url ∉ keepUrls ∧ urlToFilename url = filename

theorem AllFiled.pathsAgree {s : Store} (filed : AllFiled s.cache) : PathsAgree s where
  filed := filed
  reads url intervalSecs now body fresh := by
    unfold CachedLists.getIfFresh at fresh
    split at fresh
    · cases fresh
    · rename_i entry found
      rw [filed url entry found] at fresh
      exact (Option.ite_none_right_eq_some.mp fresh).2
  deletes keepUrls filename := by
    constructor
    · rintro ⟨url, entry, found, gone, rfl⟩
      exact ⟨url, by rw [found]; rfl, gone, (filed url entry found).symm⟩
    · rintro ⟨url, present, gone, rfl⟩
      obtain ⟨entry, found⟩ := Option.isSome_iff_exists.mp present
      exact ⟨url, entry, found, gone, filed url entry found⟩

/-- The entries in memory store the file names of their URLs, and so do those that a restart
would load. -/
structure KeepsFiled (codec : Codec) (path : String) (s : Store) : Prop where
  cache : AllFiled s.cache
  saved : AllFiled (loadOrDefault codec s.disk path)

section Runs

variable {codec : Codec} {path : String} {s s' : Store}

theorem keepsFiled_init (initial : (restartSystem codec path).init s) : KeepsFiled codec path s := by
  obtain ⟨empty, unsaved⟩ := initial
  constructor
  · rw [empty]
    exact allFiled_default
  · rw [unsaved]
    exact allFiled_default

theorem keepsFiled_step (faithful : codec.Faithful) (filed : KeepsFiled codec path s) {a : RunOp}
    (clean : BreaksOffClean codec path s a) (stepped : (restartSystem codec path).step s a s') :
    KeepsFiled codec path s' := by
  cases a with
  | restart =>
      cases stepped
      exact ⟨filed.saved, filed.saved⟩
  | work op =>
      cases stepped
      cases op with
      | merge now attempts => exact ⟨filed.cache.merge now s.bodies attempts, filed.saved⟩
      | prune keepUrls stuck => exact ⟨filed.cache.prune keepUrls s.bodies stuck, filed.saved⟩
      | save faults =>
          refine ⟨filed.cache.of_map (saveToDisk_map s.cache s.disk faults), ?_⟩
          rcases loadOrDefault_save faithful clean with same | none_ | map
          · rw [same]
            exact filed.saved
          · rw [none_]
            exact allFiled_default
          · exact filed.cache.of_map map

/-- **One file for each list, inside `cache.d`**: in every state that a run from the empty
cache reaches, the entries and the URLs lead to the same files; and whatever the URL, its
file has a safe name and is in the directory. -/
theorem run_filed (faithful : codec.Faithful)
    (run : Run (restartSystem codec path) (BreaksOffClean codec path) s) :
    PathsAgree s ∧ ∀ url, SafeFilename url ∧
      ∀ parent, bodyPath parent (urlToFilename url) =
        bodiesDir parent ++ '/' :: (urlToFilename url).toList := by
  have filed : KeepsFiled codec path s :=
    Run.invariant (fun _ initial => keepsFiled_init initial)
      (fun _ _ _ filed clean stepped => keepsFiled_step faithful filed clean stepped) run
  refine ⟨filed.cache.pathsAgree, fun url => ⟨safeFilename url, fun parent => ?_⟩⟩
  exact bodyPath_plain parent (safeFilename url).plain

end Runs

/-! ## A restart after a save -/

theorem exampleCodec_faithful : exampleCodec.Faithful where
  lawful := exampleCodec_lawful
  cut map data n text encoded short decoded := by
    have first : utf8 text = (utf8 data).take n := fromUtf8_eq_some.mp decoded
    have shorter : (utf8 text).length < (utf8 data).length := by
      rw [first, List.length_take]
      omega
    have begins : utf8 text <+: utf8 data := first ▸ List.take_prefix n _
    have known : data = emptyJson ∨ data = fetchedJson := by
      simp only [exampleCodec] at encoded
      split at encoded
      · exact .inl (Except.ok.inj encoded).symm
      · split at encoded
        · exact .inr (Except.ok.inj encoded).symm
        · cases encoded
    have notEmpty : text ≠ emptyJson := by
      rintro rfl
      rcases known with rfl | rfl
      · exact absurd shorter (Nat.lt_irrefl _)
      · exact absurd begins (by decide +kernel)
    have notFetched : text ≠ fetchedJson := by
      rintro rfl
      rcases known with rfl | rfl
      · exact absurd shorter (by decide +kernel)
      · exact absurd shorter (Nat.lt_irrefl _)
    simp [exampleCodec, notEmpty, notFetched, Except.toOption]

/-- The program is started again after the save. -/
def restarted : Store :=
  { saved with cache := loadOrDefault exampleCodec saved.disk "cache.json" }

theorem run_filed_restarted :
    restarted.cache.map[fetched.url]? =
      some ⟨1700000000, none, "example.com_list.txt_2141ad301fe5de0a.txt"⟩ ∧
    PathsAgree restarted := by
  have disk : saved.disk =
      (Directory.write (fun _ => none) "cache.json" fetchedJson none).2 := by
    have unsaved : merged.disk = fun _ => none := rfl
    simp [saved, Store.apply, CachedLists.saveToDisk, merged_cache, fetchedMap_encoded, unsaved]
  have loaded : restarted.cache = ⟨fetchedMap, false⟩ := by
    simp only [restarted, disk]
    exact loadOrDefault_write exampleCodec_lawful fetchedMap_encoded _ _
  constructor
  · have filename : urlToFilename fetched.url = "example.com_list.txt_2141ad301fe5de0a.txt" := by
      decide +kernel
    rw [loaded]
    simp [fetchedMap, filename]
  · let steps := restartSystem exampleCodec "cache.json"
    have start : steps.init started := ⟨rfl, rfl⟩
    have fetch : steps.step started (.work (.merge 1700000000 [fetched])) merged := rfl
    have save : steps.step merged (.work (.save ⟨none, none⟩)) saved := rfl
    have restart : steps.step saved .restart restarted := rfl
    have whole : BreaksOffClean exampleCodec "cache.json" merged (.work (.save ⟨none, none⟩)) := by
      intro fault failed
      cases failed
    have fetched : Run steps (BreaksOffClean exampleCodec "cache.json") merged :=
      .step (.init start) (show BreaksOffClean _ _ started (.work (.merge _ _)) from trivial) fetch
    have again : Run steps (BreaksOffClean exampleCodec "cache.json") restarted :=
      .step (.step fetched whole save) (show BreaksOffClean _ _ saved .restart from trivial) restart
    exact (run_filed exampleCodec_faithful again).1

end DnsLigase.Cache
