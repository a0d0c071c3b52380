/-
# Cache.Persist — `save_to_disk`, `load_from_disk`, and when a clear flag means saved

The metadata is written as JSON by a third-party serializer (`Codec`, assumed `Lawful`).
`save_to_disk` clears `dirty` before the three steps that can fail: creating the
directory, serializing, and writing the file.  A save that fails after that leaves the
flag clear over metadata that is nowhere on disk, and every later save, the one on
SIGTERM among them, returns at once.

`Store.Clean` is the meaning the flag should have, and `run_clean` proves it of every
run in which a save that has something to write does not fail (`SavesWhole`).
-/
import DnsLigase.Cache.Lists
import DnsLigase.Theory.Transition

namespace DnsLigase.Cache

open DnsLigase.Theory.Io DnsLigase.Theory.Transition DnsLigase.Theory.Utf8

set_option autoImplicit false

/-! ## Saving and loading -/

/-- `serde_json` at the type of the metadata. -/
structure Codec where
  toString : ListMap → Except String String
  fromStr : String → Except String ListMap

/-- What is serialized is read back. -/
def Codec.Lawful (codec : Codec) : Prop :=
  ∀ map data, codec.toString map = .ok data → codec.fromStr data = .ok map

/-- The operating system's part in a save: `create_dir_all` and the write may each fail. -/
structure SaveFaults where
  createDir : Option IoError
  write : Option WriteFault

def CachedLists.saveToDisk (codec : Codec) (c : CachedLists) (disk : Directory) (path : String)
    (faults : SaveFaults) : Except IoError Unit × CachedLists × Directory :=
  if c.dirty then
    let c := { c with dirty := false }
    match faults.createDir with
    | some e => (.error e, c, disk)
    | none =>
        match codec.toString c.map with
        | .error e => (.error ⟨.invalidData, e⟩, c, disk)
        | .ok data =>
            let (result, disk) := disk.write path data faults.write
            (result, c, disk)
  else (.ok (), c, disk)

/-- The errors of `load_from_disk` are `none`: its callers discard them. -/
def loadFromDisk (codec : Codec) (disk : Directory) (path : String) : Option CachedLists := do
  let data ← disk.readToString path
  let map ← (codec.fromStr data).toOption
  return ⟨map, false⟩

/-- `load_from_disk(..).unwrap_or_default()`. -/
def loadOrDefault (codec : Codec) (disk : Directory) (path : String) : CachedLists :=
  (loadFromDisk codec disk path).getD .default

theorem loadOrDefault_write {codec : Codec} (lawful : codec.Lawful) {map : ListMap} {data : String}
    (encoded : codec.toString map = .ok data) (disk : Directory) (path : String) :
    loadOrDefault codec (disk.write path data none).2 path = ⟨map, false⟩ := by
  simp [loadOrDefault, loadFromDisk, lawful map data encoded, Except.toOption]

/-! ## Runs of the program's cache -/

/-- The cache in memory, the bodies directory, and the directory of the metadata file. -/
structure Store where
  cache : CachedLists
  bodies : Directory
  disk : Directory

inductive Op where
  | merge (now : Nat) (attempts : List Attempt)
  | prune (keepUrls : List String) (stuck : String → Bool)
  | save (faults : SaveFaults)

section Runs

variable (codec : Codec) (path : String)

def Store.apply (s : Store) : Op → Store
  | .merge now attempts =>
      let merged := mergeDownloads now s.cache s.bodies attempts
      { s with cache := merged.cache, bodies := merged.dir }
  | .prune keepUrls stuck =>
      let (cache, bodies) := s.cache.prune keepUrls s.bodies stuck
      { s with cache, bodies }
  | .save faults =>
      let (_, cache, disk) := s.cache.saveToDisk codec s.disk path faults
      { s with cache, disk }

/-- The program starts by loading the metadata, whatever is in the file. -/
def cacheSystem : System Store Op where
  init s := s.cache = loadOrDefault codec s.disk path
  step s op s' := s' = s.apply codec path op

/-- A clean cache is a saved cache. -/
def Store.Clean (s : Store) : Prop :=
  s.cache.dirty = false → (loadOrDefault codec s.disk path).map = s.cache.map

/-- A save with something to write meets no failure on its way. -/
def SavesWhole (s : Store) : Op → Prop
  | .save faults =>
      s.cache.dirty = true → faults.createDir = none ∧ faults.write = none ∧
        ∃ data, codec.toString s.cache.map = .ok data
  | _ => True

variable {codec path}

theorem clean_of_init {s : Store} (initial : (cacheSystem codec path).init s) :
    s.Clean codec path := by
  intro _
  exact congrArg CachedLists.map initial.symm

/-- A step that leaves the disk alone, and the cache too unless it sets the flag. -/
theorem Store.Clean.unchanged {s s' : Store} (holds : s.Clean codec path) (disk : s'.disk = s.disk)
    (cache : s'.cache.dirty = false → s'.cache = s.cache) : s'.Clean codec path := by
  intro clean
  have same := cache clean
  rw [same] at clean ⊢
  rw [disk]
  exact holds clean

/-- With the flag clear a save does nothing. -/
theorem apply_save_of_clean {s : Store} (clean : s.cache.dirty = false) (faults : SaveFaults) :
    s.apply codec path (.save faults) = s := by
  simp [Store.apply, CachedLists.saveToDisk, clean]

theorem save_clean (lawful : codec.Lawful) {s : Store} {faults : SaveFaults}
    (holds : s.Clean codec path) (whole : SavesWhole codec s (.save faults)) :
    (s.apply codec path (.save faults)).Clean codec path := by
  cases dirty : s.cache.dirty with
  | false =>
      rw [apply_save_of_clean dirty]
      exact holds
  | true =>
      obtain ⟨created, written, data, encoded⟩ := whole dirty
      intro _
      have saved : s.apply codec path (.save faults) =
          { s with
            cache := ⟨s.cache.map, false⟩
            disk := (s.disk.write path data none).2 } := by
        simp [Store.apply, CachedLists.saveToDisk, dirty, created, written, encoded]
      rw [saved, loadOrDefault_write lawful encoded]

end Runs

/-- **A clean cache is a saved cache**, in every run whose saves do not fail with
something to write. -/
theorem run_clean {codec : Codec} (lawful : codec.Lawful) {path : String} {s : Store}
    (run : Run (cacheSystem codec path) (SavesWhole codec) s) : s.Clean codec path := by
  apply run.invariant (fun s => clean_of_init)
  rintro s op _ holds allowed rfl
  cases op with
  | merge now attempts => exact holds.unchanged rfl mergeDownloads_clean
  | prune keepUrls stuck => exact holds.unchanged rfl (@prune_clean s.cache keepUrls s.bodies stuck)
  | save faults => exact save_clean lawful holds allowed

/-! ## One list, fetched and saved -/

/-- A first download. -/
def fetched : Attempt where
  url := "https://example.com/list.txt"
  result := .fresh "||ads.com^\n" none
  fault := none

def fetchedMap : ListMap :=
  Std.ExtTreeMap.empty.insert fetched.url ⟨1700000000, none, urlToFilename fetched.url⟩

def emptyJson : String := "\x7b\"map\":\x7b\x7d\x7d"

def fetchedJson : String :=
  "\x7b\"map\":\x7b\"https://example.com/list.txt\":\x7b\"fetched_at\":1700000000,\"etag\":null," ++
    "\"filename\":\"example.com_list.txt_2141ad301fe5de0a.txt\"\x7d\x7d\x7d"

/-- `serde_json`, on the two maps of the example. -/
def exampleCodec : Codec where
  toString map :=
    if map.toList = [] then .ok emptyJson
    else if map.toList = fetchedMap.toList then .ok fetchedJson
    else .error "not in the example"
  fromStr data :=
    if data = emptyJson then .ok ∅
    else if data = fetchedJson then .ok fetchedMap
    else .error "not in the example"

theorem exampleCodec_lawful : exampleCodec.Lawful := by
  intro map data encoded
  simp only [exampleCodec] at encoded ⊢
  split at encoded
  · rename_i none_
    cases encoded
    rw [if_pos rfl, Std.ExtTreeMap.toList_eq_nil_iff.mp none_]
  · split at encoded
    · rename_i same
      cases encoded
      rw [if_neg (by decide), if_pos rfl, Std.ExtTreeMap.ext_toList (List.Perm.of_eq same)]
    · cases encoded

/-- A start without a metadata file. -/
def started : Store := ⟨.default, fun _ => none, fun _ => none⟩

/-- The list was fetched. -/
def merged : Store := started.apply exampleCodec "cache.json" (.merge 1700000000 [fetched])

/-- Then the metadata was saved, or the disk was full. -/
def saved : Store := merged.apply exampleCodec "cache.json" (.save ⟨none, none⟩)

def unsaved : Store :=
  merged.apply exampleCodec "cache.json"
    (.save ⟨none, some ⟨some [], .other, "No space left on device (os error 28)"⟩⟩)

theorem merged_cache : merged.cache = ⟨fetchedMap, true⟩ := by
  show (mergeOne 1700000000 ⟨.default, fun _ => none, []⟩ fetched).cache = _
  rw [mergeOne_fresh (a := fetched) rfl rfl]
  rfl

theorem started_init : (cacheSystem exampleCodec "cache.json").init started := rfl

theorem fetchedMap_ne_empty : fetchedMap ≠ ∅ :=
  Std.ExtTreeMap.insert_ne_empty

theorem fetchedMap_encoded : exampleCodec.toString fetchedMap = .ok fetchedJson := by
  simp [exampleCodec, fetchedMap_ne_empty]

/-- The run that saves. -/
theorem run_clean_saved :
    saved.cache.dirty = false ∧ saved.Clean exampleCodec "cache.json" := by
  refine ⟨by simp [saved, Store.apply, CachedLists.saveToDisk, merged_cache, fetchedMap_encoded], ?_⟩
  apply run_clean exampleCodec_lawful
  refine .step (.step (.init started_init) (a := .merge 1700000000 [fetched]) trivial rfl)
    (a := .save ⟨none, none⟩) (fun _ => ⟨rfl, rfl, fetchedJson, ?_⟩) rfl
  show exampleCodec.toString merged.cache.map = _
  rw [merged_cache]
  exact fetchedMap_encoded

/-- The run that does not: the flag is clear, nothing can be loaded, and no later save
writes anything. -/
theorem unsaved_not_clean :
    exampleCodec.Lawful ∧ Reachable (cacheSystem exampleCodec "cache.json") unsaved ∧
      ¬ unsaved.Clean exampleCodec "cache.json" ∧
      ∀ faults, unsaved.apply exampleCodec "cache.json" (.save faults) = unsaved := by
  have reached : Reachable (cacheSystem exampleCodec "cache.json") unsaved :=
    Reachable.step (Reachable.step (Reachable.init started_init) rfl) rfl
  have clear : unsaved.cache = ⟨fetchedMap, false⟩ := by
    simp [unsaved, Store.apply, CachedLists.saveToDisk, merged_cache, fetchedMap_encoded]
  have truncated : unsaved.disk "cache.json" = some [] := by
    simp [unsaved, Store.apply, CachedLists.saveToDisk, merged_cache, fetchedMap_encoded,
      Directory.write]
  have lost : loadOrDefault exampleCodec unsaved.disk "cache.json" = .default := by
    have empty : fromUtf8 [] = some "" := fromUtf8_utf8 ""
    have unread : exampleCodec.fromStr "" = .error "not in the example" := by decide
    simp [loadOrDefault, loadFromDisk, Directory.readToString, truncated, empty, unread,
      Except.toOption]
  refine ⟨exampleCodec_lawful, reached, fun clean => ?_, fun faults => ?_⟩
  · have same := clean (by rw [clear])
    rw [lost, clear] at same
    exact fetchedMap_ne_empty same.symm
  · exact apply_save_of_clean (by rw [clear]) faults

end DnsLigase.Cache
