/-
# Cache.Versions — the version that a body file holds

The invariant of `Cache.Coherence` says that a file holds some version, none older than what is
claimed of it.  Here that version has a name, `held`.  Merges raise it and nothing lowers it: a
prune deletes files but writes none, and a download only reads.  So whatever is read from the
cache, or merged into it, lies between the version that was held when a build began and the one
that is held when it has merged (`merge_between`).
-/
import DnsLigase.Cache.Coherence

namespace DnsLigase.Cache

open DnsLigase.Theory.Io DnsLigase.Theory.Utf8

set_option autoImplicit false

/-- The body is a version of the list that is neither older than `low` nor newer than `high`. -/
def Origin.Between (origin : Origin) (low high : String → Nat) (url body : String) : Prop :=
  ∃ w, low url ≤ w ∧ w ≤ high url ∧ body = origin.body url w

/-- The file of each of `lists`, if it is there, holds the version `held`, which a request has
seen. -/
structure Versioned (origin : Origin) (lists : List String) (newest held : String → Nat)
    (dir : Directory) : Prop where
  seen : ∀ url, held url ≤ newest url
  files : ∀ url ∈ lists, ∀ data, dir (urlToFilename url) = some data →
    data = utf8 (origin.body url (held url))

/-- The copy that a failed download has fallen back to. -/
def Arrived.FallsBetween (origin : Origin) (low high : String → Nat) (a : Arrived) : Prop :=
  ∀ body, a.result = .staleFallback body → origin.Between low high a.url body

section Between

variable {origin : Origin} {low low' high high' : String → Nat}

theorem Origin.Between.mono {url body : String} (between : origin.Between low high url body)
    (lower : ∀ url, low' url ≤ low url) (higher : ∀ url, high url ≤ high' url) :
    origin.Between low' high' url body := by
  obtain ⟨w, least, most, holds⟩ := between
  exact ⟨w, (lower url).trans least, most.trans (higher url), holds⟩

theorem Arrived.FallsBetween.mono {a : Arrived} (falls : a.FallsBetween origin low high)
    (higher : ∀ url, high url ≤ high' url) : a.FallsBetween origin low high' :=
  fun body stale => (falls body stale).mono (fun _ => Nat.le_refl _) higher

end Between

section Files

variable {origin : Origin} {lists : List String} {newest newest' held low : String → Nat}
  {dir dir' : Directory}

/-- Files may go, and newer versions may be seen. -/
theorem Versioned.mono (versioned : Versioned origin lists newest held dir)
    (later : ∀ url, newest url ≤ newest' url)
    (gone : ∀ name data, dir' name = some data → dir name = some data) :
    Versioned origin lists newest' held dir' where
  seen url := (versioned.seen url).trans (later url)
  files url member data there := versioned.files url member data (gone _ data there)

/-- What can be read is the version that is held. -/
theorem Versioned.read (versioned : Versioned origin lists newest held dir)
    (least : ∀ url, low url ≤ held url) {url body : String} (member : url ∈ lists)
    (reads : readBodyFile dir (urlToFilename url) = some body) :
    origin.Between low held url body := by
  obtain ⟨data, there, decodes⟩ := Option.bind_eq_some_iff.mp reads
  obtain rfl := versioned.files url member data there
  rw [fromUtf8_utf8] at decodes
  exact ⟨held url, least url, Nat.le_refl _, (Option.some.inj decodes).symm⟩

/-- The newest version is written. -/
theorem Versioned.write (versioned : Versioned origin lists newest held dir) (apart : Apart lists)
    {url : String} (member : url ∈ lists) :
    Versioned origin lists newest (Function.update held url (newest url))
      (dir.set (urlToFilename url) (some (utf8 (origin.body url (newest url))))) := by
  refine ⟨fun url' => ?_, fun url' member' data there => ?_⟩
  · by_cases same : url' = url
    · subst same
      rw [Function.update_self]
    · rw [Function.update_of_ne same]
      exact versioned.seen url'
  · by_cases same : url' = url
    · subst same
      rw [Directory.set_same] at there
      rw [Function.update_self]
      exact (Option.some.inj there).symm
    · have other : urlToFilename url' ≠ urlToFilename url :=
        fun name => same (apart url' member' url member name)
      rw [Directory.set, if_neg other] at there
      rw [Function.update_of_ne same]
      exact versioned.files url' member' data there

theorem le_update (versioned : Versioned origin lists newest held dir) (url url' : String) :
    held url' ≤ Function.update held url (newest url) url' := by
  by_cases same : url' = url
  · subst same
    rw [Function.update_self]
    exact versioned.seen url'
  · rw [Function.update_of_ne same]

/-! ## Merges -/

/-- **One turn raises the version that is held**, and what it returns lies below. -/
theorem turn_between (apart : Apart lists) (now : Nat) {m : Merging} {a : Arrived}
    {fault : Option BodyFault} (versioned : Versioned origin lists newest held m.dir)
    (filed : AllFiled m.cache) (least : ∀ url, low url ≤ held url) (member : a.url ∈ lists)
    (sound : a.Sound origin newest) (stands : PickStands newest (a, fault))
    (falls : a.FallsBetween origin low held) :
    ∃ held', (∀ url, held url ≤ held' url) ∧
      Versioned origin lists newest held' (mergeOne now m (Arrived.attempt (a, fault))).dir ∧
      ∀ p ∈ (mergeOne now m (Arrived.attempt (a, fault))).bodies,
        p ∈ m.bodies ∨ origin.Between low held' p.1 p.2 := by
  cases result : a.result with
  | fresh body etag =>
      have current : a.version = newest a.url := stands.2 body etag result
      rw [Arrived.Sound, result, current] at sound
      obtain ⟨rfl, rfl⟩ := sound
      cases fault with
      | none =>
          rw [mergeOne_fresh (a := Arrived.attempt (a, none)) result rfl]
          dsimp only [Arrived.attempt]
          refine ⟨_, le_update versioned a.url, versioned.write apart member, fun p pushed => ?_⟩
          refine (List.mem_append.mp pushed).imp_right fun new => ?_
          rw [List.mem_singleton.mp new]
          exact ⟨newest a.url, (least a.url).trans (versioned.seen a.url),
            (Function.update_self a.url (newest a.url) held).ge, rfl⟩
      | some fault =>
          rw [mergeOne_fault (a := Arrived.attempt (a, some fault)) result rfl]
          cases fault with
          | torn n e => exact absurd rfl (stands.1 n e)
          | refused e =>
              refine ⟨held, fun _ => Nat.le_refl _, ?_, fun p => .inl⟩
              refine versioned.mono (fun _ => Nat.le_refl _) fun name data there => ?_
              dsimp only [Arrived.attempt, BodyFault.asWrite] at there
              unfold Directory.set at there
              split at there
              · rename_i same
                rw [same]
                exact there
              · exact there
  | notModified =>
      have result' : (Arrived.attempt (a, fault)).result = .notModified := result
      simp only [mergeOne, result']
      -- whichever name the body is read under, it is the file of the URL
      have own : (Arrived.attempt (a, fault)).url = a.url := rfl
      split
      · rename_i entry found
        rw [filed _ entry found, own]
        split
        · rename_i body there
          refine ⟨held, fun _ => Nat.le_refl _, versioned, fun p pushed => ?_⟩
          refine (List.mem_append.mp pushed).imp_right fun new => ?_
          obtain rfl := List.mem_singleton.mp new
          exact versioned.read least member there
        · exact ⟨held, fun _ => Nat.le_refl _, versioned, fun p => .inl⟩
      · rw [own]
        split
        · rename_i body there
          refine ⟨held, fun _ => Nat.le_refl _, versioned, fun p pushed => ?_⟩
          refine (List.mem_append.mp pushed).imp_right fun new => ?_
          obtain rfl := List.mem_singleton.mp new
          exact versioned.read least member there
        · exact ⟨held, fun _ => Nat.le_refl _, versioned, fun p => .inl⟩
  | staleFallback body =>
      have result' : (Arrived.attempt (a, fault)).result = .staleFallback body := result
      simp only [mergeOne, result']
      refine ⟨held, fun _ => Nat.le_refl _, versioned, fun p pushed => ?_⟩
      refine (List.mem_append.mp pushed).imp_right fun new => ?_
      obtain rfl := List.mem_singleton.mp new
      exact falls body result
  | failed message =>
      have result' : (Arrived.attempt (a, fault)).result = .failed message := result
      simp only [mergeOne, result']
      exact ⟨held, fun _ => Nat.le_refl _, versioned, fun p => .inl⟩

/-- A whole merge, of answers whose fallbacks were read since `low` was held. -/
theorem merge_between (apart : Apart lists) (now : Nat) {c : CachedLists}
    {picks : List (Arrived × Option BodyFault)}
    (versioned : Versioned origin lists newest held dir) (filed : AllFiled c)
    (least : ∀ url, low url ≤ held url)
    (sound : ∀ pick ∈ picks, pick.1.url ∈ lists ∧ pick.1.Sound origin newest)
    (stands : ∀ pick ∈ picks, PickStands newest pick)
    (falls : ∀ pick ∈ picks, pick.1.FallsBetween origin low held) :
    ∃ held', (∀ url, held url ≤ held' url) ∧
      Versioned origin lists newest held'
        (mergeDownloads now c dir (picks.map Arrived.attempt)).dir ∧
      ∀ p ∈ (mergeDownloads now c dir (picks.map Arrived.attempt)).bodies,
        origin.Between low held' p.1 p.2 := by
  induction picks using List.reverseRecOn with
  | nil => exact ⟨held, fun _ => Nat.le_refl _, versioned, fun p pushed => nomatch pushed⟩
  | append_singleton picks pick ih =>
      have earlier : ∀ q ∈ picks, q ∈ picks ++ [pick] := fun q => List.mem_append_left _
      have last : pick ∈ picks ++ [pick] := List.mem_append_right _ (List.mem_singleton_self _)
      obtain ⟨before, raised, written, below⟩ := ih (fun q member => sound q (earlier q member))
        (fun q member => stands q (earlier q member)) fun q member => falls q (earlier q member)
      obtain ⟨known, whole⟩ := sound pick last
      obtain ⟨after, raised', written', below'⟩ := turn_between apart now written
        (filed.merge now dir (picks.map Arrived.attempt))
        (fun url => (least url).trans (raised url)) known whole (stands pick last)
        ((falls pick last).mono raised)
      have turn : mergeDownloads now c dir ((picks ++ [pick]).map Arrived.attempt) =
          mergeOne now (mergeDownloads now c dir (picks.map Arrived.attempt))
            (Arrived.attempt pick) := by
        rw [List.map_append, mergeDownloads, List.foldl_append]
        rfl
      rw [turn]
      refine ⟨after, fun url => (raised url).trans (raised' url), written', fun p pushed => ?_⟩
      rcases below' p pushed with old | new
      · exact (below p old).mono (fun _ => Nat.le_refl _) raised'
      · exact new

end Files

end DnsLigase.Cache
