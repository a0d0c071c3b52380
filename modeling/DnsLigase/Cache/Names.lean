/-
# Cache.Names — lists that share a body file

The name of a body file has a readable part, the first 100 characters of the sanitized URL, and
the hash of the whole URL.  `urlToFilename_eq_iff`: two URLs share a file exactly if they agree
in both.  The hash tells URLs apart that differ only within four octets in a row, such as lists
that are numbered; so a configuration in which every two URLs are of this kind, or can be told
apart by what is readable, has a file for each list (`apart_of_near`), as the results about what
the cache serves ask for.
-/
import DnsLigase.Cache.Coherence
import DnsLigase.Cache.Paths
import DnsLigase.Theory.Fnv

namespace DnsLigase.Cache

open DnsLigase.Theory DnsLigase.Theory.Utf8

set_option autoImplicit false

theorem fnv1a_eq_run (bytes : List UInt8) : fnv1a bytes = Fnv.run 0xcbf29ce484222325 bytes := rfl

/-! ## The digits of the hash -/

/-- The low `n` hexadecimal digits are the number modulo `16 ^ n`. -/
theorem mod_eq_of_digits {a b : Nat} : ∀ {n : Nat},
    (∀ i < n, a / 16 ^ i % 16 = b / 16 ^ i % 16) → a % 16 ^ n = b % 16 ^ n
  | 0, _ => by rw [Nat.pow_zero, Nat.mod_one, Nat.mod_one]
  | n + 1, digits => by
      have low := mod_eq_of_digits fun i inside => digits i (Nat.lt_succ_of_lt inside)
      rw [Nat.mod_pow_succ, Nat.mod_pow_succ, low, digits n (Nat.lt_succ_self n)]

theorem hex16_injective {h h' : UInt64} (same : hex16 h = hex16 h') : h = h' := by
  have table : ∀ a < 16, ∀ b < 16, Nat.digitChar a = Nat.digitChar b → a = b := by decide
  have digits : ∀ i < 16, h.toNat / 16 ^ i % 16 = h'.toNat / 16 ^ i % 16 := by
    intro i inside
    have shown := List.map_inj_left.mp same i (by simpa using inside)
    exact table _ (Nat.mod_lt _ (by decide)) _ (Nat.mod_lt _ (by decide)) shown
  have values : h.toNat % 2 ^ 64 = h'.toNat % 2 ^ 64 := mod_eq_of_digits digits
  rw [Nat.mod_eq_of_lt h.toNat_lt, Nat.mod_eq_of_lt h'.toNat_lt] at values
  exact UInt64.toNat_inj.mp values

/-! ## Shared files -/

/-- **Two URLs share a file exactly if neither the readable part nor the hash tells them
apart.** -/
theorem urlToFilename_eq_iff {url url' : String} : urlToFilename url = urlToFilename url' ↔
    (sanitized url).take 100 = (sanitized url').take 100 ∧
      fnv1a (utf8 url) = fnv1a (utf8 url') := by
  rw [← String.toList_inj, toList_urlToFilename, toList_urlToFilename, List.append_left_inj]
  constructor
  · intro same
    have digits : ('_' :: hex16 (fnv1a (utf8 url))).length =
        ('_' :: hex16 (fnv1a (utf8 url'))).length := by
      rw [List.length_cons, List.length_cons, (hex16_digits _).1, (hex16_digits _).1]
    obtain ⟨readable, hash⟩ := List.append_inj' same digits
    exact ⟨readable, hex16_injective (List.tail_eq_of_cons_eq hash)⟩
  · rintro ⟨readable, hash⟩
    rw [readable, hash]

/-- **Lists that are told apart have files of their own**: by what is readable of their URLs, or
because the URLs differ only within four octets in a row. -/
theorem apart_of_near {lists : List String} (each : ∀ url ∈ lists, ∀ url' ∈ lists,
    (sanitized url).take 100 ≠ (sanitized url').take 100 ∨ Fnv.Near (utf8 url) (utf8 url')) :
    Apart lists := by
  intro url member url' member' same
  obtain ⟨readable, hash⟩ := urlToFilename_eq_iff.mp same
  rcases each url member url' member' with differ | near
  · exact absurd readable differ
  · rw [fnv1a_eq_run, fnv1a_eq_run] at hash
    exact utf8_injective (near.eq_of_run hash)

/-- Lists with a number of four digits in their URL. -/
def numbered (digits : String) : String := "https://lists.net/" ++ (digits ++ ".txt")

theorem near_numbered {digits digits' : String} (four : (utf8 digits).length = 4)
    (four' : (utf8 digits').length = 4) :
    Fnv.Near (utf8 (numbered digits)) (utf8 (numbered digits')) := by
  have parts : ∀ digits, utf8 (numbered digits) =
      utf8 "https://lists.net/" ++ (utf8 digits ++ utf8 ".txt") := fun digits =>
    (utf8_append _ _).trans (congrArg _ (utf8_append digits ".txt"))
  exact ⟨_, _, _, _, parts digits, parts digits', four.trans four'.symm, four.le⟩

theorem apart_of_near_numbered : Apart [numbered "0001", numbered "0002", numbered "1024"] := by
  refine apart_of_near fun url member url' member' => .inr ?_
  obtain ⟨digits, among, rfl⟩ :=
    List.mem_map.mp (show url ∈ ["0001", "0002", "1024"].map numbered from member)
  obtain ⟨digits', among', rfl⟩ :=
    List.mem_map.mp (show url' ∈ ["0001", "0002", "1024"].map numbered from member')
  have four : ∀ digits ∈ ["0001", "0002", "1024"], (utf8 digits).length = 4 := by decide
  exact near_numbered (four digits among) (four digits' among')

end DnsLigase.Cache
