/-
# Journal.Timestamp — the dates in the statistics

journald's microseconds become a date by `days_to_ymd`, which mixes `u64` and `i64`.  Every
operation that can overflow is checked in the model, so a result means that none did.
`daysToYmd_date`: for each time stamp it is the date whose number of days after 1970-01-01 is
the day count.
-/
import DnsLigase.Theory.Calendar
import DnsLigase.Theory.Machine

namespace DnsLigase.Journal

open DnsLigase.Theory.Calendar DnsLigase.Theory.Machine

set_option autoImplicit false

/-! ## `format_timestamp` -/

def daysToYmd (days : UInt64) : Option (Nat × Nat × Nat) := do
  let z ← signed 64 (castSigned 64 days.toNat + 719468)
  -- The division is one of the whole conditional.
  let shifted ← (if z ≥ 0 then some z else signed 64 (z - 146096))
  let era := shifted.tdiv 146097
  let doe := castUnsigned 64 (← signed 64 (z - (← signed 64 (era * 146097))))
  let leapless ← unsigned 64 (doe - doe / 1460)
  let leapless ← unsigned 64 (leapless + doe / 36524)
  let leapless ← unsigned 64 (leapless - doe / 146096)
  let yoe := leapless / 365
  let y ← signed 64 (castSigned 64 yoe + (← signed 64 (era * 400)))
  let yearDays ← unsigned 64 (365 * yoe)
  let yearDays ← unsigned 64 (yearDays + yoe / 4)
  let yearDays ← unsigned 64 (yearDays - yoe / 100)
  let doy ← unsigned 64 (doe - yearDays)
  let mp := (← unsigned 64 ((← unsigned 64 (5 * doy)) + 2)) / 153
  let monthDays := (← unsigned 64 ((← unsigned 64 (153 * mp)) + 2)) / 5
  let d ← unsigned 64 ((← unsigned 64 (doy - monthDays)) + 1)
  let m ← (if mp < 10 then unsigned 64 (mp + 3) else unsigned 64 (mp - 9))
  let y ← (if m ≤ 2 then signed 64 (y + 1) else some y)
  return (castUnsigned 64 y, m, d)

/-- `str::parse::<u64>`: digits after an optional plus sign, whose value fits. -/
def parseU64 (s : String) : Option UInt64 :=
  let digits : List Char := match s.toList with
    | '+' :: digits => digits
    | digits => digits
  let value := digits.foldl (fun (value : Nat) c => 10 * value + (c.toNat - '0'.toNat)) 0
  if digits ≠ [] ∧ digits.all Char.isDigit ∧ value < 2 ^ 64 then some (UInt64.ofNat value)
  else none

/-- `{:0width$}` of a number. -/
def padded (width n : Nat) : String :=
  String.ofList (List.replicate (width - (toString n).length) '0') ++ toString n

/-- The day count of a time stamp in microseconds. -/
def daysSinceEpoch (us : UInt64) : UInt64 := us / 1000000 / 86400

def formatTimestamp : Option String → Option String
  | none => some ""
  | some s => do
      let us := (parseU64 s).getD 0
      if us = 0 then return ""
      let timeOfDay := us / 1000000 % 86400
      let hours := timeOfDay / 3600
      let minutes := timeOfDay % 3600 / 60
      let seconds := timeOfDay % 60
      let (year, month, day) ← daysToYmd (daysSinceEpoch us)
      return padded 4 year ++ "-" ++ padded 2 month ++ "-" ++ padded 2 day ++ " " ++
        padded 2 hours.toNat ++ ":" ++ padded 2 minutes.toNat ++ ":" ++ padded 2 seconds.toNat

/-! ## Its date -/

section Checked

-- What is done with a checked value, `g`, is the rest of `days_to_ymd`.
variable {β : Type} {days : UInt64} {era doe yoe doy : Nat}

theorem tdiv_era (inEra : doe < 146097) :
    ((doe + 146097 * era : Nat) : Int).tdiv 146097 = era := by
  rw [Int.tdiv_eq_ediv_of_nonneg (by omega)]
  omega

theorem era_checked (split : days.toNat + 719468 = doe + 146097 * era) (inEra : doe < 146097)
    (small : era < 2 ^ 40) (g : Int → Int → Option β) :
    (do
      let z ← signed 64 (castSigned 64 days.toNat + 719468)
      let shifted ← (if z ≥ 0 then some z else signed 64 (z - 146096))
      g shifted (← signed 64 (z - (← signed 64 (shifted.tdiv 146097 * 146097))))) =
        g (doe + 146097 * era : Nat) doe := by
  have cast := castSigned_of_lt (w := 64) (n := days.toNat) (by omega)
  refine of_bind (signed_natCast (n := doe + 146097 * era) (by omega) (by omega)) ?_
  refine of_bind (if_pos (by omega)) ?_
  rw [tdiv_era inEra]
  refine of_bind (signed_natCast (n := 146097 * era) (by omega) (by omega)) ?_
  exact of_bind (signed_natCast (n := doe) (by omega) (by omega)) rfl

theorem yearOfEra_checked (inEra : doe < 146097) (g : Nat → Option β) :
    (do
      let leapless ← unsigned 64 (doe - doe / 1460)
      let leapless ← unsigned 64 (leapless + doe / 36524)
      let leapless ← unsigned 64 (leapless - doe / 146096)
      g leapless) = g (doe - doe / 1460 + doe / 36524 - doe / 146096) := by
  refine of_bind (unsigned_natCast (n := doe - doe / 1460) (by omega) (by omega)) ?_
  refine of_bind (unsigned_natCast (n := doe - doe / 1460 + doe / 36524)
    (by omega) (by omega)) ?_
  exact of_bind (unsigned_natCast (by omega) (by omega)) rfl

theorem dayOfYear_checked (inCycle : yoe < 400) (inYear : doy < 366)
    (isDoy : marchDays yoe + doy = doe) (g : Nat → Option β) :
    (do
      let yearDays ← unsigned 64 (365 * yoe)
      let yearDays ← unsigned 64 (yearDays + yoe / 4)
      let yearDays ← unsigned 64 (yearDays - yoe / 100)
      g (← unsigned 64 (doe - yearDays))) = g doy := by
  unfold marchDays at isDoy
  refine of_bind (unsigned_natCast (n := 365 * yoe) (by omega) (by omega)) ?_
  refine of_bind (unsigned_natCast (n := 365 * yoe + yoe / 4) (by omega) (by omega)) ?_
  refine of_bind (unsigned_natCast (n := 365 * yoe + yoe / 4 - yoe / 100)
    (by omega) (by omega)) ?_
  exact of_bind (unsigned_natCast (n := doy) (by omega) (by omega)) rfl

theorem month_checked (inYear : doy < 366) (g : Nat → Nat → Option β) :
    (do
      let x ← unsigned 64 ((← unsigned 64 (5 * doy)) + 2)
      let y ← unsigned 64 ((← unsigned 64 (153 * (x / 153 : Nat))) + 2)
      g x (← unsigned 64 ((← unsigned 64 (doy - (y / 5 : Nat))) + 1))) =
        g (5 * doy + 2) (doy - marchMonthDays (marchMonth doy) + 1) := by
  have begun := (marchMonth_bounds doy).1
  unfold marchMonthDays at begun ⊢
  refine of_bind (unsigned_natCast (n := 5 * doy) (by omega) (by omega)) ?_
  refine of_bind (unsigned_natCast (n := 5 * doy + 2) (by omega) (by omega)) ?_
  have month : (5 * doy + 2) / 153 = marchMonth doy := rfl
  rw [month]
  generalize marchMonth doy = mp at begun ⊢
  refine of_bind (unsigned_natCast (n := 153 * mp) (by omega) (by omega)) ?_
  refine of_bind (unsigned_natCast (n := 153 * mp + 2) (by omega) (by omega)) ?_
  refine of_bind (unsigned_natCast (n := doy - (153 * mp + 2) / 5) (by omega) (by omega)) ?_
  exact of_bind (unsigned_natCast (by omega) (by omega)) rfl

/-- What `days_to_ymd` computes when nothing overflows, and nothing does. -/
theorem daysToYmd_eq {mp : Nat} (split : days.toNat + 719468 = doe + 146097 * era)
    (inEra : doe < 146097) (small : era < 2 ^ 40) (isYoe : yoe = yearOfEra doe)
    (inCycle : yoe < 400) (isDoy : marchDays yoe + doy = doe) (inYear : doy < 366)
    (isMp : mp = marchMonth doy) :
    daysToYmd days = some (if mp < 10 then yoe + 400 * era else yoe + 400 * era + 1,
      if mp < 10 then mp + 3 else mp - 9, doy - marchMonthDays mp + 1) := by
  unfold daysToYmd
  refine (era_checked split inEra small _).trans ?_
  rw [tdiv_era inEra, castUnsigned_natCast (by omega)]
  refine (yearOfEra_checked inEra _).trans ?_
  have folded : (doe - doe / 1460 + doe / 36524 - doe / 146096) / 365 = yoe := isYoe.symm
  rw [folded]
  clear folded isYoe split
  have yoeSigned := castSigned_of_lt (w := 64) (n := yoe) (by omega)
  refine of_bind (signed_natCast (n := 400 * era) (by omega) (by omega)) ?_
  refine of_bind (signed_natCast (n := yoe + 400 * era) (by omega) (by omega)) ?_
  refine (dayOfYear_checked inCycle inYear isDoy _).trans ?_
  refine (month_checked inYear _).trans ?_
  have month : (5 * doy + 2) / 153 = mp := isMp.symm
  rw [month, ← isMp]
  by_cases early : mp < 10
  · rw [if_pos early, if_pos early, if_pos early]
    refine of_bind (unsigned_natCast (n := mp + 3) (by omega) (by omega)) ?_
    refine of_bind (if_neg (by omega)) ?_
    rw [castUnsigned_natCast (by omega)]
    rfl
  · rw [if_neg early, if_neg early, if_neg early]
    refine of_bind (unsigned_natCast (n := mp - 9) (by omega) (by omega)) ?_
    rw [if_pos (by omega)]
    refine of_bind (signed_natCast (n := yoe + 400 * era + 1) (by omega) (by omega)) ?_
    rw [castUnsigned_natCast (by omega)]
    rfl

end Checked

theorem daysToYmd_of_lt {days : UInt64} (small : days.toNat < 2 ^ 50) :
    ∃ date : Date, daysToYmd days = some (date.year, date.month, date.day) ∧
      date.number = epoch.number + days.toNat := by
  have split := Nat.mod_add_div (days.toNat + 719468) 146097
  have inEra := Nat.mod_lt (days.toNat + 719468) (show 146097 > 0 by decide)
  have fewEras : (days.toNat + 719468) / 146097 < 2 ^ 40 := by omega
  generalize (days.toNat + 719468) / 146097 = era, (days.toNat + 719468) % 146097 = doe at *
  obtain ⟨inCycle, begun, notOver⟩ := yearOfEra_bounds inEra
  obtain ⟨yoe, isYoe⟩ : ∃ yoe, yoe = yearOfEra doe := ⟨_, rfl⟩
  rw [← isYoe] at inCycle begun notOver
  obtain ⟨doy, rfl⟩ := Nat.exists_eq_add_of_le begun
  -- The year is as long as its length in the era.
  have inYear : doy < 365 + (if leap (yoe + 400 * era + 1) then 1 else 0) := by
    have next := marchDays_succ (yoe + 400 * era)
    rw [Nat.add_right_comm, marchDays_era, marchDays_era] at next
    rw [Nat.add_right_comm]
    omega
  have notLonger : doy < 366 := by split_ifs at inYear <;> omega
  refine ⟨marchDate (yoe + 400 * era) doy inYear,
    daysToYmd_eq split.symm inEra fewEras isYoe inCycle rfl notLonger rfl, ?_⟩
  have start : epoch.number = 719528 := by decide +kernel
  rw [marchDate_number, marchDays_era, start]
  omega

theorem daysSinceEpoch_lt (us : UInt64) : (daysSinceEpoch us).toNat < 2 ^ 50 := by
  have range := us.toNat_lt
  have value : (daysSinceEpoch us).toNat = us.toNat / 1000000 / 86400 := by
    rw [daysSinceEpoch, UInt64.toNat_div, UInt64.toNat_div]
    rfl
  omega

/-- Every time stamp is in front of the overflow, and its date is that of its day. -/
theorem daysToYmd_date (us : UInt64) :
    ∃ date : Date, daysToYmd (daysSinceEpoch us) = some (date.year, date.month, date.day) ∧
      date.number = epoch.number + (daysSinceEpoch us).toNat :=
  daysToYmd_of_lt (daysSinceEpoch_lt us)

-- A leap day, and the last day that a time stamp can have.
example : daysToYmd (daysSinceEpoch 951782400000000) = some (2000, 2, 29) := by decide +kernel

example : daysToYmd (daysSinceEpoch 18446744073709551615) = some (586524, 1, 19) := by
  decide +kernel

/-- The statistics never stop at a time stamp, whatever text journald gives. -/
theorem formatTimestamp_total (us : Option String) : ∃ text, formatTimestamp us = some text := by
  cases us with
  | none => exact ⟨"", rfl⟩
  | some s =>
      rw [formatTimestamp]
      split
      · exact ⟨"", rfl⟩
      · obtain ⟨date, result, -⟩ := daysToYmd_of_lt (daysSinceEpoch_lt ((parseU64 s).getD 0))
        rw [result]
        exact ⟨_, rfl⟩

end DnsLigase.Journal
