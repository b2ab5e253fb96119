import Interlock.Calendar.Instant

/-!
The cycle of 400 years. A count of days has a date, and the date has that count of days.
-/

set_option autoImplicit false

namespace Interlock.Calendar

def yearOfDay (day : Int) : Int := (day - day / 1460 + day / 36524 - day / 146096) / 365

def startOfYear (year : Int) : Int := 365 * year + year / 4 - year / 100

theorem year_of_day_mono (day later : Int) (least : day ≤ later) : yearOfDay day ≤ yearOfDay later := by
  have centuries : ∀ day : Int, day / 36524 - day / 146096 = day / 36524 - day / 36524 / 4 := by
    intro day
    omega
  have first := centuries day
  have second := centuries later
  have ordinary : day - day / 1460 ≤ later - later / 1460 := by omega
  have leap : day / 36524 ≤ later / 36524 := by omega
  unfold yearOfDay
  omega

theorem year_ends : ∀ year : Fin 400,
    (0 < year.val → yearOfDay (startOfYear year.val - 1) < year.val) ∧
      (year.val < 399 → (year.val : Int) < yearOfDay (startOfYear year.val + 366)) := by
  decide +kernel

theorem day_of_year (day : Int) (least : 0 ≤ day) (most : day < 146097) :
    (0 ≤ yearOfDay day ∧ yearOfDay day < 400) ∧
      0 ≤ day - startOfYear (yearOfDay day) ∧ day - startOfYear (yearOfDay day) < 366 := by
  have low : 0 ≤ yearOfDay day := year_of_day_mono 0 day least
  have high : yearOfDay day ≤ 399 := year_of_day_mono day 146096 (by omega)
  have ends := year_ends ⟨(yearOfDay day).toNat, by omega⟩
  dsimp only at ends
  rw [Int.toNat_of_nonneg low] at ends
  have before := year_of_day_mono day (startOfYear (yearOfDay day) - 1)
  have behind := year_of_day_mono (startOfYear (yearOfDay day) + 366) day
  have first : startOfYear 0 = 0 := rfl
  have last : startOfYear 399 = 145731 := rfl
  generalize yearOfDay day = year at *
  by_cases zero : year = 0
  · subst zero
    omega
  · by_cases top : year = 399
    · subst top
      omega
    · omega

theorem to_days_shifted (cycle year month day : Int) (low : 0 ≤ year) (high : year < 400)
    (least : 0 ≤ month) (most : month < 12) (positive : 0 ≤ day) :
    (if month < 10 then (⟨year + cycle * 400, (month + 3).toNat, day.toNat⟩ : Date)
      else ⟨year + cycle * 400 + 1, (month - 9).toNat, day.toNat⟩).toDays =
      146097 * cycle + startOfYear year + (153 * month + 2) / 5 + day - 1 - 719468 := by
  have counted : 365 * (year + cycle * 400) + (year + cycle * 400) / 4 - (year + cycle * 400) / 100 +
      (year + cycle * 400) / 400 = 146097 * cycle + startOfYear year := by
    have quarters : (year + cycle * 400) / 4 = year / 4 + 100 * cycle := by omega
    have centuries : (year + cycle * 400) / 100 = year / 100 + 4 * cycle := by omega
    have cycles : (year + cycle * 400) / 400 = cycle := by omega
    unfold startOfYear
    omega
  split
  · next early =>
      have late : ¬ (month + 3).toNat ≤ 2 := by omega
      have since : ((month + 3).toNat : Int) - 3 = month := by omega
      simp only [Date.toDays, if_neg late, since, Int.toNat_of_nonneg positive]
      omega
  · next late =>
      have early : (month - 9).toNat ≤ 2 := by omega
      have since : ((month - 9).toNat : Int) + 9 = month := by omega
      simp only [Date.toDays, if_pos early, since, Int.toNat_of_nonneg positive, Int.add_sub_cancel]
      omega

theorem to_days_of_days (days : Int) : (Date.ofDays days).toDays = days := by
  have parts := Int.mul_ediv_add_emod (days + 719468) 146097
  have least := Int.emod_nonneg (days + 719468) (b := 146097) (by decide)
  have most := Int.emod_lt_of_pos (days + 719468) (b := 146097) (by decide)
  unfold Date.ofDays
  dsimp only
  generalize (days + 719468) / 146097 = cycle at *
  generalize (days + 719468) % 146097 = day at *
  obtain ⟨⟨low, high⟩, first, last⟩ := day_of_year day least most
  have shifted := to_days_shifted cycle (yearOfDay day)
    ((5 * (day - startOfYear (yearOfDay day)) + 2) / 153)
    (day - startOfYear (yearOfDay day) -
      (153 * ((5 * (day - startOfYear (yearOfDay day)) + 2) / 153) + 2) / 5 + 1)
    low high (by omega) (by omega) (by omega)
  refine shifted.trans ?_
  omega

end Interlock.Calendar
