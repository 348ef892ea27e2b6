import Mathlib.Data.Nat.Find
import Mathlib.Data.String.Basic
import Mathlib.Tactic.Ring

/-!
# Times of the civil calendar and their RFC 3339 texts

A `CivilTime` is a UTC date and time of the years 0000 to 9999 with nanoseconds, and
`CivilTime.instant` the number of nanoseconds since 1970 it denotes. Its `text` has four
digits of the year, two of every other field, and a fraction that is left out or has three,
six or nine digits. Texts of different lengths are compared character by character, as bytes.

## Key results
- `CivilTime.text_lt`: the text of an earlier instant is the smaller one, whatever fractions
  the two show.
- `CivilTime.instant_civil`: every instant of these years is that of a civil time.
-/

namespace Rfc3339

/-! ## Counting in blocks -/

/-- The naturals cut into blocks: block `k` begins at `start k` and has `size k` places. -/
structure Blocks (start size : Nat → Nat) : Prop where
  zero : start 0 = 0
  succ : ∀ k, start (k + 1) = start k + size k

namespace Blocks

variable {start size : Nat → Nat}

/-- Blocks of one size. -/
theorem mul (n : Nat) : Blocks (· * n) fun _ => n :=
  ⟨Nat.zero_mul n, fun k => Nat.succ_mul k n⟩

theorem start_add_size_le (h : Blocks start size) {a b : Nat} (hab : a < b) :
    start a + size a ≤ start b := by
  induction b with
  | zero => exact absurd hab (Nat.not_lt_zero a)
  | succ b ih =>
    rw [h.succ b]
    rcases Nat.lt_or_eq_of_le (Nat.le_of_lt_succ hab) with hlt | rfl
    · exact (ih hlt).trans (Nat.le_add_right _ _)
    · exact Nat.le_refl _

theorem place_lt_start (h : Blocks start size) {a b r : Nat} (hab : a < b) (hr : r < size a) :
    start a + r < start b :=
  (Nat.add_lt_add_left hr _).trans_le (h.start_add_size_le hab)

/-- Of two places the earlier one is in an earlier block, or earlier in the same block. -/
theorem lt_or_eq (h : Blocks start size) {a b r s : Nat} (hs : s < size b)
    (hlt : start a + r < start b + s) : a < b ∨ a = b ∧ r < s := by
  rcases Nat.lt_trichotomy a b with hab | rfl | hba
  · exact Or.inl hab
  · exact Or.inr ⟨rfl, Nat.lt_of_add_lt_add_left hlt⟩
  · have := h.start_add_size_le hba
    omega

/-- A place is in one block only. -/
theorem inj (h : Blocks start size) {a b r s : Nat} (hr : r < size a) (hs : s < size b)
    (heq : start a + r = start b + s) : a = b ∧ r = s := by
  rcases Nat.lt_trichotomy a b with hab | rfl | hba
  · have := h.start_add_size_le hab
    omega
  · exact ⟨rfl, Nat.add_left_cancel heq⟩
  · have := h.start_add_size_le hba
    omega

/-- A place that is earlier, or the same with `P`, told by its block and the place there. -/
theorem lex (h : Blocks start size) {a b r s : Nat} (hr : r < size a) (hs : s < size b) {P : Prop}
    (hlt : start a + r < start b + s ∨ start a + r = start b + s ∧ P) :
    a < b ∨ a = b ∧ (r < s ∨ r = s ∧ P) := by
  rcases hlt with hlt | ⟨heq, hP⟩
  · exact (h.lt_or_eq hs hlt).imp_right fun h => ⟨h.1, Or.inl h.2⟩
  · obtain ⟨hab, hrs⟩ := h.inj hr hs heq
    exact Or.inr ⟨hab, Or.inr ⟨hrs, hP⟩⟩

/-- The block of a place, among the first `k + 1` blocks. -/
def find (start : Nat → Nat) (k n : Nat) : Nat := Nat.findGreatest (start · ≤ n) k

theorem find_le (start : Nat → Nat) (k n : Nat) : find start k n ≤ k := Nat.findGreatest_le k

/-- The place is in the block that was found. -/
theorem find_spec (h : Blocks start size) {k n : Nat} (hn : n < start (k + 1)) :
    start (find start k n) ≤ n ∧ n - start (find start k n) < size (find start k n) := by
  have hle : start (find start k n) ≤ n :=
    Nat.findGreatest_spec (P := (start · ≤ n)) (Nat.zero_le k) (by rw [h.zero]; exact Nat.zero_le n)
  have hlt : n < start (find start k n + 1) := by
    rcases Nat.lt_or_eq_of_le (find_le start k n) with hk | hk
    · exact Nat.lt_of_not_le
        (Nat.findGreatest_is_greatest (P := (start · ≤ n)) (Nat.lt_succ_self _) hk)
    · rwa [hk]
  rw [h.succ] at hlt
  omega

end Blocks

/-! ## The calendar -/

/-- The years with a 29th of February. -/
def isLeap (year : Nat) : Bool := year % 4 == 0 && (year % 100 != 0 || year % 400 == 0)

def yearLength (year : Nat) : Nat := if isLeap year then 366 else 365

/-- The number of days from the first of January of the year 0 to that of `year`. -/
def yearStart (year : Nat) : Nat :=
  365 * year + (year + 3) / 4 - (year + 99) / 100 + (year + 399) / 400

theorem blocks_year : Blocks yearStart yearLength := by
  constructor
  · decide
  intro year
  -- each of the three quotients grows in the year after a multiple
  have h4 : (year + 1 + 3) / 4 = (year + 3) / 4 + if year % 4 = 0 then 1 else 0 := by
    split <;> omega
  have h100 : (year + 1 + 99) / 100 = (year + 99) / 100 + if year % 100 = 0 then 1 else 0 := by
    split <;> omega
  have h400 : (year + 1 + 399) / 400 = (year + 399) / 400 + if year % 400 = 0 then 1 else 0 := by
    split <;> omega
  have hle : (year + 99) / 100 ≤ (year + 3) / 4 := by omega
  have h100' : year % 100 = 0 → year % 4 = 0 := by omega
  have h400' : year % 400 = 0 → year % 100 = 0 := by omega
  unfold yearStart yearLength isLeap
  rw [h4, h100, h400]
  generalize (year + 3) / 4 = leaps at hle ⊢
  generalize (year + 99) / 100 = centuries at hle ⊢
  generalize (year + 399) / 400 = cycles
  by_cases h : year % 4 = 0
  · by_cases h' : year % 100 = 0
    · by_cases h'' : year % 400 = 0
      · simp [h, h', h'']
        omega
      · simp [h, h', h'']
        omega
    · simp [h, h', mt h400' h']
      omega
  · simp [h, mt h100' h, mt h400' (mt h100' h)]
    omega

/-- The number of days of month `month`, counted from 1. -/
def monthLength (year month : Nat) : Nat :=
  match month with
  | 2 => if isLeap year then 29 else 28
  | 4 | 6 | 9 | 11 => 30
  | _ => 31

theorem monthLength_le (year month : Nat) : monthLength year month ≤ 31 := by
  fun_cases monthLength <;> decide

/-- The number of days of a year before those of its month `month + 1`. -/
def monthStart (year : Nat) : Nat → Nat
  | 0 => 0
  | month + 1 => monthStart year month + monthLength year (month + 1)

theorem blocks_month (year : Nat) : Blocks (monthStart year) fun m => monthLength year (m + 1) :=
  ⟨rfl, fun _ => rfl⟩

/-- The twelve months make up the year. -/
theorem monthStart_twelve (year : Nat) : monthStart year 12 = yearLength year := by
  unfold yearLength
  simp only [monthStart, monthLength]
  split <;> rfl

/-- The nanoseconds of a second, a minute, an hour and a day. -/
abbrev nsPerSecond : Nat := 1000000000
abbrev nsPerMinute : Nat := 60 * nsPerSecond
abbrev nsPerHour : Nat := 60 * nsPerMinute
abbrev nsPerDay : Nat := 24 * nsPerHour

/-- A date and time of the years 0000 to 9999, in UTC. -/
@[ext] structure CivilTime where
  year : Nat
  month : Nat
  day : Nat
  hour : Nat
  minute : Nat
  second : Nat
  nanosecond : Nat
  year_lt : year < 10000
  month_mem : 1 ≤ month ∧ month ≤ 12
  day_mem : 1 ≤ day ∧ day ≤ monthLength year month
  hour_lt : hour < 24
  minute_lt : minute < 60
  second_lt : second < 60
  nanosecond_lt : nanosecond < nsPerSecond

namespace CivilTime

variable (c d : CivilTime)

def dayOfYear : Nat := monthStart c.year (c.month - 1) + (c.day - 1)

def nsOfMinute : Nat := c.second * nsPerSecond + c.nanosecond

def nsOfHour : Nat := c.minute * nsPerMinute + c.nsOfMinute

def nsOfDay : Nat := c.hour * nsPerHour + c.nsOfHour

/-- The nanoseconds since the year 0 began. -/
def elapsed : Nat := (yearStart c.year + c.dayOfYear) * nsPerDay + c.nsOfDay

end CivilTime

/-- The nanoseconds from the beginning of the year 0 to that of 1970. -/
def epoch : Int := (yearStart 1970 * nsPerDay : Nat)

/-- The nanoseconds since 1970 began. -/
def CivilTime.instant (c : CivilTime) : Int := c.elapsed - epoch

/-- An instant of the years 0000 to 9999. -/
def InRange (t : Int) : Prop := -epoch ≤ t ∧ t < (yearStart 10000 * nsPerDay : Nat) - epoch

instance (t : Int) : Decidable (InRange t) := inferInstanceAs (Decidable (_ ∧ _))

/-! ## The text -/

/-- The last `k` decimal digits of a number. -/
def digits : Nat → Nat → List Char
  | 0, _ => []
  | k + 1, n => (n / 10 ^ k).digitChar :: digits k (n % 10 ^ k)

/-- The end of the text: the offset of UTC. -/
def utcOffset : List Char := ['+', '0', '0', ':', '0', '0']

/-- The fraction of the second with the fewest of 0, 3, 6 or 9 digits that show it exactly,
    and the offset behind it. -/
def fraction (nanosecond : Nat) : List Char :=
  if nanosecond = 0 then utcOffset
  else if nanosecond % 1000000 = 0 then '.' :: (digits 3 (nanosecond / 1000000) ++ utcOffset)
  else if nanosecond % 1000 = 0 then '.' :: (digits 6 (nanosecond / 1000) ++ utcOffset)
  else '.' :: (digits 9 nanosecond ++ utcOffset)

namespace CivilTime

variable (c d : CivilTime)

def secondChars : List Char := digits 2 c.second ++ fraction c.nanosecond

def timeChars : List Char :=
  digits 2 c.hour ++ ':' :: (digits 2 c.minute ++ ':' :: c.secondChars)

def chars : List Char :=
  digits 4 c.year ++ '-' :: (digits 2 c.month ++ '-' :: (digits 2 c.day ++ 'T' :: c.timeChars))

/-- The text, such as `2024-01-15T12:34:56.250+00:00`. -/
def text : String := String.ofList c.chars

end CivilTime

/-! ## The order of the texts -/

theorem digitChar_lt {p q : Nat} (hpq : p < q) (hq : q < 10) : p.digitChar < q.digitChar := by
  have hall : ∀ q < 10, ∀ p < q, p.digitChar < q.digitChar := by decide
  exact hall q hq p hpq

theorem plus_lt_digitChar {p : Nat} (hp : p < 10) : '+' < p.digitChar := by
  have hall : ∀ p < 10, '+' < p.digitChar := by decide
  exact hall p hp

/-- The leading digit and the rest of two numbers, compared. -/
private theorem leading_cases {k m n : Nat} (hlt : m < n) :
    m / 10 ^ k < n / 10 ^ k ∨ m / 10 ^ k = n / 10 ^ k ∧ m % 10 ^ k < n % 10 ^ k := by
  apply (Blocks.mul (10 ^ k)).lt_or_eq (Nat.mod_lt n (Nat.pow_pos (by decide)))
  rwa [Nat.div_add_mod', Nat.div_add_mod']

/-- Numbers with equally many digits are ordered as their digits. -/
theorem digits_append_lt {k m n : Nat} (hlt : m < n) (hn : n < 10 ^ k) (s t : List Char) :
    digits k m ++ s < digits k n ++ t := by
  induction k generalizing m n with
  | zero => omega
  | succ k ih =>
    have hpos : 0 < 10 ^ k := Nat.pow_pos (by decide)
    have hdigit : n / 10 ^ k < 10 := by
      rw [Nat.div_lt_iff_lt_mul hpos, Nat.mul_comm, ← Nat.pow_succ]
      exact hn
    apply List.cons_lt_cons_iff.mpr
    rcases leading_cases hlt with hlead | ⟨hlead, hrest⟩
    · exact Or.inl (digitChar_lt hlead hdigit)
    · exact Or.inr ⟨congrArg Nat.digitChar hlead, ih hrest (Nat.mod_lt _ hpos)⟩

/-- A field that is smaller, or equal with the smaller rest behind it. -/
theorem field_lt {k m n : Nat} (hn : n < 10 ^ k) {s t : List Char} (h : m < n ∨ m = n ∧ s < t) :
    digits k m ++ s < digits k n ++ t := by
  rcases h with hlt | ⟨rfl, hst⟩
  · exact digits_append_lt hlt hn s t
  · exact List.append_left_lt hst

/-- Fractions with `j` and `k` digits, closed by a `+`, are ordered as their values: the `+`
    is smaller than the digit that the longer one shows in its place. -/
theorem decimals_lt {j k a b : Nat} (ha : a < 10 ^ j) (hb : b < 10 ^ k)
    (hlt : a * 10 ^ k < b * 10 ^ j) (s t : List Char) :
    digits j a ++ '+' :: s < digits k b ++ '+' :: t := by
  induction j generalizing k a b with
  | zero =>
    -- nothing is left of `a`, so `b` shows a digit
    cases k with
    | zero => simp_all
    | succ k =>
      have hpos : 0 < 10 ^ k := Nat.pow_pos (by decide)
      apply List.cons_lt_cons_iff.mpr
      refine Or.inl (plus_lt_digitChar ?_)
      rw [Nat.div_lt_iff_lt_mul hpos, Nat.mul_comm, ← Nat.pow_succ]
      exact hb
  | succ j ih =>
    cases k with
    | zero => simp_all
    | succ k =>
      have hj : 0 < 10 ^ j := Nat.pow_pos (by decide)
      have hk : 0 < 10 ^ k := Nat.pow_pos (by decide)
      have hdigit : b / 10 ^ k < 10 := by
        rw [Nat.div_lt_iff_lt_mul hk, Nat.mul_comm, ← Nat.pow_succ]
        exact hb
      -- the leading digits count by blocks of `10 ^ (j + k)`
      have hscaled : a / 10 ^ j * (10 ^ j * 10 ^ k) + a % 10 ^ j * 10 ^ k <
          b / 10 ^ k * (10 ^ j * 10 ^ k) + b % 10 ^ k * 10 ^ j := by
        apply Nat.lt_of_mul_lt_mul_right (a := 10)
        calc (a / 10 ^ j * (10 ^ j * 10 ^ k) + a % 10 ^ j * 10 ^ k) * 10
            = (a / 10 ^ j * 10 ^ j + a % 10 ^ j) * 10 ^ (k + 1) := by ring
          _ = a * 10 ^ (k + 1) := by rw [Nat.div_add_mod']
          _ < b * 10 ^ (j + 1) := hlt
          _ = (b / 10 ^ k * 10 ^ k + b % 10 ^ k) * 10 ^ (j + 1) := by rw [Nat.div_add_mod']
          _ = (b / 10 ^ k * (10 ^ j * 10 ^ k) + b % 10 ^ k * 10 ^ j) * 10 := by ring
      have hrest : b % 10 ^ k * 10 ^ j < 10 ^ j * 10 ^ k := by
        rw [Nat.mul_comm (10 ^ j)]
        exact Nat.mul_lt_mul_of_pos_right (Nat.mod_lt _ hk) hj
      apply List.cons_lt_cons_iff.mpr
      rcases (Blocks.mul (10 ^ j * 10 ^ k)).lt_or_eq hrest hscaled with hlead | ⟨hlead, hlt'⟩
      · exact Or.inl (digitChar_lt hlead hdigit)
      · exact Or.inr ⟨congrArg Nat.digitChar hlead,
          ih (Nat.mod_lt _ hj) (Nat.mod_lt _ hk) hlt'⟩

/-- Every fraction is a decimal number with its point, or nothing, in front of the offset. -/
theorem fraction_cases (n : Nat) (hn : n < nsPerSecond) :
    n = 0 ∧ fraction n = utcOffset ∨
      ∃ k a, a < 10 ^ k ∧ a * 10 ^ 9 = n * 10 ^ k ∧
        fraction n = '.' :: (digits k a ++ utcOffset) := by
  unfold nsPerSecond at hn
  unfold fraction
  split
  · next h => exact Or.inl ⟨h, rfl⟩
  right
  split
  · exact ⟨3, n / 1000000, by omega, by omega, rfl⟩
  split
  · exact ⟨6, n / 1000, by omega, by omega, rfl⟩
  · exact ⟨9, n, hn, rfl, rfl⟩

theorem fraction_lt {m n : Nat} (hlt : m < n) (hn : n < nsPerSecond) : fraction m < fraction n := by
  rcases fraction_cases n hn with ⟨rfl, -⟩ | ⟨k, b, hb, hbn, htext⟩
  · exact absurd hlt (Nat.not_lt_zero m)
  rw [htext]
  rcases fraction_cases m (hlt.trans hn) with ⟨-, htext'⟩ | ⟨j, a, ha, ham, htext'⟩
  · -- no fraction: the offset begins with `+`, the other text goes on with the point
    rw [htext']
    exact List.cons_lt_cons_iff.mpr (Or.inl (by decide))
  · rw [htext']
    apply List.cons_lt_cons_iff.mpr
    refine Or.inr ⟨rfl, decimals_lt ha hb ?_ _ _⟩
    have hscaled : a * 10 ^ 9 * 10 ^ k < b * 10 ^ 9 * 10 ^ j := by
      rw [ham, hbn, Nat.mul_right_comm n]
      exact Nat.mul_lt_mul_of_pos_right
        (Nat.mul_lt_mul_of_pos_right hlt (Nat.pow_pos (by decide))) (Nat.pow_pos (by decide))
    rw [Nat.mul_right_comm, Nat.mul_right_comm b] at hscaled
    exact Nat.lt_of_mul_lt_mul_right hscaled

namespace CivilTime

variable {c d : CivilTime}

/-! ### Where the fields stand -/

theorem nsOfMinute_lt (c : CivilTime) : c.nsOfMinute < nsPerMinute :=
  (Blocks.mul nsPerSecond).place_lt_start c.second_lt c.nanosecond_lt

theorem nsOfHour_lt (c : CivilTime) : c.nsOfHour < nsPerHour :=
  (Blocks.mul nsPerMinute).place_lt_start c.minute_lt c.nsOfMinute_lt

theorem nsOfDay_lt (c : CivilTime) : c.nsOfDay < nsPerDay :=
  (Blocks.mul nsPerHour).place_lt_start c.hour_lt c.nsOfHour_lt

theorem dayOfMonth_lt (c : CivilTime) :
    c.day - 1 < monthLength c.year (c.month - 1 + 1) := by
  rw [Nat.sub_add_cancel c.month_mem.1]
  have hday := c.day_mem
  omega

theorem dayOfYear_lt (c : CivilTime) : c.dayOfYear < yearLength c.year := by
  have hmonth : c.month - 1 < 12 := by
    have hmem := c.month_mem
    omega
  rw [← monthStart_twelve]
  exact (blocks_month c.year).place_lt_start hmonth c.dayOfMonth_lt

/-! ### Earlier times have smaller texts -/

theorem secondChars_lt (hlt : c.nsOfMinute < d.nsOfMinute) : c.secondChars < d.secondChars := by
  apply field_lt (d.second_lt.trans (by decide))
  refine ((Blocks.mul nsPerSecond).lt_or_eq d.nanosecond_lt hlt).imp_right fun h => ?_
  exact ⟨h.1, fraction_lt h.2 d.nanosecond_lt⟩

theorem timeChars_lt (hlt : c.nsOfDay < d.nsOfDay) : c.timeChars < d.timeChars := by
  apply field_lt (d.hour_lt.trans (by decide))
  refine ((Blocks.mul nsPerHour).lt_or_eq d.nsOfHour_lt hlt).imp_right fun hour => ⟨hour.1, ?_⟩
  apply List.cons_lt_cons_self.mpr
  apply field_lt (d.minute_lt.trans (by decide))
  refine ((Blocks.mul nsPerMinute).lt_or_eq d.nsOfMinute_lt hour.2).imp_right fun minute => ?_
  exact ⟨minute.1, List.cons_lt_cons_self.mpr (secondChars_lt minute.2)⟩

/-- Month and day within a year, with the texts `s` and `t` of the time behind them. -/
private theorem monthChars_lt (hyear : c.year = d.year) {s t : List Char}
    (h : c.dayOfYear < d.dayOfYear ∨ c.dayOfYear = d.dayOfYear ∧ s < t) :
    digits 2 c.month ++ '-' :: (digits 2 c.day ++ 'T' :: s) <
      digits 2 d.month ++ '-' :: (digits 2 d.day ++ 'T' :: t) := by
  have hcday := c.dayOfMonth_lt
  unfold dayOfYear at h
  rw [hyear] at h hcday
  have hcmonth := c.month_mem
  have hdmonth := d.month_mem
  have hday := d.day_mem
  have hlength := monthLength_le d.year d.month
  have hlex := (blocks_month d.year).lex hcday d.dayOfMonth_lt h
  apply field_lt (by omega)
  rcases hlex with hmonth | ⟨hmonth, hrest⟩
  · exact Or.inl (by omega)
  · refine Or.inr ⟨by omega, List.cons_lt_cons_self.mpr (field_lt (by omega) ?_)⟩
    have hpos := c.day_mem.1
    rcases hrest with hlt | ⟨heq, hst⟩
    · exact Or.inl (by omega)
    · exact Or.inr ⟨by omega, List.cons_lt_cons_self.mpr hst⟩

theorem chars_lt (hlt : c.elapsed < d.elapsed) : c.chars < d.chars := by
  have hdate := (blocks_year.lex c.dayOfYear_lt d.dayOfYear_lt
    ((Blocks.mul nsPerDay).lt_or_eq d.nsOfDay_lt hlt))
  apply field_lt d.year_lt
  refine hdate.imp_right fun h => ⟨h.1, List.cons_lt_cons_self.mpr ?_⟩
  exact monthChars_lt h.1 (h.2.imp_right fun time => ⟨time.1, timeChars_lt time.2⟩)

/-- The text of an earlier instant is the smaller one. -/
theorem text_lt (hlt : c.instant < d.instant) : c.text < d.text := by
  rw [String.lt_iff_toList_lt, text, text, String.toList_ofList, String.toList_ofList]
  unfold instant at hlt
  exact chars_lt (by omega)

/-- No two civil times are the same instant. -/
theorem elapsed_inj (h : c.elapsed = d.elapsed) : c = d := by
  obtain ⟨hday, hnsOfDay⟩ := (Blocks.mul nsPerDay).inj c.nsOfDay_lt d.nsOfDay_lt h
  obtain ⟨hyear, hdate⟩ := blocks_year.inj c.dayOfYear_lt d.dayOfYear_lt hday
  have hcday := c.dayOfMonth_lt
  unfold dayOfYear at hdate
  rw [hyear] at hdate hcday
  obtain ⟨hmonth, hday⟩ := (blocks_month d.year).inj hcday d.dayOfMonth_lt hdate
  obtain ⟨hhour, hnsOfHour⟩ := (Blocks.mul nsPerHour).inj c.nsOfHour_lt d.nsOfHour_lt hnsOfDay
  obtain ⟨hminute, hnsOfMinute⟩ :=
    (Blocks.mul nsPerMinute).inj c.nsOfMinute_lt d.nsOfMinute_lt hnsOfHour
  obtain ⟨hsecond, hnano⟩ :=
    (Blocks.mul nsPerSecond).inj c.nanosecond_lt d.nanosecond_lt hnsOfMinute
  have hcmonth := c.month_mem
  have hdmonth := d.month_mem
  have hcpos := c.day_mem
  have hdpos := d.day_mem
  exact CivilTime.ext hyear (by omega) (by omega) hhour hminute hsecond hnano

/-- Every civil time is an instant of these years. -/
theorem inRange_instant (c : CivilTime) : InRange c.instant := by
  have hlt : c.elapsed < yearStart 10000 * nsPerDay :=
    (Blocks.mul nsPerDay).place_lt_start
      (blocks_year.place_lt_start c.year_lt c.dayOfYear_lt) c.nsOfDay_lt
  unfold InRange instant
  omega

end CivilTime

/-! ## The civil time of an instant -/

private theorem day_lt {t : Int} (h : InRange t) :
    (t + epoch).toNat / nsPerDay < yearStart 10000 := by
  rw [Nat.div_lt_iff_lt_mul (by decide)]
  unfold InRange at h
  omega

/-- The civil time of an instant. -/
def civil (t : Int) (h : InRange t) : CivilTime :=
  let ns := (t + epoch).toNat % nsPerDay
  let day := (t + epoch).toNat / nsPerDay
  let year := Blocks.find yearStart 9999 day
  let dayOfYear := day - yearStart year
  let month := Blocks.find (monthStart year) 11 dayOfYear
  have hyear : dayOfYear < yearLength year := (blocks_year.find_spec (day_lt h)).2
  have hmonth := (blocks_month year).find_spec (k := 11) (by rwa [monthStart_twelve])
  { year
    month := month + 1
    day := dayOfYear - monthStart year month + 1
    hour := ns / nsPerHour
    minute := ns / nsPerMinute % 60
    second := ns / nsPerSecond % 60
    nanosecond := ns % nsPerSecond
    year_lt := Nat.lt_succ_of_le (Blocks.find_le ..)
    month_mem := ⟨Nat.le_add_left .., Nat.succ_le_succ (Blocks.find_le ..)⟩
    day_mem := ⟨Nat.le_add_left .., hmonth.2⟩
    hour_lt := (Nat.div_lt_iff_lt_mul (by decide)).mpr (Nat.mod_lt _ (by decide))
    minute_lt := Nat.mod_lt _ (by decide)
    second_lt := Nat.mod_lt _ (by decide)
    nanosecond_lt := Nat.mod_lt _ (by decide) }

/-- It is the civil time of this instant. -/
theorem CivilTime.instant_civil {t : Int} (h : InRange t) : (civil t h).instant = t := by
  have hyear := blocks_year.find_spec (k := 9999) (day_lt h)
  have hdayOfYear : (civil t h).dayOfYear =
      (t + epoch).toNat / nsPerDay - yearStart (civil t h).year := by
    have hmonth := (blocks_month (civil t h).year).find_spec (k := 11)
      (n := (t + epoch).toNat / nsPerDay - yearStart (civil t h).year)
      (by rw [monthStart_twelve]; exact hyear.2)
    exact Nat.add_sub_cancel' hmonth.1
  have hday : yearStart (civil t h).year + (civil t h).dayOfYear =
      (t + epoch).toNat / nsPerDay := by
    rw [hdayOfYear]
    exact Nat.add_sub_cancel' hyear.1
  have hns : (civil t h).nsOfDay = (t + epoch).toNat % nsPerDay := by
    generalize hn : (t + epoch).toNat % nsPerDay = ns
    have hfields : (civil t h).nsOfDay = ns / nsPerHour * nsPerHour +
        (ns / nsPerMinute % 60 * nsPerMinute +
          (ns / nsPerSecond % 60 * nsPerSecond + ns % nsPerSecond)) := by
      rw [← hn]
      rfl
    rw [hfields]
    unfold nsPerHour nsPerMinute nsPerSecond
    omega
  have helapsed : (civil t h).elapsed = (t + epoch).toNat := by
    rw [CivilTime.elapsed, hday, hns, Nat.div_add_mod']
  unfold CivilTime.instant
  rw [helapsed]
  unfold InRange at h
  omega

/-- A civil time is that of its instant. -/
theorem CivilTime.civil_instant (c : CivilTime) : civil c.instant c.inRange_instant = c := by
  apply elapsed_inj
  have h : ((civil c.instant c.inRange_instant).elapsed : Int) - epoch = c.elapsed - epoch :=
    instant_civil c.inRange_instant
  omega

end Rfc3339
