import Keto.Library.Calendar
import Keto.Library.Decimal
import Keto.Protocol

/-!
The helper over a time point for ASN.1 times. It writes the universal time that its
local time denotes, and takes what it reads for a local time.
-/
namespace Keto.Asn1

open Protocol Library Library.Calendar

/-- `std::tm`, with the offset that goes with it; the year and the month are as written. -/
structure Tm where
  civil : BrokenDown
  isdst : Bool
  gmtoff : ℤ
  deriving DecidableEq, Repr

def Tm.instant (tm : Tm) : ℤ := seconds tm.civil - tm.gmtoff

def gmtime (t : ℤ) : Tm := ⟨ofSeconds t, false, 0⟩

/-- The time zone of the host: the offset at an instant, whether it is summer time, and the
offset by which a broken-down time is taken for a local one, in standard or in summer time. -/
structure Zone where
  offset : ℤ → ℤ
  isdst : ℤ → Bool
  applied : BrokenDown → Bool → ℤ

namespace Zone

def localtime (zone : Zone) (t : ℤ) : Tm :=
  ⟨ofSeconds (t + zone.offset t), zone.isdst t, zone.offset t⟩

def mktime (zone : Zone) (tm : Tm) : ℤ := seconds tm.civil - zone.applied tm.civil tm.isdst

def fixed (offset : ℤ) : Zone := ⟨fun _ => offset, fun _ => false, fun _ _ => offset⟩

theorem instant_localtime (zone : Zone) (t : ℤ) : (zone.localtime t).instant = t := by
  rw [Tm.instant, localtime, seconds_ofSeconds]
  exact Int.add_sub_cancel t (zone.offset t)

end Zone

abbrev UTCTime := Bytes

namespace UTCTime

def twoDigits (n : ℤ) : Bytes := [Decimal.digit (n.toNat / 10), Decimal.digit (n.toNat % 10)]

def write (time : BrokenDown) : UTCTime :=
  twoDigits (time.year % 100) ++ twoDigits time.month ++ twoDigits time.day ++
    twoDigits time.hour ++ twoDigits time.minute ++ twoDigits time.second ++ text "Z"

def readDigits (first second : UInt8) : ℤ :=
  10 * (first.toNat - 0x30) + (second.toNat - 0x30)

/-- The year is the one with the two digits in the hundred years from the first one on. -/
def read (firstYear : ℤ) (time : UTCTime) : Option BrokenDown :=
  match time with
  | [y, y', m, m', d, d', h, h', i, i', s, s', _] =>
    if time.dropLast.all Decimal.isDigit then
      some ⟨firstYear + (readDigits y y' - firstYear) % 100, readDigits m m', readDigits d d',
        readDigits h h', readDigits i i', readDigits s s'⟩
    else none
  | _ => none

def IsTwoDigits (n : ℤ) : Prop := 0 ≤ n ∧ n < 100

theorem readDigits_digit {n : ℤ} (h : IsTwoDigits n) :
    readDigits (Decimal.digit (n.toNat / 10)) (Decimal.digit (n.toNat % 10)) = n := by
  obtain ⟨hlow, hhigh⟩ := h
  rw [readDigits, Decimal.toNat_digit (by omega), Decimal.toNat_digit (by omega)]
  omega

theorem all_twoDigits {n : ℤ} (h : IsTwoDigits n) : (twoDigits n).all Decimal.isDigit = true := by
  obtain ⟨hlow, hhigh⟩ := h
  have hfirst := @Decimal.isDigit_digit (n.toNat / 10) (by omega)
  have hsecond := @Decimal.isDigit_digit (n.toNat % 10) (by omega)
  simp [twoDigits, hfirst, hsecond]

/-- A broken-down time is read from its text when its year is one of the hundred years. -/
theorem read_write {firstYear : ℤ} {time : BrokenDown} (hlow : firstYear ≤ time.year)
    (hhigh : time.year < firstYear + 100) (hmonth : IsTwoDigits time.month)
    (hday : IsTwoDigits time.day) (hhour : IsTwoDigits time.hour)
    (hminute : IsTwoDigits time.minute) (hsecond : IsTwoDigits time.second) :
    read firstYear (write time) = some time := by
  have hyear : IsTwoDigits (time.year % 100) := ⟨by omega, by omega⟩
  have hdigits : (write time).dropLast.all Decimal.isDigit = true := by
    have hwhole : (write time).dropLast = twoDigits (time.year % 100) ++ twoDigits time.month ++
        twoDigits time.day ++ twoDigits time.hour ++ twoDigits time.minute ++
        twoDigits time.second := rfl
    rw [hwhole]
    simp only [List.all_append, all_twoDigits hyear, all_twoDigits hmonth, all_twoDigits hday,
      all_twoDigits hhour, all_twoDigits hminute, all_twoDigits hsecond, Bool.and_self]
  have hcentury : firstYear + (time.year % 100 - firstYear) % 100 = time.year := by omega
  change (if (write time).dropLast.all Decimal.isDigit = true then _ else _) = _
  rw [if_pos hdigits, readDigits_digit hyear, readDigits_digit hmonth, readDigits_digit hday,
    readDigits_digit hhour, readDigits_digit hminute, readDigits_digit hsecond, hcentury]

end UTCTime

/-- The conversions of asn1c between universal times and their texts, both with `as_gmt`,
and the first year that two digits denote. `asn_UT2time` is `none` where it returns an
error without writing its output. -/
structure TimeCodec where
  firstYear : ℤ
  asn_time2UT : Tm → UTCTime
  asn_UT2time : UTCTime → Option Tm

namespace TimeCodec

variable (codec : TimeCodec)

def InRange (t : ℤ) : Prop :=
  codec.firstYear ≤ (ofSeconds t).year ∧ (ofSeconds t).year < codec.firstYear + 100

instance (t : ℤ) : Decidable (codec.InRange t) := inferInstanceAs (Decidable (_ ∧ _))

/-- A local time is written as the universal time that it denotes, and its text is read as
the broken-down universal time. -/
structure Lawful : Prop where
  writes : ∀ tm : Tm, codec.InRange tm.instant →
    codec.asn_time2UT tm = UTCTime.write (ofSeconds tm.instant)
  reads : ∀ t, codec.InRange t →
    codec.asn_UT2time (UTCTime.write (ofSeconds t)) = some (gmtime t)

def asn1c (firstYear : ℤ) : TimeCodec where
  firstYear := firstYear
  asn_time2UT tm := UTCTime.write (ofSeconds tm.instant)
  asn_UT2time time := (UTCTime.read firstYear time).map fun civil => gmtime (seconds civil)

theorem asn1c_lawful (firstYear : ℤ) : (asn1c firstYear).Lawful where
  writes := fun _ _ => rfl
  reads := by
    intro t ht
    obtain ⟨hlow, hhigh⟩ := ht
    obtain ⟨hmonth, hday, hhour, hminute, hsecond⟩ := ofSeconds_bounds t
    have hread := @UTCTime.read_write firstYear (ofSeconds t) hlow hhigh
      ⟨by omega, by omega⟩ ⟨by omega, by omega⟩ ⟨by omega, by omega⟩ ⟨by omega, by omega⟩
      ⟨by omega, by omega⟩
    have hparsed : (asn1c firstYear).asn_UT2time (UTCTime.write (ofSeconds t)) =
        (UTCTime.read firstYear (UTCTime.write (ofSeconds t))).map fun civil =>
          gmtime (seconds civil) := rfl
    rw [hparsed, hread, Option.map_some, seconds_ofSeconds]

end TimeCodec

/-- The nanoseconds since the beginning of 1970. -/
structure TimeHelper where
  timePoint : ℤ
  deriving DecidableEq, Repr

namespace TimeHelper

variable (codec : TimeCodec) (zone : Zone) (uninitialised : Tm)

/-- `std::chrono::system_clock::to_time_t` and `from_time_t`. -/
def to_time_t (timePoint : ℤ) : ℤ := timePoint.tdiv 1000000000

def from_time_t (t : ℤ) : ℤ := t * 1000000000

/-- What the operations on a `UTCTime_t` have in common; `timeinfo` is not initialized. -/
def decode (time : UTCTime) : TimeHelper :=
  let timeinfo := (codec.asn_UT2time time).getD uninitialised
  ⟨from_time_t (zone.mktime timeinfo)⟩

def ofUTCTime_t (time : UTCTime) : TimeHelper := decode codec zone uninitialised time

def assignUTCTime_t (time : UTCTime) (_helper : TimeHelper) : TimeHelper :=
  decode codec zone uninitialised time

def assignUTCTimePtr (time : UTCTime) (_helper : TimeHelper) : TimeHelper :=
  decode codec zone uninitialised time

def toUTCTime_t (helper : TimeHelper) : UTCTime :=
  codec.asn_time2UT (zone.localtime (to_time_t helper.timePoint))

def assignTimeT (time : ℤ) (_helper : TimeHelper) : TimeHelper := ⟨from_time_t time⟩

def toTimeT (helper : TimeHelper) : ℤ := to_time_t helper.timePoint

def atSecond (t : ℤ) : TimeHelper := ⟨from_time_t t⟩

/-- What is written for a whole second is read as that second, by each of the three
operations and whatever the time was and the variable held before. -/
def Survives (t : ℤ) : Prop :=
  ∀ uninitialised helper,
    ofUTCTime_t codec zone uninitialised ((atSecond t).toUTCTime_t codec zone) = atSecond t ∧
      assignUTCTime_t codec zone uninitialised ((atSecond t).toUTCTime_t codec zone) helper =
        atSecond t ∧
      assignUTCTimePtr codec zone uninitialised ((atSecond t).toUTCTime_t codec zone) helper =
        atSecond t

variable {codec zone}

@[simp] theorem to_time_t_from_time_t (t : ℤ) : to_time_t (from_time_t t) = t := by
  rw [to_time_t, from_time_t]
  exact Int.mul_tdiv_cancel t (by decide)

theorem from_time_t_inj {t t' : ℤ} : from_time_t t = from_time_t t' ↔ t = t' := by
  rw [from_time_t, from_time_t]
  omega

/-- The text is that of the second, whatever the zone of the host. -/
theorem toUTCTime_t_atSecond (hlawful : codec.Lawful) {t : ℤ} (ht : codec.InRange t) :
    (atSecond t).toUTCTime_t codec zone = UTCTime.write (ofSeconds t) := by
  have hinstant := zone.instant_localtime t
  rw [toUTCTime_t, atSecond, to_time_t_from_time_t, hlawful.writes _ (hinstant.symm ▸ ht), hinstant]

/-- What is read is the second less the offset of the host. -/
theorem decode_toUTCTime_t (hlawful : codec.Lawful) {t : ℤ} (ht : codec.InRange t) :
    decode codec zone uninitialised ((atSecond t).toUTCTime_t codec zone) =
      atSecond (t - zone.applied (ofSeconds t) false) := by
  have hread : (codec.asn_UT2time (UTCTime.write (ofSeconds t))).getD uninitialised = gmtime t := by
    rw [hlawful.reads t ht]
    rfl
  have hmktime : zone.mktime (gmtime t) = t - zone.applied (ofSeconds t) false := by
    rw [Zone.mktime, gmtime, seconds_ofSeconds]
  rw [toUTCTime_t_atSecond hlawful ht, decode, hread, hmktime, atSecond]

theorem atSecond_inj {t t' : ℤ} : atSecond t = atSecond t' ↔ t = t' := by
  rw [atSecond, atSecond, TimeHelper.mk.injEq, from_time_t_inj]

/-- A whole second survives exactly when `mktime` takes its universal broken-down time
for a local one with the offset zero. -/
theorem survives_iff (hlawful : codec.Lawful) (zone : Zone) {t : ℤ} (ht : codec.InRange t) :
    Survives codec zone t ↔ zone.applied (ofSeconds t) false = 0 := by
  have hsame : atSecond (t - zone.applied (ofSeconds t) false) = atSecond t ↔
      zone.applied (ofSeconds t) false = 0 := by
    rw [atSecond_inj]
    omega
  rw [← hsame]
  constructor
  · intro h
    rw [← (h (gmtime 0) (atSecond t)).1]
    exact (decode_toUTCTime_t (gmtime 0) hlawful ht).symm
  · intro h uninitialised helper
    have hdecode := (@decode_toUTCTime_t _ zone uninitialised hlawful t ht).trans h
    exact ⟨hdecode, hdecode, hdecode⟩

/-- On a host with one offset the seconds survive exactly if it is zero. -/
theorem survives_fixed_iff (codec : TimeCodec) (hlawful : codec.Lawful) (t : ℤ)
    (ht : codec.InRange t) :
    (∀ zone : Zone, Survives codec zone t ↔ zone.applied (ofSeconds t) false = 0) ∧
      ∀ offset, Survives codec (.fixed offset) t ↔ offset = 0 :=
  ⟨fun zone => survives_iff hlawful zone ht, fun offset => survives_iff hlawful (.fixed offset) ht⟩

/-- The beginning of 1970. -/
theorem survives_fixed_epoch :
    (∀ zone : Zone, Survives (.asn1c 1950) zone 0 ↔ zone.applied (ofSeconds 0) false = 0) ∧
      ∀ offset, Survives (.asn1c 1950) (.fixed offset) 0 ↔ offset = 0 :=
  survives_fixed_iff (.asn1c 1950) (TimeCodec.asn1c_lawful 1950) 0 (by decide +kernel)

/-- One hour east of Greenwich the beginning of 1970 is read as an hour before. -/
theorem read_an_hour_before :
    (atSecond 0).toUTCTime_t (.asn1c 1950) (.fixed 3600) = text "700101000000Z" ∧
      ofUTCTime_t (.asn1c 1950) (.fixed 3600) (gmtime 0) (text "700101000000Z") =
        atSecond (-3600) ∧
      ¬ Survives (.asn1c 1950) (.fixed 3600) 0 := by
  have hwritten : (atSecond 0).toUTCTime_t (.asn1c 1950) (.fixed 3600) = text "700101000000Z" := by
    decide +kernel
  have hread : ofUTCTime_t (.asn1c 1950) (.fixed 3600) (gmtime 0) (text "700101000000Z") =
      atSecond (-3600) := by decide +kernel
  refine ⟨hwritten, hread, ?_⟩
  intro h
  have hsame := (h (gmtime 0) (atSecond 0)).1
  rw [hwritten, hread] at hsame
  exact absurd hsame (by decide)

end TimeHelper

end Keto.Asn1
