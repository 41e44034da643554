import Mathlib.Algebra.Group.Int.Defs
import Mathlib.Algebra.GroupWithZero.Nat
import Mathlib.Tactic.Common

/-!
# `Tim.Model.Base`: identifiers, instants and errors

The values every part of TIM passes around: `Uuid`, the `chrono` instants and durations with
the range checks that `chrono` makes, and `TimError` (`src/error.rs`).

An instant is a count of nanoseconds since the epoch inside the range that
`DateTime<Utc>` can hold. The range is a field of the type, so arithmetic that leaves it has
no value here: `checkedAdd` gives `none` where `DateTime + Duration` panics.
-/

set_option autoImplicit false

namespace Tim

/-- `uuid::Uuid`, 128 bits. -/
structure Uuid where
  bits : BitVec 128
  deriving DecidableEq

/-! ### `chrono` -/

/-- Nanoseconds in a second. -/
def nanosPerSecond : Int := 1000000000

/-- `DateTime::<Utc>::MIN_UTC.timestamp()`. -/
def minTimestamp : Int := -8334601228800

/-- `DateTime::<Utc>::MAX_UTC.timestamp()`. -/
def maxTimestamp : Int := 8210266876799

/-- `chrono::DateTime<Utc>`: nanoseconds since the epoch, inside the calendar range. -/
structure DateTime where
  ns : Int
  lo : minTimestamp * nanosPerSecond ≤ ns
  hi : ns < (maxTimestamp + 1) * nanosPerSecond
  deriving DecidableEq

/-- `chrono::Duration`, in nanoseconds. -/
structure Duration where
  ns : Int
  deriving DecidableEq

namespace Duration

/-- The bound on the seconds of a `Duration`: it holds `i64::MAX` milliseconds. -/
def maxSeconds : Int := 9223372036854775

/-- `Duration::try_seconds`. `Duration::seconds` panics on `none`. -/
def trySeconds (secs : Int) : Option Duration :=
  if -maxSeconds ≤ secs ∧ secs ≤ maxSeconds then some ⟨secs * nanosPerSecond⟩ else none

/-- `Duration::try_minutes`. `Duration::minutes` panics on `none`. The product is checked
in `i64` before the bound on the seconds is. -/
def tryMinutes (minutes : Int64) : Option Duration :=
  if -2 ^ 63 ≤ minutes.toInt * 60 ∧ minutes.toInt * 60 < 2 ^ 63 then
    trySeconds (minutes.toInt * 60)
  else none

end Duration

namespace DateTime

instance : LE DateTime := ⟨fun a b => a.ns ≤ b.ns⟩

instance : LT DateTime := ⟨fun a b => a.ns < b.ns⟩

instance (a b : DateTime) : Decidable (a ≤ b) := inferInstanceAs (Decidable (a.ns ≤ b.ns))

instance (a b : DateTime) : Decidable (a < b) := inferInstanceAs (Decidable (a.ns < b.ns))

/-- The instant with the given nanoseconds, when it is in range. -/
def ofNanos (ns : Int) : Option DateTime :=
  if h : minTimestamp * nanosPerSecond ≤ ns ∧ ns < (maxTimestamp + 1) * nanosPerSecond then
    some ⟨ns, h.1, h.2⟩
  else none

/-- `DateTime::timestamp`: the whole seconds, rounded down. -/
def timestamp (t : DateTime) : Int64 := Int64.ofInt (t.ns / nanosPerSecond)

/-- `DateTime::<Utc>::from_timestamp(secs, 0)`. -/
def fromTimestamp (secs : Int64) : Option DateTime := ofNanos (secs.toInt * nanosPerSecond)

/-- `DateTime::checked_add_signed`. `t + d` panics on `none`. -/
def checkedAdd (t : DateTime) (d : Duration) : Option DateTime := ofNanos (t.ns + d.ns)

/-- An instant as a `timestamptz` column keeps it, in whole microseconds. -/
def toTimestamptz (t : DateTime) : DateTime where
  ns := t.ns / 1000 * 1000
  lo := by
    have h := t.lo
    have hm : minTimestamp * nanosPerSecond = -8334601228800000000000 := rfl
    omega
  hi := by
    have h := t.hi
    omega

/-- The seconds of an instant fit in an `i64`, so `timestamp` loses nothing. -/
theorem timestamp_toInt (t : DateTime) : t.timestamp.toInt = t.ns / nanosPerSecond := by
  have hlo := t.lo
  have hhi := t.hi
  have hn : nanosPerSecond = 1000000000 := rfl
  have hmin : minTimestamp = -8334601228800 := rfl
  have hmax : maxTimestamp = 8210266876799 := rfl
  rw [hn, hmin] at hlo
  rw [hn, hmax] at hhi
  unfold timestamp
  rw [hn]
  exact Int64.toInt_ofInt_of_le (by omega) (by omega)

/-- Adding a duration moves the count of nanoseconds by exactly that duration. -/
theorem checkedAdd_ns {t t' : DateTime} {d : Duration} (h : t.checkedAdd d = some t') :
    t'.ns = t.ns + d.ns := by
  unfold checkedAdd ofNanos at h
  split at h
  · cases h
    rfl
  · cases h

end DateTime

/-- A duration of so many minutes has that many nanoseconds: nothing is lost inside the range. -/
theorem Duration.tryMinutes_ns {m : Int64} {d : Duration} (h : Duration.tryMinutes m = some d) :
    d.ns = m.toInt * 60 * nanosPerSecond := by
  unfold Duration.tryMinutes Duration.trySeconds at h
  split at h
  · split at h
    · cases h
      rfl
    · cases h
  · cases h

/-! ### `src/error.rs` -/

/-- `TimError`. The `sqlx` and `io` errors appear only through their text. -/
inductive TimError where
  | badRequest (msg : String)
  | unauthorized
  | forbidden
  | notFound (msg : String)
  | payloadTooLarge (max : Nat)
  | unsupportedMediaType
  | unprocessable (msg : String)
  | badGateway (msg : String)
  | upstreamTimeout (msg : String)
  | database (msg : String)
  | crypto (msg : String)
  | config (msg : String)
  | io (msg : String)
  deriving DecidableEq

/-- The `Display` text of a `TimError`. -/
def TimError.display : TimError → String
  | .badRequest m => "bad request: " ++ m
  | .unauthorized => "unauthorized"
  | .forbidden => "forbidden"
  | .notFound m => "not found: " ++ m
  | .payloadTooLarge max => "payload too large: max " ++ toString max ++ " bytes"
  | .unsupportedMediaType => "unsupported media type"
  | .unprocessable m => "unprocessable entity: " ++ m
  | .badGateway m => "bad gateway: " ++ m
  | .upstreamTimeout m => "upstream timeout: " ++ m
  | .database m => "database error: " ++ m
  | .crypto m => "crypto error: " ++ m
  | .config m => "config error: " ++ m
  | .io m => "io error: " ++ m

/-- `clip_untrusted`: the first `max` characters, with an ellipsis when some were cut. -/
def clipUntrusted (s : String) (max : Nat) : String :=
  if max < s.toList.length then String.ofList (s.toList.take max) ++ "…" else s

/-- How a handler can stop without a value: with a `TimError`, or with a panic. -/
inductive Fault where
  | err (e : TimError)
  | panic
  deriving DecidableEq

end Tim
