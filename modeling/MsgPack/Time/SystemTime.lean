import MsgPack.Time.Timestamp

/-!
# Spans of time and the clock of the system

A duration never runs backwards.  The system's clock is measured by durations: a time on it
lies a duration after the epoch or a duration before it.  Timestamps and system times
convert into each other through these durations; a time before the epoch that has a fraction
borrows a second for it, since the nanoseconds of a timestamp always count forward.
-/

namespace MsgPack

/-- A span of time. -/
@[ext]
structure Duration where
  seconds : UInt64
  nanoseconds : Nat
  /-- The fraction is less than a second. -/
  nanoseconds_lt : nanoseconds < nanosecondsPerSecond

instance : DecidableEq Duration := fun _ _ =>
  decidable_of_iff _ Duration.ext_iff.symm

/-- A time on the system's clock. -/
@[ext]
structure SystemTime where
  seconds : Int64
  nanoseconds : Nat
  /-- The fraction is less than a second. -/
  nanoseconds_lt : nanoseconds < nanosecondsPerSecond

instance : DecidableEq SystemTime := fun _ _ =>
  decidable_of_iff _ SystemTime.ext_iff.symm

/-- The way from the epoch to a time. -/
inductive EpochDistance where
  | after (duration : Duration)
  | before (duration : Duration)
  deriving DecidableEq

namespace SystemTime

/-- The start of the clock. -/
def epoch : SystemTime :=
  ⟨0, 0, nanosecondsPerSecond_pos⟩

/-- The way from the epoch to a time. -/
def fromEpoch (time : SystemTime) : EpochDistance :=
  if 0 ≤ time.seconds then
    .after ⟨time.seconds.toUInt64, time.nanoseconds, time.nanoseconds_lt⟩
  else if whole : time.nanoseconds = 0 then
    .before ⟨(-time.seconds).toUInt64, 0, nanosecondsPerSecond_pos⟩
  else
    .before
      ⟨(-(time.seconds + 1)).toUInt64, nanosecondsPerSecond - time.nanoseconds, by
        have := time.nanoseconds_lt
        omega⟩

/-- A time moved forward, a full second of nanoseconds carried over. -/
def add (time : SystemTime) (duration : Duration) : SystemTime :=
  let seconds := time.seconds + duration.seconds.toInt64
  let nanoseconds := time.nanoseconds + duration.nanoseconds
  if small : nanoseconds < nanosecondsPerSecond then ⟨seconds, nanoseconds, small⟩
  else
    ⟨seconds + 1, nanoseconds - nanosecondsPerSecond, by
      have := time.nanoseconds_lt
      have := duration.nanoseconds_lt
      omega⟩

/-- A time moved back by whole seconds. -/
def subSeconds (time : SystemTime) (seconds : UInt64) : SystemTime :=
  { time with seconds := time.seconds - seconds.toInt64 }

/-- The time that a timestamp gives. -/
def ofTimestamp (timestamp : Timestamp) : SystemTime :=
  if 0 ≤ timestamp.seconds then
    epoch.add ⟨timestamp.seconds.toUInt64, timestamp.nanoseconds, timestamp.nanoseconds_lt⟩
  else
    (epoch.subSeconds (-timestamp.seconds).toUInt64).add
      ⟨0, timestamp.nanoseconds, timestamp.nanoseconds_lt⟩

/-- The timestamp of a time. -/
def toTimestamp (time : SystemTime) : Timestamp :=
  match time.fromEpoch with
  | .after duration =>
      ⟨duration.seconds.toInt64, duration.nanoseconds, duration.nanoseconds_lt⟩
  | .before duration =>
      if fraction : 0 < duration.nanoseconds then
        ⟨-duration.seconds.toInt64 - 1, nanosecondsPerSecond - duration.nanoseconds, by
          have := duration.nanoseconds_lt
          omega⟩
      else ⟨-duration.seconds.toInt64, 0, nanosecondsPerSecond_pos⟩

/-- Times in their order. -/
def compare (left right : SystemTime) : Ordering :=
  (Ord.compare left.seconds.toInt right.seconds.toInt).then
    (Ord.compare left.nanoseconds right.nanoseconds)

end SystemTime

end MsgPack
