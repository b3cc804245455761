import MsgPack.Time.SystemTime

/-!
# The clock of the system without overflow

The conversions between timestamps and times of the system once more, with negations, sums and
differences that have no result where this is not a number of the width of its word.  Wherever
these conversions have a result, it is that of the conversions themselves; and they have one for
every timestamp, and for every time but the earliest, whose seconds have no opposite.  A
conversion keeps the seconds and the nanoseconds, which is why the one undoes the other and why
times stay in their order.
-/

namespace MsgPack

/-! ## Words -/

/-- A number as a word of 64 bits in two's complement, if it has one. -/
def signed64? (number : Int) : Option Int64 :=
  if -0x8000000000000000 ≤ number ∧ number < 0x8000000000000000 then some (Int64.ofInt number)
  else none

/-- A number as a natural number of 32 bits, if it is one. -/
def unsigned32? (number : Int) : Option Nat :=
  if 0 ≤ number ∧ number < 0x100000000 then some number.toNat else none

theorem signed64?_eq_some_iff {number : Int} {word : Int64} :
    signed64? number = some word ↔ word.toInt = number := by
  have low := word.le_toInt
  have high := word.toInt_lt
  unfold signed64?
  constructor
  · intro held
    split at held
    · cases held
      exact Int64.toInt_ofInt_of_le (by omega) (by omega)
    · cases held
  · rintro rfl
    rw [if_pos (by omega), Int64.ofInt_toInt]

theorem unsigned32?_eq_some_iff {number : Int} {word : Nat} :
    unsigned32? number = some word ↔ (word : Int) = number ∧ word < 0x100000000 := by
  unfold unsigned32?
  constructor
  · intro held
    split at held
    · cases held
      omega
    · cases held
  · rintro ⟨rfl, bound⟩
    rw [if_pos (by omega), Int.toNat_natCast]

theorem toInt_lt_zero {word : Int64} (negative : ¬ 0 ≤ word) : word.toInt < 0 := by
  rw [Int64.le_iff_toInt_le] at negative
  exact Int.lt_of_not_ge negative

/-- A word that is not negative is the same number without a sign. -/
theorem toNat_toUInt64 {word : Int64} (natural : 0 ≤ word.toInt) :
    (word.toUInt64.toNat : Int) = word.toInt := by
  rw [Int64.toNat_toUInt64_of_le (Int64.le_iff_toInt_le.2 natural), ← Int64.toNat_toInt,
    Int.toNat_of_nonneg natural]

/-- The opposite of a word that is not positive is its magnitude without a sign, also where the
word has no opposite with a sign. -/
theorem toUInt64_neg {word : Int64} (negative : word.toInt ≤ 0) :
    (-word).toUInt64 = UInt64.ofNat word.toInt.natAbs := by
  have opposite : -word = Int64.ofNat word.toInt.natAbs := by
    rw [← Int64.ofInt_eq_ofNat, Int.ofNat_natAbs_of_nonpos negative, Int64.ofInt_neg,
      Int64.ofInt_toInt]
  rw [opposite, Int64.toUInt64_ofNat']

theorem toNat_toUInt64_neg {word : Int64} (negative : word.toInt ≤ 0) :
    ((-word).toUInt64.toNat : Int) = -word.toInt := by
  have low := word.le_toInt
  rw [toUInt64_neg negative, UInt64.toNat_ofNat']
  omega

/-- A number without a sign, as a word with one. -/
theorem toInt64_eq_ofInt (word : UInt64) : word.toInt64 = Int64.ofInt word.toNat := by
  rw [Int64.ofInt_eq_ofNat, ← UInt64.toInt64_ofNat', UInt64.ofNat_toNat]

/-- A word that is the sum of a word and a number is the sum with the word of that number. -/
theorem add_of_toInt_eq {left right sum : Int64} {number : Int}
    (word : right = Int64.ofInt number) (same : sum.toInt = left.toInt + number) :
    left + right = sum := by
  rw [← Int64.ofInt_toInt sum, same, Int64.ofInt_add, Int64.ofInt_toInt, word]

/-- A word that is the difference of a word and a number is the difference from the word of that
number. -/
theorem sub_of_toInt_eq {left right difference : Int64} {number : Int}
    (word : right = Int64.ofInt number) (same : difference.toInt = left.toInt - number) :
    left - right = difference := by
  rw [← Int64.ofInt_toInt difference, same, Int64.ofInt_sub, Int64.ofInt_toInt, word]

/-- A word that is an opposite is that of the word. -/
theorem neg_of_toInt_eq {word opposite : Int64} (same : opposite.toInt = -word.toInt) :
    -word = opposite := by
  rw [← Int64.ofInt_toInt opposite, same, Int64.ofInt_neg, Int64.ofInt_toInt]

/-- A number without a sign that has a word with one is the same number in it. -/
theorem toInt_toInt64 {word : UInt64} (bound : word.toNat < 0x8000000000000000) :
    word.toInt64.toInt = word.toNat := by
  rw [toInt64_eq_ofInt]
  exact Int64.toInt_ofInt_of_le (by omega) (by omega)

/-- Only the greatest word has no successor. -/
theorem toInt_succ {word : Int64} (high : word.toInt < 0x7fffffffffffffff) :
    (word + 1).toInt = word.toInt + 1 := by
  have low := word.le_toInt
  have one : (1 : Int64) = Int64.ofInt 1 := rfl
  rw [one, ← Int64.ofInt_toInt word, ← Int64.ofInt_add, Int64.ofInt_toInt,
    Int64.toInt_ofInt_of_le (by omega) (by omega)]

/-! ## Nanoseconds since the epoch -/

/-- A span of time in nanoseconds. -/
def Duration.total (span : Duration) : Int :=
  span.seconds.toNat * nanosecondsPerSecond + span.nanoseconds

/-- The way from the epoch in nanoseconds, negative before it. -/
def EpochDistance.total : EpochDistance → Int
  | after span => span.total
  | before span => -span.total

/-- A time in nanoseconds since the epoch. -/
def SystemTime.total (time : SystemTime) : Int :=
  time.seconds.toInt * nanosecondsPerSecond + time.nanoseconds

namespace SystemTime

/-- A time lies some way from the epoch: after it by its own parts, before it by the opposite of
its seconds, or, with a fraction, by a second less and what is missing to a second. -/
inductive LiesAt (time : SystemTime) : EpochDistance → Prop where
  | after {span : Duration} (seconds : (span.seconds.toNat : Int) = time.seconds.toInt)
      (nanoseconds : span.nanoseconds = time.nanoseconds) : LiesAt time (.after span)
  | whole {span : Duration} (seconds : (span.seconds.toNat : Int) = -time.seconds.toInt)
      (nanoseconds : span.nanoseconds = 0) (full : time.nanoseconds = 0) :
      LiesAt time (.before span)
  | fraction {span : Duration} (seconds : (span.seconds.toNat : Int) = -time.seconds.toInt - 1)
      (nanoseconds : span.nanoseconds + time.nanoseconds = nanosecondsPerSecond) :
      LiesAt time (.before span)

/-- A time lies the way from the epoch that is told, also the earliest one. -/
theorem liesAt_fromEpoch (time : SystemTime) : time.LiesAt time.fromEpoch := by
  have small := time.nanoseconds_lt
  rw [fromEpoch]
  by_cases natural : 0 ≤ time.seconds
  · rw [if_pos natural]
    exact .after (toNat_toUInt64 (Int64.le_iff_toInt_le.1 natural)) rfl
  · have negative := toInt_lt_zero natural
    rw [if_neg natural]
    by_cases full : time.nanoseconds = 0
    · rw [dif_pos full]
      exact .whole (toNat_toUInt64_neg (Int.le_of_lt negative)) rfl full
    · have next := toInt_succ (show time.seconds.toInt < 0x7fffffffffffffff by omega)
      have seconds := toNat_toUInt64_neg (show (time.seconds + 1).toInt ≤ 0 by omega)
      rw [next, Int.neg_add] at seconds
      rw [dif_neg full]
      exact .fraction seconds (Nat.sub_add_cancel (Nat.le_of_lt small))

/-- The way from the epoch to a time is that time in nanoseconds. -/
theorem total_fromEpoch (time : SystemTime) : time.fromEpoch.total = time.total := by
  have second : nanosecondsPerSecond = 1000000000 := rfl
  have lies := time.liesAt_fromEpoch
  generalize time.fromEpoch = distance at lies
  cases lies with
  | after seconds nanoseconds =>
      simp only [EpochDistance.total, Duration.total, total, seconds, nanoseconds]
  | whole seconds nanoseconds full =>
      simp only [EpochDistance.total, Duration.total, total, seconds, nanoseconds, full, second]
      omega
  | fraction seconds nanoseconds =>
      simp only [EpochDistance.total, Duration.total, total, seconds, second]
      omega

/-! ## Conversions with checks -/

/-- The time with these parts, if the nanoseconds are less than a second. -/
def ofParts? (seconds : Int64) (nanoseconds : Nat) : Option SystemTime :=
  if valid : nanoseconds < nanosecondsPerSecond then some ⟨seconds, nanoseconds, valid⟩ else none

/-- A time moved forward, if no sum overflows. -/
def add? (time : SystemTime) (duration : Duration) : Option SystemTime := do
  let seconds ← signed64? (time.seconds.toInt + duration.seconds.toNat)
  let nanoseconds ← unsigned32? (time.nanoseconds + duration.nanoseconds)
  if nanoseconds < nanosecondsPerSecond then ofParts? seconds nanoseconds
  else
    ofParts? (← signed64? (seconds.toInt + 1))
      (← unsigned32? (nanoseconds - nanosecondsPerSecond))

/-- A time moved back by whole seconds, if the difference does not overflow. -/
def subSeconds? (time : SystemTime) (seconds : UInt64) : Option SystemTime := do
  ofParts? (← signed64? (time.seconds.toInt - seconds.toNat)) time.nanoseconds

/-- The time that a timestamp gives, if nothing overflows on the way. -/
def ofTimestamp? (timestamp : Timestamp) : Option SystemTime :=
  if 0 ≤ timestamp.seconds then
    epoch.add? ⟨timestamp.seconds.toUInt64, timestamp.nanoseconds, timestamp.nanoseconds_lt⟩
  else do
    let start ← epoch.subSeconds? (UInt64.ofNat timestamp.seconds.toInt.natAbs)
    start.add? ⟨0, timestamp.nanoseconds, timestamp.nanoseconds_lt⟩

/-- The timestamp of a time, if nothing overflows on the way. -/
def toTimestamp? (time : SystemTime) : Option Timestamp :=
  match time.fromEpoch with
  | .after duration =>
      (Timestamp.ofParts duration.seconds.toInt64 duration.nanoseconds).toOption
  | .before duration => do
      let seconds ← signed64? (-duration.seconds.toInt64.toInt)
      if 0 < duration.nanoseconds then
        (Timestamp.ofParts (← signed64? (seconds.toInt - 1))
          (← unsigned32? (nanosecondsPerSecond - duration.nanoseconds))).toOption
      else (Timestamp.ofParts seconds duration.nanoseconds).toOption

variable {time later : SystemTime} {stamp : Timestamp}

theorem ofParts?_eq_some_iff {seconds : Int64} {nanoseconds : Nat} :
    ofParts? seconds nanoseconds = some time ↔
      time.seconds = seconds ∧ time.nanoseconds = nanoseconds := by
  unfold ofParts?
  constructor
  · intro held
    split at held
    · cases held
      exact ⟨rfl, rfl⟩
    · cases held
  · rintro ⟨rfl, rfl⟩
    rw [dif_pos time.nanoseconds_lt]

theorem toOption_ofParts_eq_some_iff {seconds : Int64} {nanoseconds : Nat} :
    (Timestamp.ofParts seconds nanoseconds).toOption = some stamp ↔
      stamp.seconds = seconds ∧ stamp.nanoseconds = nanoseconds := by
  unfold Timestamp.ofParts
  constructor
  · intro held
    split at held
    · cases held
      exact ⟨rfl, rfl⟩
    · cases held
  · rintro ⟨rfl, rfl⟩
    rw [dif_pos stamp.nanoseconds_lt]
    rfl

/-! ## What the checks let pass -/

/-- A sum that does not overflow is the sum. -/
theorem add_of_add? {duration : Duration} (held : time.add? duration = some later) :
    time.add duration = later := by
  simp only [add?, Option.bind_eq_bind, Option.bind_eq_some_iff, signed64?_eq_some_iff,
    unsigned32?_eq_some_iff] at held
  obtain ⟨seconds, sum, nanoseconds, ⟨fraction, _⟩, held⟩ := held
  have total := add_of_toInt_eq (toInt64_eq_ofInt duration.seconds) sum
  have same : time.nanoseconds + duration.nanoseconds = nanoseconds := by omega
  rw [add]
  by_cases small : nanoseconds < nanosecondsPerSecond
  · rw [if_pos small, ofParts?_eq_some_iff] at held
    rw [dif_pos (same ▸ small)]
    exact SystemTime.ext (total.trans held.1.symm) (same.trans held.2.symm)
  · rw [if_neg small] at held
    simp only [Option.bind_eq_some_iff, signed64?_eq_some_iff, unsigned32?_eq_some_iff,
      ofParts?_eq_some_iff] at held
    obtain ⟨next, carried, rest, ⟨left, _⟩, rfl, rfl⟩ := held
    have succ : seconds + 1 = later.seconds := add_of_toInt_eq rfl carried
    rw [dif_neg (same ▸ small)]
    apply SystemTime.ext
    · exact total ▸ succ
    · change time.nanoseconds + duration.nanoseconds - nanosecondsPerSecond = later.nanoseconds
      omega

/-- A difference that does not overflow is the difference. -/
theorem subSeconds_of_subSeconds? {seconds : UInt64}
    (held : time.subSeconds? seconds = some later) : time.subSeconds seconds = later := by
  simp only [subSeconds?, Option.bind_eq_bind, Option.bind_eq_some_iff, signed64?_eq_some_iff,
    ofParts?_eq_some_iff] at held
  obtain ⟨_, difference, rfl, same⟩ := held
  exact SystemTime.ext (sub_of_toInt_eq (toInt64_eq_ofInt seconds) difference) same.symm

/-- A timestamp that is converted without overflow is converted to the same time. -/
theorem ofTimestamp_of_ofTimestamp? (held : ofTimestamp? stamp = some time) :
    ofTimestamp stamp = time := by
  rw [ofTimestamp?] at held
  rw [ofTimestamp]
  by_cases natural : 0 ≤ stamp.seconds
  · rw [if_pos natural] at held ⊢
    exact add_of_add? held
  · have negative := toInt_lt_zero natural
    rw [if_neg natural] at held ⊢
    obtain ⟨start, moved, added⟩ := Option.bind_eq_some_iff.1 held
    rw [toUInt64_neg (Int.le_of_lt negative), subSeconds_of_subSeconds? moved]
    exact add_of_add? added

/-- A time that is converted without overflow is converted to the same timestamp. -/
theorem toTimestamp_of_toTimestamp? (held : time.toTimestamp? = some stamp) :
    time.toTimestamp = stamp := by
  rw [toTimestamp?] at held
  rw [toTimestamp]
  cases distance : time.fromEpoch with
  | after duration =>
      rw [distance] at held
      obtain ⟨seconds, nanoseconds⟩ := toOption_ofParts_eq_some_iff.1 held
      exact Timestamp.ext seconds.symm nanoseconds.symm
  | before duration =>
      rw [distance] at held
      simp only [Option.bind_eq_bind, Option.bind_eq_some_iff, signed64?_eq_some_iff] at held
      obtain ⟨seconds, opposite, held⟩ := held
      have same := neg_of_toInt_eq opposite
      dsimp only
      by_cases fraction : 0 < duration.nanoseconds
      · rw [if_pos fraction] at held
        simp only [Option.bind_eq_some_iff, signed64?_eq_some_iff, unsigned32?_eq_some_iff,
          toOption_ofParts_eq_some_iff] at held
        obtain ⟨_, borrowed, _, ⟨rest, _⟩, rfl, rfl⟩ := held
        have previous : seconds - 1 = stamp.seconds := sub_of_toInt_eq rfl borrowed
        rw [dif_pos fraction]
        apply Timestamp.ext
        · exact same ▸ previous
        · change nanosecondsPerSecond - duration.nanoseconds = stamp.nanoseconds
          omega
      · rw [if_neg fraction, toOption_ofParts_eq_some_iff] at held
        rw [dif_neg fraction]
        apply Timestamp.ext
        · exact same.trans held.1.symm
        · change 0 = stamp.nanoseconds
          omega

/-! ## What passes the checks -/

/-- A timestamp and a time with the same parts. -/
structure Stamps (stamp : Timestamp) (time : SystemTime) : Prop where
  seconds : time.seconds = stamp.seconds
  nanoseconds : time.nanoseconds = stamp.nanoseconds

/-- A time moved within its second. -/
theorem add?_eq_some {duration : Duration}
    (seconds : later.seconds.toInt = time.seconds.toInt + duration.seconds.toNat)
    (nanoseconds : later.nanoseconds = time.nanoseconds + duration.nanoseconds) :
    time.add? duration = some later := by
  have small := later.nanoseconds_lt
  have bound : later.nanoseconds < 1000000000 := small
  have sum := signed64?_eq_some_iff.2 seconds
  have fraction : unsigned32? (time.nanoseconds + duration.nanoseconds) =
      some later.nanoseconds := unsigned32?_eq_some_iff.2 ⟨by omega, by omega⟩
  simp only [add?, sum, fraction, Option.bind_eq_bind, Option.bind_some, if_pos small]
  exact ofParts?_eq_some_iff.2 ⟨rfl, rfl⟩

theorem subSeconds?_eq_some {seconds : UInt64}
    (difference : later.seconds.toInt = time.seconds.toInt - seconds.toNat)
    (nanoseconds : later.nanoseconds = time.nanoseconds) :
    time.subSeconds? seconds = some later := by
  have moved := signed64?_eq_some_iff.2 difference
  simp only [subSeconds?, moved, Option.bind_eq_bind, Option.bind_some]
  exact ofParts?_eq_some_iff.2 ⟨rfl, nanoseconds⟩

/-- A timestamp is converted without overflow to the time with its parts. -/
theorem ofTimestamp?_of_stamps (stamps : Stamps stamp time) : ofTimestamp? stamp = some time := by
  have seconds := stamps.seconds
  have fraction : time.nanoseconds = epoch.nanoseconds + stamp.nanoseconds :=
    stamps.nanoseconds.trans (Nat.zero_add _).symm
  rw [ofTimestamp?]
  by_cases natural : 0 ≤ stamp.seconds
  · have same := toNat_toUInt64 (Int64.le_iff_toInt_le.1 natural)
    rw [if_pos natural]
    apply add?_eq_some _ fraction
    rw [same, seconds]
    exact (Int.zero_add _).symm
  · have negative := toInt_lt_zero natural
    have magnitude : ((UInt64.ofNat stamp.seconds.toInt.natAbs).toNat : Int) =
        -stamp.seconds.toInt := by
      rw [← toUInt64_neg (Int.le_of_lt negative), toNat_toUInt64_neg (Int.le_of_lt negative)]
    -- The whole seconds lead back to the second of the timestamp, and the fraction forward in it.
    have start : epoch.subSeconds? (UInt64.ofNat stamp.seconds.toInt.natAbs) =
        some ⟨stamp.seconds, 0, nanosecondsPerSecond_pos⟩ := by
      refine subSeconds?_eq_some ?_ rfl
      rw [magnitude]
      change stamp.seconds.toInt = 0 - -stamp.seconds.toInt
      omega
    rw [if_neg natural, start]
    apply add?_eq_some _ fraction
    rw [seconds]
    exact (Int.add_zero _).symm

/-- A time other than the earliest is converted without overflow to the timestamp with its
parts. -/
theorem toTimestamp?_of_stamps (stamps : Stamps stamp time)
    (later : ¬ (time.seconds = Int64.minValue ∧ time.nanoseconds = 0)) :
    time.toTimestamp? = some stamp := by
  have low := time.seconds.le_toInt
  have high := time.seconds.toInt_lt
  have small := time.nanoseconds_lt
  have least : Int64.minValue.toInt = -0x8000000000000000 := rfl
  have seconds := congrArg Int64.toInt stamps.seconds
  have nanoseconds := stamps.nanoseconds
  have lies := time.liesAt_fromEpoch
  rw [toTimestamp?]
  generalize time.fromEpoch = distance at lies
  cases lies with
  | @after span same fraction =>
      have word := toInt_toInt64 (show span.seconds.toNat < 0x8000000000000000 by omega)
      apply toOption_ofParts_eq_some_iff.2
      exact ⟨Int64.toInt_inj.1 (by omega), by omega⟩
  | @whole span same fraction full =>
      -- Only here are the seconds an opposite by themselves, which the least word does not have.
      have bounded : time.seconds.toInt ≠ -0x8000000000000000 := fun minimal =>
        later ⟨Int64.toInt_inj.1 (minimal.trans least.symm), full⟩
      have word := toInt_toInt64 (show span.seconds.toNat < 0x8000000000000000 by omega)
      have opposite : signed64? (-span.seconds.toInt64.toInt) = some stamp.seconds :=
        signed64?_eq_some_iff.2 (by omega)
      simp only [opposite, Option.bind_eq_bind, Option.bind_some, fraction, Nat.lt_irrefl,
        if_false]
      exact toOption_ofParts_eq_some_iff.2 ⟨rfl, by omega⟩
  | @fraction span same rest =>
      have word := toInt_toInt64 (show span.seconds.toNat < 0x8000000000000000 by omega)
      have next := toInt_succ (show stamp.seconds.toInt < 0x7fffffffffffffff by omega)
      have opposite : signed64? (-span.seconds.toInt64.toInt) = some (stamp.seconds + 1) :=
        signed64?_eq_some_iff.2 (by omega)
      have previous : signed64? ((stamp.seconds + 1).toInt - 1) = some stamp.seconds :=
        signed64?_eq_some_iff.2 (by omega)
      have second : nanosecondsPerSecond = 1000000000 := rfl
      have missing : unsigned32? (nanosecondsPerSecond - span.nanoseconds) =
          some stamp.nanoseconds := unsigned32?_eq_some_iff.2 ⟨by omega, by omega⟩
      have positive : 0 < span.nanoseconds := by omega
      simp only [opposite, previous, missing, Option.bind_eq_bind, Option.bind_some, positive,
        if_true]
      exact toOption_ofParts_eq_some_iff.2 ⟨rfl, rfl⟩

example : toTimestamp? ⟨Int64.minValue, 0, nanosecondsPerSecond_pos⟩ = none := by
  decide

/-! ## The conversions themselves -/

/-- A timestamp is converted to the time with its parts. -/
theorem ofTimestamp_of_stamps (stamps : Stamps stamp time) : ofTimestamp stamp = time :=
  ofTimestamp_of_ofTimestamp? (ofTimestamp?_of_stamps stamps)

/-- A time is converted to the timestamp with its parts; the earliest one is its own opposite
once it has wrapped around. -/
theorem toTimestamp_of_stamps (stamps : Stamps stamp time) : time.toTimestamp = stamp := by
  by_cases earliest : time.seconds = Int64.minValue ∧ time.nanoseconds = 0
  · have same : time = ⟨Int64.minValue, 0, nanosecondsPerSecond_pos⟩ :=
      SystemTime.ext earliest.1 earliest.2
    have wrapped : toTimestamp ⟨Int64.minValue, 0, nanosecondsPerSecond_pos⟩ =
        .ofSeconds Int64.minValue := by decide
    rw [same, wrapped]
    exact Timestamp.ext (earliest.1.symm.trans stamps.seconds)
      (earliest.2.symm.trans stamps.nanoseconds)
  · exact toTimestamp_of_toTimestamp? (toTimestamp?_of_stamps stamps earliest)

/-- A timestamp has the parts of the time that it gives. -/
theorem stamps_ofTimestamp (stamp : Timestamp) : Stamps stamp (ofTimestamp stamp) := by
  have same : Stamps stamp ⟨stamp.seconds, stamp.nanoseconds, stamp.nanoseconds_lt⟩ := ⟨rfl, rfl⟩
  rwa [← ofTimestamp_of_stamps same] at same

/-- The timestamp of a time has its parts. -/
theorem stamps_toTimestamp (time : SystemTime) : Stamps time.toTimestamp time := by
  have same : Stamps ⟨time.seconds, time.nanoseconds, time.nanoseconds_lt⟩ time := ⟨rfl, rfl⟩
  rwa [← toTimestamp_of_stamps same] at same

/-- Timestamps compare as the times with their parts. -/
theorem compare_of_stamps {stamp' : Timestamp} {time' : SystemTime} (stamps : Stamps stamp time)
    (stamps' : Stamps stamp' time') : time.compare time' = stamp.compare stamp' := by
  rw [compare, Timestamp.compare, stamps.seconds, stamps.nanoseconds, stamps'.seconds,
    stamps'.nanoseconds]

/-- The seconds of a time are its nanoseconds since the epoch, rounded down to seconds, and the
nanoseconds are the rest. -/
theorem total_parts (time : SystemTime) : time.seconds.toInt = time.total / nanosecondsPerSecond ∧
    (time.nanoseconds : Int) = time.total % nanosecondsPerSecond := by
  have small : time.nanoseconds < 1000000000 := time.nanoseconds_lt
  have second : (nanosecondsPerSecond : Int) = 1000000000 := rfl
  rw [total, second]
  omega

end SystemTime

/-- A timestamp other than the earliest is converted to a time and back without an overflow, and
comes back; so does a time other than the earliest.  Both conversions keep the order, and the
fraction is less than a second in both: the nanoseconds of a timestamp are counted forward from
its second, to which the time is rounded down also before the epoch. -/
theorem SystemTime.timestamp_exact :
    (∀ stamp : Timestamp, ¬ (stamp.seconds = Int64.minValue ∧ stamp.nanoseconds = 0) →
      ofTimestamp? stamp = some (ofTimestamp stamp) ∧
      toTimestamp? (ofTimestamp stamp) = some stamp ∧
      (ofTimestamp stamp).toTimestamp = stamp) ∧
    (∀ time : SystemTime, ¬ (time.seconds = Int64.minValue ∧ time.nanoseconds = 0) →
      time.toTimestamp? = some time.toTimestamp ∧
      ofTimestamp? time.toTimestamp = some time ∧
      ofTimestamp time.toTimestamp = time) ∧
    (∀ stamp stamp' : Timestamp,
      (ofTimestamp stamp).compare (ofTimestamp stamp') = stamp.compare stamp') ∧
    (∀ time time' : SystemTime,
      time.toTimestamp.compare time'.toTimestamp = time.compare time') ∧
    (∀ stamp : Timestamp, (ofTimestamp stamp).nanoseconds < nanosecondsPerSecond ∧
      (ofTimestamp stamp).fromEpoch.total =
        stamp.seconds.toInt * nanosecondsPerSecond + stamp.nanoseconds) ∧
    ∀ time : SystemTime, time.toTimestamp.nanoseconds < nanosecondsPerSecond ∧
      time.fromEpoch.total = time.total ∧
      time.toTimestamp.seconds.toInt = time.fromEpoch.total / nanosecondsPerSecond ∧
      (time.toTimestamp.nanoseconds : Int) = time.fromEpoch.total % nanosecondsPerSecond := by
  refine ⟨?stamp, ?time, ?after, ?before, ?moment, ?floor⟩
  case stamp =>
    intro stamp later
    have stamps := stamps_ofTimestamp stamp
    rw [← stamps.seconds, ← stamps.nanoseconds] at later
    exact ⟨ofTimestamp?_of_stamps stamps, toTimestamp?_of_stamps stamps later,
      toTimestamp_of_stamps stamps⟩
  case time =>
    intro time later
    have stamps := stamps_toTimestamp time
    exact ⟨toTimestamp?_of_stamps stamps later, ofTimestamp?_of_stamps stamps,
      ofTimestamp_of_stamps stamps⟩
  case after =>
    exact fun stamp stamp' =>
      compare_of_stamps (stamps_ofTimestamp stamp) (stamps_ofTimestamp stamp')
  case before =>
    exact fun time time' =>
      (compare_of_stamps (stamps_toTimestamp time) (stamps_toTimestamp time')).symm
  case moment =>
    intro stamp
    have stamps := stamps_ofTimestamp stamp
    rw [total_fromEpoch, total, stamps.seconds, stamps.nanoseconds]
    exact ⟨stamp.nanoseconds_lt, rfl⟩
  case floor =>
    intro time
    have stamps := stamps_toTimestamp time
    rw [total_fromEpoch, ← stamps.seconds, ← stamps.nanoseconds]
    exact ⟨time.nanoseconds_lt, rfl, time.total_parts⟩

/-- A nanosecond after the earliest second, and a nanosecond before the epoch. -/
theorem SystemTime.timestamp_exact_of_negative :
    ∃ (stamp : Timestamp) (time : SystemTime),
      (stamp.seconds = Int64.minValue ∧ stamp.nanoseconds = 1) ∧
      (time.seconds = -1 ∧ time.nanoseconds = 999999999) ∧
      ofTimestamp? stamp = some (ofTimestamp stamp) ∧ (ofTimestamp stamp).toTimestamp = stamp ∧
      time.toTimestamp? = some time.toTimestamp ∧ ofTimestamp time.toTimestamp = time := by
  obtain ⟨stamps, times, _⟩ := SystemTime.timestamp_exact
  have one : 1 < nanosecondsPerSecond := by decide
  have most : 999999999 < nanosecondsPerSecond := by decide
  obtain ⟨held, _, back⟩ := stamps ⟨Int64.minValue, 1, one⟩ fun earliest => by
    cases earliest.2
  obtain ⟨held', _, back'⟩ := times ⟨-1, 999999999, most⟩ fun earliest => by
    cases earliest.2
  exact ⟨_, _, ⟨rfl, rfl⟩, ⟨rfl, rfl⟩, held, back, held', back'⟩

end MsgPack
