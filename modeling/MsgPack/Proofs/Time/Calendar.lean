import MsgPack.Formatter.Typing
import MsgPack.Proofs.Datum.Reads
import MsgPack.Proofs.Time.Timestamp

/-!
# Instants of the calendar on the wire

The values of the calendar, of the wire and of its payloads differ at their ends: there are leap
seconds and offsets with seconds that no payload has, and payloads whose seconds lie in no year
of the calendar or whose offset no clock has.  What cannot be written is refused, what cannot be
read is not accepted, and everything else is the same instant, fraction and offset on both
sides.
-/

namespace MsgPack

/-! ## Contents in front -/

/-- Bytes that start with a content start with it alone, and with one spelling of it. -/
theorem Content.Stands.unique {content content' : Content} {bytes bytes' rest rest' : Bytes}
    (stands : content.Stands bytes) (stands' : content'.Stands bytes')
    (same : bytes ++ rest = bytes' ++ rest') : bytes = bytes' ∧ content = content' := by
  cases bytes with
  | nil => exact stands.elim
  | cons code bytes =>
      cases bytes' with
      | nil => exact stands'.elim
      | cons code' bytes' =>
          cases Leaf.unique (Content.After.leaf stands) (Content.After.leaf stands') same
          exact ⟨rfl, Content.After.unique stands stands'⟩

/-! ## Extensions of one code -/

namespace Read

variable {α β : Type} {reader after : Reader} {bytes rest payload : Bytes} {result : α}
  {read : Read α} {expected typeCode : Int8} {tells : Bytes → α → Prop}

/-- A read accepts the extensions of one code, in all their forms, with what their payloads
tell. -/
def AcceptsExtension (read : Read α) (expected : Int8) (tells : Bytes → α → Prop) : Prop :=
  Accepts read fun bytes result _ =>
    ∃ payload, (Content.extension expected payload).Stands bytes ∧ tells payload result

namespace AcceptsExtension

theorem congr {other : Bytes → α → Prop} (accepted : AcceptsExtension read expected tells)
    (same : ∀ payload result, other payload result ↔ tells payload result) :
    AcceptsExtension read expected other :=
  Accepts.congr accepted fun _ _ _ => by simp only [same]

/-- What was read may be checked, and converted, before it is accepted. -/
theorem checked (accepted : AcceptsExtension read expected tells) (check : α → Except Error β) :
    AcceptsExtension (read >>= fun found => ofExcept (check found)) expected
      fun payload result => ∃ found, tells payload found ∧ check found = .ok result := by
  apply Accepts.congr (Accepts.checked accepted check)
  intro bytes result left
  constructor
  · rintro ⟨payload, stands, found, told, held⟩
    exact ⟨found, ⟨payload, stands, told⟩, held⟩
  · rintro ⟨found, ⟨payload, stands, told⟩, held⟩
    exact ⟨payload, stands, found, told, held⟩

/-- A converted result is told by the same payloads. -/
theorem mapped (accepted : AcceptsExtension read expected tells) (convert : α → β) :
    AcceptsExtension (return convert (← read)) expected
      fun payload result => ∃ found, tells payload found ∧ result = convert found := by
  apply (accepted.checked fun found => .ok (convert found)).congr
  intro payload result
  simp only [Except.ok.injEq, eq_comm]

/-- Where an extension stands, the code and the payload decide what is read, and the extension
is passed over. -/
theorem of_stands (accepted : AcceptsExtension read expected tells)
    (stands : (Content.extension typeCode payload).Stands bytes)
    (unread : reader.cursor.unread = bytes ++ rest) (ok : read reader = .ok result after) :
    typeCode = expected ∧ tells payload result ∧ reader.Passed bytes after := by
  obtain ⟨bytes', ⟨payload', stands', told⟩, passed⟩ := Accepts.sound accepted ok
  obtain ⟨rfl, same⟩ := stands.unique stands' (unread.symm.trans passed.unread)
  cases same
  exact ⟨rfl, told, passed⟩

theorem exists_ok_iff (accepted : AcceptsExtension read expected tells)
    (stands : (Content.extension typeCode payload).Stands bytes)
    (unread : reader.cursor.unread = bytes ++ rest) :
    (∃ result after, read reader = .ok result after) ↔
      typeCode = expected ∧ ∃ result, tells payload result := by
  constructor
  · rintro ⟨result, after, ok⟩
    obtain ⟨same, told, _⟩ := accepted.of_stands stands unread ok
    exact ⟨same, result, told⟩
  · rintro ⟨rfl, result, told⟩
    obtain ⟨after, ok, _⟩ := Accepts.complete accepted ⟨payload, stands, told⟩ unread
    exact ⟨result, after, ok⟩

end AcceptsExtension

/-- The header of an extension with a code that is wanted, and what is made of the payload. -/
theorem acceptsExtension_headerThen (expected : Int8) {next : ExtensionHeader → Read α}
    {tells : ExtensionHeader → Bytes → α → Prop}
    (payload : ∀ header, Payload header.length (next header) (tells header)) :
    AcceptsExtension (extensionHeaderWith expected >>= next) expected
      fun payload result => tells ⟨expected, payload.length⟩ payload result := by
  rw [extensionHeaderWith_bind]
  refine Accepts.congr (single_extensionThen fun header =>
    .guarded (fun _ => payload header) _).accepts ?_
  intro bytes result left
  constructor
  · rintro ⟨payload, stands, told⟩
    exact ⟨_, stands, expected, payload, rfl, rfl, told⟩
  · rintro ⟨_, stands, typeCode, payload, rfl, same, told⟩
    cases same
    exact ⟨payload, stands, told⟩

theorem acceptsExtension_timestamp : AcceptsExtension timestamp ExtensionCode.timestamp
    fun payload stamp => Timestamp.ofPayload payload = .ok stamp := by
  rw [timestamp_eq]
  refine ((acceptsExtension_headerThen ExtensionCode.timestamp fun header =>
    .guarded (fun _ => .fixed header.length) _).checked Timestamp.ofPayload).congr ?_
  intro payload stamp
  constructor
  · intro ok
    exact ⟨payload, ⟨(Timestamp.ofPayload_eq_ok_iff.1 ok).1, rfl⟩, ok⟩
  · rintro ⟨_, ⟨_, rfl⟩, ok⟩
    exact ok

end Read

/-! ## Instants -/

namespace Instant

variable {payload : Bytes} {moment : Instant} {stamp : Timestamp}

/-- A payload that stands for an instant of the calendar. -/
structure IsPayload (payload : Bytes) : Prop extends Timestamp.IsPayload payload where
  low : minSeconds ≤ Timestamp.payloadSeconds payload
  high : Timestamp.payloadSeconds payload ≤ maxSeconds

/-- The instant that a payload tells. -/
def ofPayload (payload : Bytes) : Instant :=
  ⟨Timestamp.payloadSeconds payload, Timestamp.payloadNanoseconds payload⟩

/-- Why an instant cannot be written: it is a leap second. -/
def refusal? (moment : Instant) : Option Error :=
  if moment.nanoseconds < nanosecondsPerSecond then none
  else some (.invalidValue (.timestampNanoseconds moment.nanoseconds))

theorem ofTimestamp_eq_ok_iff : ofTimestamp stamp = .ok moment ↔
    (minSeconds ≤ stamp.seconds.toInt ∧ stamp.seconds.toInt ≤ maxSeconds) ∧
      moment = ⟨stamp.seconds.toInt, stamp.nanoseconds⟩ := by
  rw [ofTimestamp]
  constructor
  · intro ok
    split at ok
    · rename_i range
      cases ok
      exact ⟨range, rfl⟩
    · cases ok
  · rintro ⟨range, rfl⟩
    rw [if_pos range]

/-- The payloads that are read as an instant are those that stand for one. -/
theorem ofTimestamp_ofPayload_iff :
    (∃ stamp, Timestamp.ofPayload payload = .ok stamp ∧ ofTimestamp stamp = .ok moment) ↔
      IsPayload payload ∧ moment = ofPayload payload := by
  constructor
  · rintro ⟨stamp, ok, range⟩
    obtain ⟨whole, seconds, nanoseconds⟩ := Timestamp.ofPayload_eq_ok_iff.1 ok
    obtain ⟨⟨low, high⟩, rfl⟩ := ofTimestamp_eq_ok_iff.1 range
    rw [seconds] at low high
    rw [ofPayload, ← seconds, ← nanoseconds]
    exact ⟨⟨Timestamp.exists_ofPayload_iff.1 ⟨stamp, ok⟩, low, high⟩, rfl⟩
  · rintro ⟨stands, rfl⟩
    obtain ⟨stamp, ok⟩ := Timestamp.exists_ofPayload_iff.2 stands.toIsPayload
    obtain ⟨_, seconds, nanoseconds⟩ := Timestamp.ofPayload_eq_ok_iff.1 ok
    refine ⟨stamp, ok, ofTimestamp_eq_ok_iff.2 ?_⟩
    rw [ofPayload, ← seconds, ← nanoseconds]
    exact ⟨⟨seconds ▸ stands.low, seconds ▸ stands.high⟩, rfl⟩

/-- A leap second has no timestamp. -/
theorem toTimestamp_of_refusal? {failure : Error} (refused : moment.refusal? = some failure) :
    moment.toTimestamp = .error failure := by
  unfold refusal? at refused
  rw [toTimestamp, Timestamp.ofParts]
  split at refused
  · cases refused
  · rename_i leap
    cases refused
    rw [dif_neg leap]

/-- An instant that is not a leap second is that of its timestamp. -/
theorem exists_toTimestamp (valid : moment.Valid) (whole : moment.refusal? = none) :
    ∃ stamp, moment.toTimestamp = .ok stamp ∧ ofTimestamp stamp = .ok moment := by
  unfold refusal? at whole
  split at whole
  · rename_i fraction
    rcases valid with ⟨low, high, _⟩
    have least : minSeconds = -8334601228800 := rfl
    have most : maxSeconds = 8210266876799 := rfl
    have seconds : (Int64.ofInt moment.seconds).toInt = moment.seconds :=
      Int64.toInt_ofInt_of_le (by omega) (by omega)
    refine ⟨_, Timestamp.ofParts_of_lt fraction, ofTimestamp_eq_ok_iff.2 ?_⟩
    dsimp only
    rw [seconds]
    exact ⟨⟨low, high⟩, rfl⟩
  · cases whole

/-- What a payload tells can be written. -/
theorem valid_ofPayload (stands : IsPayload payload) :
    (ofPayload payload).Valid ∧ (ofPayload payload).refusal? = none := by
  have fraction := stands.fraction
  refine ⟨⟨stands.low, stands.high, ?_⟩, ?_⟩
  · exact Nat.lt_of_lt_of_le fraction (by decide)
  · rw [refusal?, ofPayload, if_pos fraction]

end Instant

theorem Read.acceptsExtension_instant : AcceptsExtension instant ExtensionCode.timestamp
    fun payload moment => Instant.IsPayload payload ∧ moment = .ofPayload payload :=
  (acceptsExtension_timestamp.checked Instant.ofTimestamp).congr
    fun _ _ => Instant.ofTimestamp_ofPayload_iff.symm

/-! ## Offsets -/

namespace ZonedInstant

variable {payload : Bytes} {zoned : ZonedInstant} {stamp : Timestamp} {minutes : Int16}

/-- The bytes of the timestamp in a payload that ends with an offset. -/
def timestampBytes (payload : Bytes) : Bytes :=
  payload.take (payload.length - 2)

/-- The offset in minutes in the last two bytes of a payload. -/
def payloadMinutes (payload : Bytes) : Int :=
  BigEndian.decodeSigned (payload.drop (payload.length - 2))

/-- A payload that stands for an instant of the calendar and an offset that a clock may have. -/
structure IsPayload (payload : Bytes) : Prop where
  whole : payload.length = 6 ∨ payload.length = 10 ∨ payload.length = 14
  instant : Instant.IsPayload (timestampBytes payload)
  low : -1439 ≤ payloadMinutes payload
  high : payloadMinutes payload ≤ 1439

/-- The instant and the offset that a payload tells. -/
def ofPayload (payload : Bytes) : ZonedInstant :=
  ⟨.ofPayload (timestampBytes payload), payloadMinutes payload * 60⟩

/-- Why an instant with an offset cannot be written: the offset is not a number of minutes, or
else the instant is a leap second. -/
def refusal? (zoned : ZonedInstant) : Option Error :=
  if 60 ∣ zoned.offset then zoned.instant.refusal?
  else some (.unwritable (.utcOffset zoned.offset))

/-- The offset in a payload that is long enough is a number of 16 bits. -/
theorem toInt_payloadMinutes (long : 2 ≤ payload.length) :
    (Int16.ofInt (payloadMinutes payload)).toInt = payloadMinutes payload := by
  have bounds := BigEndian.decodeSigned_bounds (payload.drop (payload.length - 2))
  have room : BigEndian.capacity (payload.drop (payload.length - 2)).length = 0x10000 := by
    rw [List.length_drop, Nat.sub_sub_self long]
    rfl
  exact Int16.toInt_ofInt_of_le (by rw [payloadMinutes]; omega) (by rw [payloadMinutes]; omega)

theorem ofTimestamp_eq_ok_iff : ofTimestamp stamp minutes = .ok zoned ↔
    (-1439 ≤ minutes.toInt ∧ minutes.toInt ≤ 1439) ∧
      Instant.ofTimestamp stamp = .ok zoned.instant ∧ zoned.offset = minutes.toInt * 60 := by
  rw [ofTimestamp]
  constructor
  · intro ok
    split at ok
    · cases found : Instant.ofTimestamp stamp with
      | error failure =>
          rw [found] at ok
          cases ok
      | ok moment =>
          rw [found] at ok
          cases ok
          exact ⟨by omega, rfl, rfl⟩
    · cases ok
  · rintro ⟨range, found, offset⟩
    rw [if_pos (by omega), found, ← offset]
    rfl

/-- The payloads that are read as an instant with an offset are those that stand for one. -/
theorem ofTimestamp_ofPayload_iff :
    (∃ found : Timestamp × Int16,
      ((payload.length = 6 ∨ payload.length = 10 ∨ payload.length = 14) ∧
        Timestamp.ofPayload (timestampBytes payload) = .ok found.1 ∧
          found.2 = Int16.ofInt (payloadMinutes payload)) ∧
        ofTimestamp found.1 found.2 = .ok zoned) ↔
      IsPayload payload ∧ zoned = ofPayload payload := by
  constructor
  · rintro ⟨⟨stamp, minutes⟩, ⟨whole, ok, rfl⟩, range⟩
    obtain ⟨⟨low, high⟩, found, offset⟩ := ofTimestamp_eq_ok_iff.1 range
    obtain ⟨instant, same⟩ := Instant.ofTimestamp_ofPayload_iff.1 ⟨stamp, ok, found⟩
    rw [toInt_payloadMinutes (by omega)] at low high offset
    rw [ofPayload, ← same, ← offset]
    exact ⟨⟨whole, instant, low, high⟩, rfl⟩
  · rintro ⟨⟨whole, instant, low, high⟩, rfl⟩
    obtain ⟨stamp, ok, found⟩ := Instant.ofTimestamp_ofPayload_iff.2 ⟨instant, rfl⟩
    refine ⟨(stamp, Int16.ofInt (payloadMinutes payload)), ⟨whole, ok, rfl⟩,
      ofTimestamp_eq_ok_iff.2 ?_⟩
    dsimp only
    rw [toInt_payloadMinutes (by omega)]
    exact ⟨⟨low, high⟩, found, rfl⟩

/-- An offset with seconds has no number of minutes, and a leap second has no timestamp. -/
theorem toTimestamp_of_refusal? {failure : Error} (refused : zoned.refusal? = some failure) :
    zoned.toTimestamp = .error failure := by
  unfold refusal? at refused
  rw [toTimestamp]
  by_cases minutes : 60 ∣ zoned.offset
  · rw [if_pos minutes] at refused
    rw [if_pos (Int.tmod_eq_zero_of_dvd minutes), Instant.toTimestamp_of_refusal? refused]
    rfl
  · rw [if_neg minutes] at refused
    cases refused
    rw [if_neg (mt Int.dvd_of_tmod_eq_zero minutes)]

/-- An instant with an offset that is not refused is that of its timestamp and its minutes. -/
theorem exists_toTimestamp (valid : zoned.Valid) (whole : zoned.refusal? = none) :
    ∃ stamp minutes, zoned.toTimestamp = .ok (stamp, minutes) ∧
      ofTimestamp stamp minutes = .ok zoned := by
  unfold refusal? at whole
  split at whole
  · rename_i divides
    rcases valid with ⟨valid, low, high⟩
    obtain ⟨count, offset⟩ := divides
    have quotient : zoned.offset.tdiv 60 = count := by
      rw [offset]
      exact Int.mul_tdiv_cancel_left count (by decide)
    -- The offset of a clock is less than a day, and its minutes are a number of 16 bits.
    have minutes : (Int16.ofInt count).toInt = count :=
      Int16.toInt_ofInt_of_le (by omega) (by omega)
    obtain ⟨stamp, ok, found⟩ := Instant.exists_toTimestamp valid whole
    refine ⟨stamp, Int16.ofInt count, ?_, ofTimestamp_eq_ok_iff.2 ?_⟩
    · rw [toTimestamp, if_pos (Int.tmod_eq_zero_of_dvd ⟨count, offset⟩), ok, quotient]
      rfl
    · rw [minutes]
      exact ⟨by omega, found, by omega⟩
  · cases whole

/-- What a payload tells can be written. -/
theorem valid_ofPayload (stands : IsPayload payload) :
    (ofPayload payload).Valid ∧ (ofPayload payload).refusal? = none := by
  obtain ⟨valid, whole⟩ := Instant.valid_ofPayload stands.instant
  have low := stands.low
  have high := stands.high
  refine ⟨⟨valid, ?_, ?_⟩, ?_⟩
  · change -86400 < payloadMinutes payload * 60
    omega
  · change payloadMinutes payload * 60 < 86400
    omega
  · have minutes : 60 ∣ (ofPayload payload).offset := Int.dvd_mul_left _ _
    rw [refusal?, if_pos minutes]
    exact whole

end ZonedInstant

namespace Read

theorem acceptsExtension_dateTimeOffset :
    AcceptsExtension dateTimeOffset ExtensionCode.dateTimeOffset fun payload found =>
      (payload.length = 6 ∨ payload.length = 10 ∨ payload.length = 14) ∧
        Timestamp.ofPayload (ZonedInstant.timestampBytes payload) = .ok found.1 ∧
          found.2 = Int16.ofInt (ZonedInstant.payloadMinutes payload) := by
  -- What is checked of the payload, as one check that follows the read of its bytes.
  have same : dateTimeOffset =
      (extensionHeaderWith ExtensionCode.dateTimeOffset >>= fun header => fixed header.length) >>=
        fun payload => ofExcept
          (if payload.length = 6 ∨ payload.length = 10 ∨ payload.length = 14 then
            (Timestamp.ofPayload (ZonedInstant.timestampBytes payload)).map fun stamp =>
              (stamp, Int16.ofInt (ZonedInstant.payloadMinutes payload))
          else .error (.invalidValue (.offsetPayload payload.length))) := by
    rw [dateTimeOffset_eq]
    congr 1
    funext payload
    split
    · rw [ZonedInstant.timestampBytes, ZonedInstant.payloadMinutes]
      dsimp only
      cases Timestamp.ofPayload (payload.take (payload.length - 2)) <;> rfl
    · rfl
  rw [same]
  refine ((acceptsExtension_headerThen ExtensionCode.dateTimeOffset fun header =>
    .fixed header.length).checked _).congr ?_
  rintro payload ⟨stamp, minutes⟩
  constructor
  · rintro ⟨whole, ok, offset⟩
    refine ⟨payload, rfl, ?_⟩
    rw [if_pos whole, ok, ← offset]
    rfl
  · rintro ⟨payload, rfl, held⟩
    split at held
    · rename_i whole
      cases found : Timestamp.ofPayload (ZonedInstant.timestampBytes payload) with
      | error failure =>
          rw [found] at held
          cases held
      | ok other =>
          rw [found] at held
          cases held
          exact ⟨whole, rfl, rfl⟩
    · cases held

theorem acceptsExtension_zonedInstant :
    AcceptsExtension zonedInstant ExtensionCode.dateTimeOffset fun payload zoned =>
      ZonedInstant.IsPayload payload ∧ zoned = .ofPayload payload :=
  (acceptsExtension_dateTimeOffset.checked fun found =>
    ZonedInstant.ofTimestamp found.1 found.2).congr
      fun _ _ => ZonedInstant.ofTimestamp_ofPayload_iff.symm

end Read

/-! ## Types of instants -/

namespace Scalar

/-- The types whose values are instants of the calendar. -/
inductive OfCalendar : Scalar → Prop where
  | utc : OfCalendar .utcDateTime
  | plain : OfCalendar .plainDateTime
  | offset : OfCalendar .offsetDateTime

/-- The type code of the extensions of a type of instants. -/
def calendarCode : Scalar → Int8
  | .offsetDateTime => ExtensionCode.dateTimeOffset
  | _ => ExtensionCode.timestamp

/-- Whether a payload stands for a value of a type of instants. -/
def IsCalendarPayload : Scalar → Bytes → Prop
  | .offsetDateTime, payload => ZonedInstant.IsPayload payload
  | _, payload => Instant.IsPayload payload

/-- The value of a type of instants that a payload tells. -/
def ofCalendarPayload : Scalar → Bytes → Atom
  | .offsetDateTime, payload => .zoned (.ofPayload payload)
  | _, payload => .instant (.ofPayload payload)

/-- Why a value of a type of instants cannot be written. -/
def calendarRefusal? : Atom → Option Error
  | .instant moment => moment.refusal?
  | .zoned moment => moment.refusal?
  | _ => none

variable {type : Scalar} {content : Atom} {payload : Bytes}

/-- An instant is accepted in all forms of an extension of the code of its type. -/
theorem acceptsExtension_read (calendar : type.OfCalendar) :
    Read.AcceptsExtension type.read type.calendarCode fun payload content =>
      type.IsCalendarPayload payload ∧ content = type.ofCalendarPayload payload := by
  cases calendar with
  | utc | plain =>
      apply (Read.acceptsExtension_instant.mapped Atom.instant).congr
      intro payload content
      constructor
      · rintro ⟨stands, rfl⟩
        exact ⟨_, ⟨stands, rfl⟩, rfl⟩
      · rintro ⟨_, ⟨stands, rfl⟩, rfl⟩
        exact ⟨stands, rfl⟩
  | offset =>
      apply (Read.acceptsExtension_zonedInstant.mapped Atom.zoned).congr
      intro payload content
      constructor
      · rintro ⟨stands, rfl⟩
        exact ⟨_, ⟨stands, rfl⟩, rfl⟩
      · rintro ⟨_, ⟨stands, rfl⟩, rfl⟩
        exact ⟨stands, rfl⟩

/-- What a payload tells is a value of the type, and can be written. -/
theorem holds_ofCalendarPayload (calendar : type.OfCalendar)
    (stands : type.IsCalendarPayload payload) : type.Holds (type.ofCalendarPayload payload) ∧
      calendarRefusal? (type.ofCalendarPayload payload) = none := by
  cases calendar with
  | utc | plain => exact Instant.valid_ofPayload stands
  | offset => exact ZonedInstant.valid_ofPayload stands

/-- A value that is refused is not written, and nothing else is. -/
theorem write_of_calendarRefusal? {failure : Error} (calendar : type.OfCalendar)
    (holds : type.Holds content) (refused : calendarRefusal? content = some failure) :
    type.write content = throw failure := by
  cases calendar with
  | utc | plain =>
      cases content <;> first | exact holds.elim | skip
      case instant moment =>
        rw [write, Instant.toTimestamp_of_refusal? refused]
        rfl
  | offset =>
      cases content <;> first | exact holds.elim | skip
      case zoned moment =>
        rw [write, ZonedInstant.toTimestamp_of_refusal? refused]
        rfl

/-- A value that is not refused is written, and is read from what was written. -/
theorem takes_calendar (calendar : type.OfCalendar) (holds : type.Holds content)
    (whole : calendarRefusal? content = none) :
    ∃ bytes, type.write content = Write.emit bytes ∧ Read.Takes 0 type.read bytes content := by
  cases calendar with
  | utc | plain =>
      cases content <;> first | exact holds.elim | skip
      case instant moment =>
        obtain ⟨stamp, ok, found⟩ := Instant.exists_toTimestamp holds whole
        have takes : Read.Takes 0 Read.instant
            (Value.extension ExtensionCode.timestamp stamp.payload).encoding moment := by
          apply (takes_timestamp stamp).andThen
          rw [found]
          exact .pure moment
        refine ⟨_, ?_, takes.mapped Atom.instant⟩
        rw [write, ok]
        exact stamp.write_timestamp
  | offset =>
      cases content <;> first | exact holds.elim | skip
      case zoned moment =>
        obtain ⟨stamp, minutes, ok, found⟩ := ZonedInstant.exists_toTimestamp holds whole
        have takes : Read.Takes 0 Read.zonedInstant
            (Value.extension ExtensionCode.dateTimeOffset
              (stamp.offsetPayload minutes)).encoding moment := by
          apply (Timestamp.takes_dateTimeOffset stamp minutes).andThen
          dsimp only
          rw [found]
          exact .pure moment
        refine ⟨_, ?_, takes.mapped Atom.zoned⟩
        rw [write, ok]
        exact stamp.write_dateTimeOffset minutes

end Scalar

/-- A value of a type of instants is refused just if it is a leap second or has an offset that
is not a number of minutes, of which the offset is checked first, and nothing is written then;
what is written for any other value is read as this value.  Where an extension stands, it is
accepted just if it has the code of the type and its payload stands for an instant of the
calendar, with an offset that a clock may have where there is one; what is read is what the
payload tells, just the extension is passed over, and the value is written again and read from
what was written. -/
theorem Scalar.calendar_exact (type : Scalar) (calendar : type.OfCalendar) :
    (∀ content, type.Holds content →
      (∀ failure, calendarRefusal? content = some failure →
        ∀ writer, type.write content writer = .error failure writer) ∧
      (calendarRefusal? content = none → ∃ bytes,
        (∀ writer, type.write content writer = .ok () (writer.append bytes)) ∧
          Read.Takes 0 type.read bytes content)) ∧
    ∀ (typeCode : Int8) (payload bytes rest : Bytes) (reader : Reader),
      (Content.extension typeCode payload).Stands bytes →
      reader.cursor.unread = bytes ++ rest →
        ((∃ content after, type.read reader = .ok content after) ↔
          typeCode = type.calendarCode ∧ type.IsCalendarPayload payload) ∧
        ∀ content after, type.read reader = .ok content after →
          content = type.ofCalendarPayload payload ∧ reader.Passed bytes after ∧
          ∃ again, (∀ writer, type.write content writer = .ok () (writer.append again)) ∧
            Read.Takes 0 type.read again content := by
  have written {content : Atom} (holds : type.Holds content)
      (whole : calendarRefusal? content = none) : ∃ bytes,
        (∀ writer, type.write content writer = .ok () (writer.append bytes)) ∧
          Read.Takes 0 type.read bytes content := by
    obtain ⟨bytes, emits, takes⟩ := takes_calendar calendar holds whole
    exact ⟨bytes, fun writer => congrFun emits writer, takes⟩
  refine ⟨?write, ?read⟩
  case write =>
    intro content holds
    refine ⟨fun failure refused writer => ?_, written holds⟩
    exact congrFun (write_of_calendarRefusal? calendar holds refused) writer
  case read =>
    intro typeCode payload bytes rest reader stands unread
    have accepted := acceptsExtension_read calendar
    constructor
    · simp only [accepted.exists_ok_iff stands unread, exists_and_left, exists_eq, and_true]
    · intro content after ok
      obtain ⟨_, ⟨tells, rfl⟩, passed⟩ := accepted.of_stands stands unread ok
      obtain ⟨holds, whole⟩ := holds_ofCalendarPayload calendar tells
      exact ⟨rfl, passed, written holds whole⟩

/-- An offset west of the zero meridian is kept, an offset with seconds is what is wrong with a
leap second that has one, and seven seconds are read from the shortest payload. -/
theorem Scalar.calendar_exact_of_offset :
    (∃ bytes, offsetDateTime.write (.zoned ⟨⟨-1, 5⟩, -34200⟩) .empty =
        .ok () (Writer.empty.append bytes) ∧
      Read.Takes 0 offsetDateTime.read bytes (.zoned ⟨⟨-1, 5⟩, -34200⟩)) ∧
    offsetDateTime.write (.zoned ⟨⟨59, 1500000000⟩, 61⟩) .empty =
      .error (.unwritable (.utcOffset 61)) .empty ∧
    ∃ after, plainDateTime.read (.ofBytes [0xd6, 0xff, 0, 0, 0, 7]) =
      .ok (.instant ⟨7, 0⟩) after := by
  obtain ⟨writes, _⟩ := Scalar.calendar_exact .offsetDateTime .offset
  obtain ⟨_, reads⟩ := Scalar.calendar_exact .plainDateTime .plain
  have west : offsetDateTime.Holds (.zoned ⟨⟨-1, 5⟩, -34200⟩) :=
    ⟨⟨by decide, by decide, by decide⟩, by decide, by decide⟩
  have leap : offsetDateTime.Holds (.zoned ⟨⟨59, 1500000000⟩, 61⟩) :=
    ⟨⟨by decide, by decide, by decide⟩, by decide, by decide⟩
  have fits : (Value.extension ExtensionCode.timestamp [0, 0, 0, 7]).Fits :=
    show 4 < 0x100000000 by decide
  have stands : (Content.extension ExtensionCode.timestamp [0, 0, 0, 7]).Stands
      [0xd6, 0xff, 0, 0, 0, 7] := Value.stands_extension fits
  refine ⟨?_, (writes _ leap).1 _ rfl .empty, ?_⟩
  · obtain ⟨bytes, written, takes⟩ := (writes _ west).2 rfl
    exact ⟨bytes, written .empty, takes⟩
  · obtain ⟨accepted, told⟩ := reads _ _ _ [] (.ofBytes [0xd6, 0xff, 0, 0, 0, 7]) stands rfl
    obtain ⟨content, after, ok⟩ :=
      accepted.2 ⟨rfl, ⟨.inl rfl, by decide⟩, by decide, by decide⟩
    obtain ⟨rfl, _⟩ := told content after ok
    exact ⟨after, ok⟩

end MsgPack
