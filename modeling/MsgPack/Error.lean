import MsgPack.Integer
import MsgPack.Text.Hex
import MsgPack.Text.Utf8
import MsgPack.Wire.Format

/-!
# Failures

Everything that can go wrong while values are read or written, as causes with the facts
that a report needs, and the wording of each.  A cause holds no prepared text: two failures
are equal exactly when their causes and facts are.
-/

namespace MsgPack

/-- What a read was looking for when it met a code of another kind. -/
inductive Expected where
  | nil
  | bool
  | integer
  | range (range : IntRange)
  | float32
  | float64
  | str
  | bin
  | array
  | map
  | ext
  | anyValue
  deriving DecidableEq

/-- The name of what was expected, in reports. -/
def Expected.name : Expected → String
  | .nil => "nil"
  | .bool => "bool"
  | .integer => "integer"
  | .range target => target.name
  | .float32 => "f32"
  | .float64 => "f64"
  | .str => "str"
  | .bin => "bin"
  | .array => "array"
  | .map => "map"
  | .ext => "extension"
  | .anyValue => "any value"

/-- What makes well-formed bytes, or given parts, no value of the type in question. -/
inductive Flaw where
  | charScalar (scalar : Nat)
  | timestampNanoseconds (nanoseconds : Nat)
  | timestampPayload (length : Nat)
  | offsetPayload (length : Nat)
  | timestampRange (seconds : Int) (nanoseconds : Nat)
  | utcOffset (minutes : Int)
  | durationNanoseconds (nanoseconds : Nat)
  | date (days : Int)
  | time (seconds nanoseconds : Nat)
  | binaryLength (typeName : String) (expected actual : Nat)
  | addressLength (actual : Nat)
  | extensionLength (code : Int8) (expected actual : Nat)
  | decimalFlags (flags : Nat)
  | dimensions (rows columns : Nat)
  | variantName (name typeName : String)
  | variantIndex (index : Nat) (typeName : String)
  | nameTaken (name holder : String)
  | typeTaken (typeName holder : String)
  | typelessLength (name : String) (declared actual : Nat)
  deriving DecidableEq

/-- The wording of a flaw. -/
def Flaw.message : Flaw → String
  | .charScalar scalar => "invalid char scalar value 0x" ++ Hex.digits scalar
  | .timestampNanoseconds nanoseconds =>
      "timestamp nanoseconds out of range: " ++ toString nanoseconds
  | .timestampPayload length =>
      "timestamp payload must be 4, 8 or 12 bytes, got " ++ toString length
  | .offsetPayload length =>
      "date-time offset payload must be 6, 10 or 14 bytes, got " ++ toString length
  | .timestampRange seconds nanoseconds =>
      "timestamp out of range: " ++ toString seconds ++ " seconds, " ++ toString nanoseconds
        ++ " nanos"
  | .utcOffset minutes => "UTC offset out of range: " ++ toString minutes ++ " minutes"
  | .durationNanoseconds nanoseconds =>
      "duration nanoseconds out of range: " ++ toString nanoseconds
  | .date days => "date out of range: " ++ toString days ++ " days from CE"
  | .time seconds nanoseconds =>
      "invalid time: " ++ toString seconds ++ " seconds from midnight, " ++ toString nanoseconds
        ++ " nanos"
  | .binaryLength typeName expected actual =>
      typeName ++ " expects " ++ toString expected ++ " bytes of binary, got " ++ toString actual
  | .addressLength actual => "IpAddr expects 4 or 16 bytes of binary, got " ++ toString actual
  | .extensionLength code expected actual =>
      ExtensionCode.name code ++ " extension must be " ++ toString expected ++ " bytes, got "
        ++ toString actual
  | .decimalFlags flags => "invalid decimal flags 0x" ++ Hex.padded 8 flags
  | .dimensions rows columns =>
      "array dimensions " ++ toString rows ++ "x" ++ toString columns ++ " overflow"
  | .variantName name typeName => "unknown variant '" ++ name ++ "' for " ++ typeName
  | .variantIndex index typeName =>
      "unknown variant index " ++ toString index ++ " for " ++ typeName
  | .nameTaken name holder => "type name '" ++ name ++ "' is already registered for " ++ holder
  | .typeTaken typeName holder => typeName ++ " is already registered as '" ++ holder ++ "'"
  | .typelessLength name declared actual =>
      "typeless payload for '" ++ name ++ "' declared " ++ toString declared ++ " bytes but "
        ++ toString actual ++ " were read"

/-- What keeps a value from being written. -/
inductive Obstacle where
  /-- A length or a count of more than 32 bits. -/
  | length (what : String) (length : Nat)
  /-- An offset from UTC that is no whole number of minutes. -/
  | utcOffset (seconds : Int)
  /-- A value that is not of the type to be written. -/
  | anotherType (typeName : String)
  deriving DecidableEq

/-- The wording of an obstacle. -/
def Obstacle.message : Obstacle → String
  | .length what size => what ++ " length " ++ toString size ++ " exceeds u32::MAX"
  | .utcOffset seconds =>
      "UTC offset of " ++ toString seconds ++ " seconds is not a whole number of minutes"
  | .anotherType typeName => "typeless delegate for " ++ typeName ++ " got another type"

/-- A failure to read or to write. -/
inductive Error where
  /-- The next code starts no value of the expected kind. -/
  | invalidCode (code : UInt8) (expected : Expected)
  /-- A structure of fixed size holds another number of elements. -/
  | countMismatch (typeName : String) (expected actual : Nat)
  /-- An extension has another type code than the one to be read. -/
  | extensionTypeMismatch (expected actual : Int8)
  /-- The input ends before the value does. -/
  | insufficientData (needed remaining : Nat)
  /-- No resolver of the chain has a formatter for the type. -/
  | formatterNotFound (typeName : String) (chain : List String)
  /-- An integer lies outside the range to be read. -/
  | overflow (number : Int) (target : IntRange)
  /-- The payload of a string is no text. -/
  | invalidUtf8 (failure : Utf8.Failure)
  /-- The bytes are well formed but no value of the type. -/
  | invalidValue (flaw : Flaw)
  /-- Values are nested deeper than the reader allows. -/
  | depthExceeded (limit : Nat)
  /-- A value carries the name of no registered type. -/
  | unknownTypeName (name : String)
  /-- A value is of a type that has no registered name. -/
  | unregisteredType (typeName : String)
  /-- A structure lacks a field that it must have. -/
  | missingField (field typeName : String)
  /-- The value cannot be written. -/
  | unwritable (obstacle : Obstacle)
  deriving DecidableEq

/-- The name of the kind of a failure. -/
def Error.kind : Error → String
  | .invalidCode _ _ => "InvalidCode"
  | .countMismatch _ _ _ => "CountMismatch"
  | .extensionTypeMismatch _ _ => "ExtensionTypeMismatch"
  | .insufficientData _ _ => "InsufficientData"
  | .formatterNotFound _ _ => "FormatterNotFound"
  | .overflow _ _ => "Overflow"
  | .invalidUtf8 _ => "InvalidUtf8"
  | .invalidValue _ => "InvalidValue"
  | .depthExceeded _ => "DepthExceeded"
  | .unknownTypeName _ => "UnknownTypeName"
  | .unregisteredType _ => "UnregisteredType"
  | .missingField _ _ => "MissingField"
  | .unwritable _ => "Encode"

/-- The wording of a failure. -/
def Error.message : Error → String
  | .invalidCode code expected =>
      "Invalid code 0x" ++ Hex.paddedCapital 2 code.toNat ++ " (" ++ (Format.ofCode code).name
        ++ ") while reading " ++ expected.name
  | .countMismatch typeName expected actual =>
      "Count mismatch for " ++ typeName ++ ": expected " ++ toString expected ++ ", got "
        ++ toString actual
  | .extensionTypeMismatch expected actual =>
      "Extension type mismatch: expected " ++ toString expected.toInt ++ " ("
        ++ ExtensionCode.name expected ++ "), got " ++ toString actual.toInt
  | .insufficientData needed remaining =>
      "Insufficient data in buffer: needed " ++ toString needed ++ " bytes, "
        ++ toString remaining ++ " remaining"
  | .formatterNotFound typeName chain =>
      "Formatter not registered for " ++ typeName ++ " (resolvers: "
        ++ " -> ".intercalate chain ++ ")"
  | .overflow number target =>
      "Value " ++ toString number ++ " does not fit in " ++ target.name
  | .invalidUtf8 failure => "Invalid UTF-8 in string payload: " ++ failure.message
  | .invalidValue flaw => "Invalid value: " ++ flaw.message
  | .depthExceeded limit => "Maximum nesting depth of " ++ toString limit ++ " exceeded"
  | .unknownTypeName name => "Unknown type name: " ++ name
  | .unregisteredType typeName => "Type " ++ typeName ++ " has no registered name"
  | .missingField field typeName =>
      "Required field '" ++ field ++ "' not found for " ++ typeName
  | .unwritable obstacle => "Encode error: " ++ obstacle.message

end MsgPack
