import MsgPack.Schema.Basic

/-!
# Names of types

The full name of a type as reports give it: the path of the type and, in angle brackets, the
names of the types it is built from.  A named type is reported by its name.
-/

namespace MsgPack

/-- The name of a scalar type. -/
def Scalar.typeName : Scalar → String
  | .unit => "()"
  | .bool => "bool"
  | .int range => range.name
  | .float32 => "f32"
  | .float64 => "f64"
  | .char => "char"
  | .string => "alloc::string::String"
  | .smallString => "smol_str::SmolStr"
  | .bytes => "bytes::bytes::Bytes"
  | .byteBuffer => "packwire::primitives::ByteBuf"
  | .value => "packwire::value::Value"
  | .timestamp => "packwire::timestamp::Timestamp"
  | .systemTime => "std::time::SystemTime"
  | .duration => "core::time::Duration"
  | .ipv4 => "core::net::ip_addr::Ipv4Addr"
  | .ipv6 => "core::net::ip_addr::Ipv6Addr"
  | .ip => "core::net::ip_addr::IpAddr"
  | .socket => "core::net::socket_addr::SocketAddr"
  | .utcDateTime => "chrono::datetime::DateTime<chrono::offset::utc::Utc>"
  | .plainDateTime => "chrono::naive::datetime::NaiveDateTime"
  | .offsetDateTime => "chrono::datetime::DateTime<chrono::offset::fixed::FixedOffset>"
  | .date => "chrono::naive::date::NaiveDate"
  | .time => "chrono::naive::time::NaiveTime"
  | .guid => "uuid::Uuid"
  | .decimal => "rust_decimal::decimal::Decimal"

/-- The name of the collections of one kind, given the name of their items. -/
def SequenceKind.typeName (item : String) : SequenceKind → String
  | .list => "alloc::vec::Vec<" ++ item ++ ">"
  | .deque => "alloc::collections::vec_deque::VecDeque<" ++ item ++ ">"
  | .linkedList => "alloc::collections::linked_list::LinkedList<" ++ item ++ ">"
  | .slice => "alloc::boxed::Box<[" ++ item ++ "]>"
  | .hashSet => "std::collections::hash::set::HashSet<" ++ item ++ ">"
  | .treeSet => "alloc::collections::btree::set::BTreeSet<" ++ item ++ ">"
  | .indexSet => "indexmap::set::IndexSet<" ++ item ++ ">"
  | .stack => "packwire::collections::Stack<" ++ item ++ ">"

/-- The path of the maps of one kind. -/
def MapKind.path : MapKind → String
  | .hash => "std::collections::hash::map::HashMap"
  | .tree => "alloc::collections::btree::map::BTreeMap"
  | .index => "indexmap::map::IndexMap"

namespace Schema

mutual

/-- The full name of a type. -/
def typeName : Schema → String
  | scalar type => type.typeName
  | typeless => "packwire::typeless::Typeless"
  | option item => "core::option::Option<" ++ typeName item ++ ">"
  | boxed item => "alloc::boxed::Box<" ++ typeName item ++ ">"
  | shared item => "alloc::sync::Arc<" ++ typeName item ++ ">"
  | sequence kind item => kind.typeName (typeName item)
  | array length item => "[" ++ typeName item ++ "; " ++ toString length ++ "]"
  | grid item => "packwire::collections::Array2<" ++ typeName item ++ ">"
  | map kind key value => kind.path ++ "<" ++ typeName key ++ ", " ++ typeName value ++ ">"
  | tuple [item] => "(" ++ typeName item ++ ",)"
  | tuple items => "(" ++ ", ".intercalate (typeNames items) ++ ")"
  | named name => name

/-- The full names of types. -/
def typeNames : List Schema → List String
  | [] => []
  | item :: items => typeName item :: typeNames items

end

/-- A name without the paths in it: of words that stand before a path separator nothing is
left.  `word` is what was read of the present word, the last character first. -/
def dropPaths (word : List Char) : List Char → List Char
  | [] => word.reverse
  | ':' :: rest => dropPaths [] rest
  | character :: rest =>
      if character.isAlphanum || character = '_' then dropPaths (character :: word) rest
      else word.reverse ++ character :: dropPaths [] rest

/-- The name of a type without paths. -/
def shortName (type : Schema) : String :=
  String.ofList (dropPaths [] type.typeName.toList)

end Schema

end MsgPack
