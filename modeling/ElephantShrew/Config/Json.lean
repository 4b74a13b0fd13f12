import ElephantShrew.Config.RuntimeConfig

/-!
# A JSON library to run on

Values as the parser leaves them and the conversions used of them, with the
texts of the exceptions they throw, so that a document can be read to the end.
Floating-point numbers are left out.
-/

namespace ElephantShrew.Config

/-- A JSON value.  The keys of an object are distinct. -/
inductive Json where
  | null
  | boolean (b : Bool)
  | integer (n : Int64)
  | unsigned (n : UInt64)
  | string (s : String)
  | array (items : List Json)
  | object (entries : List (String × Json))

namespace Json

def typeName : Json → String
  | null => "null"
  | boolean _ => "boolean"
  | integer _ => "number"
  | unsigned _ => "number"
  | string _ => "string"
  | array _ => "array"
  | object _ => "object"

def typeError {T : Type} (expected : String) (j : Json) : Except String T :=
  .error ("[json.exception.type_error.302] type must be " ++ expected ++ ", but is " ++ j.typeName)

def isObject : Json → Bool
  | object _ => true
  | _ => false

/-- Nothing is found in a value that is no object. -/
def find : Json → String → Option Json
  | object entries, key => entries.lookup key
  | _, _ => none

def getBool : Json → Except String Bool
  | boolean b => .ok b
  | j => typeError "boolean" j

def getString : Json → Except String String
  | string s => .ok s
  | j => typeError "string" j

/-- A negative number is converted, not refused. -/
def getUInt64 : Json → Except String UInt64
  | unsigned n => .ok n
  | integer n => .ok n.toUInt64
  | j => typeError "number" j

/-- The number a stored integer is. -/
def number : Json → Option Int
  | integer n => some n.toInt
  | unsigned n => some n.toNat
  | _ => none

def getStrings : Json → Except String (List String)
  | array items => items.mapM getString
  | j => typeError "array" j

def library : JsonLibrary Json where
  isObject := isObject
  find := find
  getBool := getBool
  getString := getString
  getUInt64 := getUInt64
  getStrings := getStrings

end Json

/-- `elephantshrew.json`, the document that comes with the program. -/
def shipped : Json :=
  .object
    [ ("capture", .object
        [ ("interfaces", .array []), ("record_packets", .boolean false)
        , ("debug_packets", .boolean false) ])
    , ("routing", .object
        [ ("enabled", .boolean false), ("ingress_iface", .string "eth0")
        , ("egress_iface", .string "eth1"), ("bidirectional", .boolean false) ])
    , ("redis", .object
        [ ("host", .string "127.0.0.1"), ("port", .string "6379")
        , ("stream_key", .string "elephantshrew:packets"), ("max_pending_writes", .unsigned 1024)
        , ("connect_timeout_ms", .unsigned 5000), ("drain_timeout_ms", .unsigned 5000) ])
    , ("supervisor", .object
        [ ("restart_delay_ms", .unsigned 2000), ("poll_interval_ms", .unsigned 200) ])
    , ("ui", .object [("show_startup_art", .boolean true)]) ]

/-- A directory with that file in it. -/
def shippedFiles : Files Json := fun path =>
  if path = "elephantshrew.json" then some (.ok shipped) else none

end ElephantShrew.Config
