import AppPlatform.Lib.JsonRoundTrip

/-!
# JavaScript values

The values a handler may return, as far as `JSON.stringify` and the tests for streams and binary
data tell them apart.
-/

namespace Js

/-- What an object other than an array or a plain object is. -/
inductive Kind where
  | file
  | binary
  | stream
  | other
  deriving DecidableEq

/-- What `JSON.stringify` makes of a value: JSON, nothing, or an exception. -/
inductive Written where
  | json (v : Json)
  | nothing
  | throws

/-- The JSON of a value, if it has any. -/
def Written.json? : Written → Option Json
  | .json v => some v
  | .nothing | .throws => none

inductive Value where
  | undefined
  | null
  | bool (b : Bool)
  | num (x : Number)
  | str (s : Text)
  | bigint
  | symbol
  | function
  | array (items : List Value)
  | object (fields : List (Text × Value))
  /-- Any other object; what it serializes to is its own affair (`toJSON`, cycles, internals). -/
  | instance (kind : Kind) (written : Written)

mutual
/-- `SerializeJSONProperty`. -/
def Value.written : Value → Written
  | .undefined | .symbol | .function => .nothing
  | .bigint => .throws
  | .null => .json .null
  | .bool b => .json (.bool b)
  | .num x => .json (.num x)
  | .str s => .json (.str s)
  | .array items =>
    match writtenItems items with
    | some items => .json (.arr items)
    | none => .throws
  | .object fields =>
    match writtenFields fields with
    | some fields => .json (.obj fields)
    | none => .throws
  | .instance _ written => written

/-- An item that is not JSON is written as `null`. -/
def writtenItems : List Value → Option (List Json)
  | [] => some []
  | v :: items =>
    match v.written, writtenItems items with
    | .json v, some items => some (v :: items)
    | .nothing, some items => some (.null :: items)
    | _, _ => none

/-- A property that is not JSON is left out. -/
def writtenFields : List (Text × Value) → Option (List (Text × Json))
  | [] => some []
  | (k, v) :: fields =>
    match v.written, writtenFields fields with
    | .json v, some fields => some ((k, v) :: fields)
    | .nothing, some fields => some fields
    | _, _ => none
end

/-- `typeof v === 'function'`. -/
def Value.isFunction : Value → Bool
  | .function => true
  | _ => false

/-- The own property `k` of a plain object. -/
def Value.field (v : Value) (k : Text) : Value :=
  match v with
  | .object fields => (fields.lookup k).getD .undefined
  | _ => .undefined

/-- The JSON values a condition takes for true. -/
def Json.truthy : Json → Bool
  | .null => false
  | .bool b => b
  | .num .nan => false
  | .num (.infinity _) => true
  | .num (.finite q _) => q ≠ 0
  | .str s => s ≠ []
  | .arr _ | .obj _ => true

/-- The own property `k` of a JSON value that is an object. -/
def Json.field? (v : Json) (k : Text) : Option Json :=
  match v with
  | .obj fields => fields.lookup k
  | _ => none

/-! ### Sizes -/

/-- The length of the text in UTF-8; a surrogate outside a pair is written as U+FFFD. -/
def byteLength : Text → ℕ
  | [] => 0
  | [u] => if u < 0x80 then 1 else if u < 0x800 then 2 else 3
  | u :: v :: rest =>
    if isLead u && isTrail v then 4 + byteLength rest
    else (if u < 0x80 then 1 else if u < 0x800 then 2 else 3) + byteLength (v :: rest)

end Js
