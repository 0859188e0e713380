import SuiteLint.Json.Scalar
import SuiteLint.Room

/-!
# Reading JSON

Arrays and objects hold values, so the readers of values, items and members call each other. They
share a bound on their calls; twice the length of the text is more than they need. Containers lie
inside each other as deep as there is room for. A document is one value with nothing but layout
around it.
-/

namespace SuiteLint.Json

mutual

/-- Reads a value that has room for the given number of containers inside each other. -/
def value : (bound room : Nat) → List Char → Read Value
  | 0, _, s => .error (.malformed .value s)
  | bound + 1, room, s =>
    match s, room with
    | '[' :: _, 0 => .error (.tooDeep .array)
    | '[' :: rest, room + 1 =>
      match skipLayout rest with
      | ']' :: rest => .ok (.array [], rest)
      | rest =>
        match items bound room rest with
        | .ok (vs, rest) => .ok (.array vs, rest)
        | .error stop => .error stop
    | '\x7b' :: _, 0 => .error (.tooDeep .object)
    | '\x7b' :: rest, room + 1 =>
      match skipLayout rest with
      | '\x7d' :: rest => .ok (.object [], rest)
      | rest =>
        match members bound room rest with
        | .ok (ms, rest) => .ok (.object (distinct ms), rest)
        | .error stop => .error stop
    | _, _ => scalar bound s

/-- Reads the items of an array and its closing bracket. -/
def items : (bound room : Nat) → List Char → Read (List Value)
  | 0, _, s => .error (.malformed .value s)
  | bound + 1, room, s =>
    match value bound room s with
    | .error stop => .error stop
    | .ok (v, rest) =>
      match skipLayout rest with
      | ']' :: rest => .ok ([v], rest)
      | ',' :: rest =>
        match items bound room (skipLayout rest) with
        | .ok (vs, rest) => .ok (v :: vs, rest)
        | .error stop => .error stop
      | rest => .error (.malformed .comma rest)

/-- Reads the members of an object and its closing brace. -/
def members : (bound room : Nat) → List Char → Read (List (List Symbol × Value))
  | 0, _, s => .error (.malformed .propertyName s)
  | bound + 1, room, s =>
    match s with
    | '"' :: rest =>
      match string bound rest with
      | .error stop => .error stop
      | .ok (key, rest) =>
        match skipLayout rest with
        | ':' :: rest =>
          match value bound room (skipLayout rest) with
          | .error stop => .error stop
          | .ok (v, rest) =>
            match skipLayout rest with
            | '\x7d' :: rest => .ok ([(key, v)], rest)
            | ',' :: rest =>
              match members bound room (skipLayout rest) with
              | .ok (ms, rest) => .ok ((key, v) :: ms, rest)
              | .error stop => .error stop
            | rest => .error (.malformed .comma rest)
        | rest => .error (.malformed .colon rest)
    | _ => .error (.malformed .propertyName s)

end

def document [Room] (s : List Char) : Except Stop Value :=
  match s with
  | '\uFEFF' :: _ => .error (.malformed .byteOrderMark s)
  | _ =>
    match value (2 * s.length + 2) Room.containers (skipLayout s) with
    | .error stop => .error stop
    | .ok (v, rest) =>
      match skipLayout rest with
      | [] => .ok v
      | rest => .error (.malformed .extraData rest)

/-! ## Messages -/

/-- Why a text is no document: what is missing and where, an integer with too many digits, or a
container too deep in others. -/
inductive Error where
  | malformed (complaint : Complaint) (line column offset : Nat)
  | digitLimit (digits : Nat)
  | tooDeep (c : Container)
deriving DecidableEq

/-- The line, the column and the offset of a position, given the text before it. -/
def Error.at (complaint : Complaint) (before : List Char) : Error :=
  .malformed complaint (before.count '\n' + 1)
    ((before.reverse.takeWhile (· != '\n')).length + 1) before.length

/-- The document that a text holds. -/
def parse [Room] (s : List Char) : Except Error Value :=
  match document s with
  | .ok v => .ok v
  | .error (.digitLimit digits) => .error (.digitLimit digits)
  | .error (.tooDeep c) => .error (.tooDeep c)
  | .error (.malformed complaint rest) =>
    .error (.at complaint (s.take (s.length - rest.length)))

def Container.name : Container → String
  | .array => "array"
  | .object => "object"

def Error.message : Error → String
  | .malformed complaint line column offset =>
    complaint.text ++ ": line " ++ toString line ++ " column " ++ toString column ++
      " (char " ++ toString offset ++ ")"
  | .digitLimit digits =>
    "Exceeds the limit (" ++ toString Text.maxDigits ++
      " digits) for integer string conversion: value has " ++ toString digits ++
      " digits; use sys.set_int_max_str_digits() to increase the limit"
  | .tooDeep c =>
    "maximum recursion depth exceeded while decoding a JSON " ++ c.name ++
      " from a unicode string"

end SuiteLint.Json
