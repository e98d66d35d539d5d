/-!
# JSON text

Values are written in two layouts, compact and indented, with fields in the order given. A quote, a backslash and
control characters are escaped; every other character stands for itself.
-/

namespace VirtineCleaning

/-- A value to be written. -/
inductive Json where
  | boolean (b : Bool)
  | number (n : Nat)
  | text (s : String)
  | array (items : List Json)
  | object (fields : List (String × Json))

namespace Json

/-- A character inside quotes. -/
def escape (c : Char) : String :=
  match c with
  | '"' => "\\\""
  | '\\' => "\\\\"
  | '\x08' => "\\b"
  | '\t' => "\\t"
  | '\n' => "\\n"
  | '\x0c' => "\\f"
  | '\r' => "\\r"
  | c =>
    if c.toNat < 0x20 then
      "\\u00" ++ String.singleton (Nat.digitChar (c.toNat / 16)) ++ String.singleton (Nat.digitChar (c.toNat % 16))
    else String.singleton c

/-- A text between quotes. -/
def quote (s : String) : String := "\"" ++ String.join (s.toList.map escape) ++ "\""

mutual

/-- A value on one line, without blanks. -/
def compact : Json → String
  | .boolean b => if b then "true" else "false"
  | .number n => toString n
  | .text s => quote s
  | .array items => "[" ++ ",".intercalate (compactItems items) ++ "]"
  | .object fields => "\x7b" ++ ",".intercalate (compactFields fields) ++ "\x7d"

/-- The items of an array, each on one line. -/
def compactItems : List Json → List String
  | [] => []
  | item :: items => item.compact :: compactItems items

/-- The fields of an object, each on one line. -/
def compactFields : List (String × Json) → List String
  | [] => []
  | (name, value) :: fields => (quote name ++ ":" ++ value.compact) :: compactFields fields

end

/-- Lines between brackets, each on its own and two blanks deeper than the brackets. -/
def enclose (left right : String) (indent : String) : List String → String
  | [] => left ++ right
  | lines => left ++ "\n" ++ ",\n".intercalate (lines.map (indent ++ "  " ++ ·)) ++ "\n" ++ indent ++ right

mutual

/-- A value on as many lines as it has items and fields, at a given depth. -/
def prettyAt (indent : String) : Json → String
  | .boolean b => if b then "true" else "false"
  | .number n => toString n
  | .text s => quote s
  | .array items => enclose "[" "]" indent (prettyItems (indent ++ "  ") items)
  | .object fields => enclose "\x7b" "\x7d" indent (prettyFields (indent ++ "  ") fields)

/-- The items of an array at a given depth. -/
def prettyItems (indent : String) : List Json → List String
  | [] => []
  | item :: items => item.prettyAt indent :: prettyItems indent items

/-- The fields of an object at a given depth. -/
def prettyFields (indent : String) : List (String × Json) → List String
  | [] => []
  | (name, value) :: fields => (quote name ++ ": " ++ value.prettyAt indent) :: prettyFields indent fields

end

/-- A value over several lines, two blanks for each depth. -/
def pretty (j : Json) : String := j.prettyAt ""

end Json

end VirtineCleaning
