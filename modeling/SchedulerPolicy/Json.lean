import SchedulerPolicy.Decimal.Shortest
import SchedulerPolicy.Value

/-!
# Values as JSON

The JSON text of a value, on one line or laid out over lines. JSON is narrower than values in three
ways, and each has its rule: an infinity and a not-a-number become `null`, a key that is a number
or a truth value becomes its text, and a value with any other key that is no text has no JSON text
at all (`Value.json?` is `none`).
-/

namespace SchedulerPolicy

namespace Json

/-- A character inside a quoted text. Only quotes, backslashes and control characters below the
space are escaped. -/
def escaped (c : Char) : String :=
  match c with
  | '"' => "\\\""
  | '\\' => "\\\\"
  | '\n' => "\\n"
  | '\r' => "\\r"
  | '\t' => "\\t"
  | c =>
    if c.toNat = 8 then "\\b"
    else if c.toNat = 12 then "\\f"
    else if c.toNat < 32 then
      "\\u00" ++ String.ofList [Nat.digitChar (c.toNat / 16), Nat.digitChar (c.toNat % 16)]
    else c.toString

/-- A text in quotes. -/
def quoted (s : String) : String :=
  s.foldl (fun acc c => acc ++ escaped c) "\"" ++ "\""

/-- Where the lines of a text end. -/
structure Layout where
  /-- What stands in front of an item at a depth of nesting, and behind the last one. -/
  lineBreak : Nat → String
  /-- What stands between a key and its value. -/
  colon : String

/-- Everything on one line. -/
def Layout.compact : Layout := ⟨fun _ => "", ":"⟩

/-- An item a line, indented by two spaces for each level. -/
def Layout.pretty : Layout := ⟨fun depth => "".pushn '\n' 1 |>.pushn ' ' (2 * depth), ": "⟩

/-- Items between brackets; nothing stands between the brackets of an empty list. -/
def bracketed (layout : Layout) (depth : Nat) (opening closing : String) : List String → String
  | [] => opening ++ closing
  | items =>
    opening ++ String.intercalate "," (items.map (layout.lineBreak (depth + 1) ++ ·)) ++
      layout.lineBreak depth ++ closing

/-- The text of a key. -/
def keyText? : Value → Option String
  | .string s => some s
  | .int n => some (toString n)
  | .bool b => some (toString b)
  | .float x => x.text?
  | _ => none

mutual

/-- The JSON text of a value at a depth of nesting. -/
def render? (layout : Layout) (depth : Nat) : Value → Option String
  | .null => some "null"
  | .bool b => some (toString b)
  | .int n => some (toString n)
  | .float x => some (x.text?.getD "null")
  | .string s => some (quoted s)
  | .seq items => (renderItems? layout (depth + 1) items).map (bracketed layout depth "[" "]")
  | .map entries =>
    (renderEntries? layout (depth + 1) entries).map (bracketed layout depth "\x7b" "\x7d")
  | .tagged tag v =>
    (render? layout (depth + 1) v).map fun s =>
      bracketed layout depth "\x7b" "\x7d" [quoted ("!" ++ tag) ++ layout.colon ++ s]

/-- The texts of the items of a list. -/
def renderItems? (layout : Layout) (depth : Nat) : List Value → Option (List String)
  | [] => some []
  | v :: rest =>
    match render? layout depth v, renderItems? layout depth rest with
    | some s, some ss => some (s :: ss)
    | _, _ => none

/-- The texts of the entries of a mapping. -/
def renderEntries? (layout : Layout) (depth : Nat) : List (Value × Value) → Option (List String)
  | [] => some []
  | (k, v) :: rest =>
    match keyText? k, render? layout depth v, renderEntries? layout depth rest with
    | some key, some s, some ss => some ((quoted key ++ layout.colon ++ s) :: ss)
    | _, _, _ => none

end

end Json

namespace Value

/-- The JSON text of a value on one line; `none` when a key has no text. -/
def json? (v : Value) : Option String := Json.render? .compact 0 v

/-- The JSON text of a value over several lines; `none` when a key has no text. -/
def prettyJson? (v : Value) : Option String := Json.render? .pretty 0 v

end Value

end SchedulerPolicy
