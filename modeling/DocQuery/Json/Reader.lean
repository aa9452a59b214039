import DocQuery.Json.Token

set_option autoImplicit false

/-! # Values read from JSON

The structure of a JSON text is read by a machine that takes one token at a time. Its stack holds
the arrays and objects that are still open, and no text may open more than a given number of them
at once. A repeated field name keeps its first place and takes its last value. -/

namespace DocQuery.Json

/-- An array or object that is still open and waits for a value: its next item, or the value of the
    named field. Items stand last one first. -/
inductive Frame where
  | array (items : List Value)
  | object (fields : Assoc Value) (name : String)

/-- What the machine waits for. -/
inductive State where
  /-- A value. -/
  | value (frames : List Frame)
  /-- The first item of an array, or its end. -/
  | firstItem (frames : List Frame)
  /-- The first field name of an object, or its end. -/
  | firstField (frames : List Frame)
  /-- The next field name of an object. -/
  | field (fields : Assoc Value) (frames : List Frame)
  /-- The colon after a field name. -/
  | colon (fields : Assoc Value) (name : String) (frames : List Frame)
  /-- A separator or an end, after a complete value. -/
  | after (v : Value) (frames : List Frame)

/-- Start a value inside the given frames. -/
def beginValue (limit : Nat) (frames : List Frame) : Token → Option State
  | .scalar v => some (.after v frames)
  | .beginArray => if frames.length < limit then some (.firstItem frames) else none
  | .beginObject => if frames.length < limit then some (.firstField frames) else none
  | _ => none

/-- One step of the machine. -/
def State.step (limit : Nat) : State → Token → Option State
  | .value frames, token => beginValue limit frames token
  | .firstItem frames, .endArray => some (.after (.array []) frames)
  | .firstItem frames, token => beginValue limit (.array [] :: frames) token
  | .firstField frames, .endObject => some (.after (.object []) frames)
  | .firstField frames, .scalar (.string name) => some (.colon [] name frames)
  | .firstField _, _ => none
  | .field fields frames, .scalar (.string name) => some (.colon fields name frames)
  | .field _ _, _ => none
  | .colon fields name frames, .colon => some (.value (.object fields name :: frames))
  | .colon _ _ _, _ => none
  | .after v (.array items :: frames), .comma => some (.value (.array (v :: items) :: frames))
  | .after v (.array items :: frames), .endArray =>
    some (.after (.array (v :: items).reverse) frames)
  | .after v (.object fields name :: frames), .comma => some (.field (fields.insert name v) frames)
  | .after v (.object fields name :: frames), .endObject =>
    some (.after (.object (fields.insert name v)) frames)
  | .after _ _, _ => none

/-- The value that a sequence of tokens spells, if it spells exactly one. -/
def ofTokens? (limit : Nat) (tokens : List Token) : Option Value :=
  match tokens.foldlM (State.step limit) (.value []) with
  | some (.after v []) => some v
  | _ => none

/-- Read a JSON text in which at most `limit` arrays and objects are open at once. -/
def parseWithin? (limit : Nat) (text : String) : Option Value :=
  (tokens? text.toList).bind (ofTokens? limit)

/-- How many arrays and objects a text may have open at once. -/
def nestingLimit : Nat := 127

/-- Read a JSON text. -/
def parse? (text : String) : Option Value :=
  parseWithin? nestingLimit text

end DocQuery.Json
