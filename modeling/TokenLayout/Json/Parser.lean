import TokenLayout.Json.Lexeme

/-! # Reading JSON

The lexemes of a text are read by a machine with a stack of open containers, one step per lexeme,
so a text of any nesting is read in one pass over its lexemes.
-/

namespace TokenLayout.Json

/-- An open container that waits for a value, with what it holds so far, last first. -/
inductive Frame where
  | array (done : List Json)
  | object (done : List (Literal × Json)) (key : Literal)

/-- What the machine expects next. Members of an object that is not complete stand last first. -/
inductive Phase where
  | value
  | firstItem
  | firstKey
  | key (done : List (Literal × Json))
  | colon (done : List (Literal × Json)) (key : Literal)
  | after (value : Json)

/-- The machine between two lexemes, its open containers innermost first. -/
structure Machine where
  stack : List Frame
  phase : Phase

namespace Machine

def start : Machine :=
  ⟨[], .value⟩

/-- Reads the lexeme that a value starts with. -/
def beginValue (stack : List Frame) : Lexeme → Option Machine
  | .scalar value => some ⟨stack, .after (.scalar value)⟩
  | .openBracket => some ⟨stack, .firstItem⟩
  | .openBrace => some ⟨stack, .firstKey⟩
  | _ => none

/-- Reads the lexeme after a complete value, which goes to the innermost open container. -/
def endValue (value : Json) : List Frame → Lexeme → Option Machine
  | .array done :: stack, .comma => some ⟨.array (value :: done) :: stack, .value⟩
  | .array done :: stack, .closeBracket => some ⟨stack, .after (.array (value :: done).reverse)⟩
  | .object done key :: stack, .comma => some ⟨stack, .key ((key, value) :: done)⟩
  | .object done key :: stack, .closeBrace =>
    some ⟨stack, .after (.object ((key, value) :: done).reverse)⟩
  | _, _ => none

def step : Machine → Lexeme → Option Machine
  | ⟨stack, .value⟩, lexeme => beginValue stack lexeme
  | ⟨stack, .firstItem⟩, .closeBracket => some ⟨stack, .after (.array [])⟩
  | ⟨stack, .firstItem⟩, lexeme => beginValue (.array [] :: stack) lexeme
  | ⟨stack, .firstKey⟩, .closeBrace => some ⟨stack, .after (.object [])⟩
  | ⟨stack, .firstKey⟩, .scalar (.text key) => some ⟨stack, .colon [] key⟩
  | ⟨stack, .key done⟩, .scalar (.text key) => some ⟨stack, .colon done key⟩
  | ⟨stack, .colon done key⟩, .colon => some ⟨.object done key :: stack, .value⟩
  | ⟨stack, .after value⟩, lexeme => endValue value stack lexeme
  | _, _ => none

def run (machine : Machine) (lexemes : List Lexeme) : Option Machine :=
  lexemes.foldlM step machine

/-- The value that was read, if the machine has read exactly one. -/
def result? : Machine → Option Json
  | ⟨[], .after value⟩ => some value
  | _ => none

end Machine

/-- The value that a list of lexemes spells. -/
def ofLexemes? (lexemes : List Lexeme) : Option Json :=
  (Machine.start.run lexemes).bind Machine.result?

/-- The value that a text spells; `none` for a text that is not JSON. -/
def parse? (text : String) : Option Json :=
  (Lexeme.scan text.toList).bind ofLexemes?

end TokenLayout.Json
