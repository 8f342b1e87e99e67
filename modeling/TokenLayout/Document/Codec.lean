import TokenLayout.Document.Basic
import TokenLayout.Json.Parser
import TokenLayout.Json.Printer
import TokenLayout.Json.Record

/-! # Documents in JSON

The written form of tokens and documents. Writing leaves out empty child lists; reading fills in
an empty text, a line span of one, the mark of hand-written code and no children where a field is
missing. Reading follows at most `Json.nestingLimit` nested arrays and objects, two for every level
of the token tree.
-/

namespace TokenLayout

namespace Token

/-- The fields of a token in their declared order. -/
def fieldNames : List String :=
  ["kind", "text", "line", "start_column", "end_column", "line_span", "generated", "children"]

mutual

def toJson : Token → Json
  | ⟨kind, text, line, startColumn, endColumn, lineSpan, generated, children⟩ =>
    Json.record <|
      [("kind", .text kind.name), ("text", .text text), ("line", .natural line),
        ("start_column", .natural startColumn), ("end_column", .natural endColumn),
        ("line_span", .natural lineSpan), ("generated", .bool generated)] ++
      if children.isEmpty then [] else [("children", .array (listToJson children))]

def listToJson : List Token → List Json
  | [] => []
  | token :: rest => token.toJson :: listToJson rest

end

/-- Reads a token with a given reader for its child list. -/
def ofJsonWith (readChildren : Json → Option (List Token)) (json : Json) : Option Token := do
  let fields ← json.fields? fieldNames
  let kind ← fields.required "kind" Json.text?
  let text ← fields.optional "text" "" Json.text?
  let line ← fields.required "line" Json.number?
  let startColumn ← fields.required "start_column" Json.number?
  let endColumn ← fields.required "end_column" Json.number?
  let lineSpan ← fields.optional "line_span" 1 Json.number?
  let generated ← fields.optional "generated" false Json.bool?
  let children ← fields.optional "children" [] readChildren
  return ⟨Kind.ofName kind, text, line, startColumn, endColumn, lineSpan, generated, children⟩

/-- Reads a token where `room` more arrays and objects may be opened. -/
def ofJson? : Nat → Json → Option Token
  | 0 => fun _ => none
  | 1 => ofJsonWith fun _ => none
  | room + 2 => ofJsonWith fun json => json.items?.bind (·.mapM (ofJson? room))

def listOfJson? : Nat → Json → Option (List Token)
  | 0, _ => none
  | room + 1, json => json.items?.bind (·.mapM (ofJson? room))

end Token

namespace Document

def toJson (document : Document) : Json :=
  Json.record
    [("generated", .bool document.generated), ("tokens", .array (Token.listToJson document.tokens))]

def render (document : Document) : String :=
  document.toJson.write .pretty

/-- Reads a document. -/
def ofJson? (json : Json) : Option Document := do
  let fields ← json.fields? ["generated", "tokens"]
  let generated ← fields.optional "generated" false Json.bool?
  let tokens ← fields.optional "tokens" [] (Token.listOfJson? (Json.nestingLimit - 1))
  return ⟨generated, tokens⟩

/-- Reads the text of a document; its tokens are not validated. -/
def parse (text : String) : Except DocumentError Document :=
  match (Json.parse? text).bind ofJson? with
  | some document => .ok document
  | none => .error .notJson

/-- Reads the text of a document and validates its tokens. -/
def load (text : String) : Except DocumentError Document := do
  let document ← parse text
  document.validate
  return document

end Document

end TokenLayout
