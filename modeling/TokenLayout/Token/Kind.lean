/-! # Token kinds

The taxonomy of source tokens. A kind is either a leaf kind, which carries source text, or a
composite kind, which owns child tokens. A kind name outside the taxonomy is kept as it is and
belongs to neither class, so that a document with such a token can still be read and the token
reported when it is reached.
-/

namespace TokenLayout

/-- The kind of a source token. -/
inductive Kind where
  | bracket
  | conditionalDirective
  | number
  | operatorSymbol
  /-- Preprocessor directive other than conditional compilation and regions. -/
  | preprocessorDirective
  | regionDirective
  /-- Any other plain token: keyword, identifier, literal. -/
  | plain
  | whitespace
  | endOfLine
  | lineComment
  | blockComment
  /-- One line of a documentation header. -/
  | headerLine
  | attributeSection
  | constructorConstraint
  | genericType
  | typeReference
  | header
  /-- A kind name that the taxonomy does not know. -/
  | unrecognized (name : String)
  deriving DecidableEq

namespace Kind

def name : Kind → String
  | bracket => "bracket"
  | conditionalDirective => "conditional-compilation-directive"
  | number => "number"
  | operatorSymbol => "operator-symbol"
  | preprocessorDirective => "preprocessor-directive"
  | regionDirective => "region-directive"
  | plain => "token"
  | whitespace => "whitespace"
  | endOfLine => "end-of-line"
  | lineComment => "single-line-comment"
  | blockComment => "multi-line-comment"
  | headerLine => "xml-header-line"
  | attributeSection => "attribute"
  | constructorConstraint => "constructor-constraint"
  | genericType => "generic-type"
  | typeReference => "type"
  | header => "xml-header"
  | unrecognized name => name

def known : List Kind :=
  [bracket, conditionalDirective, number, operatorSymbol, preprocessorDirective, regionDirective,
   plain, whitespace, endOfLine, lineComment, blockComment, headerLine, attributeSection,
   constructorConstraint, genericType, typeReference, header]

/-- The kind with the given written name. Every name has one: a name outside the taxonomy is
`unrecognized`. -/
def ofName (name : String) : Kind :=
  (known.find? (·.name == name)).getD (unrecognized name)

def isUnrecognized : Kind → Bool
  | unrecognized _ => true
  | _ => false

/-- May tokens of this kind own child tokens? -/
def isComposite : Kind → Bool
  | attributeSection | constructorConstraint | genericType | typeReference | header => true
  | _ => false

/-- Do tokens of this kind stand for source text of their own? -/
def isLeaf (kind : Kind) : Bool :=
  !kind.isComposite && !kind.isUnrecognized

/-- Blank runs and line terminators. -/
def isWhitespace : Kind → Bool
  | whitespace | endOfLine => true
  | _ => false

/-- Kinds whose text takes the rest of its physical line. -/
def eatsLine : Kind → Bool
  | lineComment | preprocessorDirective | headerLine => true
  | _ => false

end Kind

end TokenLayout
