import TokenLayout.Document.Codec
import TokenLayout.Proofs.JsonRoundTrip
import TokenLayout.Proofs.LeafOrder
import TokenLayout.Proofs.Validation

/-! # Written documents are read back

A written document is read back as it was, or refused for the reason for which it is not valid. The
one thing that reading cannot do is to follow a token tree down without end: every level of the tree
opens an object and an array, so `Json.nestingLimit` leaves room for 63 levels
(`Document.two_mul_lt_nestingLimit`).
-/

namespace TokenLayout

namespace Kind

/-- A kind outside the taxonomy does not go by a name of the taxonomy. -/
def Canonical (kind : Kind) : Prop :=
  kind.isUnrecognized = true → kind.name ∉ known.map name

instance (kind : Kind) : Decidable kind.Canonical :=
  inferInstanceAs (Decidable (_ → _))

theorem ofName_of_notMem {name : String} (unknown : name ∉ known.map Kind.name) :
    ofName name = .unrecognized name := by
  have none_found : known.find? (·.name == name) = none := by
    rw [List.find?_eq_none]
    intro kind member same
    exact unknown (List.mem_map.mpr ⟨kind, member, eq_of_beq same⟩)
  rw [ofName, none_found]
  rfl

theorem ofName_name {kind : Kind} (canonical : kind.Canonical) : ofName kind.name = kind := by
  cases kind with
  | unrecognized name => exact ofName_of_notMem (canonical rfl)
  | _ => decide

/-- Kinds that come from names are canonical. -/
theorem canonical_ofName (name : String) : (ofName name).Canonical := by
  by_cases unknown : name ∈ known.map Kind.name
  · have all_known : ∀ kind ∈ known, kind.isUnrecognized = false := by decide
    obtain ⟨kind, member, same⟩ := List.mem_map.mp unknown
    have some_found : (known.find? (·.name == name)).isSome :=
      List.find?_isSome.mpr ⟨kind, member, beq_iff_eq.mpr same⟩
    obtain ⟨found, first⟩ := Option.isSome_iff_exists.mp some_found
    have taxonomy := all_known found (List.mem_of_find?_eq_some first)
    rw [ofName, first]
    intro outside
    cases taxonomy.symm.trans outside
  · rw [ofName_of_notMem unknown]
    exact fun _ => unknown

end Kind

namespace Token

/-- A token whose own fields can be written without loss. -/
structure Writable (token : Token) : Prop where
  kind : token.kind.Canonical
  line : token.line < wordBound
  startColumn : token.startColumn < wordBound
  endColumn : token.endColumn < wordBound
  lineSpan : token.lineSpan < wordBound

instance (token : Token) : Decidable token.Writable :=
  decidable_of_iff
    (token.kind.Canonical ∧ token.line < wordBound ∧ token.startColumn < wordBound ∧
      token.endColumn < wordBound ∧ token.lineSpan < wordBound)
    ⟨fun ⟨kind, line, startColumn, endColumn, lineSpan⟩ =>
      ⟨kind, line, startColumn, endColumn, lineSpan⟩,
      fun ⟨kind, line, startColumn, endColumn, lineSpan⟩ =>
      ⟨kind, line, startColumn, endColumn, lineSpan⟩⟩

/-! ## Plain values only -/

mutual
theorem plain_toJson (token : Token) : token.toJson.Plain := by
  obtain ⟨kind, text, line, startColumn, endColumn, lineSpan, generated, children⟩ := token
  have inner := Json.plain_array (plain_listToJson children)
  rw [toJson]
  apply Json.plain_record
  cases children with
  | nil => simp
  | cons child later => simpa using inner
termination_by sizeOf token

theorem plain_listToJson (tokens : List Token) : ∀ json ∈ listToJson tokens, json.Plain := by
  cases tokens with
  | nil => nofun
  | cons token later =>
      rw [listToJson, List.forall_mem_cons]
      exact ⟨plain_toJson token, plain_listToJson later⟩
termination_by sizeOf tokens
end

/-! ## Reading tokens -/

theorem ofJson?_succ (room : Nat) : ofJson? (room + 1) = ofJsonWith (listOfJson? room) := by
  cases room with
  | zero => rfl
  | succ room => rfl

theorem ofJsonWith_toJson {token : Token} (writable : token.Writable)
    (read : Json → Option (List Token)) :
    ofJsonWith read token.toJson =
      (if token.children.isEmpty then some [] else read (.array (listToJson token.children))).map
        fun children => { token with children } := by
  obtain ⟨kind, text, line, startColumn, endColumn, lineSpan, generated, children⟩ := token
  have named : Kind.ofName kind.name = kind := Kind.ofName_name writable.kind
  have lineFits : line < wordBound := writable.line
  have startFits : startColumn < wordBound := writable.startColumn
  have endFits : endColumn < wordBound := writable.endColumn
  have spanFits : lineSpan < wordBound := writable.lineSpan
  rw [ofJsonWith, toJson]
  cases children with
  | nil =>
      rw [Json.fields?_record (by simp [fieldNames]) (by simp)]
      simp [Json.Fields.required, Json.Fields.optional, List.lookup_cons, Json.number?_natural,
        named, lineFits, startFits, endFits, spanFits]
  | cons child later =>
      rw [Json.fields?_record (by simp [fieldNames]) (by simp)]
      cases owned : read (.array (listToJson (child :: later))) with
      | none | some =>
          simp [Json.Fields.required, Json.Fields.optional, List.lookup_cons, Json.number?_natural,
            named, lineFits, startFits, endFits, spanFits, owned]

/-- Where even the array of children may not be opened, there must be none. -/
theorem children_of_listOfJson? {children : List Token}
    (opened : ∀ room, listOfJson? (room + 1) (.array (listToJson children)) =
      if 2 * depthOf children ≤ room + 1 then some children else none) (room : Nat) :
    (if children.isEmpty then some [] else listOfJson? room (.array (listToJson children))) =
      if 2 * depthOf children ≤ room then some children else none := by
  cases children with
  | nil => simp [depthOf]
  | cons child later =>
      rw [List.isEmpty_cons, if_neg Bool.false_ne_true]
      cases room with
      | succ room => exact opened room
      | zero =>
          have deep : ¬ 2 * depthOf (child :: later) ≤ 0 := by
            rw [depthOf, child.depth_eq]
            omega
          rw [if_neg deep]
          rfl

mutual
/-- Every level of the tree takes an object and an array, the last one only the object. -/
theorem ofJson?_toJson (token : Token) (writable : ∀ inner ∈ token.preorder, inner.Writable)
    (room : Nat) :
    ofJson? room token.toJson = if 2 * token.depth ≤ room + 1 then some token else none := by
  rw [preorder_eq, List.forall_mem_cons] at writable
  have smaller := sizeOf_children_lt token
  have below := children_of_listOfJson? (listOfJson?_listToJson token.children writable.2)
  rw [depth_eq]
  cases room with
  | zero =>
      rw [if_neg (by omega)]
      rfl
  | succ room =>
      have levels : 2 * (1 + depthOf token.children) ≤ room + 1 + 1 ↔
          2 * depthOf token.children ≤ room := by
        omega
      rw [ofJson?_succ, ofJsonWith_toJson writable.1, below room]
      simp only [levels]
      split
      · cases token
        rfl
      · rfl
termination_by sizeOf token

theorem listOfJson?_listToJson (tokens : List Token)
    (writable : ∀ inner ∈ preorderOf tokens, inner.Writable) (room : Nat) :
    listOfJson? (room + 1) (.array (listToJson tokens)) =
      if 2 * depthOf tokens ≤ room + 1 then some tokens else none := by
  match tokens with
  | [] => simp [listOfJson?, listToJson, Json.items?, depthOf]
  | token :: later =>
      rw [preorderOf, List.forall_mem_append] at writable
      have first := ofJson?_toJson token writable.1 room
      have others := listOfJson?_listToJson later writable.2 room
      have levels : 2 * depthOf (token :: later) ≤ room + 1 ↔
          2 * token.depth ≤ room + 1 ∧ 2 * depthOf later ≤ room + 1 := by
        rw [depthOf]
        omega
      simp only [listOfJson?, Json.items?, Option.bind_some] at others ⊢
      rw [listToJson, List.mapM_cons, first, others]
      simp only [levels]
      by_cases fits : 2 * token.depth ≤ room + 1
      · by_cases rest : 2 * depthOf later ≤ room + 1
        · simp [fits, rest]
        · simp [fits, rest]
      · simp [fits]
termination_by sizeOf tokens
end

end Token

/-! ## Documents -/

namespace Document

theorem plain_toJson (document : Document) : document.toJson.Plain := by
  have tokens := Json.plain_array (Token.plain_listToJson document.tokens)
  apply Json.plain_record
  simpa using tokens

theorem ofJson?_toJson (document : Document)
    (writable : ∀ token ∈ Token.preorderOf document.tokens, token.Writable) :
    ofJson? document.toJson =
      if 2 * Token.depthOf document.tokens < Json.nestingLimit then some document else none := by
  -- One object is open around the tokens.
  obtain ⟨room, opened⟩ : ∃ room, Json.nestingLimit = room + 1 + 1 := ⟨_, rfl⟩
  have tokens := Token.listOfJson?_listToJson document.tokens writable room
  rw [ofJson?, toJson, Json.fields?_record (by simp) (by simp), opened]
  by_cases fits : 2 * Token.depthOf document.tokens < room + 1 + 1
  · rw [if_pos (Nat.le_of_lt_succ fits)] at tokens
    simp [Json.Fields.optional, List.lookup_cons, tokens, fits]
  · rw [if_neg (mt Nat.lt_succ_of_le fits)] at tokens
    simp [Json.Fields.optional, List.lookup_cons, tokens, fits]

theorem parse_render (document : Document)
    (writable : ∀ token ∈ Token.preorderOf document.tokens, token.Writable) :
    parse document.render =
      if 2 * Token.depthOf document.tokens < Json.nestingLimit then .ok document
      else .error .notJson := by
  rw [parse, render, Json.parse?_write document.plain_toJson, Option.bind_some,
    document.ofJson?_toJson writable]
  by_cases fits : 2 * Token.depthOf document.tokens < Json.nestingLimit
  · rw [if_pos fits, if_pos fits]
  · rw [if_neg fits, if_neg fits]

theorem two_mul_lt_nestingLimit {depth : Nat} : 2 * depth < Json.nestingLimit ↔ depth ≤ 63 := by
  rw [Json.nestingLimit]
  omega

/-- A written document of at most 63 levels is read back exactly if it is valid, and refused with its
own defect otherwise; a deeper one is not read at all. -/
theorem load_render (document : Document)
    (writable : ∀ token ∈ Token.preorderOf document.tokens, token.Writable) :
    load document.render =
      if Token.depthOf document.tokens ≤ 63 then document.validate.map fun _ => document
      else .error .notJson := by
  rw [load, parse_render document writable]
  simp only [two_mul_lt_nestingLimit]
  split
  · show (document.validate.bind fun _ => .ok document) = _
    cases document.validate with
    | ok valid => rfl
    | error defect => rfl
  · rfl

/-- A document whose texts need every kind of escape, with the largest numbers and a kind of its
own. -/
def motley : Document :=
  ⟨true, [⟨.typeReference, "", 1, 0, 18446744073709551615, 18446744073709551615, false,
    [.leaf .blockComment "\"\\\x08\x0c\r\n\t\x00\x1f\x7f é😀" 1 1 9,
      .leaf (.unrecognized "Token") "" 18446744073709551615 1 1]⟩]⟩

/-- A token below as many others, each the only child of the one above it. -/
def chain : Nat → Token
  | 0 => .leaf .plain "x" 1 1 1
  | above + 1 => ⟨.genericType, "", 1, 1, 1, 1, false, [chain above]⟩

theorem depth_chain (above : Nat) : (chain above).depth = above + 1 := by
  induction above with
  | zero => rfl
  | succ above ih =>
      rw [chain, Token.depth, Token.depthOf, Token.depthOf, ih]
      omega

theorem load_render_motley :
    load motley.render = .ok motley ∧
      load (render ⟨false, [chain 63]⟩) = .error .notJson ∧
      load (render ⟨false, [⟨.plain, "x", 2, 1, 1, 1, false, [chain 61]⟩]⟩) =
        .error (.childrenOnLeaf .plain 2) := by
  refine ⟨?_, ?_, ?_⟩
  · have valid : motley.validate = .ok () := by
      simp [validate, motley, firstDefect?, Token.defect?, Token.leaf, Kind.isComposite]
    rw [load_render motley (by decide), if_pos (by decide), valid]
    rfl
  · rw [load_render _ (by decide), if_neg (by simp [Token.depthOf, depth_chain])]
  · have defect : validate ⟨false, [⟨.plain, "x", 2, 1, 1, 1, false, [chain 61]⟩]⟩ =
        .error (.childrenOnLeaf .plain 2) := by
      rw [validate, firstDefect?]
      rfl
    have fits : Token.depthOf [⟨.plain, "x", 2, 1, 1, 1, false, [chain 61]⟩] ≤ 63 := by
      simp [Token.depthOf, Token.depth, depth_chain]
    rw [load_render _ (by decide), if_pos fits, defect]
    rfl

end Document

end TokenLayout
