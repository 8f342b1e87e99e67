import TokenLayout.Document.Basic

/-! # Which documents are valid

The search for a malformed token keeps a list of pending tokens and puts the children of each in
front of it. What it looks at in this way is the tree in pre-order, so its answer is the first
defect of a single token in that order, and a document is valid if no token at any depth has one.

`Token.Occurs` says without the search which tokens a tree has, and `Token.Offends` which errors a
token deserves. They are the two sides that `Document.validate_exact` compares the search with.
-/

namespace TokenLayout

namespace Token

/-- What holds of no tree, and of a list of trees if it holds of what the first one owns and of the
rest, holds of every list of trees. -/
theorem forest_induction {motive : List Token → Prop} (nil : motive [])
    (cons : ∀ token rest, motive token.children → motive rest → motive (token :: rest))
    (tokens : List Token) : motive tokens :=
  match tokens with
  | [] => nil
  | ⟨kind, text, line, startColumn, endColumn, lineSpan, generated, children⟩ :: rest =>
    cons ⟨kind, text, line, startColumn, endColumn, lineSpan, generated, children⟩ rest
      (forest_induction nil cons children) (forest_induction nil cons rest)

mutual
/-- The tokens of a tree, each before those that it owns. -/
def preorder : Token → List Token
  | ⟨kind, text, line, startColumn, endColumn, lineSpan, generated, children⟩ =>
    ⟨kind, text, line, startColumn, endColumn, lineSpan, generated, children⟩ ::
      preorderOf children

/-- The tokens of a list of trees. -/
def preorderOf : List Token → List Token
  | [] => []
  | token :: rest => token.preorder ++ preorderOf rest
end

theorem preorder_eq (token : Token) : token.preorder = token :: preorderOf token.children := by
  cases token
  rw [preorder]

theorem preorderOf_eq_flatMap (tokens : List Token) :
    preorderOf tokens = tokens.flatMap preorder := by
  induction tokens with
  | nil => rfl
  | cons token rest ih => rw [preorderOf, ih, List.flatMap_cons]

theorem preorderOf_append (front back : List Token) :
    preorderOf (front ++ back) = preorderOf front ++ preorderOf back := by
  simp only [preorderOf_eq_flatMap, List.flatMap_append]

theorem defect?_eq_none_iff {token : Token} :
    token.defect? = none ↔
      1 ≤ token.line ∧ 1 ≤ token.lineSpan ∧
        (token.children ≠ [] → token.kind.isComposite = true) := by
  rw [defect?]
  split
  · rename_i missing
    simp only [reduceCtorEq, false_iff]
    omega
  · rename_i placed
    have here : 1 ≤ token.line ∧ 1 ≤ token.lineSpan := by omega
    cases owned : token.children <;> cases composite : token.kind.isComposite <;> simp [here]

/-- What a document asks of each of its tokens. -/
structure WellFormed (token : Token) : Prop where
  line : 0 < token.line
  lineSpan : 0 < token.lineSpan
  children : token.kind.isComposite = true ∨ token.children = []

/-- The errors for a token that is not well-formed. A missing position hides misplaced children. -/
inductive Offends (token : Token) : DocumentError → Prop where
  | position : token.line = 0 ∨ token.lineSpan = 0 →
      Offends token (.invalidPosition token.kind token.line token.lineSpan)
  | children : 0 < token.line → 0 < token.lineSpan → token.kind.isComposite = false →
      token.children ≠ [] → Offends token (.childrenOnLeaf token.kind token.line)

theorem defect?_eq_none_iff_wellFormed {token : Token} :
    token.defect? = none ↔ token.WellFormed := by
  rw [defect?_eq_none_iff]
  constructor
  · intro given
    obtain ⟨line, span, owned⟩ := given
    refine ⟨line, span, ?_⟩
    by_cases bare : token.children = []
    · exact .inr bare
    · exact .inl (owned bare)
  · intro formed
    refine ⟨formed.line, formed.lineSpan, fun owned => ?_⟩
    exact formed.children.resolve_right owned

theorem defect?_eq_some_iff {token : Token} {error : DocumentError} :
    token.defect? = some error ↔ token.Offends error := by
  rw [defect?]
  constructor
  · intro found
    split at found
    · rename_i missing
      cases found
      exact .position missing
    · rename_i placed
      obtain ⟨misplaced, same⟩ := Option.ite_none_right_eq_some.mp found
      cases same
      have owned : token.children ≠ [] := by
        rintro bare
        simp [bare] at misplaced
      exact .children (by omega) (by omega) (by simpa [owned] using misplaced) owned
  · intro offends
    cases offends with
    | position missing => rw [if_pos missing]
    | children line span plain owned =>
        have placed : ¬ (token.line = 0 ∨ token.lineSpan = 0) := by omega
        rw [if_neg placed, if_pos (by simp [plain, owned])]

/-- A token somewhere in the trees: one of the roots, or owned by a token somewhere in them. -/
inductive Occurs (roots : List Token) : Token → Prop where
  | root {token} : token ∈ roots → Occurs roots token
  | child {owner token} : Occurs roots owner → token ∈ owner.children → Occurs roots token

theorem self_mem_preorder (token : Token) : token ∈ token.preorder := by
  rw [preorder_eq]
  exact List.mem_cons_self

theorem mem_preorderOf_of_mem {roots : List Token} {token : Token} (member : token ∈ roots) :
    token ∈ preorderOf roots := by
  rw [preorderOf_eq_flatMap]
  exact List.mem_flatMap.mpr ⟨token, member, token.self_mem_preorder⟩

/-- What stands below a token of the trees stands in them too. -/
theorem preorderOf_children_subset {roots : List Token} {owner : Token}
    (inside : owner ∈ preorderOf roots) : preorderOf owner.children ⊆ preorderOf roots := by
  induction roots using forest_induction with
  | nil => cases inside
  | cons token rest below later =>
      rw [preorderOf, preorder_eq] at inside ⊢
      rcases List.mem_append.mp inside with within | behind
      · apply List.subset_append_of_subset_left
        rcases List.mem_cons.mp within with rfl | deeper
        · exact List.subset_cons_self _ _
        · exact List.subset_cons_of_subset _ (below deeper)
      · exact List.subset_append_of_subset_right _ (later behind)

theorem occurs_of_mem_preorderOf {roots tokens : List Token} {token : Token}
    (among : ∀ other ∈ tokens, Occurs roots other) (inside : token ∈ preorderOf tokens) :
    Occurs roots token := by
  induction tokens using forest_induction with
  | nil => cases inside
  | cons first rest below later =>
      rw [List.forall_mem_cons] at among
      rw [preorderOf, preorder_eq] at inside
      rcases List.mem_append.mp inside with within | behind
      · rcases List.mem_cons.mp within with rfl | deeper
        · exact among.1
        · exact below (fun other owned => .child among.1 owned) deeper
      · exact later among.2 behind

/-- The listing in pre-order leaves out no token, however deep, and adds none. -/
theorem mem_preorderOf_iff {roots : List Token} {token : Token} :
    token ∈ preorderOf roots ↔ Occurs roots token := by
  constructor
  · exact occurs_of_mem_preorderOf fun other member => .root member
  · intro occurs
    induction occurs with
    | root member => exact mem_preorderOf_of_mem member
    | child _ owned inside =>
        exact preorderOf_children_subset inside (mem_preorderOf_of_mem owned)

/-- No token of the trees has a defect, at any depth. -/
def Valid (tokens : List Token) : Prop :=
  ∀ token ∈ preorderOf tokens, token.defect? = none

instance (tokens : List Token) : Decidable (Valid tokens) :=
  inferInstanceAs (Decidable (∀ token ∈ preorderOf tokens, token.defect? = none))

theorem valid_nil : Valid [] :=
  List.forall_mem_nil _

theorem valid_cons {token : Token} {rest : List Token} :
    Valid (token :: rest) ↔ (token.defect? = none ∧ Valid token.children) ∧ Valid rest := by
  rw [Valid, preorderOf, preorder_eq, List.forall_mem_append, List.forall_mem_cons]
  rfl

theorem valid_reverse {tokens : List Token} : Valid tokens.reverse ↔ Valid tokens := by
  simp only [Valid, preorderOf_eq_flatMap, List.mem_flatMap, List.mem_reverse]

end Token

namespace Document

theorem firstDefect?_eq (pending : List Token) :
    firstDefect? pending = (Token.preorderOf pending).findSome? Token.defect? := by
  fun_induction firstDefect? pending with
  | case1 => rfl
  | case2 token rest defect found =>
      rw [Token.preorderOf, token.preorder_eq, List.cons_append, List.findSome?_cons, found]
  | case3 token rest none_found ih =>
      rw [ih, Token.preorderOf_append, Token.preorderOf, token.preorder_eq, List.cons_append,
        List.findSome?_cons, none_found]

theorem validate_eq_ok_iff {document : Document} :
    document.validate = .ok () ↔ Token.Valid document.tokens := by
  rw [validate, firstDefect?_eq, Token.Valid, ← List.findSome?_eq_none_iff]
  cases (Token.preorderOf document.tokens).findSome? Token.defect? <;> simp

theorem validate_eq_error_iff {document : Document} {error : DocumentError} :
    document.validate = .error error ↔
      (Token.preorderOf document.tokens).findSome? Token.defect? = some error := by
  rw [validate, firstDefect?_eq]
  cases (Token.preorderOf document.tokens).findSome? Token.defect? <;> simp

/-- A document is accepted exactly if every token in it is well-formed, however deep it stands.
Otherwise the error is that of the first token in pre-order that is not. -/
theorem validate_exact (document : Document) :
    (document.validate = .ok () ↔
      ∀ token, Token.Occurs document.tokens token → token.WellFormed) ∧
    ∀ error, document.validate = .error error ↔
      ∃ before token after, Token.preorderOf document.tokens = before ++ token :: after ∧
        (∀ earlier ∈ before, earlier.WellFormed) ∧ token.Offends error := by
  constructor
  · rw [validate_eq_ok_iff, Token.Valid]
    simp only [Token.mem_preorderOf_iff, Token.defect?_eq_none_iff_wellFormed]
  · intro error
    rw [validate_eq_error_iff, List.findSome?_eq_some_iff]
    simp only [Token.defect?_eq_some_iff, Token.defect?_eq_none_iff_wellFormed]
    constructor
    · intro given
      obtain ⟨before, token, after, all, offends, formed⟩ := given
      exact ⟨before, token, after, all, formed, offends⟩
    · intro given
      obtain ⟨before, token, after, all, formed, offends⟩ := given
      exact ⟨before, token, after, all, offends, formed⟩

end Document

end TokenLayout
