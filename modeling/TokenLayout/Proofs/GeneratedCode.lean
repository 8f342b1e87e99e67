import Mathlib.Data.List.Forall2
import TokenLayout.Proofs.Findings

/-! # Generated code does not interfere

With generated code left out, a check looks at a generated leaf only to see its kind, and at the
header of a composite that is entered not at all. Documents that differ in nothing else are alike,
and the check cannot tell them apart: neither their findings nor the fault that stops it.

Every question about a leaf gives no answer for a leaf that is passed over. That is all that is
needed of it (`Layout.answer_eq`), so a new question would need no new argument here.
-/

namespace TokenLayout

namespace Token

/-- Tokens that are the same, or generated and of the same leaf kind. -/
inductive Twin : Token → Token → Prop where
  | same (token : Token) : Twin token token
  | generated {one two : Token} : one.generated = true → two.generated = true →
      one.kind = two.kind → one.kind.isLeaf = true → Twin one two

/-- Tokens that are twins, or composites that own children which correspond one by one. -/
inductive Alike : Token → Token → Prop where
  | twin {one two : Token} : Twin one two → Alike one two
  | composite {one two : Token} : one.kind.isComposite = true → two.kind.isComposite = true →
      one.children ≠ [] → List.Forall₂ Alike one.children two.children → Alike one two

/-! ## Leaves of trees that are alike -/

theorem Twin.kind_eq {one two : Token} (twin : Twin one two) : one.kind = two.kind := by
  cases twin with
  | same => rfl
  | generated _ _ kinds _ => exact kinds

theorem twins_refl (tokens : List Token) : List.Forall₂ Twin tokens tokens :=
  List.forall₂_same.mpr fun token _ => .same token

mutual
theorem Alike.terminals {one two : Token} (alike : Alike one two) :
    List.Forall₂ Twin one.terminals two.terminals := by
  cases alike with
  | twin twin =>
      cases twin with
      | same => exact twins_refl _
      | generated mark mark' kinds leaf =>
          have leaf' : two.kind.isLeaf = true := kinds ▸ leaf
          rw [terminals_of_isLeaf leaf, terminals_of_isLeaf leaf']
          exact .cons (.generated mark mark' kinds leaf) .nil
  | composite kind kind' owned children =>
      have owned' : two.children ≠ [] := by
        rw [← List.length_pos_iff, ← children.length_eq]
        exact List.length_pos_iff.mpr owned
      have inner : one.hasChildren = true := by simp [hasChildren, kind, owned]
      have inner' : two.hasChildren = true := by simp [hasChildren, kind', owned']
      have smaller := sizeOf_children_lt one
      rw [terminals_of_hasChildren inner, terminals_of_hasChildren inner']
      exact terminalsOf_alike children
termination_by sizeOf one

theorem terminalsOf_alike {ones twos : List Token} (alike : List.Forall₂ Alike ones twos) :
    List.Forall₂ Twin (terminalsOf ones) (terminalsOf twos) := by
  cases alike with
  | nil => exact .nil
  | cons first rest => exact List.rel_append first.terminals (terminalsOf_alike rest)
termination_by sizeOf ones
end

/-- Walks over twins stop at the same fault, or both hand out all that they are given. -/
theorem mapM_asLeaf_twins {ones twos : List Token} (twins : List.Forall₂ Twin ones twos) :
    (∃ fault, ones.mapM asLeaf = .error fault ∧ twos.mapM asLeaf = .error fault) ∨
      ones.mapM asLeaf = .ok ones ∧ twos.mapM asLeaf = .ok twos := by
  induction twins with
  | nil => exact .inr ⟨rfl, rfl⟩
  | @cons one two ones twos twin _ ih =>
      rw [List.mapM_cons, List.mapM_cons]
      cases leaf : one.kind.isLeaf with
      | true =>
          rw [asLeaf_of_isLeaf leaf, asLeaf_of_isLeaf (twin.kind_eq ▸ leaf)]
          rcases ih with ⟨fault, first, second⟩ | ⟨first, second⟩
          · exact .inl ⟨fault, by rw [first]; rfl, by rw [second]; rfl⟩
          · exact .inr ⟨by rw [first]; rfl, by rw [second]; rfl⟩
      | false =>
          -- Only a leaf can differ from its twin.
          cases twin with
          | same =>
              obtain ⟨fault, given⟩ := asLeaf_of_not_isLeaf leaf
              exact .inl ⟨fault, by rw [given]; rfl, by rw [given]; rfl⟩
          | generated _ _ _ other => cases leaf.symm.trans other

theorem leaves_alike {ones twos : List Token} (alike : List.Forall₂ Alike ones twos) :
    (∃ fault, leaves ones = .error fault ∧ leaves twos = .error fault) ∨
      ∃ first second, leaves ones = .ok first ∧ leaves twos = .ok second ∧
        List.Forall₂ Twin first second := by
  rw [leaves_eq_mapM_asLeaf, leaves_eq_mapM_asLeaf]
  have twins := terminalsOf_alike alike
  rcases mapM_asLeaf_twins twins with faulty | ⟨first, second⟩
  · exact .inl faulty
  · exact .inr ⟨_, _, first, second, twins⟩

theorem getLast?_twins {ones twos : List Token} (twins : List.Forall₂ Twin ones twos) :
    ones.getLast? = none ∧ twos.getLast? = none ∨
      ∃ one two, ones.getLast? = some one ∧ twos.getLast? = some two ∧ Twin one two := by
  have backwards := List.forall₂_reverse_iff.mpr twins
  rw [← List.head?_reverse, ← List.head?_reverse]
  generalize ones.reverse = back, twos.reverse = back' at backwards
  cases backwards with
  | nil => exact .inl ⟨rfl, rfl⟩
  | cons last _ => exact .inr ⟨_, _, rfl, rfl, last⟩

end Token

namespace Layout

variable {settings : Settings}

/-! ## Questions about twins -/

theorem skips_generated (without : settings.includeGenerated = false) {token : Token}
    (mark : token.generated = true) : skips settings token = true := by
  rw [skips, Settings.excludes, mark, without]
  rfl

/-- A question that has no answer for a leaf that is passed over does not tell twins apart. -/
theorem answer_eq (without : settings.includeGenerated = false) {question : Token → List Violation}
    (silent : ∀ token, skips settings token = true → question token = []) {one two : Token}
    (twin : one.Twin two) : question one = question two := by
  cases twin with
  | same => rfl
  | generated mark mark' _ _ =>
      rw [silent one (skips_generated without mark), silent two (skips_generated without mark')]

theorem leadingWhitespace_skipped {token : Token} (skipped : skips settings token = true) :
    leadingWhitespace settings token = [] := by
  simp [leadingWhitespace, skipped]

theorem trailingWhitespace_skipped {previous : Option Token} {token : Token}
    (skipped : skips settings token = true) : trailingWhitespace settings previous token = [] := by
  rw [trailingWhitespace, if_pos skipped]

theorem lineLength_skipped {token : Token} (skipped : skips settings token = true) :
    lineLength settings token = [] := by
  rw [lineLength, if_pos skipped]

theorem finalNewline_skipped {token : Token} (skipped : skips settings token = true) :
    finalNewline settings token = [] := by
  simp [finalNewline, skipped]

/-- Of the leaf before another one, only the kind is looked at. -/
theorem trailingWhitespace_previous {before before' : Option Token}
    (kinds : before.map Token.kind = before'.map Token.kind) (token : Token) :
    trailingWhitespace settings before token = trailingWhitespace settings before' token := by
  have same : before.any (·.kind == .whitespace) = before'.any (·.kind == .whitespace) := by
    cases before <;> cases before' <;> simp_all
  rw [trailingWhitespace, trailingWhitespace, same]

/-! ## Whole documents -/

theorem forward_twins (without : settings.includeGenerated = false) {ones twos : List Token}
    (twins : List.Forall₂ Token.Twin ones twos) {before before' : Option Token}
    (kinds : before.map Token.kind = before'.map Token.kind) :
    forward settings before ones = forward settings before' twos := by
  induction twins generalizing before before' with
  | nil => rfl
  | @cons one two ones twos twin _ ih =>
      have first : before.isNone = before'.isNone := by
        cases before <;> cases before' <;> simp_all
      have later := @ih (some one) (some two) (congrArg some twin.kind_eq)
      rw [forward, forward, first, later, trailingWhitespace_previous kinds,
        answer_eq without (fun _ => leadingWhitespace_skipped) twin,
        answer_eq without (fun _ => trailingWhitespace_skipped) twin,
        answer_eq without (fun _ => lineLength_skipped) twin]

/-- Where roots that are alike differ, both stop the look back from the end. -/
theorem inTail_alike (without : settings.includeGenerated = false) {one two : Token}
    (alike : one.Alike two) :
    inTail settings one = false ∧ inTail settings two = false ∨ one = two := by
  cases alike with
  | twin twin =>
      cases twin with
      | same => exact .inr rfl
      | generated mark mark' _ _ =>
          simp [inTail, skips_generated without mark, skips_generated without mark']
  | composite kind kind' _ _ =>
      have inked : ∀ other : Kind, other.isComposite = true → other.isWhitespace = false := by
        intro other composite
        cases other <;> first | rfl | cases composite
      simp [inTail, inked _ kind, inked _ kind']

theorem blankTail_alike (without : settings.includeGenerated = false) {ones twos : List Token}
    (alike : List.Forall₂ Token.Alike ones twos) (last : Option Nat) :
    blankTail settings last ones = blankTail settings last twos := by
  induction alike generalizing last with
  | nil => rfl
  | @cons one two ones twos first _ ih =>
      rcases inTail_alike without first with ⟨outside, outside'⟩ | rfl
      · rw [blankTail_outside outside, blankTail_outside outside']
      · cases inside : inTail settings one with
        | false => rw [blankTail_outside inside, blankTail_outside inside]
        | true => simp only [blankTail_inside inside, ih]

end Layout

namespace Document

/-- A check that leaves out generated code gives the same for documents that are alike. -/
theorem checkLayout_alike (settings : Settings) (one two : Document)
    (without : settings.includeGenerated = false) (mark : one.generated = two.generated)
    (alike : List.Forall₂ Token.Alike one.tokens two.tokens) :
    one.checkLayout settings = two.checkLayout settings := by
  have empty : one.isEmpty = two.isEmpty := by
    obtain ⟨mark, ones⟩ := one
    obtain ⟨mark', twos⟩ := two
    cases alike <;> rfl
  rw [checkLayout, checkLayout, empty, mark]
  rcases Token.leaves_alike alike with ⟨fault, first, second⟩ | ⟨ones, twos, first, second, twins⟩
  · rw [first, second]
  · rw [first, second]
    rcases Token.getLast?_twins twins with
      ⟨none_last, none_last'⟩ | ⟨last, last', ends, ends', twin⟩
    · simp only [none_last, none_last']
    · have found : Layout.findings settings one.tokens ones last =
          Layout.findings settings two.tokens twos last' := by
        rw [Layout.findings, Layout.findings, Layout.forward_twins without twins rfl,
          Layout.blankTail_alike without (List.forall₂_reverse_iff.mpr alike),
          Layout.answer_eq without (fun _ => Layout.finalNewline_skipped) twin]
      simp only [ends, ends', found]

/-- The composite may be of another kind and marked itself, and the generated leaf may even own
children. -/
theorem checkLayout_alike_headers :
    checkLayout ⟨false, [⟨.header, "", 1, 1, 1, 1, false,
        [Token.leaf .plain "x" 1 1 1, ⟨.whitespace, "  ", 1, 2, 3, 1, true, []⟩,
          Token.leaf .endOfLine "\n" 1 4 4]⟩]⟩ .default =
      checkLayout ⟨false, [⟨.genericType, "h", 0, 900, 0, 7, true,
        [Token.leaf .plain "x" 1 1 1,
          ⟨.whitespace, "", 9, 0, 500, 0, true, [Token.leaf .number "1" 1 1 1]⟩,
          Token.leaf .endOfLine "\n" 1 4 4]⟩]⟩ .default := by
  apply checkLayout_alike
  · rfl
  · rfl
  · refine .cons (.composite rfl rfl (List.cons_ne_nil _ _) ?_) .nil
    exact .cons (.twin (.same _)) (.cons (.twin (.generated rfl rfl rfl rfl))
      (.cons (.twin (.same _)) .nil))

end Document

end TokenLayout
