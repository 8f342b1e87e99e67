import Mathlib.Data.List.DropRight
import TokenLayout.Check.Layout
import TokenLayout.Proofs.LeafOrder

/-! # Which findings a check reports

The check collects the answers of five questions in one list and keeps the first finding for each
rule and line. `Layout.Breach` says without the check which lines break which rules; the findings
are exactly these, none is lost in the list and none stands in it twice.

The leaves are looked at together with the leaf before them, so the way through them is first put
into the form of a list of such pairs.

Line numbers and lengths are sums of machine words here as in the check. For a document whose
sums fit into a word they are the plain sums, by `wordSum_of_lt`.
-/

namespace TokenLayout

namespace Violation

/-! ## One finding for each key -/

theorem mem_keys_distinctFrom {seen : Std.HashSet (Rule × Nat)} {violations : List Violation}
    {wanted : Rule × Nat} :
    wanted ∈ (distinctFrom seen violations).map key ↔
      wanted ∈ violations.map key ∧ wanted ∉ seen := by
  induction violations generalizing seen with
  | nil => simp [distinctFrom]
  | cons first rest ih =>
      rw [distinctFrom]
      split
      · rename_i known
        rw [ih, List.map_cons, List.mem_cons]
        constructor
        · intro given
          obtain ⟨later, fresh⟩ := given
          exact ⟨.inr later, fresh⟩
        · intro given
          rcases given with ⟨rfl | later, fresh⟩
          · exact absurd known fresh
          · exact ⟨later, fresh⟩
      · rename_i unknown
        rw [List.map_cons, List.mem_cons, ih, List.map_cons, List.mem_cons, Std.HashSet.mem_insert,
          beq_iff_eq]
        constructor
        · intro given
          rcases given with rfl | ⟨later, fresh⟩
          · exact ⟨.inl rfl, unknown⟩
          · exact ⟨.inr later, fun known => fresh (.inr known)⟩
        · intro given
          rcases given with ⟨same | later, fresh⟩
          · exact .inl same
          · by_cases same : wanted = first.key
            · exact .inl same
            · refine .inr ⟨later, ?_⟩
              intro given
              rcases given with again | known
              · exact same again.symm
              · exact fresh known

theorem nodup_keys_distinctFrom (seen : Std.HashSet (Rule × Nat)) (violations : List Violation) :
    ((distinctFrom seen violations).map key).Nodup := by
  induction violations generalizing seen with
  | nil => simp [distinctFrom]
  | cons first rest ih =>
      rw [distinctFrom]
      split
      · exact ih seen
      · refine List.nodup_cons.mpr ⟨fun again => ?_, ih _⟩
        exact (mem_keys_distinctFrom.mp again).2 (by simp)

theorem distinctFrom_sublist (seen : Std.HashSet (Rule × Nat)) (violations : List Violation) :
    (distinctFrom seen violations).Sublist violations := by
  induction violations generalizing seen with
  | nil => exact .slnil
  | cons first rest ih =>
      rw [distinctFrom]
      split
      · exact (ih seen).cons first
      · exact (ih _).cons_cons first

theorem nodup_keys_distinct (violations : List Violation) :
    ((distinct violations).map key).Nodup :=
  nodup_keys_distinctFrom ∅ violations

theorem mem_keys_distinct {violations : List Violation} {wanted : Rule × Nat} :
    wanted ∈ (distinct violations).map key ↔ wanted ∈ violations.map key := by
  rw [distinct, mem_keys_distinctFrom]
  simp

theorem filter_key_of_mem {violations : List Violation} (once : (violations.map key).Nodup)
    {violation : Violation} (member : violation ∈ violations) :
    violations.filter (·.key = violation.key) = [violation] := by
  induction violations with
  | nil => cases member
  | cons first rest ih =>
      obtain ⟨fresh, once⟩ := List.nodup_cons.mp once
      rcases List.mem_cons.mp member with rfl | later
      · have others : rest.filter (·.key = violation.key) = [] := by
          rw [List.filter_eq_nil_iff]
          intro other inside same
          exact fresh (of_decide_eq_true same ▸ List.mem_map_of_mem inside)
        simp [others]
      · have differs : first.key ≠ violation.key :=
          fun same => fresh (same ▸ List.mem_map_of_mem later)
        simp [differs, ih once later]

/-- Where the key of a finding decides its context, no finding is lost. -/
theorem mem_distinct {violations : List Violation} {context : Rule → Option Nat}
    (decided : ∀ violation ∈ violations, violation.context = context violation.rule)
    {violation : Violation} : violation ∈ distinct violations ↔ violation ∈ violations := by
  have kept := distinctFrom_sublist ∅ violations
  constructor
  · exact fun member => kept.subset member
  · intro member
    obtain ⟨twin, found, same⟩ :=
      List.mem_map.mp (mem_keys_distinct.mpr (List.mem_map_of_mem member))
    have equal : twin = violation := by
      obtain ⟨rule, line, number⟩ := violation
      obtain ⟨rule', line', number'⟩ := twin
      obtain ⟨rfl, rfl⟩ := Prod.mk.inj same
      have one := decided _ (kept.subset found)
      have two := decided _ member
      simp only at one two
      rw [one, two]
    exact equal ▸ found

/-- Rules can be left out before or after the first finding of each key is kept. The sets of known
keys need to agree only on the rules that stay. -/
theorem filter_distinctFrom (wanted : Rule → Bool) {seen seen' : Std.HashSet (Rule × Nat)}
    (agree : ∀ rule line, wanted rule = true → ((rule, line) ∈ seen ↔ (rule, line) ∈ seen'))
    (violations : List Violation) :
    (distinctFrom seen violations).filter (wanted ·.rule) =
      distinctFrom seen' (violations.filter (wanted ·.rule)) := by
  induction violations generalizing seen seen' with
  | nil => rfl
  | cons first rest ih =>
      have grown : ∀ rule line, wanted rule = true →
          ((rule, line) ∈ seen.insert first.key ↔ (rule, line) ∈ seen'.insert first.key) := by
        intro rule line stays
        rw [Std.HashSet.mem_insert, Std.HashSet.mem_insert, agree rule line stays]
      cases stays : wanted first.rule with
      | true =>
          have known : first.key ∈ seen ↔ first.key ∈ seen' := agree _ _ stays
          rw [List.filter_cons, if_pos stays, distinctFrom, distinctFrom]
          by_cases before : first.key ∈ seen
          · rw [if_pos before, if_pos (known.mp before), ih agree]
          · rw [if_neg before, if_neg (mt known.mpr before), List.filter_cons, if_pos stays,
              ih grown]
      | false =>
          have left : ¬ wanted first.rule = true := by simp [stays]
          rw [List.filter_cons, if_neg left, distinctFrom]
          split
          · exact ih agree
          · rw [List.filter_cons, if_neg left]
            apply ih
            -- The key that is added belongs to a rule that does not stay.
            intro rule line stays
            rw [Std.HashSet.mem_insert, agree rule line stays, beq_iff_eq]
            constructor
            · intro given
              rcases given with same | known
              · obtain ⟨rfl, -⟩ := Prod.mk.inj same
                exact absurd stays left
              · exact known
            · exact .inr

theorem filter_distinct (wanted : Rule → Bool) (violations : List Violation) :
    (distinct violations).filter (wanted ·.rule) = distinct (violations.filter (wanted ·.rule)) :=
  filter_distinctFrom wanted (fun _ _ _ => Iff.rfl) violations

end Violation

namespace Layout

/-! ## What one leaf shows -/

/-- The lines that end with whitespace as far as a leaf and the leaf before it tell. -/
inductive EndsBlankAt (previous : Option Token) (token : Token) : Nat → Prop where
  | run {before} : token.kind = .endOfLine → previous = some before → before.kind = .whitespace →
      EndsBlankAt previous token token.line
  | text : token.kind.eatsLine = true → endsBlank token.text.toList = true →
      EndsBlankAt previous token token.line
  | comment {j line} : token.kind = .blockComment →
      (physicalLines token.text.toList)[j]? = some line → endsBlank line = true →
      EndsBlankAt previous token (wordSum token.line j)

/-- The lines that a leaf shows to be longer than the maximum. -/
inductive TooLongAt (maximum : Nat) (token : Token) : Nat → Prop where
  | comment {j line} : token.kind = .blockComment →
      (physicalLines token.text.toList)[j]? = some line →
      maximum < wordSum (if j = 0 then token.startColumn - 1 else 0) line.length →
      TooLongAt maximum token (wordSum token.line j)
  | terminator : token.kind = .endOfLine → maximum < token.startColumn - 1 →
      TooLongAt maximum token token.endLine
  | other : token.kind ≠ .blockComment → token.kind ≠ .endOfLine → maximum < token.endColumn →
      TooLongAt maximum token token.endLine

theorem mem_indexedLines {token : Token} {line : List Char} {j : Nat} :
    (line, j) ∈ indexedLines token ↔ (physicalLines token.text.toList)[j]? = some line := by
  rw [indexedLines, List.mk_mem_zipIdx_iff_getElem?]

theorem mem_leadingWhitespace {settings : Settings} {token : Token} {violation : Violation} :
    violation ∈ leadingWhitespace settings token ↔
      skips settings token = false ∧ token.kind.isWhitespace = true ∧
        violation = .plain .leadingWhitespace token.line := by
  rw [leadingWhitespace]
  split <;> simp_all

theorem mem_finalNewline {settings : Settings} {token : Token} {violation : Violation} :
    violation ∈ finalNewline settings token ↔
      skips settings token = false ∧ token.kind ≠ .endOfLine ∧
        violation = .plain .missingTrailingNewline token.line := by
  rw [finalNewline]
  split <;> simp_all

theorem mem_trailingWhitespace {settings : Settings} {previous : Option Token} {token : Token}
    {violation : Violation} :
    violation ∈ trailingWhitespace settings previous token ↔
      skips settings token = false ∧
        ∃ line, EndsBlankAt previous token line ∧ violation = .plain .trailingWhitespace line := by
  cases skipped : skips settings token with
  | true => simp [trailingWhitespace, skipped]
  | false =>
      rw [trailingWhitespace, skipped]
      simp only [Bool.false_eq_true, if_false, true_and]
      constructor
      · intro member
        split at member
        · rename_i terminator
          split at member
          · rename_i blank
            obtain ⟨before, found, kind⟩ := (Option.any_eq_true _ _).mp blank
            exact ⟨_, .run terminator found (eq_of_beq kind), List.mem_singleton.mp member⟩
          · cases member
        · rename_i comment
          obtain ⟨⟨line, j⟩, indexed, shown⟩ := List.mem_filterMap.mp member
          obtain ⟨blank, same⟩ := Option.ite_none_right_eq_some.mp shown
          exact ⟨_, .comment comment (mem_indexedLines.mp indexed) blank,
            (Option.some.inj same).symm⟩
        · split at member
          · rename_i eats
            obtain ⟨eats, blank⟩ := Bool.and_eq_true_iff.mp eats
            exact ⟨_, .text eats blank, List.mem_singleton.mp member⟩
          · cases member
      · intro given
        obtain ⟨line, shown, rfl⟩ := given
        cases shown with
        | run terminator found blank => simp [terminator, found, blank]
        | text eats blank =>
            split
            · rename_i kind
              rw [kind] at eats
              cases eats
            · rename_i kind
              rw [kind] at eats
              cases eats
            · simp [eats, blank]
        | comment kind found blank =>
            rw [kind]
            exact List.mem_filterMap.mpr ⟨_, mem_indexedLines.mpr found, if_pos blank⟩

theorem mem_lineLength {settings : Settings} {token : Token} {violation : Violation} :
    violation ∈ lineLength settings token ↔
      skips settings token = false ∧
        ∃ line, TooLongAt settings.maximum token line ∧
          violation = ⟨.lineTooLong, line, some settings.maximum⟩ := by
  cases skipped : skips settings token with
  | true => simp [lineLength, skipped]
  | false =>
      rw [lineLength, skipped]
      simp only [Bool.false_eq_true, if_false, true_and]
      constructor
      · intro member
        split at member
        · rename_i comment
          obtain ⟨⟨line, j⟩, indexed, shown⟩ := List.mem_filterMap.mp member
          obtain ⟨long, same⟩ := Option.ite_none_right_eq_some.mp shown
          exact ⟨_, .comment comment (mem_indexedLines.mp indexed) long,
            (Option.some.inj same).symm⟩
        · rename_i terminator
          split at member
          · rename_i long
            exact ⟨_, .terminator terminator long, List.mem_singleton.mp member⟩
          · cases member
        · rename_i comment terminator
          split at member
          · rename_i long
            exact ⟨_, .other comment terminator long, List.mem_singleton.mp member⟩
          · cases member
      · intro given
        obtain ⟨line, shown, rfl⟩ := given
        cases shown with
        | comment kind found long =>
            rw [kind]
            exact List.mem_filterMap.mpr ⟨_, mem_indexedLines.mpr found, if_pos long⟩
        | terminator kind long => simp [kind, long]
        | other comment terminator long => simp [long]

/-! ## The way through the leaves -/

/-- Every leaf with the leaf before it; `previous` comes before them all. -/
def paired (previous : Option Token) : List Token → List (Option Token × Token)
  | [] => []
  | token :: rest => (previous, token) :: paired (some token) rest

theorem forward_eq (settings : Settings) (previous : Option Token) (leaves : List Token) :
    forward settings previous leaves =
      (if previous.isNone then leaves.head?.elim [] (leadingWhitespace settings) else []) ++
        (paired previous leaves).flatMap fun (before, token) =>
          trailingWhitespace settings before token ++ lineLength settings token := by
  induction leaves generalizing previous with
  | nil => cases previous <;> rfl
  | cons token rest ih =>
      rw [forward, ih]
      simp [paired]

theorem mem_paired {previous before : Option Token} {token : Token} {leaves : List Token} :
    (before, token) ∈ paired previous leaves ↔
      ∃ i, leaves[i]? = some token ∧ before = if i = 0 then previous else leaves[i - 1]? := by
  induction leaves generalizing previous with
  | nil => simp [paired]
  | cons first rest ih =>
      rw [paired, List.mem_cons, ih]
      constructor
      · intro given
        rcases given with same | ⟨i, found, rfl⟩
        · obtain ⟨rfl, rfl⟩ := Prod.mk.inj same
          exact ⟨0, rfl, rfl⟩
        · refine ⟨i + 1, found, ?_⟩
          cases i <;> simp
      · intro given
        obtain ⟨i, found, rfl⟩ := given
        cases i with
        | zero =>
            obtain rfl : first = token := by simpa using found
            exact .inl rfl
        | succ i =>
            refine .inr ⟨i, by simpa using found, ?_⟩
            cases i <;> simp

/-! ## The tail of the root tokens -/

/-- The tokens met on the way back from an index to the first one. -/
def backFrom (roots : List Token) (index : Nat) : List Token :=
  (roots.take (index + 1)).reverse

/-- The way back goes from each token to its predecessor. -/
theorem backFrom_eq {roots : List Token} {index : Nat} (inside : index < roots.length) :
    backFrom roots index =
      roots[index] :: ((predecessorIndex roots.length index).map (backFrom roots)).getD [] := by
  rw [backFrom, List.take_succ_eq_append_getElem inside, List.reverse_concat]
  cases index with
  | zero => rfl
  | succ before =>
      have found : predecessorIndex roots.length (before + 1) = some before :=
        if_pos ⟨Nat.succ_pos before, Nat.lt_of_succ_lt inside⟩
      rw [found]
      rfl

/-- So the reversed list that the check takes is the way back from the last token. -/
theorem reverse_eq_backFrom (roots : List Token) :
    roots.reverse = backFrom roots (roots.length - 1) := by
  rw [backFrom, List.take_of_length_le (by omega)]

/-- May the token be part of the whitespace that a document ends with? -/
def inTail (settings : Settings) (token : Token) : Bool :=
  token.kind.isWhitespace && !skips settings token

/-- The line terminators in the whitespace that a document ends with. -/
def closing (settings : Settings) (roots : List Token) : List Token :=
  (roots.rtakeWhile (inTail settings)).filter (·.kind = .endOfLine)

/-- The violations for terminators before a last one on `line`. -/
def surplus (line : Nat) (earlier : List Token) : List Violation :=
  earlier.filterMap fun token =>
    if token.line < line then some (.plain .trailingBlankLines line) else none

theorem not_inTail {settings : Settings} {token : Token} :
    (!token.kind.isWhitespace || skips settings token) = !inTail settings token := by
  rw [inTail, Bool.not_and, Bool.not_not]

theorem blankTail_outside {settings : Settings} {token : Token}
    (outside : inTail settings token = false) (last : Option Nat) (earlier : List Token) :
    blankTail settings last (token :: earlier) = [] := by
  rw [blankTail.eq_def]
  simp [not_inTail, outside]

theorem blankTail_inside {settings : Settings} {token : Token}
    (inside : inTail settings token = true) (last : Option Nat) (earlier : List Token) :
    blankTail settings last (token :: earlier) =
      if token.kind = .endOfLine then
        (last.elim [] fun line => surplus line [token]) ++
          blankTail settings (some (last.getD token.line)) earlier
      else blankTail settings last earlier := by
  rw [blankTail.eq_def]
  cases last with
  | none => simp [not_inTail, inside]
  | some line =>
      by_cases before : token.line < line <;> simp [not_inTail, inside, surplus, before]

theorem blankTail_some (settings : Settings) (line : Nat) (tokens : List Token) :
    blankTail settings (some line) tokens =
      surplus line ((tokens.takeWhile (inTail settings)).filter (·.kind = .endOfLine)) := by
  induction tokens with
  | nil => rfl
  | cons token earlier ih =>
      cases inside : inTail settings token with
      | false => simp [blankTail_outside inside, inside, surplus]
      | true =>
          rw [blankTail_inside inside, List.takeWhile_cons_of_pos inside, List.filter_cons]
          by_cases terminator : token.kind = .endOfLine
          · simp [terminator, ih, surplus, ← List.filterMap_append]
          · simp [terminator, ih]

/-- The first terminator met on the way back is the last of the document; the rest are compared with
it. -/
theorem blankTail_none (settings : Settings) (tokens : List Token) :
    blankTail settings none tokens =
      match (tokens.takeWhile (inTail settings)).filter (·.kind = .endOfLine) with
      | [] => []
      | last :: earlier => surplus last.line earlier := by
  induction tokens with
  | nil => rfl
  | cons token earlier ih =>
      cases inside : inTail settings token with
      | false => simp [blankTail_outside inside, inside]
      | true =>
          rw [blankTail_inside inside, List.takeWhile_cons_of_pos inside, List.filter_cons]
          by_cases terminator : token.kind = .endOfLine
          · simp [terminator, blankTail_some]
          · simp [terminator, ih]

theorem closing_eq_reverse (settings : Settings) (roots : List Token) :
    closing settings roots =
      ((roots.reverse.takeWhile (inTail settings)).filter (·.kind = .endOfLine)).reverse := by
  rw [closing, List.rtakeWhile, List.filter_reverse]

theorem mem_surplus {line : Nat} {earlier : List Token} {violation : Violation} :
    violation ∈ surplus line earlier ↔
      (∃ token ∈ earlier, token.line < line) ∧ violation = .plain .trailingBlankLines line := by
  simp only [surplus, List.mem_filterMap, Option.ite_none_right_eq_some, Option.some.injEq]
  constructor
  · intro given
    obtain ⟨token, member, before, rfl⟩ := given
    exact ⟨⟨token, member, before⟩, rfl⟩
  · intro given
    obtain ⟨⟨token, member, before⟩, rfl⟩ := given
    exact ⟨token, member, before, rfl⟩

theorem mem_blankTail {settings : Settings} {roots : List Token} {violation : Violation} :
    violation ∈ blankTail settings none roots.reverse ↔
      ∃ last, (closing settings roots).getLast? = some last ∧
        (∃ token ∈ closing settings roots, token.line < last.line) ∧
        violation = .plain .trailingBlankLines last.line := by
  rw [blankTail_none, closing_eq_reverse]
  cases (roots.reverse.takeWhile (inTail settings)).filter (·.kind = .endOfLine) with
  | nil => simp
  | cons last earlier =>
      rw [List.getLast?_reverse, mem_surplus]
      constructor
      · intro given
        obtain ⟨⟨token, member, before⟩, rfl⟩ := given
        exact ⟨last, rfl, ⟨token, by simp [member], before⟩, rfl⟩
      · intro given
        obtain ⟨last', same, ⟨token, member, before⟩, rfl⟩ := given
        obtain rfl : last = last' := by simpa using same
        refine ⟨⟨token, ?_, before⟩, rfl⟩
        -- The last terminator does not come before itself.
        rcases List.mem_cons.mp (List.mem_reverse.mp member) with rfl | member
        · exact absurd before (Nat.lt_irrefl _)
        · exact member

/-! ## All findings -/

/-- Which lines break which rules, given the root tokens and the leaves of a document. Only leaves
that are not passed over count, but the leaf before one of them may be any. -/
inductive Breach (settings : Settings) (roots leaves : List Token) : Rule → Nat → Prop where
  | leading {first} : leaves.head? = some first → skips settings first = false →
      first.kind.isWhitespace = true → Breach settings roots leaves .leadingWhitespace first.line
  | trailing {i token line} : leaves[i]? = some token → skips settings token = false →
      EndsBlankAt (if i = 0 then none else leaves[i - 1]?) token line →
      Breach settings roots leaves .trailingWhitespace line
  | long {token line} : token ∈ leaves → skips settings token = false →
      TooLongAt settings.maximum token line → Breach settings roots leaves .lineTooLong line
  | blankLines {last token} : (closing settings roots).getLast? = some last →
      token ∈ closing settings roots → token.line < last.line →
      Breach settings roots leaves .trailingBlankLines last.line
  | noNewline {last} : leaves.getLast? = some last → skips settings last = false →
      last.kind ≠ .endOfLine → Breach settings roots leaves .missingTrailingNewline last.line

/-- The context that a finding of a rule carries. -/
def contextOf (settings : Settings) : Rule → Option Nat
  | .lineTooLong => some settings.maximum
  | _ => none

theorem mem_forward {settings : Settings} {leaves : List Token} {violation : Violation} :
    violation ∈ forward settings none leaves ↔
      (∃ first, leaves.head? = some first ∧ violation ∈ leadingWhitespace settings first) ∨
      ∃ i token, leaves[i]? = some token ∧
        (violation ∈ trailingWhitespace settings (if i = 0 then none else leaves[i - 1]?) token ∨
          violation ∈ lineLength settings token) := by
  rw [forward_eq, List.mem_append, List.mem_flatMap]
  apply or_congr
  · cases leaves <;> simp
  · constructor
    · intro given
      obtain ⟨⟨before, token⟩, member, found⟩ := given
      obtain ⟨i, here, rfl⟩ := mem_paired.mp member
      exact ⟨i, token, here, List.mem_append.mp found⟩
    · intro given
      obtain ⟨i, token, here, found⟩ := given
      exact ⟨_, mem_paired.mpr ⟨i, here, rfl⟩, List.mem_append.mpr found⟩

/-- What is found is what is broken, and the rule decides the context. -/
theorem mem_findings {settings : Settings} {roots leaves : List Token} {last : Token}
    (ends : leaves.getLast? = some last) {violation : Violation} :
    violation ∈ findings settings roots leaves last ↔
      Breach settings roots leaves violation.rule violation.line ∧
        violation.context = contextOf settings violation.rule := by
  rw [findings, List.mem_append, List.mem_append, mem_forward, mem_blankTail, mem_finalNewline]
  constructor
  · intro given
    rcases given with ((⟨first, head, found⟩ | ⟨i, token, here, found | found⟩) | found) | found
    · obtain ⟨kept, blank, rfl⟩ := mem_leadingWhitespace.mp found
      exact ⟨.leading head kept blank, rfl⟩
    · obtain ⟨kept, line, shown, rfl⟩ := mem_trailingWhitespace.mp found
      exact ⟨.trailing here kept shown, rfl⟩
    · obtain ⟨kept, line, shown, rfl⟩ := mem_lineLength.mp found
      exact ⟨.long (List.mem_of_getElem? here) kept shown, rfl⟩
    · obtain ⟨final, closes, ⟨token, member, before⟩, rfl⟩ := found
      exact ⟨.blankLines closes member before, rfl⟩
    · obtain ⟨kept, unended, rfl⟩ := found
      exact ⟨.noNewline ends kept unended, rfl⟩
  · obtain ⟨rule, line, context⟩ := violation
    intro given
    obtain ⟨broken, decided⟩ := given
    simp only at broken decided
    subst decided
    cases broken with
    | leading head kept blank =>
        exact .inl (.inl (.inl ⟨_, head, mem_leadingWhitespace.mpr ⟨kept, blank, rfl⟩⟩))
    | trailing here kept shown =>
        exact .inl (.inl (.inr ⟨_, _, here,
          .inl (mem_trailingWhitespace.mpr ⟨kept, _, shown, rfl⟩)⟩))
    | long member kept shown =>
        obtain ⟨i, here⟩ := List.mem_iff_getElem?.mp member
        exact .inl (.inl (.inr ⟨i, _, here, .inr (mem_lineLength.mpr ⟨kept, _, shown, rfl⟩)⟩))
    | blankLines closes member before =>
        exact .inl (.inr ⟨_, closes, ⟨_, member, before⟩, rfl⟩)
    | noNewline final kept unended =>
        obtain rfl := Option.some.inj (ends.symm.trans final)
        exact .inr ⟨kept, unended, rfl⟩

end Layout

/-! ## The check of a document -/

namespace Document

theorem checkLayout_eq_ok {document : Document} {settings : Settings} {leaves : List Token}
    {last : Token} (written : document.tokens ≠ [])
    (kept : settings.excludes document.generated = false)
    (drained : Token.leaves document.tokens = .ok leaves) (ends : leaves.getLast? = some last) :
    document.checkLayout settings =
      .ok (Violation.distinct (Layout.findings settings document.tokens leaves last)) := by
  simp [checkLayout, isEmpty, written, kept, drained, ends]

/-- A document with a leaf that is not passed over as a whole gets all its findings, once each. -/
theorem checkLayout_of_leaves {document : Document} {settings : Settings} {leaves : List Token}
    (written : document.tokens ≠ []) (kept : settings.excludes document.generated = false)
    (drained : Token.leaves document.tokens = .ok leaves) :
    ∃ violations, document.checkLayout settings = .ok violations ∧
      (violations.map Violation.key).Nodup ∧
      ∀ violation, violation ∈ violations ↔
        Layout.Breach settings document.tokens leaves violation.rule violation.line ∧
          violation.context = Layout.contextOf settings violation.rule := by
  obtain ⟨rfl, -⟩ := Token.leaves_eq_ok_iff.mp drained
  obtain ⟨last, ends⟩ := Option.ne_none_iff_exists'.mp
    (mt List.getLast?_eq_none_iff.mp (Token.terminalsOf_ne_nil _ written))
  have decided : ∀ violation ∈ Layout.findings settings document.tokens _ last,
      violation.context = Layout.contextOf settings violation.rule :=
    fun violation member => ((Layout.mem_findings ends).mp member).2
  exact ⟨_, checkLayout_eq_ok written kept drained ends, Violation.nodup_keys_distinct _,
    fun violation => (Violation.mem_distinct decided).trans (Layout.mem_findings ends)⟩

end Document

end TokenLayout
