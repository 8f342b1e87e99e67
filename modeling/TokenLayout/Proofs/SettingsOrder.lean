import TokenLayout.Proofs.TailScan

/-! # Settings that find more

Settings that include generated code, or allow only shorter lines, find at least as much as others
that do not. Each breach of a rule under the narrower settings is one under the wider; the only case
with an argument is the whitespace at the end, which reaches further back but ends with the same
terminator. The maximum on its own is asked for by one question only, so the answers of the others
stay the same and in their order.
-/

namespace TokenLayout

/-- Settings under which at least the same is found. -/
structure Settings.FindsAllOf (wide narrow : Settings) : Prop where
  generated : narrow.includeGenerated = true → wide.includeGenerated = true
  maximum : wide.maximum ≤ narrow.maximum

namespace Settings.FindsAllOf

variable {wide narrow : Settings}

theorem excludes (more : wide.FindsAllOf narrow) {generated : Bool}
    (kept : narrow.excludes generated = false) : wide.excludes generated = false := by
  have included := more.generated
  unfold Settings.excludes at kept ⊢
  cases generated <;> simp_all

theorem inTail (more : wide.FindsAllOf narrow) {token : Token}
    (inside : Layout.inTail narrow token = true) : Layout.inTail wide token = true := by
  unfold Layout.inTail Layout.skips at inside ⊢
  simp only [Bool.and_eq_true, Bool.not_eq_true'] at inside ⊢
  exact ⟨inside.1, more.excludes inside.2⟩

end Settings.FindsAllOf

namespace Layout

variable {wide narrow : Settings} {roots leaves : List Token}

theorem TooLongAt.mono {low high : Nat} {token : Token} {line : Nat} (lower : low ≤ high)
    (long : TooLongAt high token line) : TooLongAt low token line := by
  cases long with
  | comment kind found long => exact .comment kind found (Nat.lt_of_le_of_lt lower long)
  | terminator kind long => exact .terminator kind (Nat.lt_of_le_of_lt lower long)
  | other comment terminator long =>
      exact .other comment terminator (Nat.lt_of_le_of_lt lower long)

theorem Breach.mono {rule : Rule} {line : Nat} (more : wide.FindsAllOf narrow)
    (broken : Breach narrow roots leaves rule line) : Breach wide roots leaves rule line := by
  cases broken with
  | leading head kept blank => exact .leading head (more.excludes kept) blank
  | trailing here kept shown => exact .trailing here (more.excludes kept) shown
  | long member kept shown => exact .long member (more.excludes kept) (shown.mono more.maximum)
  | blankLines ends member before =>
      have suffix : closing narrow roots <:+ closing wide roots :=
        closing_of_isSuffix (List.rtakeWhile_suffix _ _)
          fun token inside => more.inTail (List.mem_rtakeWhile_imp inside)
      exact (Breach.blankLines ends member before).blankLines_of_isSuffix suffix
  | noNewline last kept unended => exact .noNewline last (more.excludes kept) unended

/-! ## Findings apart from long lines -/

theorem filter_lineLength (settings : Settings) (token : Token) :
    (lineLength settings token).filter (·.rule ≠ .lineTooLong) = [] := by
  rw [List.filter_eq_nil_iff]
  intro violation member
  obtain ⟨-, line, -, rfl⟩ := mem_lineLength.mp member
  simp

theorem filter_findings_maximum (same : wide.includeGenerated = narrow.includeGenerated)
    (last : Token) :
    (findings wide roots leaves last).filter (·.rule ≠ .lineTooLong) =
      (findings narrow roots leaves last).filter (·.rule ≠ .lineTooLong) := by
  obtain ⟨generated, low, positive⟩ := wide
  obtain ⟨generated', high, positive'⟩ := narrow
  cases same
  have onTheWay : ∀ previous,
      (forward ⟨generated, low, positive⟩ previous leaves).filter (·.rule ≠ .lineTooLong) =
        (forward ⟨generated, high, positive'⟩ previous leaves).filter (·.rule ≠ .lineTooLong) := by
    induction leaves with
    | nil => exact fun _ => rfl
    | cons token rest ih =>
        intro previous
        simp only [forward, List.filter_append, filter_lineLength, ih]
        rfl
  rw [findings, findings, blankTail_none, blankTail_none]
  simp only [List.filter_append, onTheWay]
  rfl

end Layout

namespace Document

section Compared

variable {document : Document} {wide narrow : Settings} {few many : List Violation}
  (checked : document.checkLayout narrow = .ok few)
  (checked' : document.checkLayout wide = .ok many)

include checked checked'

/-- What narrower settings find, wider ones find on the same line, with a context of their own. -/
theorem mem_of_findsAllOf (more : wide.FindsAllOf narrow) {violation : Violation}
    (member : violation ∈ few) :
    violation.context = Layout.contextOf narrow violation.rule ∧
      ⟨violation.rule, violation.line, Layout.contextOf wide violation.rule⟩ ∈ many := by
  have kept := not_excluded_of_mem checked member
  obtain ⟨-, found⟩ := mem_checkLayout checked kept
  obtain ⟨-, found'⟩ := mem_checkLayout checked' (more.excludes kept)
  obtain ⟨broken, context⟩ := (found violation).mp member
  exact ⟨context, (found' _).mpr ⟨broken.mono more, rfl⟩⟩

theorem filter_eq_of_maximum (same : wide.includeGenerated = narrow.includeGenerated) :
    few.filter (·.rule ≠ .lineTooLong) = many.filter (·.rule ≠ .lineTooLong) := by
  have passes : wide.excludes document.generated = narrow.excludes document.generated := by
    unfold Settings.excludes
    rw [same]
  cases kept : narrow.excludes document.generated with
  | true =>
      rw [eq_nil_of_excluded checked kept, eq_nil_of_excluded checked' (passes.trans kept)]
  | false =>
      have written := Token.terminalsOf_ne_nil _ (written_of_checkLayout checked)
      obtain ⟨last, ends⟩ := Option.ne_none_iff_exists'.mp (mt List.getLast?_eq_none_iff.mp written)
      rw [eq_distinct_of_checkLayout checked kept ends,
        eq_distinct_of_checkLayout checked' (passes.trans kept) ends,
        Violation.filter_distinct (· ≠ .lineTooLong), Violation.filter_distinct (· ≠ .lineTooLong),
        Layout.filter_findings_maximum same]

end Compared

/-- Including generated code only adds findings, and a lower maximum only adds long lines: nothing
else changes with it, nor does the order. -/
theorem checkLayout_monotone (document : Document) (one two : Settings)
    (found found' : List Violation) (checked : document.checkLayout one = .ok found)
    (checked' : document.checkLayout two = .ok found') :
    (one.includeGenerated = false → two.includeGenerated = true → one.maximum = two.maximum →
      found ⊆ found') ∧
    (one.includeGenerated = two.includeGenerated → two.maximum ≤ one.maximum →
      (∀ line, (.lineTooLong, line) ∈ found.map Violation.key →
        (.lineTooLong, line) ∈ found'.map Violation.key) ∧
      found.filter (·.rule ≠ .lineTooLong) = found'.filter (·.rule ≠ .lineTooLong)) := by
  constructor
  · intro without included maximum violation member
    have more : two.FindsAllOf one := ⟨fun _ => included, Nat.le_of_eq maximum.symm⟩
    obtain ⟨context, kept⟩ := mem_of_findsAllOf checked checked' more member
    have same : Layout.contextOf two violation.rule = violation.context := by
      rw [context]
      unfold Layout.contextOf
      rw [maximum]
    rwa [same] at kept
  · intro included lower
    have more : two.FindsAllOf one := ⟨fun given => included ▸ given, lower⟩
    refine ⟨fun line reported => ?_, filter_eq_of_maximum checked checked' included.symm⟩
    obtain ⟨violation, member, same⟩ := List.mem_map.mp reported
    obtain ⟨-, kept⟩ := mem_of_findsAllOf checked checked' more member
    exact List.mem_map.mpr ⟨_, kept, same⟩

/-- A long line that ends with whitespace, and behind it two terminators, one of them generated. -/
def partlyGenerated : Document :=
  ⟨false, [Token.leaf .plain "xyz" 1 1 3, Token.leaf .whitespace " " 1 4 4,
    Token.leaf .endOfLine "\n" 1 5 5, { Token.leaf .endOfLine "\n" 2 1 1 with generated := true },
    Token.leaf .endOfLine "\n" 3 1 1]⟩

theorem checkLayout_monotone_partlyGenerated :
    let narrow : Settings := ⟨false, 3, by decide⟩
    ∃ few, partlyGenerated.checkLayout narrow = .ok few ∧ .plain .trailingWhitespace 1 ∈ few ∧
      (∃ many, partlyGenerated.checkLayout ⟨true, 3, by decide⟩ = .ok many ∧ few ⊆ many) ∧
      ∃ long, partlyGenerated.checkLayout ⟨false, 1, by decide⟩ = .ok long ∧
        (∀ line, (.lineTooLong, line) ∈ few.map Violation.key →
          (.lineTooLong, line) ∈ long.map Violation.key) ∧
        few.filter (·.rule ≠ .lineTooLong) = long.filter (·.rule ≠ .lineTooLong) := by
  intro narrow
  have answered : ∀ settings, ∃ found, partlyGenerated.checkLayout settings = .ok found :=
    fun settings => checkLayout_of_no_misfit (by decide) rfl (by decide)
  obtain ⟨few, checked⟩ := answered narrow
  obtain ⟨many, included⟩ := answered ⟨true, 3, by decide⟩
  obtain ⟨long, lowered⟩ := answered ⟨false, 1, by decide⟩
  have blank : .plain .trailingWhitespace 1 ∈ few := by
    have third : (Token.terminalsOf partlyGenerated.tokens)[2]? =
        some (Token.leaf .endOfLine "\n" 1 5 5) := rfl
    exact ((mem_checkLayout checked rfl).2 _).mpr ⟨.trailing third rfl (.run rfl rfl rfl), rfl⟩
  have more := checkLayout_monotone partlyGenerated narrow _ few many checked included
  have shorter := checkLayout_monotone partlyGenerated narrow _ few long checked lowered
  exact ⟨few, checked, blank, ⟨many, included, more.1 rfl rfl rfl⟩, long, lowered,
    shorter.2 rfl (by decide)⟩

end Document

end TokenLayout
