import Mathlib.Data.List.DropRight
import TokenLayout.Cli.Session
import TokenLayout.Proofs.RuleEntries

/-! # Reporting only some rules

A check can be asked for some rules only, in a list of names and codes. What such a list asks for is
said here by its text alone (`Rule.AskedFor`): the parts between commas, without the blanks around
them. Restricting a configuration to these rules writes into the same table that the user's entries
are in, where an entry under the name of a rule hides one under its code. `Config.RestrictedTo` says
what must come of that: the rules asked for are reported as before, the others not at all. All that
is then said about whole runs rests on it and not on the table.
-/

namespace TokenLayout

/-! ## Parts of a list -/

/-- A text is a word with nothing but blanks around it, and the word neither starts nor ends with
one. -/
structure TrimsTo (text word : List Char) : Prop where
  around : ∃ front back, text = front ++ (word ++ back) ∧ (∀ c ∈ front, isBlank c = true) ∧
    ∀ c ∈ back, isBlank c = true
  first : ∀ c ∈ word.head?, isBlank c = false
  last : ∀ c ∈ word.getLast?, isBlank c = false

theorem dropWhile_of_head? {text : List Char} (first : ∀ c ∈ text.head?, isBlank c = false) :
    text.dropWhile isBlank = text := by
  cases text with
  | nil => rfl
  | cons c rest => simp [first c rfl]

theorem trimsTo_trimBlank (text : List Char) : TrimsTo text (trimBlank text) := by
  have trimmed : trimBlank text = (text.dropWhile isBlank).rdropWhile isBlank := rfl
  have pieces : text.dropWhile isBlank = (text.dropWhile isBlank).rdropWhile isBlank ++
      (text.dropWhile isBlank).rtakeWhile isBlank := List.rdropWhile_append_rtakeWhile.symm
  rw [trimmed]
  refine ⟨⟨text.takeWhile isBlank, (text.dropWhile isBlank).rtakeWhile isBlank, ?_, ?_, ?_⟩, ?_, ?_⟩
  · rw [← pieces, List.takeWhile_append_dropWhile]
  · exact fun c member => List.mem_takeWhile_imp member
  · exact fun c member => List.mem_rtakeWhile_imp member
  · intro c head
    have starts : (text.dropWhile isBlank).head? = some c := by
      rw [pieces, List.head?_append, head]
      rfl
    have plain := List.head?_dropWhile_not isBlank text
    rwa [starts] at plain
  · intro c ends
    obtain ⟨word, same⟩ := List.getLast?_eq_some_iff.mp ends
    have plain := List.rdropWhile_last_not isBlank (text.dropWhile isBlank) (by simp [same])
    simpa [same] using plain

theorem trimBlank_of_trimsTo {text word : List Char} (trims : TrimsTo text word) :
    trimBlank text = word := by
  obtain ⟨⟨front, back, rfl, before, behind⟩, first, last⟩ := trims
  unfold trimBlank
  rw [List.dropWhile_append_of_pos before]
  cases word with
  | nil =>
      have nothing : back.dropWhile isBlank = [] := by simpa using behind
      simp [nothing]
  | cons c rest =>
      have stays : (c :: rest ++ back).dropWhile isBlank = c :: rest ++ back :=
        dropWhile_of_head? first
      have turned : ∀ d ∈ (c :: rest).reverse.head?, isBlank d = false := by
        rw [List.head?_reverse]
        exact last
      rw [stays, List.reverse_append,
        List.dropWhile_append_of_pos (fun d member => behind d (List.mem_reverse.mp member)),
        dropWhile_of_head? turned, List.reverse_reverse]

/-! ## What a list of rules asks for -/

namespace Rule

theorem mem_all (rule : Rule) : rule ∈ all := by
  cases rule <;> decide

/-- May the rule be called so? Its name must be exact, in its code the case of letters is free. -/
def IsCalled (rule : Rule) (word : String) : Prop :=
  word = rule.name ∨ word.toList.map Char.toLower = rule.code.toList.map Char.toLower

instance (rule : Rule) (word : String) : Decidable (rule.IsCalled word) :=
  inferInstanceAs (Decidable (_ ∨ _))

theorem name_injective {one two : Rule} (same : one.name = two.name) : one = two := by
  cases one <;> cases two <;> first | rfl | exact absurd same (by decide)

theorem code_ne_name (one two : Rule) : one.code ≠ two.name := by
  cases one <;> cases two <;> decide

theorem lower_name_ne_lower_code (one two : Rule) :
    one.name.toList.map Char.toLower ≠ two.code.toList.map Char.toLower := by
  cases one <;> cases two <;> decide

theorem eq_of_lower_code {one two : Rule}
    (same : one.code.toList.map Char.toLower = two.code.toList.map Char.toLower) : one = two := by
  cases one <;> cases two <;> first | rfl | exact absurd same (by decide)

/-- No word calls two rules. -/
theorem IsCalled.unique {one two : Rule} {word : String} (called : one.IsCalled word)
    (called' : two.IsCalled word) : one = two := by
  -- A code is no name, not even up to case, so two names meet here or two codes.
  rcases called with rfl | coded <;> rcases called' with named | coded'
  · exact name_injective named
  · exact absurd coded' (lower_name_ne_lower_code one two)
  · exact absurd (named ▸ coded) (lower_name_ne_lower_code two one)
  · exact eq_of_lower_code (coded.symm.trans coded')

theorem find?_eq_some_iff {word : String} {rule : Rule} :
    find? word = some rule ↔ rule.IsCalled word := by
  have calls : ∀ other : Rule, (sameUpToCase other.code word || other.name == word) = true ↔
      other.IsCalled word := by
    intro other
    rw [sameUpToCase, Bool.or_eq_true, beq_iff_eq, beq_iff_eq, IsCalled, or_comm, eq_comm,
      @eq_comm _ (other.code.toList.map Char.toLower)]
  unfold find?
  constructor
  · intro found
    have matched := List.find?_some found
    exact (calls rule).mp matched
  · intro called
    cases found : all.find? fun other => sameUpToCase other.code word || other.name == word with
    | none =>
        rw [List.find?_eq_none] at found
        exact absurd ((calls rule).mpr called) (found rule rule.mem_all)
    | some other =>
        have matched := List.find?_some found
        rw [IsCalled.unique ((calls other).mp matched) called]

/-- Does a list of rules ask for this one? Commas divide the list, blanks around a part do not
count, and a part that calls no rule asks for none. -/
def AskedFor (list : String) (rule : Rule) : Prop :=
  ∃ parts, list.toList = [','].intercalate parts ∧ (∀ part ∈ parts, ',' ∉ part) ∧
    ∃ part ∈ parts, ∃ word, TrimsTo part word ∧ rule.IsCalled (String.ofList word)

theorem askedFor_iff {list : String} {rule : Rule} :
    rule.AskedFor list ↔ ∃ name ∈ Cli.ruleNames list, rule.IsCalled name := by
  unfold Cli.ruleNames
  constructor
  · intro asked
    obtain ⟨parts, joined, apart, part, member, word, trims, called⟩ := asked
    have split : splitAtChar ',' list.toList = parts := by
      rw [splitAtChar_eq_splitOn, joined,
        List.splitOn_intercalate ',' apart (List.ne_nil_of_mem member)]
    rw [split]
    refine ⟨_, List.mem_map_of_mem member, ?_⟩
    rwa [trimBlank_of_trimsTo trims]
  · intro given
    obtain ⟨name, member, called⟩ := given
    obtain ⟨part, inside, rfl⟩ := List.mem_map.mp member
    refine ⟨splitAtChar ',' list.toList, ?_, fun part => notMem_of_mem_splitAtChar, part, inside,
      _, trimsTo_trimBlank part, called⟩
    rw [splitAtChar_eq_splitOn, List.intercalate_splitOn]

instance (list : String) (rule : Rule) : Decidable (rule.AskedFor list) :=
  decidable_of_iff _ askedFor_iff.symm

theorem mem_filterMap_find? {list : String} {rule : Rule} :
    rule ∈ (Cli.ruleNames list).filterMap find? ↔ rule.AskedFor list := by
  rw [List.mem_filterMap, askedFor_iff]
  simp only [find?_eq_some_iff]

end Rule

/-! ## Restricted configurations -/

/-- The configuration with some rules as they were and the others switched off. Nothing but the
table of rules may differ. -/
structure Config.RestrictedTo (config result : Config) (wanted : Rule → Prop) : Prop where
  frame : result = { config with rules := result.rules }
  enabled : ∀ rule, result.isEnabled rule = true ↔ wanted rule ∧ config.isEnabled rule = true
  severity : ∀ rule, wanted rule → result.severity? rule = config.severity? rule

theorem Config.RestrictedTo.congr {config result : Config} {one two : Rule → Prop}
    (restricted : config.RestrictedTo result one) (same : ∀ rule, one rule ↔ two rule) :
    config.RestrictedTo result two where
  frame := restricted.frame
  enabled rule := by rw [restricted.enabled, same]
  severity rule wanted := restricted.severity rule ((same rule).mpr wanted)

namespace Cli

open Config

theorem ruleEntry?_disableRule_of_ne (config : Config) {rule other : Rule}
    (differs : other ≠ rule) :
    Config.ruleEntry? (disableRule config rule) other = config.ruleEntry? other := by
  have named : other.name ≠ rule.name := fun same => differs (Rule.name_injective same)
  have coded : other.code ≠ rule.name := Rule.code_ne_name other rule
  -- The entry that is written stands under a name, and both places to look in are other ones.
  unfold ruleEntry? disableRule
  rw [Table.get?_set_of_ne _ named, Table.get?_set_of_ne _ coded]

theorem isEnabled_disableRule_self (config : Config) (rule : Rule) :
    (disableRule config rule).isEnabled rule = false := by
  unfold isEnabled ruleEntry? disableRule
  rw [Table.get?_set_self]
  rfl

theorem restrictedTo_disableRule (config : Config) (rule : Rule) :
    config.RestrictedTo (disableRule config rule) (· ≠ rule) where
  frame := rfl
  enabled other := by
    by_cases same : other = rule
    · simp [same, isEnabled_disableRule_self]
    · simp [isEnabled, ruleEntry?_disableRule_of_ne config same, same]
  severity other differs := by
    rw [severity?, severity?, ruleEntry?_disableRule_of_ne config differs]

/-- Rules that are switched off one after the other stay off, and the rest stay as they were. -/
theorem restrictedTo_foldl (config : Config) (rules : List Rule) :
    config.RestrictedTo (rules.foldl disableRule config) (· ∉ rules) := by
  induction rules generalizing config with
  | nil => exact ⟨rfl, by simp, fun _ _ => rfl⟩
  | cons rule rest ih =>
      have first := restrictedTo_disableRule config rule
      have later := ih (disableRule config rule)
      rw [List.foldl_cons]
      refine ⟨later.frame, fun other => ?_, fun other kept => ?_⟩
      · rw [later.enabled, first.enabled, List.mem_cons, not_or]
        tauto
      · rw [List.mem_cons, not_or] at kept
        exact (later.severity other kept.2).trans (first.severity other kept.1)

/-- A request for no rule is refused before anything is written. -/
theorem restrictRules_of_not_askedFor {list : String}
    (nothing : ∀ rule : Rule, ¬ rule.AskedFor list) (config : Config) :
    restrictRules config (ruleNames list) =
      (.error (.noKnownRule (ruleNames list)), config) := by
  have unselected : (ruleNames list).filterMap Rule.find? = [] := by
    rw [List.eq_nil_iff_forall_not_mem]
    exact fun rule member => nothing rule (Rule.mem_filterMap_find?.mp member)
  unfold restrictRules
  rw [unselected]
  rfl

theorem restrictRules_of_askedFor {list : String} {rule : Rule} (asked : rule.AskedFor list)
    (config : Config) :
    ∃ result, restrictRules config (ruleNames list) = (.ok (), result) ∧
      config.RestrictedTo result (Rule.AskedFor list) := by
  have selected : rule ∈ (ruleNames list).filterMap Rule.find? :=
    Rule.mem_filterMap_find?.mpr asked
  have accepted : restrictRules config (ruleNames list) =
      (.ok (), (Rule.all.filter (· ∉ (ruleNames list).filterMap Rule.find?)).foldl disableRule
        config) := by
    unfold restrictRules
    simp [List.ne_nil_of_mem selected]
  refine ⟨_, accepted, (restrictedTo_foldl config _).congr fun other => ?_⟩
  simp only [List.mem_filter, Rule.mem_all, true_and, decide_eq_true_eq, not_not,
    Rule.mem_filterMap_find?]

end Cli

/-! ## Reports on some rules -/

/-- Is the diagnostic one of a rule that a list asks for? -/
def Diagnostic.AskedFor (list : String) (diagnostic : Diagnostic) : Prop :=
  ∃ rule : Rule, rule.AskedFor list ∧ diagnostic.rule = rule.name

instance (list : String) (diagnostic : Diagnostic) : Decidable (diagnostic.AskedFor list) :=
  decidable_of_iff (∃ rule ∈ Rule.all, rule.AskedFor list ∧ diagnostic.rule = rule.name) <| by
    simp [Diagnostic.AskedFor, Rule.mem_all]

/-- The report without what a list of rules does not ask for. -/
def Report.only (list : String) (report : Report) : Report :=
  { report with diagnostics := report.diagnostics.filter (·.AskedFor list) }

namespace Diagnostic

theorem askedFor_ofViolation {list : String} (violation : Violation) (path : Path)
    (severity : Severity) :
    (ofViolation violation path severity).AskedFor list ↔ violation.rule.AskedFor list := by
  constructor
  · intro asked
    obtain ⟨rule, asked, same⟩ := asked
    rwa [Rule.name_injective same]
  · exact fun asked => ⟨violation.rule, asked, rfl⟩

theorem askedFor_overridden {list : String} (rules : Table RuleEntry) (diagnostic : Diagnostic) :
    (diagnostic.overridden rules).AskedFor list ↔ diagnostic.AskedFor list := by
  unfold overridden
  split <;> rfl

/-- Reporting under a restricted configuration leaves out what was not asked for, and changes
nothing else. -/
theorem underRules_restricted {config result : Config} {list : String}
    (restricted : config.RestrictedTo result (Rule.AskedFor list)) {diagnostics : List Diagnostic}
    (found : ∀ diagnostic ∈ diagnostics, ∃ violation path severity,
      diagnostic = ofViolation violation path severity) :
    underRules result.rules diagnostics =
      (underRules config.rules diagnostics).filter (·.AskedFor list) := by
  have kept : diagnostics.filter (!isDisabled result.rules ·) =
      (diagnostics.filter (!isDisabled config.rules ·)).filter (·.AskedFor list) := by
    rw [List.filter_filter]
    apply List.filter_congr
    intro diagnostic member
    obtain ⟨violation, path, severity, rfl⟩ := found diagnostic member
    rw [isDisabled_ofViolation, isDisabled_ofViolation, Bool.not_not, Bool.not_not,
      Bool.eq_iff_iff, restricted.enabled, Bool.and_eq_true, decide_eq_true_eq,
      askedFor_ofViolation]
  unfold underRules
  rw [kept, List.filter_map]
  simp only [Function.comp_def, askedFor_overridden]
  -- Of what is kept every rule was asked for, so the severities are those from before.
  apply List.map_congr_left
  intro diagnostic member
  obtain ⟨inside, asked⟩ := List.mem_filter.mp member
  obtain ⟨violation, path, severity, rfl⟩ := found diagnostic (List.mem_of_mem_filter inside)
  rw [decide_eq_true_eq, askedFor_ofViolation] at asked
  rw [overridden_ofViolation, overridden_ofViolation, restricted.severity _ asked]

end Diagnostic

namespace Analyzer

theorem exists_violation_of_mem {analyzer : Analyzer} {tree : FileTree} {report : Report}
    (analyzed : analyzer.analyze tree = .ok report) {diagnostic : Diagnostic}
    (member : diagnostic ∈ report.diagnostics) :
    ∃ violation path severity, diagnostic = .ofViolation violation path severity := by
  unfold analyze at analyzed
  cases discovered : analyzer.discover tree with
  | error error =>
      rw [discovered] at analyzed
      cases analyzed
  | ok paths =>
      rw [discovered] at analyzed
      obtain ⟨-, rfl⟩ := run_eq_ok_iff.mp analyzed
      obtain ⟨file, -, found⟩ := List.mem_flatMap.mp (List.mem_mergeSort.mp member)
      obtain ⟨-, violation, severity, same⟩ := exists_violation_of_mem_contribution found
      exact ⟨violation, _, severity, same⟩

theorem analyze_restricted {analyzer : Analyzer} {result : Config} {list : String}
    (restricted : analyzer.config.RestrictedTo result (Rule.AskedFor list)) (tree : FileTree) :
    analyze { analyzer with config := result } tree =
      (analyzer.analyze tree).map (Report.only list) := by
  have same : withoutRules { analyzer with config := result } = analyzer.withoutRules := by
    unfold withoutRules Config.withoutRules
    rw [restricted.frame]
  rw [analyze_withoutRules, analyze_withoutRules analyzer, same]
  cases analyzed : analyzer.withoutRules.analyze tree with
  | error error => rfl
  | ok report =>
      have shaped := Diagnostic.underRules_restricted restricted fun _ member =>
        exists_violation_of_mem analyzed member
      simp only [Except.map, Report.underRules, Report.only, shaped]

end Analyzer

theorem AnalyzerPlan.build_restricted (plan : AnalyzerPlan) {result : Config}
    {wanted : Rule → Prop} (restricted : plan.config.RestrictedTo result wanted) (current : Path) :
    build { plan with config := result } current =
      (plan.build current).map ({ · with config := result }) := by
  have same : result.settings = plan.config.settings := by
    rw [restricted.frame]
    rfl
  have exclude : result.exclude = plan.config.exclude := by rw [restricted.frame]
  have root : result.root = plan.config.root := by rw [restricted.frame]
  unfold build
  simp only [same, exclude, root]
  cases plan.config.settings <;> rfl

/-! ## Checks of some rules -/

namespace Cli.Session

theorem prepare_of_none (session : Session) (globals : Globals) (request : CheckRequest) :
    session.prepare globals { request with rules := none } =
      session.baseConfig globals request >>= session.prepareWith request := rfl

theorem prepare_of_some {request : CheckRequest} {list : String}
    (given : request.rules = some list) (session : Session) (globals : Globals) :
    session.prepare globals request = (do
      let config ← session.baseConfig globals request
      (restrictRules config (ruleNames list)).1
      session.prepareWith request (restrictRules config (ruleNames list)).2) := by
  unfold prepare
  rw [given]

theorem prepareWith_restricted {config result : Config} {wanted : Rule → Prop}
    (restricted : config.RestrictedTo result wanted) (session : Session) (request : CheckRequest) :
    session.prepareWith request result =
      (session.prepareWith request config).map fun (analyzer, threshold) =>
        ({ analyzer with config := result }, threshold) := by
  have threshold : failThreshold result = failThreshold config := by
    rw [restricted.frame]
    rfl
  have built : (plan request result).build session.current =
      ((plan request config).build session.current).map ({ · with config := result }) :=
    AnalyzerPlan.build_restricted (plan request config) restricted session.current
  unfold prepareWith
  rw [threshold, built]
  cases failThreshold config with
  | error failure => rfl
  | ok severity => cases (plan request config).build session.current <;> rfl

theorem config_of_prepareWith {session : Session} {request : CheckRequest} {config : Config}
    {analyzer : Analyzer} {threshold : Severity}
    (ready : session.prepareWith request config = .ok (analyzer, threshold)) :
    analyzer.config = config ∧ failThreshold config = .ok threshold := by
  unfold prepareWith at ready
  cases read : failThreshold config with
  | error failure =>
      rw [read] at ready
      cases ready
  | ok severity =>
      cases made : (plan request config).build session.current with
      | error cause =>
          rw [read, made] at ready
          cases ready
      | ok built =>
          rw [read, made] at ready
          cases ready
          exact ⟨AnalyzerPlan.config_of_build made, rfl⟩

/-- A check that is asked for some rules answers as one for all of them, less what was not asked
for. It fails where that one does. -/
theorem check_restricted {request : CheckRequest} {list : String}
    (given : request.rules = some list) {rule : Rule} (asked : rule.AskedFor list)
    (session : Session) (globals : Globals) :
    session.check globals request =
      (session.check globals { request with rules := none }).map fun (report, threshold) =>
        (report.only list, threshold) := by
  unfold check
  rw [prepare_of_none, prepare_of_some given]
  -- The two checks part where the rules are restricted; a failure before or behind is of both.
  cases session.baseConfig globals request with
  | error failure => rfl
  | ok config =>
      obtain ⟨result, accepted, restricted⟩ := restrictRules_of_askedFor asked config
      simp only [bind, Except.bind, accepted, prepareWith_restricted restricted]
      cases ready : session.prepareWith request config with
      | error failure => rfl
      | ok prepared =>
          obtain ⟨analyzer, threshold⟩ := prepared
          obtain ⟨rfl, -⟩ := config_of_prepareWith ready
          simp only [Except.map, Analyzer.analyze_restricted restricted]
          cases analyzer.analyze session.tree <;> rfl

/-- A check for no rule that there is comes to its end before there is an analyzer. -/
theorem prepare_of_not_askedFor {request : CheckRequest} {list : String}
    (given : request.rules = some list) (nothing : ∀ rule : Rule, ¬ rule.AskedFor list)
    (session : Session) (globals : Globals) :
    session.prepare globals request = (do
      let _ ← session.baseConfig globals request
      throw (.noKnownRule (ruleNames list))) := by
  rw [prepare_of_some given]
  cases session.baseConfig globals request with
  | error failure => rfl
  | ok config =>
      simp only [bind, Except.bind, restrictRules_of_not_askedFor nothing]
      rfl

/-! ## How a check ends -/

theorem perform_of_prepare_error {session : Session} {globals : Globals} {request : CheckRequest}
    {failure : Failure} (refused : session.prepare globals request = .error failure) :
    session.check globals request = .error failure ∧
      (session.perform (.check globals request)).exit = 1 ∧
      (session.perform (.check globals request)).output = "" := by
  have failed : session.check globals request = .error failure := by
    rw [check, refused]
    rfl
  refine ⟨failed, ?_, ?_⟩ <;> simp only [perform, failed, Session.failed]

theorem threshold_of_check {session : Session} {globals : Globals} {request : CheckRequest}
    {report : Report} {threshold : Severity}
    (checked : session.check globals { request with rules := none } = .ok (report, threshold)) :
    ∃ config, session.baseConfig globals request = .ok config ∧
      failThreshold config = .ok threshold := by
  rw [check, prepare_of_none] at checked
  cases loaded : session.baseConfig globals request with
  | error failure =>
      rw [loaded] at checked
      cases checked
  | ok config =>
      rw [loaded] at checked
      simp only [bind, Except.bind] at checked
      cases ready : session.prepareWith request config with
      | error failure =>
          rw [ready] at checked
          cases checked
      | ok prepared =>
          rw [ready] at checked
          simp only at checked
          split at checked
          · cases checked
          · cases checked
            exact ⟨config, rfl, (config_of_prepareWith ready).2⟩

theorem perform_of_check {session : Session} {globals : Globals} {request : CheckRequest}
    {report : Report} {threshold : Severity}
    (checked : session.check globals request = .ok (report, threshold)) :
    (session.perform (.check globals request)).output = reportText report request.format ∧
      ((session.perform (.check globals request)).exit = 1 ↔
        ∃ diagnostic ∈ report.diagnostics, threshold.rank ≤ diagnostic.severity.rank) := by
  simp only [perform, checked]
  refine ⟨rfl, ?_⟩
  simp [Report.hasAt, Severity.atLeast]

/-- A list that asks for no rule is refused before there is an analyzer, and leaves the configuration
as it was. Any other list leaves the rules that it asks for as they were and switches off the rest,
so that the check reports the diagnostics of these rules among those of a check for all rules,
unchanged and in the same order, and fails for one of them that reaches the threshold. -/
theorem rules_intersect_config (list : String) :
    ((∀ rule : Rule, ¬ rule.AskedFor list) →
      (∀ config,
        (restrictRules config (ruleNames list)).1 = .error (.noKnownRule (ruleNames list)) ∧
        (restrictRules config (ruleNames list)).2 = config) ∧
      ∀ (session : Session) (globals : Globals) (request : CheckRequest),
        request.rules = some list → ∃ failure,
          (session.baseConfig globals request = .error failure ∨
            failure = .noKnownRule (ruleNames list)) ∧
          session.prepare globals request = .error failure ∧
          session.check globals request = .error failure ∧
          (session.perform (.check globals request)).exit = 1 ∧
          (session.perform (.check globals request)).output = "") ∧
    ((∃ rule : Rule, rule.AskedFor list) →
      (∀ config, ∃ result, restrictRules config (ruleNames list) = (.ok (), result) ∧
        (∀ rule, result.isEnabled rule = true ↔
          rule.AskedFor list ∧ config.isEnabled rule = true) ∧
        ∀ rule, rule.AskedFor list → result.severity? rule = config.severity? rule) ∧
      ∀ (session : Session) (globals : Globals) (request : CheckRequest),
        request.rules = some list →
          session.check globals request =
            (session.check globals { request with rules := none }).map
              (fun (report, threshold) => (report.only list, threshold)) ∧
          ∀ report threshold,
            session.check globals { request with rules := none } = .ok (report, threshold) →
            (∃ config, session.baseConfig globals request = .ok config ∧
              failThreshold config = .ok threshold) ∧
            (session.perform (.check globals request)).output =
              reportText (report.only list) request.format ∧
            ((session.perform (.check globals request)).exit = 1 ↔
              ∃ diagnostic ∈ report.diagnostics, diagnostic.AskedFor list ∧
                threshold.rank ≤ diagnostic.severity.rank)) := by
  refine ⟨fun nothing => ⟨fun config => ?_, fun session globals request given => ?_⟩,
    fun something => ?_⟩
  · rw [restrictRules_of_not_askedFor nothing config]
    exact ⟨rfl, rfl⟩
  · have stopped := prepare_of_not_askedFor given nothing session globals
    cases loaded : session.baseConfig globals request with
    | error failure =>
        rw [loaded] at stopped
        exact ⟨failure, .inl rfl, stopped, perform_of_prepare_error stopped⟩
    | ok config =>
        rw [loaded] at stopped
        exact ⟨_, .inr rfl, stopped, perform_of_prepare_error stopped⟩
  · obtain ⟨rule, asked⟩ := something
    refine ⟨fun config => ?_, fun session globals request given => ?_⟩
    · obtain ⟨result, accepted, restricted⟩ := restrictRules_of_askedFor asked config
      exact ⟨result, accepted, restricted.enabled, restricted.severity⟩
    · have filtered := check_restricted given asked session globals
      refine ⟨filtered, fun report threshold checked => ?_⟩
      rw [checked] at filtered
      obtain ⟨shown, ends⟩ := perform_of_check filtered
      refine ⟨threshold_of_check checked, shown, ends.trans ?_⟩
      simp only [Report.only, List.mem_filter, decide_eq_true_eq, and_assoc]

/-- A directory with one document, which is a single blank, and with the project's configuration. -/
def blankPage : Session where
  tree := .directory [("p", .directory [
    ("a.tokens.json", .file (some ("\x7b\"tokens\":[\x7b\"kind\":\"whitespace\",\"text\":\" \"," ++
      "\"line\":1,\"start_column\":1,\"end_column\":1\x7d]\x7d"))),
    ("layout-lint.toml", .file (some "[rules.LL005]\nseverity = \"info\"\n"))])]
  current := .top
  home := none
  configDirectory := none

theorem rules_intersect_config_blankPage :
    let list := " ll005 , bogus"
    let request : CheckRequest := ⟨⟨"p"⟩, .compact, some list, [], ⟨none, false⟩⟩
    let coded : Config := { Config.default with rules := [("LL005", ⟨none, some .info⟩)] }
    (∃ report threshold,
      blankPage.check ⟨false, none⟩ { request with rules := none } = .ok (report, threshold) ∧
      blankPage.check ⟨false, none⟩ request = .ok (report.only list, threshold) ∧
      ((blankPage.perform (.check ⟨false, none⟩ request)).exit = 1 ↔
        ∃ diagnostic ∈ report.diagnostics, diagnostic.AskedFor list ∧
          threshold.rank ≤ diagnostic.severity.rank)) ∧
    (∃ result, restrictRules coded (ruleNames list) = (.ok (), result) ∧
      result.isEnabled .missingTrailingNewline = true ∧
      result.severity? .missingTrailingNewline = some .info ∧
      result.isEnabled .leadingWhitespace = false) ∧
    (restrictRules coded (ruleNames "LL9,trailing")).2 = coded ∧
    (blankPage.perform
      (.check ⟨false, none⟩ { request with rules := some "LL9,trailing" })).exit = 1 := by
  intro list request coded
  have asked : Rule.missingTrailingNewline.AskedFor list := by decide +kernel
  have skipped : ¬ Rule.leadingWhitespace.AskedFor list := by decide +kernel
  have nothing : ∀ rule : Rule, ¬ rule.AskedFor "LL9,trailing" := by
    intro rule
    cases rule <;> decide +kernel
  obtain ⟨configs, checks⟩ := (rules_intersect_config list).2 ⟨_, asked⟩
  obtain ⟨result, accepted, enabled, severity⟩ := configs coded
  have passes : (blankPage.check ⟨false, none⟩ { request with rules := none }).isOk = true := by
    decide +kernel
  obtain ⟨refused, failures⟩ := (rules_intersect_config "LL9,trailing").1 nothing
  obtain ⟨-, -, -, -, exits, -⟩ := failures blankPage ⟨false, none⟩ { request with
    rules := some "LL9,trailing" } rfl
  refine ⟨?_, ⟨result, accepted, (enabled _).mpr ⟨asked, by decide +kernel⟩, ?_, ?_⟩,
    (refused coded).2, exits⟩
  · obtain ⟨filtered, ends⟩ := checks blankPage ⟨false, none⟩ request rfl
    cases checked : blankPage.check ⟨false, none⟩ { request with rules := none } with
    | error failure =>
        rw [checked] at passes
        cases passes
    | ok answer =>
        rw [checked] at filtered
        exact ⟨answer.1, answer.2, rfl, filtered, (ends _ _ checked).2.2⟩
  · rw [severity _ asked]
    decide +kernel
  · rw [Bool.eq_false_iff]
    exact fun on => skipped ((enabled _).mp on).1

end Cli.Session

end TokenLayout
