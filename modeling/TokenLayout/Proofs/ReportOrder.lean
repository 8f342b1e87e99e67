import Mathlib.Data.List.Lex
import Mathlib.Data.Prod.Lex
import Mathlib.Data.String.Basic
import Mathlib.Order.Compare
import TokenLayout.Report

/-! # The order of a report

Diagnostics are compared by the parts of their paths, then by line, then by code. The comparison is
that of a linear order on such keys, so the diagnostics of a report stand in ascending order of
keys. Sorting keeps the order of diagnostics with equal keys, and so it does not matter whether
diagnostics are left out or changed before it or after it, as long as the keys stay.
-/

namespace TokenLayout

/-- Two comparisons in a row compare pairs, the first component first. -/
theorem compares_then {α β : Type} [LinearOrder α] [LinearOrder β] {a b : α} {x y : β}
    {first second : Ordering} (left : first.Compares a b) (right : second.Compares x y) :
    (first.then second).Compares (toLex (a, x)) (toLex (b, y)) := by
  cases first with
  | lt => exact Prod.Lex.toLex_lt_toLex.mpr (.inl left)
  | gt => exact Prod.Lex.toLex_lt_toLex.mpr (.inl left)
  | eq =>
      obtain rfl : a = b := left
      cases second with
      | lt => exact Prod.Lex.toLex_lt_toLex.mpr (.inr ⟨rfl, right⟩)
      | gt => exact Prod.Lex.toLex_lt_toLex.mpr (.inr ⟨rfl, right⟩)
      | eq => exact congrArg (fun z => toLex (a, z)) right

namespace Path

namespace Part

/-- The text by which parts of the same rank are told apart. -/
def label : Part → String
  | name text => text
  | _ => ""

/-- Where a part stands in the order of parts. -/
def place (part : Part) : ℕ ×ₗ String :=
  toLex (part.rank, part.label)

theorem place_injective : Function.Injective place := by
  intro a b same
  obtain ⟨rank, label⟩ := Prod.mk.inj (toLex.injective same)
  cases a <;> cases b <;> first | rfl | exact congrArg name label | cases rank

instance : LinearOrder Part :=
  LinearOrder.lift' place place_injective

theorem compare_eq (a b : Part) :
    a.compare b = (Ord.compare a.rank b.rank).then (Ord.compare a.label b.label) := by
  cases a <;> cases b <;> rfl

theorem compares (a b : Part) : (a.compare b).Compares a b := by
  have ranks : (Ord.compare a.rank b.rank).Compares a.rank b.rank := (compare_iff _ _).mp rfl
  have labels : (Ord.compare a.label b.label).Compares a.label b.label := (compare_iff _ _).mp rfl
  have places : (a.compare b).Compares a.place b.place := by
    rw [compare_eq]
    exact compares_then ranks labels
  revert places
  cases a.compare b with
  | lt => exact id
  | eq => exact fun same => place_injective same
  | gt => exact id

end Part

theorem compares_cons {a b : Part} {as bs : List Part} {first later : Ordering}
    (heads : first.Compares a b) (tails : later.Compares as bs) :
    (first.then later).Compares (a :: as) (b :: bs) := by
  cases first with
  | lt => exact List.cons_lt_cons_iff.mpr (.inl heads)
  | gt => exact List.cons_lt_cons_iff.mpr (.inl heads)
  | eq =>
      obtain rfl : a = b := heads
      cases later with
      | lt => exact List.cons_lt_cons_iff.mpr (.inr ⟨rfl, tails⟩)
      | gt => exact List.cons_lt_cons_iff.mpr (.inr ⟨rfl, tails⟩)
      | eq => exact congrArg (a :: ·) tails

theorem compareParts_compares (as bs : List Part) : (compareParts as bs).Compares as bs := by
  fun_induction compareParts as bs with
  | case1 => rfl
  | case2 b bs => exact List.nil_lt_cons b bs
  | case3 a as => exact List.nil_lt_cons a as
  | case4 a as b bs ih => exact compares_cons (a.compares b) ih

end Path

namespace Diagnostic

/-- What diagnostics are sorted by: the parts of the path, the line and the code. -/
def key (diagnostic : Diagnostic) : List Path.Part ×ₗ ℕ ×ₗ String :=
  toLex (diagnostic.location.file.parts, toLex (diagnostic.location.line, diagnostic.code))

theorem compare_compares (a b : Diagnostic) : (a.compare b).Compares a.key b.key := by
  have lines := (compare_iff a.location.line b.location.line).mp rfl
  have codes := (compare_iff a.code b.code).mp rfl
  rw [compare, Ordering.then_assoc]
  exact compares_then (Path.compareParts_compares _ _) (compares_then lines codes)

theorem notAfter_iff {a b : Diagnostic} : a.notAfter b = true ↔ a.key ≤ b.key := by
  rw [notAfter, ← (compare_compares a b).ne_gt]
  cases a.compare b <;> decide

theorem notAfter_trans (a b c : Diagnostic) (left : a.notAfter b = true)
    (right : b.notAfter c = true) : a.notAfter c = true := by
  rw [notAfter_iff] at left right ⊢
  exact le_trans left right

theorem notAfter_total (a b : Diagnostic) : (a.notAfter b || b.notAfter a) = true := by
  rw [Bool.or_eq_true, notAfter_iff, notAfter_iff]
  exact le_total a.key b.key

theorem sorted_mergeSort (diagnostics : List Diagnostic) :
    (diagnostics.mergeSort notAfter).Pairwise (fun a b => a.key ≤ b.key) :=
  (List.pairwise_mergeSort notAfter_trans notAfter_total diagnostics).imp notAfter_iff.mp

/-! ## Equal keys keep their order -/

/-- A diagnostic in front of others is sorted in right before the first of them that it may stand
before. -/
theorem mergeSort_cons_eq (diagnostic : Diagnostic) (rest : List Diagnostic) :
    (diagnostic :: rest).mergeSort notAfter =
      (rest.mergeSort notAfter).filter (!diagnostic.notAfter ·) ++
        diagnostic :: (rest.mergeSort notAfter).filter (diagnostic.notAfter ·) := by
  obtain ⟨front, back, all, others, before⟩ :=
    List.mergeSort_cons notAfter_trans notAfter_total diagnostic rest
  have ordered := List.pairwise_mergeSort notAfter_trans notAfter_total (diagnostic :: rest)
  rw [all, List.pairwise_append, List.pairwise_cons] at ordered
  have after : ∀ other ∈ back, diagnostic.notAfter other = true := ordered.2.1.1
  have fronts : front.filter (diagnostic.notAfter ·) = [] := by
    rw [List.filter_eq_nil_iff]
    intro other member
    simpa using before other member
  have backs : back.filter (!diagnostic.notAfter ·) = [] := by
    rw [List.filter_eq_nil_iff]
    intro other member
    simpa using after other member
  rw [all, others, List.filter_append, List.filter_append, List.filter_eq_self.mpr before,
    List.filter_eq_self.mpr after, fronts, backs, List.append_nil, List.nil_append]

theorem filter_mergeSort (wanted : Diagnostic → Bool) (diagnostics : List Diagnostic) :
    (diagnostics.mergeSort notAfter).filter wanted =
      (diagnostics.filter wanted).mergeSort notAfter := by
  induction diagnostics with
  | nil => simp
  | cons diagnostic rest ih =>
      cases kept : wanted diagnostic with
      | true =>
          rw [List.filter_cons_of_pos kept, mergeSort_cons_eq, mergeSort_cons_eq, ← ih,
            List.filter_append, List.filter_cons_of_pos kept, List.filter_comm,
            List.filter_comm wanted]
      | false =>
          have dropped : ¬ wanted diagnostic = true := by simp [kept]
          obtain ⟨front, back, all, others, -⟩ :=
            List.mergeSort_cons notAfter_trans notAfter_total diagnostic rest
          rw [List.filter_cons_of_neg dropped, ← ih, all, others, List.filter_append,
            List.filter_append, List.filter_cons_of_neg dropped]

theorem map_mergeSort {change : Diagnostic → Diagnostic}
    (keeps : ∀ diagnostic, (change diagnostic).key = diagnostic.key)
    (diagnostics : List Diagnostic) :
    (diagnostics.mergeSort notAfter).map change =
      (diagnostics.map change).mergeSort notAfter := by
  apply List.map_mergeSort
  intro a _ b _
  rw [Bool.eq_iff_iff, notAfter_iff, notAfter_iff, keeps, keeps]

end Diagnostic

end TokenLayout
