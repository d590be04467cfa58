import Mathlib.Logic.Relation

namespace ConflictGraph

/-!
# Conflict graphs over snapshot intervals

Every transaction occupies an interval from the instant its snapshot was
taken to the instant it ended.  An edge between two transactions is *ordered*
when the source ended before the target began, and *crossing* when the target
ended after the source began; an anti-dependency between concurrent
transactions is crossing without being ordered.

A cycle needs two consecutive crossing edges.  A graph in which no
transaction has both an incoming and an outgoing crossing edge is therefore
acyclic.
-/

/-- The half-open lifetime of every transaction, measured on one clock. -/
structure Lifetimes (Transaction : Type) where
  began : Transaction → Nat
  ended : Transaction → Nat

variable {Transaction : Type}

/-- The source ended before the target took its snapshot. -/
def Lifetimes.Ordered
    (lifetimes : Lifetimes Transaction)
    (source target : Transaction) : Prop :=
  lifetimes.ended source < lifetimes.began target

/-- The target did not end before the source took its snapshot. -/
def Lifetimes.Crossing
    (lifetimes : Lifetimes Transaction)
    (source target : Transaction) : Prop :=
  lifetimes.began source ≤ lifetimes.ended target

/--
A conflict graph whose every edge is ordered or a crossing anti-dependency,
on transactions that end after they begin.
-/
structure Classified
    (lifetimes : Lifetimes Transaction)
    (edge anti : Transaction → Transaction → Prop) : Prop where
  nonempty :
    ∀ {source target},
      edge source target →
      lifetimes.began source < lifetimes.ended source ∧
        lifetimes.began target < lifetimes.ended target
  covered :
    ∀ {source target},
      edge source target →
      lifetimes.Ordered source target ∨
        (anti source target ∧ lifetimes.Crossing source target)

/-- No transaction is the pivot of two consecutive anti-dependencies. -/
def Pivotless (anti : Transaction → Transaction → Prop) : Prop :=
  ∀ {incoming pivot outgoing},
    anti incoming pivot → ¬ anti pivot outgoing

variable
  {lifetimes : Lifetimes Transaction}
  {edge anti : Transaction → Transaction → Prop}

/--
Along a path the start precedes the end, unless the path arrives through an
anti-dependency, and then the start still precedes the end of the last
transaction.
-/
theorem path_advances
    (classified : Classified lifetimes edge anti)
    (pivotless : Pivotless anti)
    {source target : Transaction}
    (path : Relation.TransGen edge source target) :
    lifetimes.began source < lifetimes.began target ∨
      ((∃ previous, anti previous target) ∧
        lifetimes.began source ≤ lifetimes.ended target) := by
  induction path with
  | single first =>
      have lifetime := classified.nonempty first
      rcases classified.covered first with ordered | ⟨crossed, crossing⟩
      · exact .inl (Nat.lt_trans lifetime.1 ordered)
      · exact .inr ⟨⟨_, crossed⟩, crossing⟩
  | tail _ last inductionHypothesis =>
      have lifetime := classified.nonempty last
      rcases classified.covered last with ordered | ⟨crossed, crossing⟩
      · left
        rcases inductionHypothesis with begins | ⟨_, ends⟩
        · exact Nat.lt_trans (Nat.lt_trans begins lifetime.1) ordered
        · exact Nat.lt_of_le_of_lt ends ordered
      · right
        rcases inductionHypothesis with begins | ⟨⟨_, arrived⟩, _⟩
        · exact ⟨⟨_, crossed⟩, Nat.le_of_lt (Nat.lt_of_lt_of_le begins crossing)⟩
        · exact (pivotless arrived crossed).elim

/-- Without a pivot the conflict graph has no directed cycle. -/
theorem acyclic
    (classified : Classified lifetimes edge anti)
    (pivotless : Pivotless anti)
    (transaction : Transaction) :
    ¬ Relation.TransGen edge transaction transaction := by
  intro cycle
  rcases path_advances classified pivotless cycle with
    begins | ⟨⟨_, arrived⟩, _⟩
  · exact Nat.lt_irrefl _ begins
  -- The cycle closes with an anti-dependency, so it must open with an
  -- ordered edge; rotating it by that edge contradicts the path law.
  · obtain ⟨next, first, rest⟩ := Relation.TransGen.head'_iff.mp cycle
    have ordered : lifetimes.Ordered transaction next := by
      rcases classified.covered first with ordered | ⟨crossed, _⟩
      · exact ordered
      · exact (pivotless arrived crossed).elim
    have lifetime := classified.nonempty first
    rcases Relation.reflTransGen_iff_eq_or_transGen.mp rest with same | path
    · subst same
      exact Nat.lt_asymm lifetime.1 ordered
    · rcases path_advances classified pivotless path with begins | ⟨_, ends⟩
      · exact Nat.lt_asymm (Nat.lt_trans begins lifetime.1) ordered
      · exact Nat.not_lt_of_le ends ordered

end ConflictGraph
