import Mathlib.Data.List.Basic

/-!
# Pulled streams of items

A producer is asked for one item after another and may do some work before
each answer.  `PullStream` records that work as lists of effects; what is in
one list happens without a pause, and a consumer may stop between any two of
its steps.  `Guarded` is a discipline on the effects, and every combinator
that only rearranges what its inputs do keeps it.
-/

inductive PullStream (Effect Failure Item : Type) where
  | done
  | fail (failure : Failure)
  | work (effects : List Effect) (rest : PullStream Effect Failure Item)
  | emit (item : Item) (rest : PullStream Effect Failure Item)

namespace PullStream

variable {Effect Failure Item Target : Type}

/-- The items of a list, with no work between them. -/
def ofList : List Item → PullStream Effect Failure Item
  | [] => .done
  | item :: rest => .emit item (ofList rest)

/-- The items of a computed list, or its failure. -/
def ofExcept : Except Failure (List Item) → PullStream Effect Failure Item
  | .ok items => ofList items
  | .error failure => .fail failure

/-- Go on with `later` when the first stream is exhausted. -/
def append
    (stream later : PullStream Effect Failure Item) :
    PullStream Effect Failure Item :=
  match stream with
  | .done => later
  | .fail failure => .fail failure
  | .work effects rest => .work effects (rest.append later)
  | .emit item rest => .emit item (rest.append later)

/-- Answer each item with a stream of its own. -/
def bind
    (next : Item → PullStream Effect Failure Target) :
    PullStream Effect Failure Item → PullStream Effect Failure Target
  | .done => .done
  | .fail failure => .fail failure
  | .work effects rest => .work effects (rest.bind next)
  | .emit item rest => (next item).append (rest.bind next)

/-- Pull everything, then go on with the items. -/
def drainInto
    (next : List Item → PullStream Effect Failure Target)
    (drained : List Item) :
    PullStream Effect Failure Item → PullStream Effect Failure Target
  | .done => next drained
  | .fail failure => .fail failure
  | .work effects rest => .work effects (rest.drainInto next drained)
  | .emit item rest => rest.drainInto next (drained ++ [item])

def drain
    (stream : PullStream Effect Failure Item)
    (next : List Item → PullStream Effect Failure Target) :
    PullStream Effect Failure Target :=
  stream.drainInto next []

/-- Drain several streams in turn, then go on with the items of each. -/
def drainAll
    (streams : List (PullStream Effect Failure Item))
    (next : List (List Item) → PullStream Effect Failure Target) :
    PullStream Effect Failure Target :=
  match streams with
  | [] => next []
  | stream :: rest =>
      stream.drain fun items => drainAll rest fun later => next (items :: later)

/-- Drop the first `offset` items, then let at most `remaining` through. -/
def limit
    (offset remaining : Nat) :
    PullStream Effect Failure Item → PullStream Effect Failure Item
  | .done => .done
  | .fail failure =>
      if offset = 0 ∧ remaining = 0 then .done else .fail failure
  | .work effects rest =>
      if offset = 0 ∧ remaining = 0 then .done
      else .work effects (rest.limit offset remaining)
  | .emit item rest =>
      if 0 < offset then rest.limit (offset - 1) remaining
      else if remaining = 0 then .done
      else .emit item (rest.limit 0 (remaining - 1))

/-- Hand items on in chunks of `size`; a failure loses the open chunk. -/
def batched
    (size : Nat)
    (buffer : List Item) :
    PullStream Effect Failure Item → PullStream Effect Failure (List Item)
  | .done => if buffer.isEmpty then .done else .emit buffer .done
  | .fail failure => .fail failure
  | .work effects rest => .work effects (rest.batched size buffer)
  | .emit item rest =>
      if size ≤ buffer.length + 1 then
        .emit (buffer ++ [item]) (rest.batched size [])
      else rest.batched size (buffer ++ [item])

/-- What has been done when the consumer stops. -/
inductive Performs : PullStream Effect Failure Item → List Effect → Prop where
  | stop (stream : PullStream Effect Failure Item) :
      Performs stream []
  | work
      {effects later : List Effect}
      {rest : PullStream Effect Failure Item}
      (performed : Performs rest later) :
      Performs (.work effects rest) (effects ++ later)
  | emit
      {item : Item}
      {later : List Effect}
      {rest : PullStream Effect Failure Item}
      (performed : Performs rest later) :
      Performs (.emit item rest) later

/-- Everything a stream does when it is pulled to its end. -/
def effects : PullStream Effect Failure Item → List Effect
  | .done => []
  | .fail _ => []
  | .work effects rest => effects ++ rest.effects
  | .emit _ rest => rest.effects

theorem performs_effects (stream : PullStream Effect Failure Item) :
    stream.Performs stream.effects := by
  induction stream with
  | done => exact .stop _
  | fail failure => exact .stop _
  | work effects rest inductionHypothesis => exact .work inductionHypothesis
  | emit item rest inductionHypothesis => exact .emit inductionHypothesis

/-- The stream hands the item out. -/
def Emits (wanted : Item) : PullStream Effect Failure Item → Prop
  | .done => False
  | .fail _ => False
  | .work _ rest => rest.Emits wanted
  | .emit item rest => item = wanted ∨ rest.Emits wanted

theorem emits_ofList {items : List Item} {wanted : Item}
    (emits : (ofList items : PullStream Effect Failure Item).Emits wanted) :
    wanted ∈ items := by
  induction items with
  | nil => exact emits.elim
  | cons item rest inductionHypothesis =>
      rcases emits with rfl | later
      · exact List.mem_cons_self
      · exact List.mem_cons_of_mem _ (inductionHypothesis later)

/-- What a stream answers when it is pulled to its end. -/
def answers : PullStream Effect Failure Item → Except Failure (List Item)
  | .done => .ok []
  | .fail failure => .error failure
  | .work _ rest => rest.answers
  | .emit item rest => rest.answers.map (item :: ·)

theorem answers_ofList (items : List Item) :
    (ofList items : PullStream Effect Failure Item).answers = .ok items := by
  induction items with
  | nil => rfl
  | cons item rest inductionHypothesis =>
      rw [ofList, answers, inductionHypothesis]
      rfl

theorem answers_append (stream later : PullStream Effect Failure Item) :
    (stream.append later).answers =
      stream.answers >>= fun items => later.answers.map (items ++ ·) := by
  induction stream with
  | done =>
      rw [append]
      cases later.answers <;> rfl
  | fail failure => rfl
  | work effects rest inductionHypothesis => exact inductionHypothesis
  | emit item rest inductionHypothesis =>
      rw [append, answers, inductionHypothesis, answers]
      cases rest.answers with
      | error failure => rfl
      | ok items => cases later.answers <;> rfl

/-- Items that are all there are answered one after another. -/
theorem answers_bind
    {stream : PullStream Effect Failure Item}
    {items : List Item}
    (answered : stream.answers = .ok items)
    (next : Item → PullStream Effect Failure Target) :
    (stream.bind next).answers =
      (items.mapM fun item => (next item).answers).map List.flatten := by
  induction stream generalizing items with
  | done =>
      obtain rfl := Except.ok.inj answered
      rfl
  | fail failure => cases answered
  | work effects rest inductionHypothesis => exact inductionHypothesis answered
  | emit item rest inductionHypothesis =>
      cases behind : rest.answers with
      | error failure =>
          rw [answers, behind] at answered
          cases answered
      | ok later =>
          rw [answers, behind] at answered
          obtain rfl := Except.ok.inj answered
          rw [bind, answers_append, inductionHypothesis behind, List.mapM_cons]
          cases (next item).answers with
          | error failure => rfl
          | ok here => cases later.mapM fun item => (next item).answers <;> rfl

theorem answers_bind_single
    {stream : PullStream Effect Failure Item}
    {item : Item}
    (answered : stream.answers = .ok [item])
    (next : Item → PullStream Effect Failure Target) :
    (stream.bind next).answers = (next item).answers := by
  rw [answers_bind answered, List.mapM_cons, List.mapM_nil]
  cases found : (next item).answers with
  | error failure => rfl
  | ok items => exact congrArg Except.ok (List.append_nil items)

theorem answers_drain
    (stream : PullStream Effect Failure Item)
    (next : List Item → PullStream Effect Failure Target) :
    (stream.drain next).answers = stream.answers >>= fun items => (next items).answers := by
  suffices into :
      ∀ drained,
        (stream.drainInto next drained).answers =
          stream.answers >>= fun items => (next (drained ++ items)).answers from into []
  induction stream with
  | done => exact fun drained => congrArg (fun items => (next items).answers) (by simp)
  | fail failure => exact fun drained => rfl
  | work effects rest inductionHypothesis => exact inductionHypothesis
  | emit item rest inductionHypothesis =>
      intro drained
      rw [drainInto, inductionHypothesis, answers]
      cases rest.answers with
      | error failure => rfl
      | ok items => exact congrArg (fun items => (next items).answers) (by simp)

/-- Whether an effect is in order once the listed ones have been performed. -/
structure Discipline (Effect : Type) where
  allows : List Effect → Effect → Prop
  kept :
    ∀ {performed more : List Effect} {effect : Effect},
      performed ⊆ more → allows performed effect → allows more effect

variable (discipline : Discipline Effect)

/-- Each effect is in order by the end of the list it is performed in. -/
def Guarded (past : List Effect) : PullStream Effect Failure Item → Prop
  | .done => True
  | .fail _ => True
  | .work effects rest =>
      (∀ effect ∈ effects, discipline.allows (past ++ effects) effect) ∧
        rest.Guarded (past ++ effects)
  | .emit _ rest => rest.Guarded past

variable {discipline}

namespace Guarded

variable {past more : List Effect} {stream : PullStream Effect Failure Item}

theorem mono
    (guarded : stream.Guarded discipline past)
    (included : past ⊆ more) :
    stream.Guarded discipline more := by
  induction stream generalizing past more with
  | done => trivial
  | fail failure => trivial
  | work effects rest inductionHypothesis =>
      have widened : past ++ effects ⊆ more ++ effects :=
        List.append_subset.mpr
          ⟨List.subset_append_of_subset_left effects included,
            List.subset_append_right more effects⟩
      exact ⟨fun effect member =>
          discipline.kept widened (guarded.1 effect member),
        inductionHypothesis guarded.2 widened⟩
  | emit item rest inductionHypothesis =>
      exact inductionHypothesis guarded included

theorem weaken
    (guarded : stream.Guarded discipline []) :
    stream.Guarded discipline past :=
  guarded.mono (List.nil_subset past)

theorem ofList (items : List Item) :
    (PullStream.ofList items : PullStream Effect Failure Item).Guarded discipline past := by
  induction items with
  | nil => trivial
  | cons item rest inductionHypothesis => exact inductionHypothesis

theorem ofExcept (computed : Except Failure (List Item)) :
    (PullStream.ofExcept computed).Guarded discipline past := by
  cases computed with
  | ok items => exact ofList items
  | error failure => trivial

theorem append
    {later : PullStream Effect Failure Item}
    (guarded : stream.Guarded discipline past)
    (laterGuarded : later.Guarded discipline past) :
    (stream.append later).Guarded discipline past := by
  induction stream generalizing past with
  | done => exact laterGuarded
  | fail failure => trivial
  | work effects rest inductionHypothesis =>
      exact ⟨guarded.1, inductionHypothesis guarded.2
        (laterGuarded.mono (List.subset_append_left past effects))⟩
  | emit item rest inductionHypothesis => exact inductionHypothesis guarded laterGuarded

/-- What an item leads to is done before the rest is pulled. -/
theorem bind
    {next : Item → PullStream Effect Failure Target}
    (guarded : stream.Guarded discipline past)
    (nextGuarded : ∀ item, stream.Emits item → (next item).Guarded discipline past) :
    (stream.bind next).Guarded discipline past := by
  induction stream generalizing past with
  | done => trivial
  | fail failure => trivial
  | work effects rest inductionHypothesis =>
      exact ⟨guarded.1, inductionHypothesis guarded.2 fun item emits =>
        (nextGuarded item emits).mono (List.subset_append_left past effects)⟩
  | emit item rest inductionHypothesis =>
      exact (nextGuarded item (.inl rfl)).append
        (inductionHypothesis guarded fun other emits => nextGuarded other (.inr emits))

theorem drain
    {next : List Item → PullStream Effect Failure Target}
    (guarded : stream.Guarded discipline past)
    (nextGuarded :
      ∀ items, (∀ item ∈ items, stream.Emits item) → (next items).Guarded discipline past) :
    (stream.drain next).Guarded discipline past := by
  suffices into :
      ∀ drained,
        (∀ items, (∀ item ∈ items, item ∈ drained ∨ stream.Emits item) →
          (next items).Guarded discipline past) →
        (stream.drainInto next drained).Guarded discipline past from
    into [] fun items emitted => nextGuarded items fun item member =>
      (emitted item member).resolve_left List.not_mem_nil
  clear nextGuarded
  induction stream generalizing past with
  | done => exact fun drained nextGuarded => nextGuarded drained fun _ => .inl
  | fail failure => exact fun _ _ => trivial
  | work effects rest inductionHypothesis =>
      exact fun drained nextGuarded => ⟨guarded.1, inductionHypothesis guarded.2 drained
        fun items emitted => (nextGuarded items emitted).mono
          (List.subset_append_left past effects)⟩
  | emit item rest inductionHypothesis =>
      intro drained nextGuarded
      refine inductionHypothesis guarded (drained ++ [item]) fun items emitted => ?_
      refine nextGuarded items fun other member => ?_
      rcases emitted other member with before | later
      · rcases List.mem_append.mp before with earlier | here
        · exact .inl earlier
        · exact .inr (.inl (List.mem_singleton.mp here).symm)
      · exact .inr (.inr later)

theorem drainAll
    {streams : List (PullStream Effect Failure Item)}
    {next : List (List Item) → PullStream Effect Failure Target}
    (guarded : ∀ stream ∈ streams, stream.Guarded discipline past)
    (nextGuarded : ∀ items, (next items).Guarded discipline past) :
    (PullStream.drainAll streams next).Guarded discipline past := by
  induction streams generalizing next with
  | nil => exact nextGuarded []
  | cons first rest inductionHypothesis =>
      exact (guarded first List.mem_cons_self).drain fun items _ =>
        inductionHypothesis
          (fun stream member => guarded stream (List.mem_cons_of_mem _ member))
          fun later => nextGuarded (items :: later)

theorem limit
    (guarded : stream.Guarded discipline past)
    (offset remaining : Nat) :
    (stream.limit offset remaining).Guarded discipline past := by
  induction stream generalizing past offset remaining with
  | done => trivial
  | fail failure =>
      simp only [PullStream.limit]
      split_ifs <;> trivial
  | work effects rest inductionHypothesis =>
      simp only [PullStream.limit]
      split_ifs
      · trivial
      · exact ⟨guarded.1, inductionHypothesis guarded.2 offset remaining⟩
  | emit item rest inductionHypothesis =>
      simp only [PullStream.limit]
      split_ifs
      · exact inductionHypothesis guarded (offset - 1) remaining
      · trivial
      · exact inductionHypothesis guarded 0 (remaining - 1)

theorem batched
    (guarded : stream.Guarded discipline past)
    (size : Nat)
    (buffer : List Item) :
    (stream.batched size buffer).Guarded discipline past := by
  induction stream generalizing past buffer with
  | done =>
      simp only [PullStream.batched]
      split_ifs <;> trivial
  | fail failure => trivial
  | work effects rest inductionHypothesis =>
      exact ⟨guarded.1, inductionHypothesis guarded.2 buffer⟩
  | emit item rest inductionHypothesis =>
      simp only [PullStream.batched]
      split_ifs
      · exact inductionHypothesis guarded []
      · exact inductionHypothesis guarded (buffer ++ [item])

/-- Wherever the consumer stops, every effect performed is in order. -/
theorem performed
    {effects : List Effect}
    (guarded : stream.Guarded discipline past)
    (performs : stream.Performs effects) :
    ∀ effect ∈ effects, discipline.allows (past ++ effects) effect := by
  induction performs generalizing past with
  | stop => nofun
  | @work first later rest _ inductionHypothesis =>
      intro effect member
      rcases List.mem_append.mp member with now | then_
      · refine discipline.kept ?_ (guarded.1 effect now)
        rw [← List.append_assoc]
        exact List.subset_append_left _ _
      · have allowed := inductionHypothesis guarded.2 effect then_
        rwa [List.append_assoc] at allowed
  | emit _ inductionHypothesis => exact inductionHypothesis guarded

end Guarded

end PullStream
