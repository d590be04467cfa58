import PrehniteDB.JoinAgreement
import PrehniteDB.SuspendedJoins

namespace PrehniteDB.Joins

open ReadPaths (ColumnType JoinKind batchSize)
open PulledRuns (Machine Runs Alike pop fill)

/-!
# Batches of joined rows

All four operators go through the same pairs.  Wherever a batch operator stands
when its output is full, what it has still to hand out is what the row operator
would.
-/

variable {Query : Type}

section Plans

variable (scope : Scope) (on : Option (Expr Query)) (kind : JoinKind) (rightWidth : Nat)

/-- The padded row of a left row that matched nothing. -/
def padding (left : Row) (matched : Bool) : List (Except Error Row) :=
  if kind = .left ∧ matched = false then [.ok (left ++ List.replicate rightWidth .null)] else []

/-- What a left row has still to give: its pairs in order, and its padding behind them. -/
def rowPlan (left : Row) : List Row → Bool → List (Except Error Row)
  | [], matched => padding kind rightWidth left matched
  | right :: rest, matched =>
      match passesFilter on scope (left ++ right) with
      | .error error => .error error :: rowPlan left rest matched
      | .ok true => .ok (left ++ right) :: rowPlan left rest true
      | .ok false => rowPlan left rest matched

def joinPlan (candidates : Row → List Row) (left : List Row) : List (Except Error Row) :=
  left.flatMap fun row => rowPlan scope on kind rightWidth row (candidates row) false

end Plans

section Steps

variable
  {scope : Scope}
  {on : Option (Expr Query)}
  {kind : JoinKind}
  {rightWidth : Nat}
  {types : List ColumnType}

/-! ## Row operators -/

/-- What `firstMatch` finds is the next event of the plan. -/
theorem firstMatch_plan
    {left : Row}
    {all rest : List Row}
    {position : Nat}
    (matched : Bool)
    (there : all.drop position = rest) :
    match firstMatch scope on left rest position with
    | .error error =>
        ∃ later, rowPlan scope on kind rightWidth left rest matched = .error error :: later
    | .ok (some (row, behind)) =>
        rowPlan scope on kind rightWidth left rest matched =
          .ok row :: rowPlan scope on kind rightWidth left (all.drop behind) true
    | .ok none =>
        rowPlan scope on kind rightWidth left rest matched =
          padding kind rightWidth left matched := by
  induction rest generalizing position with
  | nil => exact rfl
  | cons right later inductionHypothesis =>
      have next : all.drop (position + 1) = later := by
        rw [← List.drop_drop, there]
        rfl
      rw [firstMatch, rowPlan]
      cases passed : passesFilter on scope (left ++ right) with
      | error error => exact ⟨_, rfl⟩
      | ok keep =>
          cases keep with
          | true => exact congrArg (fun rest => _ :: rowPlan _ _ _ _ _ rest _) next.symm
          | false => exact inductionHypothesis next

/-- An answer is the next event; behind it comes what is left from its position on. -/
def Answers
    (answer : Except Error (Option (Row × Option Nat)))
    (events : List (Except Error Row))
    (remaining : Nat → List (Except Error Row)) : Prop :=
  match answer with
  | .error error => ∃ later, events = .error error :: later
  | .ok none => events = []
  | .ok (some (row, position)) => events = .ok row :: position.elim [] remaining

theorem Answers.alike
    {State : Type}
    {plan : State → List (Except Error Row)}
    {answer : Except Error (Option (Row × Option Nat))}
    {events rest : List (Except Error Row)}
    {remaining : Nat → List (Except Error Row)}
    {behind : Option Nat → State}
    {later : Except Error (Option (Row × State))}
    (answers : Answers answer events remaining)
    (states : ∀ position, plan (behind position) = position.elim [] remaining ++ rest)
    (goesOn : Alike (fun state events => events = plan state) later (pop rest)) :
    Alike (fun state events => events = plan state)
      (answer >>= fun found =>
        match found with
        | some (row, position) => pure (some (row, behind position))
        | none => later)
      (pop (events ++ rest)) := by
  cases answer with
  | error error =>
      obtain ⟨others, rfl⟩ := answers
      exact .failed error
  | ok found =>
      cases found with
      | none =>
          rw [show events = [] from answers]
          exact goesOn
      | some pair =>
          rw [show events = _ from answers]
          exact .gave _ (states pair.2).symm

namespace NestedLoopJoin

variable {rightRows : List Row}

theorem answer_plan
    (kinds : kind ≠ .semi ∧ kind ≠ .anti)
    (left : Row)
    (position : Nat)
    (matched : Bool) :
    Answers (answer scope on kind rightWidth rightRows left position matched)
      (rowPlan scope on kind rightWidth left (rightRows.drop position) matched)
      fun behind => rowPlan scope on kind rightWidth left (rightRows.drop behind) true := by
  have found :=
    @firstMatch_plan _ scope on kind rightWidth left rightRows _ position matched rfl
  unfold answer
  cases first : firstMatch scope on left (rightRows.drop position) position with
  | error error =>
      rw [first] at found
      exact found
  | ok pair =>
      rw [first] at found
      cases pair with
      | some pair =>
          cases kind with
          | semi => exact absurd rfl kinds.1
          | anti => exact absurd rfl kinds.2
          | inner | left | cross => exact found
      | none =>
          cases kind with
          | semi => exact absurd rfl kinds.1
          | anti => exact absurd rfl kinds.2
          | inner | cross => exact found
          | left => cases matched <;> exact found

/-- What the operator has still to hand out. -/
def plan
    (scope : Scope)
    (on : Option (Expr Query))
    (kind : JoinKind)
    (rightWidth : Nat)
    (join : NestedLoopJoin) : List (Except Error Row) :=
  let rightRows := join.rightRows.getD join.rightInput
  (join.currentLeft.elim [] fun left =>
    rowPlan scope on kind rightWidth left (rightRows.drop join.rightPos) join.matchedCurrent) ++
      joinPlan scope on kind rightWidth (fun _ => rightRows) join.left

theorem plan_behind (later : List Row) (left : Row) (position : Option Nat) :
    plan scope on kind rightWidth (behind rightRows later left position) =
      (position.elim [] fun behind =>
        rowPlan scope on kind rightWidth left (rightRows.drop behind) true) ++
        joinPlan scope on kind rightWidth (fun _ => rightRows) later := by
  cases position <;> rfl

theorem pull_plan (kinds : kind ≠ .semi ∧ kind ≠ .anti) (lefts : List Row) :
    Alike (fun join events => events = plan scope on kind rightWidth join)
      (pull scope on kind rightWidth rightRows lefts)
      (pop (joinPlan scope on kind rightWidth (fun _ => rightRows) lefts)) := by
  induction lefts with
  | nil => exact .ended
  | cons left later inductionHypothesis =>
      rw [pull, joinPlan, List.flatMap_cons, ← joinPlan]
      exact (answer_plan kinds left 0 false).alike (plan_behind later left) inductionHypothesis

theorem next_plan (kinds : kind ≠ .semi ∧ kind ≠ .anti) (join : NestedLoopJoin) :
    Alike (fun join events => events = plan scope on kind rightWidth join)
      (next scope on kind rightWidth join) (pop (plan scope on kind rightWidth join)) := by
  rw [next, plan]
  cases join.currentLeft with
  | none => exact pull_plan kinds join.left
  | some left =>
      exact (answer_plan kinds left _ _).alike (plan_behind join.left left)
        (pull_plan kinds join.left)

theorem runs
    (kinds : kind ≠ .semi ∧ kind ≠ .anti)
    (left right : List Row) :
    Runs (next scope on kind rightWidth) (.new left right)
      (PulledRuns.items (joinPlan scope on kind rightWidth (fun _ => right) left))
      (PulledRuns.failure (joinPlan scope on kind rightWidth (fun _ => right) left)) := by
  have step (join : NestedLoopJoin) (events : List (Except Error Row))
      (same : events = plan scope on kind rightWidth join) :
      Alike (fun join events => events = plan scope on kind rightWidth join)
        (next scope on kind rightWidth join) (pop events) := by
    rw [same]
    exact next_plan kinds join
  exact Runs.simulate step (PulledRuns.runs_pop _) rfl

end NestedLoopJoin

namespace HashJoin

variable {table : List UInt8 → List Row} {probeCol buildCol : Nat}

theorem answer_plan
    (left : Row)
    (probeKey : Option (List UInt8))
    (position : Nat)
    (matched : Bool) :
    Answers (answer scope on kind rightWidth table left probeKey position matched)
      (rowPlan scope on kind rightWidth left ((rowsUnder table probeKey).drop position) matched)
      fun behind =>
        rowPlan scope on kind rightWidth left ((rowsUnder table probeKey).drop behind) true := by
  have found :=
    @firstMatch_plan _ scope on kind rightWidth left (rowsUnder table probeKey) _ position matched
      rfl
  unfold answer
  cases first : firstMatch scope on left ((rowsUnder table probeKey).drop position) position with
  | error error =>
      rw [first] at found
      exact found
  | ok pair =>
      rw [first] at found
      cases pair with
      | some pair => exact found
      | none =>
          rw [show _ = padding kind rightWidth left matched from found, padding]
          by_cases padded : kind = .left ∧ matched = false
          · rw [if_pos padded, if_pos padded]
            exact rfl
          · rw [if_neg padded, if_neg padded]
            exact rfl

def plan
    (scope : Scope)
    (on : Option (Expr Query))
    (kind : JoinKind)
    (rightWidth probeCol buildCol : Nat)
    (join : HashJoin) : List (Except Error Row) :=
  let table := join.table.getD (buildTable buildCol join.rightInput)
  (join.currentLeft.elim [] fun left =>
    rowPlan scope on kind rightWidth left ((rowsUnder table join.probeKey).drop join.matchPos)
      join.matchedCurrent) ++
    joinPlan scope on kind rightWidth (bucket table probeCol) join.left

theorem rowsUnder_joinKey (left : Row) :
    rowsUnder table (joinKey probeCol left) = bucket table probeCol left := by
  unfold joinKey bucket
  cases (column left probeCol).isNull <;> rfl

theorem plan_behind
    (later : List Row)
    (left : Row)
    (probeKey : Option (List UInt8))
    (position : Option Nat) :
    plan scope on kind rightWidth probeCol buildCol (behind table later left probeKey position) =
      (position.elim [] fun behind =>
        rowPlan scope on kind rightWidth left ((rowsUnder table probeKey).drop behind) true) ++
        joinPlan scope on kind rightWidth (bucket table probeCol) later := by
  cases position <;> rfl

theorem pull_plan (lefts : List Row) :
    Alike (fun join events => events = plan scope on kind rightWidth probeCol buildCol join)
      (pull scope on kind rightWidth probeCol table lefts)
      (pop (joinPlan scope on kind rightWidth (bucket table probeCol) lefts)) := by
  induction lefts with
  | nil => exact .ended
  | cons left later inductionHypothesis =>
      rw [pull, joinPlan, List.flatMap_cons, ← joinPlan, ← rowsUnder_joinKey]
      exact (answer_plan left _ 0 false).alike (plan_behind later left _) inductionHypothesis

theorem next_plan (join : HashJoin) :
    Alike (fun join events => events = plan scope on kind rightWidth probeCol buildCol join)
      (next scope on kind rightWidth probeCol buildCol join)
      (pop (plan scope on kind rightWidth probeCol buildCol join)) := by
  rw [next, plan]
  cases join.currentLeft with
  | none => exact pull_plan join.left
  | some left =>
      exact (answer_plan left _ _ _).alike (plan_behind join.left left _) (pull_plan join.left)

theorem runs (left right : List Row) :
    Runs (next scope on kind rightWidth probeCol buildCol) (.new left right)
      (PulledRuns.items
        (joinPlan scope on kind rightWidth (bucket (buildTable buildCol right) probeCol) left))
      (PulledRuns.failure
        (joinPlan scope on kind rightWidth (bucket (buildTable buildCol right) probeCol)
          left)) := by
  have step (join : HashJoin) (events : List (Except Error Row))
      (same : events = plan scope on kind rightWidth probeCol buildCol join) :
      Alike (fun join events => events = plan scope on kind rightWidth probeCol buildCol join)
        (next scope on kind rightWidth probeCol buildCol join) (pop events) := by
    rw [same]
    exact next_plan join
  exact Runs.simulate step (PulledRuns.runs_pop _) rfl

end HashJoin

/-! ## Batch operators -/

/-- Every row that is pushed fits the batch. -/
def Stores (types : List ColumnType) (rightWidth : Nat) (left : Row) (candidates : List Row) :
    Prop :=
  (∀ right ∈ candidates, pushRow types (left ++ right) = .ok (left ++ right)) ∧
    pushRow types (left ++ List.replicate rightWidth .null) =
      .ok (left ++ List.replicate rightWidth .null)

theorem scan_plan
    {left : Row}
    {all rest : List Row}
    {position : Nat}
    {matched : Bool}
    {out : List Row}
    (later : List (Except Error Row))
    (there : all.drop position = rest)
    (stores : Stores types rightWidth left rest) :
    match scan scope on types left rest position matched out with
    | .error error =>
        fill batchSize out (rowPlan scope on kind rightWidth left rest matched ++ later) =
          .error error
    | .ok (.full behind filled) =>
        fill batchSize out (rowPlan scope on kind rightWidth left rest matched ++ later) =
          .ok (some (filled, rowPlan scope on kind rightWidth left (all.drop behind) true ++ later))
    | .ok (.spent found filled) =>
        fill batchSize out (rowPlan scope on kind rightWidth left rest matched ++ later) =
          fill batchSize filled (padding kind rightWidth left found ++ later) := by
  induction rest generalizing position matched out with
  | nil => exact rfl
  | cons right rest inductionHypothesis =>
      have next : all.drop (position + 1) = rest := by
        rw [← List.drop_drop, there]
        rfl
      have tails : Stores types rightWidth left rest :=
        ⟨fun other member => stores.1 other (List.mem_cons_of_mem _ member), stores.2⟩
      rw [scan, rowPlan]
      cases passed : passesFilter on scope (left ++ right) with
      | error error => exact rfl
      | ok keep =>
          cases keep with
          | false => exact inductionHypothesis next tails
          | true =>
              have stored := stores.1 right List.mem_cons_self
              simp only [bind, Except.bind, if_true, stored, List.cons_append, fill]
              by_cases full : batchSize ≤ (out ++ [left ++ right]).length
              · rw [if_pos full, if_pos full]
                subst next
                exact rfl
              · rw [if_neg full, if_neg full]
                exact inductionHypothesis next tails

theorem probeRow_plan
    {left : Row}
    {candidates : List Row}
    {position : Nat}
    {matched : Bool}
    {out : List Row}
    (later : List (Except Error Row))
    (stores : Stores types rightWidth left candidates) :
    match probeRow scope on kind rightWidth types left candidates position matched out with
    | .error error =>
        fill batchSize out
          (rowPlan scope on kind rightWidth left (candidates.drop position) matched ++ later) =
          .error error
    | .ok (.inside behind filled) =>
        fill batchSize out
          (rowPlan scope on kind rightWidth left (candidates.drop position) matched ++ later) =
          .ok (some
            (filled, rowPlan scope on kind rightWidth left (candidates.drop behind) true ++ later))
    | .ok (.behind filled) =>
        fill batchSize out
          (rowPlan scope on kind rightWidth left (candidates.drop position) matched ++ later) =
          .ok (some (filled, later))
    | .ok (.spent filled) =>
        fill batchSize out
          (rowPlan scope on kind rightWidth left (candidates.drop position) matched ++ later) =
          fill batchSize filled later := by
  have ahead : Stores types rightWidth left (candidates.drop position) :=
    ⟨fun right member => stores.1 right (List.mem_of_mem_drop member), stores.2⟩
  have scanned :=
    @scan_plan _ scope on kind rightWidth types left candidates _ position matched out later rfl
      ahead
  unfold probeRow
  cases outcome : scan scope on types left (candidates.drop position) position matched out with
  | error error =>
      rw [outcome] at scanned
      exact scanned
  | ok reached =>
      rw [outcome] at scanned
      cases reached with
      | full behind filled => exact scanned
      | spent found filled =>
          replace scanned := (show _ = fill _ _ _ from scanned)
          simp only [bind, Except.bind]
          by_cases padded : kind = .left ∧ found = false
          · rw [padding, if_pos padded, List.singleton_append, fill] at scanned
            rw [if_pos padded, stores.2]
            simp only
            by_cases full : batchSize ≤
                (filled ++ [left ++ List.replicate rightWidth Value.null]).length
            · rw [if_pos full] at scanned ⊢
              exact scanned
            · rw [if_neg full] at scanned ⊢
              exact scanned
          · rw [padding, if_neg padded, List.nil_append] at scanned
            rw [if_neg padded]
            exact scanned

/-- Going through a left batch fills the output with the events of its rows. -/
def Follows
    {Place : Type}
    (planAt : Place → List (Except Error Row))
    (out : List Row)
    (events later : List (Except Error Row)) : Except Error (Filling Place) → Prop
  | .error error => fill batchSize out (events ++ later) = .error error
  | .ok (.full place filled) =>
      fill batchSize out (events ++ later) = .ok (some (filled, planAt place ++ later))
  | .ok (.spent filled) => fill batchSize out (events ++ later) = fill batchSize filled later

theorem Follows.rewind
    {Place : Type}
    {planAt : Place → List (Except Error Row)}
    {out filled : List Row}
    {events others later : List (Except Error Row)}
    {outcome : Except Error (Filling Place)}
    (follows : Follows planAt filled others later outcome)
    (same :
      fill batchSize out (events ++ later) = fill batchSize filled (others ++ later)) :
    Follows planAt out events later outcome := by
  cases outcome with
  | error error => exact same.trans follows
  | ok reached =>
      cases reached with
      | full place more => exact same.trans follows
      | spent more => exact same.trans follows

namespace BatchNestedLoopJoin

variable {rightRows : List Row}

/-- What the rows of a batch have still to give, the first of them from its place on. -/
def rowsPlan
    (scope : Scope)
    (on : Option (Expr Query))
    (kind : JoinKind)
    (rightWidth : Nat)
    (rightRows : List Row)
    (place : Place) : List Row → List (Except Error Row)
  | [] => []
  | left :: later =>
      rowPlan scope on kind rightWidth left (rightRows.drop place.rightPos) place.matchedCurrent ++
        joinPlan scope on kind rightWidth (fun _ => rightRows) later

theorem rowsPlan_start (position : Nat) (lefts : List Row) :
    rowsPlan scope on kind rightWidth rightRows
        { leftPos := position, rightPos := 0, matchedCurrent := false } lefts =
      joinPlan scope on kind rightWidth (fun _ => rightRows) lefts := by
  cases lefts <;> rfl

theorem fillRows_plan
    {batch rest : List Row}
    {place : Place}
    {out : List Row}
    (later : List (Except Error Row))
    (there : batch.drop place.leftPos = rest)
    (stores : ∀ left ∈ rest, Stores types rightWidth left rightRows) :
    Follows
      (fun place =>
        rowsPlan scope on kind rightWidth rightRows place (batch.drop place.leftPos))
      out (rowsPlan scope on kind rightWidth rightRows place rest) later
      (fillRows scope on kind rightWidth types rightRows rest place out) := by
  induction rest generalizing place out with
  | nil => exact rfl
  | cons left more inductionHypothesis =>
      have next : batch.drop (place.leftPos + 1) = more := by
        rw [← List.drop_drop, there]
        rfl
      have probed :=
        @probeRow_plan _ scope on kind rightWidth types left rightRows place.rightPos
          place.matchedCurrent out
          (joinPlan scope on kind rightWidth (fun _ => rightRows) more ++ later)
          (stores left List.mem_cons_self)
      rw [fillRows, rowsPlan]
      cases outcome : probeRow scope on kind rightWidth types left rightRows place.rightPos
        place.matchedCurrent out with
      | error error =>
          rw [outcome, ← List.append_assoc] at probed
          exact probed
      | ok reached =>
          rw [outcome] at probed
          cases reached with
          | inside behind filled =>
              rw [← List.append_assoc] at probed
              refine Eq.trans probed ?_
              simp only [there, rowsPlan]
              rw [List.append_assoc]
          | behind filled =>
              rw [← List.append_assoc] at probed
              refine Eq.trans probed ?_
              simp only [next, rowsPlan_start]
          | spent filled =>
              have goesOn :=
                @inductionHypothesis
                  { leftPos := place.leftPos + 1, rightPos := 0, matchedCurrent := false } filled
                  next fun other member => stores other (List.mem_cons_of_mem _ member)
              rw [rowsPlan_start] at goesOn
              rw [← List.append_assoc] at probed
              exact goesOn.rewind probed

end BatchNestedLoopJoin

namespace BatchHashJoin

variable {table : List UInt8 → List Row} {probeCol buildCol : Nat}

def rowsPlan
    (scope : Scope)
    (on : Option (Expr Query))
    (kind : JoinKind)
    (rightWidth probeCol : Nat)
    (table : List UInt8 → List Row)
    (place : Place) : List Row → List (Except Error Row)
  | [] => []
  | left :: later =>
      let started := start probeCol left place
      rowPlan scope on kind rightWidth left
          ((rowsUnder table started.probeKey).drop started.matchPos) started.matchedCurrent ++
        joinPlan scope on kind rightWidth (bucket table probeCol) later

theorem rowsPlan_start {place : Place} (fresh : place.rowStarted = false) (lefts : List Row) :
    rowsPlan scope on kind rightWidth probeCol table place lefts =
      joinPlan scope on kind rightWidth (bucket table probeCol) lefts := by
  cases lefts with
  | nil => rfl
  | cons left later =>
      have whole :
          joinPlan scope on kind rightWidth (bucket table probeCol) (left :: later) =
            rowPlan scope on kind rightWidth left (rowsUnder table (joinKey probeCol left)) false ++
              joinPlan scope on kind rightWidth (bucket table probeCol) later := by
        rw [HashJoin.rowsUnder_joinKey]
        rfl
      rw [rowsPlan, start, fresh, whole]
      rfl

theorem fillRows_plan
    {batch rest : List Row}
    {place : Place}
    {out : List Row}
    (later : List (Except Error Row))
    (there : batch.drop place.leftPos = rest)
    (stores : ∀ left ∈ rest, ∀ key, Stores types rightWidth left (rowsUnder table key)) :
    Follows
      (fun place =>
        rowsPlan scope on kind rightWidth probeCol table place (batch.drop place.leftPos))
      out (rowsPlan scope on kind rightWidth probeCol table place rest) later
      (fillRows scope on kind rightWidth types probeCol table rest place out) := by
  induction rest generalizing place out with
  | nil => exact rfl
  | cons left more inductionHypothesis =>
      have stays : (start probeCol left place).leftPos = place.leftPos := by
        unfold start
        cases place.rowStarted <;> rfl
      have entered : (start probeCol left place).rowStarted = true := by
        unfold start
        cases started : place.rowStarted with
        | true => exact started
        | false => rfl
      rw [fillRows, rowsPlan]
      generalize start probeCol left place = started at stays entered
      rw [← stays] at there
      have next : batch.drop (started.leftPos + 1) = more := by
        rw [← List.drop_drop, there]
        rfl
      have probed :=
        @probeRow_plan _ scope on kind rightWidth types left (rowsUnder table started.probeKey)
          started.matchPos started.matchedCurrent out
          (joinPlan scope on kind rightWidth (bucket table probeCol) more ++ later)
          (stores left List.mem_cons_self started.probeKey)
      cases outcome : probeRow scope on kind rightWidth types left
        (rowsUnder table started.probeKey) started.matchPos started.matchedCurrent out with
      | error error =>
          rw [outcome, ← List.append_assoc] at probed
          exact probed
      | ok reached =>
          rw [outcome, ← List.append_assoc] at probed
          cases reached with
          | inside behind filled =>
              refine Eq.trans probed ?_
              simp only [there, rowsPlan, start, entered, if_true]
              rw [List.append_assoc]
          | behind filled =>
              refine Eq.trans probed ?_
              simp only [next]
              rw [rowsPlan_start rfl]
          | spent filled =>
              have goesOn :=
                @inductionHypothesis
                  { started with leftPos := started.leftPos + 1, rowStarted := false } filled
                  next fun other member => stores other (List.mem_cons_of_mem _ member)
              rw [rowsPlan_start rfl] at goesOn
              exact goesOn.rewind probed

end BatchHashJoin

/-! ## The left input -/

section Left

variable
  {Place : Type}
  {fillBatch : List Row → Place → List Row → Except Error (Filling Place)}
  {fresh : Place}
  {batchPlan : List Row → Place → List (Except Error Row)}
  {candidates : Row → List Row}
  {whole : List Row}

/-- What is left of the current batch, and the batches behind it. -/
def standPlan
    (scope : Scope)
    (on : Option (Expr Query))
    (kind : JoinKind)
    (rightWidth : Nat)
    (batchPlan : List Row → Place → List (Except Error Row))
    (candidates : Row → List Row)
    (stand : Stand Place) : List (Except Error Row) :=
  (stand.currentLeft.elim [] fun batch => batchPlan batch stand.place) ++
    joinPlan scope on kind rightWidth candidates stand.left.flatten

/-- A stand over rows of the left input, and what it has still to hand out. -/
structure Stands
    (scope : Scope)
    (on : Option (Expr Query))
    (kind : JoinKind)
    (rightWidth : Nat)
    (batchPlan : List Row → Place → List (Except Error Row))
    (candidates : Row → List Row)
    (whole : List Row)
    (stand : Stand Place)
    (events : List (Except Error Row)) : Prop where
  current : ∀ batch, stand.currentLeft = some batch → ∀ row ∈ batch, row ∈ whole
  later : ∀ row ∈ stand.left.flatten, row ∈ whole
  planned : events = standPlan scope on kind rightWidth batchPlan candidates stand

theorem pullBatches_plan
    (follows :
      ∀ batch place out later,
        (∀ row ∈ batch, row ∈ whole) →
          Follows (batchPlan batch) out (batchPlan batch place) later (fillBatch batch place out))
    (start :
      ∀ batch,
        batchPlan batch fresh = joinPlan scope on kind rightWidth candidates batch)
    {lefts : List (List Row)}
    (out : List Row)
    (listed : ∀ row ∈ lefts.flatten, row ∈ whole) :
    Alike (Stands scope on kind rightWidth batchPlan candidates whole)
      (pullBatches fillBatch fresh lefts out)
      (fill batchSize out (joinPlan scope on kind rightWidth candidates lefts.flatten)) := by
  induction lefts generalizing out with
  | nil =>
      rw [pullBatches]
      change Alike _ _ (Except.ok (if out = [] then none else some (out, [])))
      by_cases none : out = []
      · rw [if_pos none, if_pos none]
        exact .ended
      · rw [if_neg none, if_neg none]
        exact .gave out ⟨nofun, nofun, rfl⟩
  | cons batch later inductionHypothesis =>
      have here : ∀ row ∈ batch, row ∈ whole := fun row member =>
        listed row (List.mem_append_left _ member)
      have behind : ∀ row ∈ later.flatten, row ∈ whole := fun row member =>
        listed row (List.mem_append_right _ member)
      have split :
          joinPlan scope on kind rightWidth candidates (batch :: later).flatten =
            joinPlan scope on kind rightWidth candidates batch ++
              joinPlan scope on kind rightWidth candidates later.flatten :=
        List.flatMap_append
      have filled :=
        follows batch fresh out (joinPlan scope on kind rightWidth candidates later.flatten) here
      rw [start] at filled
      rw [pullBatches, split]
      cases outcome : fillBatch batch fresh out with
      | error error =>
          rw [outcome] at filled
          rw [show fill _ _ _ = _ from filled]
          exact .failed error
      | ok reached =>
          rw [outcome] at filled
          cases reached with
          | full place more =>
              rw [show fill _ _ _ = _ from filled]
              exact .gave more ⟨fun _ same => Option.some.inj same ▸ here, behind, rfl⟩
          | spent more =>
              rw [show fill _ _ _ = _ from filled]
              exact inductionHypothesis more behind

theorem nextOutput_plan
    (follows :
      ∀ batch place out later,
        (∀ row ∈ batch, row ∈ whole) →
          Follows (batchPlan batch) out (batchPlan batch place) later (fillBatch batch place out))
    (start :
      ∀ batch,
        batchPlan batch fresh = joinPlan scope on kind rightWidth candidates batch)
    {stand : Stand Place}
    {events : List (Except Error Row)}
    (stands : Stands scope on kind rightWidth batchPlan candidates whole stand events) :
    Alike (Stands scope on kind rightWidth batchPlan candidates whole)
      (nextOutput fillBatch fresh stand) (fill batchSize [] events) := by
  obtain ⟨current, later, rfl⟩ := stands
  obtain ⟨lefts, held, place⟩ := stand
  cases held with
  | none => exact pullBatches_plan follows start [] later
  | some batch =>
      have here := current batch rfl
      have filled :=
        follows batch place [] (joinPlan scope on kind rightWidth candidates lefts.flatten) here
      rw [nextOutput, standPlan]
      simp only [Option.elim_some]
      cases outcome : fillBatch batch place [] with
      | error error =>
          rw [outcome] at filled
          rw [show fill _ _ _ = _ from filled]
          exact .failed error
      | ok reached =>
          rw [outcome] at filled
          cases reached with
          | full place more =>
              rw [show fill _ _ _ = _ from filled]
              exact .gave more ⟨fun _ same => Option.some.inj same ▸ here, later, rfl⟩
          | spent more =>
              rw [show fill _ _ _ = _ from filled]
              exact pullBatches_plan follows start more later

end Left

section Machines

variable {probeCol buildCol : Nat} {left right : List (List Row)}

namespace BatchNestedLoopJoin

def batchPlan
    (scope : Scope)
    (on : Option (Expr Query))
    (kind : JoinKind)
    (rightWidth : Nat)
    (rightRows batch : List Row)
    (place : Place) : List (Except Error Row) :=
  rowsPlan scope on kind rightWidth rightRows place (batch.drop place.leftPos)

/-- The right rows are those of the input, and the stand is one over the left input. -/
def Holds
    (scope : Scope)
    (on : Option (Expr Query))
    (kind : JoinKind)
    (rightWidth : Nat)
    (left right : List (List Row))
    (join : BatchNestedLoopJoin)
    (events : List (Except Error Row)) : Prop :=
  join.rightRows.getD join.rightInput.flatten = right.flatten ∧
    Stands scope on kind rightWidth (batchPlan scope on kind rightWidth right.flatten)
      (fun _ => right.flatten) left.flatten join.toStand events

theorem nextBatch_plan
    (storable : Storable types rightWidth left.flatten right.flatten)
    {join : BatchNestedLoopJoin}
    {events : List (Except Error Row)}
    (holds : Holds scope on kind rightWidth left right join events) :
    Alike (Holds scope on kind rightWidth left right)
      (nextBatch scope on kind rightWidth types join) (PulledRuns.fill batchSize [] events) := by
  obtain ⟨rightRows, stands⟩ := holds
  have alike :
      Alike
        (Stands scope on kind rightWidth (batchPlan scope on kind rightWidth right.flatten)
          (fun _ => right.flatten) left.flatten)
        (nextOutput (fill scope on kind rightWidth types right.flatten) fresh join.toStand)
        (PulledRuns.fill batchSize [] events) := by
    refine nextOutput_plan (fun batch place out later here => ?_) (fun batch => ?_) stands
    swap
    · exact rowsPlan_start 0 batch
    refine fillRows_plan later rfl fun row member => ?_
    have listed := here row (List.mem_of_mem_drop member)
    exact ⟨storable.1 row listed, storable.2 row listed⟩
  unfold nextBatch
  rw [rightRows]
  dsimp only
  generalize nextOutput (fill scope on kind rightWidth types right.flatten) fresh join.toStand =
    answer at alike
  generalize PulledRuns.fill batchSize [] events = planned at alike
  cases alike with
  | ended => exact .ended
  | failed error => exact .failed error
  | gave out stands => exact .gave out ⟨rfl, stands⟩

theorem runs
    (storable : Storable types rightWidth left.flatten right.flatten)
    {batches : List (List Row)}
    {failure : Option Error}
    (filled :
      Runs (PulledRuns.fill batchSize [])
        (joinPlan scope on kind rightWidth (fun _ => right.flatten) left.flatten)
        batches failure) :
    Runs (nextBatch scope on kind rightWidth types) (.new left right) batches failure :=
  Runs.simulate (fun _ _ holds => nextBatch_plan storable holds) filled
    ⟨rfl, nofun, fun _ member => member, rfl⟩

end BatchNestedLoopJoin

namespace BatchHashJoin

def batchPlan
    (scope : Scope)
    (on : Option (Expr Query))
    (kind : JoinKind)
    (rightWidth probeCol : Nat)
    (table : List UInt8 → List Row)
    (batch : List Row)
    (place : Place) : List (Except Error Row) :=
  rowsPlan scope on kind rightWidth probeCol table place (batch.drop place.leftPos)

def Holds
    (scope : Scope)
    (on : Option (Expr Query))
    (kind : JoinKind)
    (rightWidth probeCol buildCol : Nat)
    (left right : List (List Row))
    (join : BatchHashJoin)
    (events : List (Except Error Row)) : Prop :=
  join.table.getD (buildTable buildCol join.rightInput.flatten) =
      buildTable buildCol right.flatten ∧
    Stands scope on kind rightWidth
      (batchPlan scope on kind rightWidth probeCol (buildTable buildCol right.flatten))
      (bucket (buildTable buildCol right.flatten) probeCol) left.flatten join.toStand events

theorem mem_rowsUnder
    {rows : List Row}
    {key : Option (List UInt8)}
    {row : Row}
    (under : row ∈ rowsUnder (buildTable buildCol rows) key) :
    row ∈ rows := by
  cases key with
  | none => cases under
  | some key =>
      rw [rowsUnder, buildTable_eq, KeyedBuckets.fill_eq_filter] at under
      exact (List.mem_filter.mp under).1

theorem nextBatch_plan
    (storable : Storable types rightWidth left.flatten right.flatten)
    {join : BatchHashJoin}
    {events : List (Except Error Row)}
    (holds : Holds scope on kind rightWidth probeCol buildCol left right join events) :
    Alike (Holds scope on kind rightWidth probeCol buildCol left right)
      (nextBatch scope on kind rightWidth types probeCol buildCol join)
      (PulledRuns.fill batchSize [] events) := by
  obtain ⟨table, stands⟩ := holds
  have alike :
      Alike
        (Stands scope on kind rightWidth
          (batchPlan scope on kind rightWidth probeCol (buildTable buildCol right.flatten))
          (bucket (buildTable buildCol right.flatten) probeCol) left.flatten)
        (nextOutput
          (fill scope on kind rightWidth types probeCol (buildTable buildCol right.flatten)) fresh
          join.toStand)
        (PulledRuns.fill batchSize [] events) := by
    refine nextOutput_plan (fun batch place out later here => ?_) (fun batch => ?_) stands
    swap
    · exact rowsPlan_start rfl batch
    refine fillRows_plan later rfl fun row member key => ?_
    have listed := here row (List.mem_of_mem_drop member)
    exact ⟨fun inner under => storable.1 row listed inner (mem_rowsUnder under),
      storable.2 row listed⟩
  unfold nextBatch
  rw [table]
  dsimp only
  generalize nextOutput
    (fill scope on kind rightWidth types probeCol (buildTable buildCol right.flatten)) fresh
    join.toStand = answer at alike
  generalize PulledRuns.fill batchSize [] events = planned at alike
  cases alike with
  | ended => exact .ended
  | failed error => exact .failed error
  | gave out stands => exact .gave out ⟨rfl, stands⟩

theorem runs
    (storable : Storable types rightWidth left.flatten right.flatten)
    {batches : List (List Row)}
    {failure : Option Error}
    (filled :
      Runs (PulledRuns.fill batchSize [])
        (joinPlan scope on kind rightWidth
          (bucket (buildTable buildCol right.flatten) probeCol) left.flatten)
        batches failure) :
    Runs (nextBatch scope on kind rightWidth types probeCol buildCol) (.new left right) batches
      failure :=
  Runs.simulate (fun _ _ holds => nextBatch_plan storable holds) filled
    ⟨rfl, nofun, fun _ member => member, rfl⟩

end BatchHashJoin

end Machines

end Steps

/-! ## Rows and batches -/

/-- The rows cut into batches; a failure takes with it the rows of the open batch. -/
structure SameRows
    (rows : List Row)
    (batches : List (List Row))
    (failure : Option Error) : Prop where
  finished : failure = none → batches.flatten = rows
  failed :
    failure ≠ none → batches.flatten = rows.take (rows.length / batchSize * batchSize)
  sized : ∀ batch ∈ batches, batch ≠ [] ∧ batch.length ≤ batchSize

theorem sameRows_of_cut
    {rows : List Row}
    {batches : List (List Row)}
    {failure : Option Error}
    (cut : PulledRuns.Cut batchSize failure rows batches) :
    SameRows rows batches failure := by
  have positive : 0 < batchSize := by decide
  have flat := cut.flatten positive
  exact {
    finished := fun ended => flat.trans (if_pos ended)
    failed := fun failed => flat.trans (if_neg failed)
    sized := fun batch member => cut.sized positive member }

/-- Both operators come to an end, the same one, and the batches are those of the rows. -/
structure Batched
    {State Other : Type}
    (rowNext : Machine State Error Row)
    (row : State)
    (batchNext : Machine Other Error (List Row))
    (batch : Other) : Prop where
  ends :
    ∃ rows batches failure, Runs rowNext row rows failure ∧ Runs batchNext batch batches failure
  same :
    ∀ rows batches failure other,
      Runs rowNext row rows failure →
        Runs batchNext batch batches other → failure = other ∧ SameRows rows batches failure

theorem batched_of_plan
    {State Other : Type}
    {rowNext : Machine State Error Row}
    {row : State}
    {batchNext : Machine Other Error (List Row)}
    {batch : Other}
    (plan : List (Except Error Row))
    (rowRuns : Runs rowNext row (PulledRuns.items plan) (PulledRuns.failure plan))
    (batchRuns :
      ∀ batches,
        Runs (fill batchSize []) plan batches (PulledRuns.failure plan) →
          Runs batchNext batch batches (PulledRuns.failure plan)) :
    Batched rowNext row batchNext batch := by
  obtain ⟨batches, filled, cut⟩ := PulledRuns.runs_fill (by decide : 0 < batchSize) plan
  refine ⟨⟨_, batches, _, rowRuns, batchRuns batches filled⟩, ?_⟩
  intro rows others failure other first second
  obtain ⟨rfl, rfl⟩ := first.unique rowRuns
  obtain ⟨rfl, rfl⟩ := second.unique (batchRuns batches filled)
  exact ⟨rfl, sameRows_of_cut cut⟩

/--
Pulled to its end or to its failure, a batch join hands out the rows of the row
join in batches, however its input was batched; if a pair fails, both fail there,
and the batches are the full ones before it.
-/
theorem joins_batched
    {scope : Scope}
    {leftLen rightWidth : Nat}
    {kind : JoinKind}
    (kinds : kind ≠ .semi ∧ kind ≠ .anti)
    (left right : List (List Row))
    (input : Input scope leftLen rightWidth left.flatten right.flatten) :
    (∀ on : Option (Expr Query),
      Batched (NestedLoopJoin.next scope on kind rightWidth) (.new left.flatten right.flatten)
        (BatchNestedLoopJoin.nextBatch scope on kind rightWidth (typesOf scope))
        (.new left right)) ∧
    ∀ (on : Expr Query) (probeCol buildCol : Nat),
      Batched (HashJoin.next scope (some on) kind rightWidth probeCol buildCol)
        (.new left.flatten right.flatten)
        (BatchHashJoin.nextBatch scope (some on) kind rightWidth (typesOf scope) probeCol buildCol)
        (.new left right) := by
  refine ⟨fun on => ?_, fun on probeCol buildCol => ?_⟩
  · exact batched_of_plan _ (NestedLoopJoin.runs kinds left.flatten right.flatten)
      fun _ filled => BatchNestedLoopJoin.runs input.storable filled
  · exact batched_of_plan _ (HashJoin.runs left.flatten right.flatten)
      fun _ filled => BatchHashJoin.runs input.storable filled

/-! ## A share of one -/

def shareScope : Scope :=
  [{ table := "a", name := "id", type := .int }, { table := "b", name := "parts", type := .int }]

/-- `1 / b.parts = 1` -/
def shareOn : Expr Unit :=
  .binary (.comparison .eq)
    (.binary (.arithmetic .div) (.integer 1) (.column { table := some "b", name := "parts" }))
    (.integer 1)

theorem share_input (shares parts : Nat) :
    Input shareScope 1 1 (List.replicate shares [.int 7]) (List.replicate parts [.int 1]) where
  columns := rfl
  leftWidth row listed := by rw [List.eq_of_mem_replicate listed]; rfl
  rightWidth row listed := by rw [List.eq_of_mem_replicate listed]; rfl
  leftTyped := by
    intro row listed position bound entry found
    obtain rfl := List.eq_of_mem_replicate listed
    obtain rfl : position = 0 := by omega
    cases found
    rfl
  rightTyped := by
    intro row listed position entry found
    obtain rfl := List.eq_of_mem_replicate listed
    match position with
    | 0 =>
        cases found
        rfl
    | later + 1 =>
        rw [List.getElem?_eq_none (Nat.le_add_left 2 later |>.trans_eq (by omega))] at found
        cases found

/-- Each left row has more matches than a batch holds, and they come in two batches. -/
theorem joins_batched_shares :
    batchSize < 1400 ∧
      Batched (NestedLoopJoin.next shareScope (some shareOn) .left 1)
        (.new (List.replicate 2 [.int 7]) (List.replicate 1400 [.int 1]))
        (BatchNestedLoopJoin.nextBatch shareScope (some shareOn) .left 1 (typesOf shareScope))
        (.new [List.replicate 1 [.int 7], List.replicate 1 [.int 7]]
          [List.replicate 700 [.int 1], List.replicate 700 [.int 1]]) := by
  have left :
      [List.replicate 1 [Value.int 7], List.replicate 1 [.int 7]].flatten =
        List.replicate 2 [.int 7] := rfl
  have right :
      [List.replicate 700 [Value.int 1], List.replicate 700 [.int 1]].flatten =
        List.replicate 1400 [.int 1] := by
    rw [List.flatten_cons, List.flatten_singleton, List.replicate_append_replicate]
  have batched :=
    (joins_batched (by decide : JoinKind.left ≠ .semi ∧ JoinKind.left ≠ .anti)
      [List.replicate 1 [Value.int 7], List.replicate 1 [.int 7]]
      [List.replicate 700 [.int 1], List.replicate 700 [.int 1]]
      (by rw [left, right]; exact share_input 2 1400)).1 (some shareOn)
  rw [left, right] at batched
  exact ⟨by decide, batched⟩

/-- The pair before the one that divides by zero is handed out by the row operator only. -/
theorem joins_batched_counterexample :
    ¬ ∀ rows batches failure other,
      Runs (NestedLoopJoin.next shareScope (some shareOn) .inner 1)
          (.new [[.int 7]] [[.int 1], [.int 0]]) rows failure →
        Runs
          (BatchNestedLoopJoin.nextBatch shareScope (some shareOn) .inner 1 (typesOf shareScope))
          (.new [[[.int 7]]] [[[.int 1], [.int 0]]]) batches other →
        batches.flatten = rows := by
  intro same
  have first :=
    same [[.int 7, .int 1]] [] (some (.exec "division by zero"))
      (some (.exec "division by zero"))
      (.gave rfl (.failed rfl)) (.failed rfl)
  cases first

end PrehniteDB.Joins
