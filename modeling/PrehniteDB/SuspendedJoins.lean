import PrehniteDB.Joins
import PrehniteDB.PulledRuns

namespace PrehniteDB.Joins

open ReadPaths (ColumnType JoinKind batchSize)
open PulledRuns (Machine)

/-!
# Joins between two calls

A row operator hands out one row a call and a batch operator one batch.  What an
operator keeps until the next call is its state: the input that is left, the left
row it stands on, and its place in what that row is compared with.
-/

variable {Query : Type}

section RowOperators

variable (scope : Scope) (on : Option (Expr Query)) (kind : JoinKind) (rightWidth : Nat)

/-- The first pair that is kept, with the position behind it. -/
def firstMatch (left : Row) : List Row → Nat → Except Error (Option (Row × Nat))
  | [], _ => .ok none
  | right :: rest, position => do
      if ← passesFilter on scope (left ++ right) then
        pure (some (left ++ right, position + 1))
      else firstMatch left rest (position + 1)

/-- The operator between two pulls. -/
structure NestedLoopJoin where
  left : List Row
  rightInput : List Row
  /-- The right input once it is drained. -/
  rightRows : Option (List Row)
  currentLeft : Option Row
  rightPos : Nat
  matchedCurrent : Bool

namespace NestedLoopJoin

def new (left right : List Row) : NestedLoopJoin where
  left
  rightInput := right
  rightRows := none
  currentLeft := none
  rightPos := 0
  matchedCurrent := false

/--
What the current left row gives next, with the position from which it goes on if it
is not spent.
-/
def answer
    (rightRows : List Row)
    (left : Row)
    (rightPos : Nat)
    (matchedCurrent : Bool) : Except Error (Option (Row × Option Nat)) := do
  match ← firstMatch scope on left (rightRows.drop rightPos) rightPos with
  | some (combined, position) =>
      match kind with
      | .semi => pure (some (left, none))
      | .anti => pure none
      | .inner | .left | .cross => pure (some (combined, some position))
  | none =>
      match kind with
      | .left =>
          pure (if matchedCurrent then none
            else some (left ++ List.replicate rightWidth .null, none))
      | .anti => pure (if matchedCurrent then none else some (left, none))
      | .inner | .cross | .semi => pure none

/-- The state behind an answer of a left row. -/
def behind
    (rightRows later : List Row)
    (left : Row)
    (position : Option Nat) : NestedLoopJoin where
  left := later
  rightInput := []
  rightRows := some rightRows
  currentLeft := position.map fun _ => left
  rightPos := position.getD 0
  matchedCurrent := position.isSome

/-- Left rows are pulled until one of them gives a row. -/
def pull (rightRows : List Row) : List Row → Except Error (Option (Row × NestedLoopJoin))
  | [] => .ok none
  | left :: later => do
      match ← answer scope on kind rightWidth rightRows left 0 false with
      | some (row, position) => pure (some (row, behind rightRows later left position))
      | none => pull rightRows later

def next : Machine NestedLoopJoin Error Row := fun join => do
  let rightRows := join.rightRows.getD join.rightInput
  match join.currentLeft with
  | none => pull scope on kind rightWidth rightRows join.left
  | some left =>
      match ← answer scope on kind rightWidth rightRows left join.rightPos join.matchedCurrent with
      | some (row, position) => pure (some (row, behind rightRows join.left left position))
      | none => pull scope on kind rightWidth rightRows join.left

end NestedLoopJoin

/-- The encoded key of a row; `NULL` has none. -/
def joinKey (col : Nat) (row : Row) : Option (List UInt8) :=
  if (column row col).isNull then none else some (encodeIndexValue (column row col))

/-- The rows under a key; no key probes none. -/
def rowsUnder (table : List UInt8 → List Row) : Option (List UInt8) → List Row
  | none => []
  | some key => table key

/-- The operator between two pulls. -/
structure HashJoin where
  left : List Row
  rightInput : List Row
  /-- The inner rows under their keys, once they are hashed. -/
  table : Option (List UInt8 → List Row)
  currentLeft : Option Row
  probeKey : Option (List UInt8)
  matchPos : Nat
  matchedCurrent : Bool

namespace HashJoin

def new (left right : List Row) : HashJoin where
  left
  rightInput := right
  table := none
  currentLeft := none
  probeKey := none
  matchPos := 0
  matchedCurrent := false

/-- The next match of a left row, or the row that pads it. -/
def answer
    (table : List UInt8 → List Row)
    (left : Row)
    (probeKey : Option (List UInt8))
    (matchPos : Nat)
    (matchedCurrent : Bool) : Except Error (Option (Row × Option Nat)) := do
  match ← firstMatch scope on left ((rowsUnder table probeKey).drop matchPos) matchPos with
  | some (combined, position) => pure (some (combined, some position))
  | none =>
      pure (if kind = .left ∧ matchedCurrent = false then
        some (left ++ List.replicate rightWidth .null, none) else none)

/-- A finished left row gives way to the next one. -/
def behind
    (table : List UInt8 → List Row)
    (later : List Row)
    (left : Row)
    (probeKey : Option (List UInt8))
    (position : Option Nat) : HashJoin where
  left := later
  rightInput := []
  table := some table
  currentLeft := position.map fun _ => left
  probeKey
  matchPos := position.getD 0
  matchedCurrent := position.isSome

/-- The first row that the left rows still to come answer. -/
def pull
    (probeCol : Nat)
    (table : List UInt8 → List Row) : List Row → Except Error (Option (Row × HashJoin))
  | [] => .ok none
  | left :: later => do
      let probeKey := joinKey probeCol left
      match ← answer scope on kind rightWidth table left probeKey 0 false with
      | some (row, position) => pure (some (row, behind table later left probeKey position))
      | none => pull probeCol table later

def next (probeCol buildCol : Nat) : Machine HashJoin Error Row := fun join => do
  let table := join.table.getD (buildTable buildCol join.rightInput)
  match join.currentLeft with
  | none => pull scope on kind rightWidth probeCol table join.left
  | some left =>
      match ← answer scope on kind rightWidth table left join.probeKey join.matchPos
        join.matchedCurrent with
      | some (row, position) =>
          pure (some (row, behind table join.left left join.probeKey position))
      | none => pull scope on kind rightWidth probeCol table join.left

end HashJoin

end RowOperators

/-! ## Batches -/

section BatchOperators

variable
  (scope : Scope)
  (on : Option (Expr Query))
  (kind : JoinKind)
  (rightWidth : Nat)
  (types : List ColumnType)

/-- The output is full inside the candidates of a left row, or these are spent. -/
inductive Scan where
  | full (position : Nat) (out : List Row)
  | spent (matched : Bool) (out : List Row)

/-- The loop over what a left row is compared with. -/
def scan (left : Row) : List Row → Nat → Bool → List Row → Except Error Scan
  | [], _, matched, out => .ok (.spent matched out)
  | right :: rest, position, matched, out => do
      if ← passesFilter on scope (left ++ right) then
        let stored ← pushRow types (left ++ right)
        if batchSize ≤ (out ++ [stored]).length then pure (.full (position + 1) (out ++ [stored]))
        else scan left rest (position + 1) true (out ++ [stored])
      else scan left rest (position + 1) matched out

/-- The output is full inside or behind a left row, or the left row is spent before. -/
inductive Probe where
  | inside (position : Nat) (out : List Row)
  | behind (out : List Row)
  | spent (out : List Row)

/-- One left row; a `LEFT` join pads it if nothing matched. -/
def probeRow
    (left : Row)
    (candidates : List Row)
    (position : Nat)
    (matched : Bool)
    (out : List Row) : Except Error Probe := do
  match ← scan scope on types left (candidates.drop position) position matched out with
  | .full position out => pure (.inside position out)
  | .spent matched out =>
      if kind = .left ∧ matched = false then
        let stored ← pushRow types (left ++ List.replicate rightWidth .null)
        if batchSize ≤ (out ++ [stored]).length then pure (.behind (out ++ [stored]))
        else pure (.spent (out ++ [stored]))
      else pure (.spent out)

/-- The output is full at a place of the left batch, or the batch is spent before. -/
inductive Filling (Place : Type) where
  | full (place : Place) (out : List Row)
  | spent (out : List Row)

/-- The left input of a batch operator, with its place in the current batch. -/
structure Stand (Place : Type) where
  left : List (List Row)
  currentLeft : Option (List Row)
  place : Place

/--
Left batches are pulled until the output is full; `fill` goes through one of them,
from the place `fresh` on.
-/
def pullBatches
    {Place : Type}
    (fill : List Row → Place → List Row → Except Error (Filling Place))
    (fresh : Place) :
    List (List Row) → List Row → Except Error (Option (List Row × Stand Place))
  | [], out =>
      .ok (if out = [] then none
        else some (out, { left := [], currentLeft := none, place := fresh }))
  | batch :: later, out => do
      match ← fill batch fresh out with
      | .full place out => pure (some (out, { left := later, currentLeft := some batch, place }))
      | .spent out => pullBatches fill fresh later out

/-- Left batches are filled in until a batch of output is full. -/
def nextOutput
    {Place : Type}
    (fill : List Row → Place → List Row → Except Error (Filling Place))
    (fresh : Place)
    (stand : Stand Place) : Except Error (Option (List Row × Stand Place)) := do
  match stand.currentLeft with
  | none => pullBatches fill fresh stand.left []
  | some batch =>
      match ← fill batch stand.place [] with
      | .full place out => pure (some (out, { stand with place }))
      | .spent out => pullBatches fill fresh stand.left out

/-- Where a full batch has stopped the loops. -/
structure BatchNestedLoopJoin.Place where
  leftPos : Nat
  rightPos : Nat
  matchedCurrent : Bool

/-- The batched operator between two pulls. -/
structure BatchNestedLoopJoin extends Stand BatchNestedLoopJoin.Place where
  rightInput : List (List Row)
  rightRows : Option (List Row)

namespace BatchNestedLoopJoin

def fresh : Place := { leftPos := 0, rightPos := 0, matchedCurrent := false }

def new (left right : List (List Row)) : BatchNestedLoopJoin where
  left
  currentLeft := none
  place := fresh
  rightInput := right
  rightRows := none

/-- The left rows from the place on. -/
def fillRows
    (rightRows : List Row) :
    List Row → Place → List Row → Except Error (Filling Place)
  | [], _, out => .ok (.spent out)
  | left :: later, place, out => do
      match ← probeRow scope on kind rightWidth types left rightRows place.rightPos
        place.matchedCurrent out with
      | .inside position out =>
          pure (.full { place with rightPos := position, matchedCurrent := true } out)
      | .behind out =>
          pure (.full { leftPos := place.leftPos + 1, rightPos := 0, matchedCurrent := false } out)
      | .spent out =>
          fillRows rightRows later
            { leftPos := place.leftPos + 1, rightPos := 0, matchedCurrent := false } out

/-- Go on with a left batch from the place. -/
def fill
    (rightRows : List Row)
    (batch : List Row)
    (place : Place) (out : List Row) : Except Error (Filling Place) :=
  fillRows scope on kind rightWidth types rightRows (batch.drop place.leftPos) place out

def nextBatch : Machine BatchNestedLoopJoin Error (List Row) := fun join => do
  let rightRows := join.rightRows.getD join.rightInput.flatten
  match ← nextOutput (fill scope on kind rightWidth types rightRows) fresh join.toStand with
  | none => pure none
  | some (out, stand) =>
      pure (some (out, { stand with rightInput := [], rightRows := some rightRows }))

end BatchNestedLoopJoin

/-- Where a full batch has stopped the probe. -/
structure BatchHashJoin.Place where
  leftPos : Nat
  probeKey : Option (List UInt8)
  /-- Whether the key belongs to the left row at `leftPos`. -/
  rowStarted : Bool
  matchPos : Nat
  matchedCurrent : Bool

/-- The batched operator between two pulls. -/
structure BatchHashJoin extends Stand BatchHashJoin.Place where
  rightInput : List (List Row)
  table : Option (List UInt8 → List Row)

namespace BatchHashJoin

def fresh : Place where
  leftPos := 0
  probeKey := none
  rowStarted := false
  matchPos := 0
  matchedCurrent := false

def new (left right : List (List Row)) : BatchHashJoin where
  left
  currentLeft := none
  place := fresh
  rightInput := right
  table := none

/-- The place once its left row is entered; what the row before left in it is overwritten. -/
def start (probeCol : Nat) (left : Row) (place : Place) : Place :=
  if place.rowStarted then place
  else
    { place with
      probeKey := joinKey probeCol left
      matchPos := 0
      matchedCurrent := false
      rowStarted := true }

/-- Each left row in turn, until the output is full. -/
def fillRows
    (probeCol : Nat)
    (table : List UInt8 → List Row) :
    List Row → Place → List Row → Except Error (Filling Place)
  | [], _, out => .ok (.spent out)
  | left :: later, place, out => do
      let place := start probeCol left place
      match ← probeRow scope on kind rightWidth types left (rowsUnder table place.probeKey)
        place.matchPos place.matchedCurrent out with
      | .inside position out =>
          pure (.full { place with matchPos := position, matchedCurrent := true } out)
      | .behind out =>
          pure (.full { place with leftPos := place.leftPos + 1, rowStarted := false } out)
      | .spent out =>
          fillRows probeCol table later
            { place with leftPos := place.leftPos + 1, rowStarted := false } out

def fill
    (probeCol : Nat)
    (table : List UInt8 → List Row)
    (batch : List Row)
    (place : Place)
    (out : List Row) : Except Error (Filling Place) :=
  fillRows scope on kind rightWidth types probeCol table (batch.drop place.leftPos) place out

def nextBatch (probeCol buildCol : Nat) : Machine BatchHashJoin Error (List Row) := fun join => do
  let table := join.table.getD (buildTable buildCol join.rightInput.flatten)
  match ← nextOutput (fill scope on kind rightWidth types probeCol table) fresh join.toStand with
  | none => pure none
  | some (out, stand) => pure (some (out, { stand with rightInput := [], table := some table }))

end BatchHashJoin

end BatchOperators

end PrehniteDB.Joins
