import PrehniteDB.CommittedPages
import PrehniteDB.PagerStore
import PrehniteDB.TreeDeletes

namespace PrehniteDB

/-!
# Runs of trees

Any number of trees on one pager, with commits and rollbacks in between.  What they answer
is what maps from keys to values answer, and a crash leaves the maps of the last commit.
-/

open PagedStore SearchTrees
open SlottedPage hiding orPanic built storeNode insertInto

namespace BTree

/-! ## Calls and what maps answer -/

abbrev Bindings := Key → Option (List UInt8)

/-- What each open tree maps keys to, by its root. -/
abbrev Contents := UInt32 → Option Bindings

inductive Call where
  | search (key : Key)
  | insert (key : Key) (value : List UInt8)
  | insertIfAbsent (key : Key) (value : List UInt8)
  | delete (key : Key)

inductive Reply where
  | found (value : Option (List UInt8))
  | inserted (outcome : Except Error Unit)
  | insertedNew (outcome : Except Error Bool)
  | deleted (present : Bool)
  deriving DecidableEq

def perform {State : Type} (store : Pages State) (tree : BTree) : Call → Ask State Halt Reply
  | .search key => do
      let value ← search store tree key
      pure (.found value)
  | .insert key value => do
      let outcome ← insert store tree key value
      pure (.inserted outcome)
  | .insertIfAbsent key value => do
      let outcome ← insertIfAbsent store tree key value
      pure (.insertedNew outcome)
  | .delete key => do
      let present ← delete store tree key
      pure (.deleted present)

/-- What a map answers, and the map then. -/
def answer (map : Bindings) : Call → Reply × Bindings
  | .search key => (.found (map key), map)
  | .insert key value =>
      if MAX_CELL < LEAF_CELL_OVERHEAD + key.length + 1 + 4 then
        (.inserted (.error (tooLarge key)), map)
      else (.inserted (.ok ()), Function.update map key (some value))
  | .insertIfAbsent key value =>
      if (map key).isSome then (.insertedNew (.ok false), map)
      else if MAX_CELL < LEAF_CELL_OVERHEAD + key.length + 1 + 4 then
        (.insertedNew (.error (tooLarge key)), map)
      else (.insertedNew (.ok true), Function.update map key (some value))
  | .delete key => (.deleted (map key).isSome, Function.update map key none)

section Store

variable {State : Type} {store : Pages State} {laws : Laws Halt.isForeign store 0}
  {state : State} {pages : List UInt32} {frame : UInt32 → Option Page} {images : UInt32 → Page}
  {tree : BTree} {map : Bindings}

/-- The key is there afterwards, an old value kept. -/
theorem insertIfAbsent_spec
    {depth : Nat}
    {cells : List Cell}
    (node : Node images depth tree.root ⊥ ⊤ cells pages)
    (owns : Owns laws state pages frame images)
    (key value : List UInt8) :
    Ensures Halt.isForeign (insertIfAbsent store tree key value) state fun reply next =>
      .insertedNew reply = (answer (mapOf cells) (.insertIfAbsent key value)).1 ∧
        Holds laws frame (Rooted tree.root
          (mapOf · = (answer (mapOf cells) (.insertIfAbsent key value)).2)) next := by
  apply (search_spec node owns key).bind
  rintro found searched ⟨ownsSearched, rfl⟩
  cases present : mapOf cells key with
  | some value =>
      simp only [answer, present, Option.isSome_some, if_true]
      exact ⟨rfl, images, pages, ownsSearched, depth, cells, node, rfl⟩
  | none =>
      simp only [answer, present, Option.isSome_none, Bool.false_eq_true, if_false]
      apply (insert_spec node ownsSearched key value).bind
      intro reply next outcome
      split at outcome
      · next long =>
          obtain ⟨rfl, rfl⟩ := outcome
          rw [if_pos long]
          exact ⟨rfl, images, pages, ownsSearched, depth, cells, node, rfl⟩
      · next fits =>
          obtain ⟨rfl, holds⟩ := outcome
          rw [if_neg fits]
          exact ⟨rfl, holds⟩

/-- A call does to the map what its name says. -/
theorem perform_spec
    (rooted : Rooted tree.root (mapOf · = map) images pages)
    (owns : Owns laws state pages frame images)
    (call : Call) :
    Ensures Halt.isForeign (perform store tree call) state fun reply next =>
      reply = (answer map call).1 ∧
        Holds laws frame (Rooted tree.root (mapOf · = (answer map call).2)) next := by
  obtain ⟨depth, cells, node, rfl⟩ := rooted
  cases call with
  | search key =>
      apply (search_spec node owns key).bind
      rintro value next ⟨ownsNext, rfl⟩
      exact ⟨rfl, images, pages, ownsNext, depth, cells, node, rfl⟩
  | insert key value =>
      apply (insert_spec node owns key value).bind
      intro reply next outcome
      simp only [answer]
      split at outcome
      · next long =>
          obtain ⟨rfl, rfl⟩ := outcome
          rw [if_pos long]
          exact ⟨rfl, images, pages, owns, depth, cells, node, rfl⟩
      · next fits =>
          obtain ⟨rfl, holds⟩ := outcome
          rw [if_neg fits]
          exact ⟨rfl, holds⟩
  | insertIfAbsent key value => exact (insertIfAbsent_spec node owns key value).bind fun _ _ => id
  | delete key =>
      apply (delete_spec node owns key).bind
      rintro found next ⟨rfl, holds⟩
      exact ⟨rfl, holds⟩

theorem newLeaf_made : LeafPage newLeaf [] where
  leaf := by
    rw [isLeaf, newLeaf, pageType_emptyPage (by decide)]
    rfl
  carries := {
    fits := Nat.zero_le _
    count := by
      have zeros : SameBytes zeroPage newLeaf OFF_CELL_COUNT (OFF_CELL_COUNT + 2) :=
        (sameBytes_setNumber zeroPage PAGE_LEAF (.inr (by decide))).trans
          (sameBytes_setNumber _ _ (.inl (by decide)))
      rw [cellCount, zeros.number]
      rfl
    listed := fun index entry found => by cases found }

theorem create_spec (owns : Owns laws state [] frame images) :
    Ensures Halt.isForeign (create store) state fun tree =>
      Holds laws frame (Rooted tree.root (mapOf · = fun _ => none)) := by
  apply owns.allocPage.bind
  rintro root allocated ⟨blank, ownsMore, -⟩
  apply (ownsMore.writePage newLeaf).bind
  rintro _ next ⟨later, ownsNext, made, -⟩
  exact ⟨later, _, ownsNext, 0, [], ⟨rfl, made ▸ newLeaf_made, bot_lt_top,
    ⟨.nil, fun _ member => by cases member⟩, fun _ member => by cases member⟩, rfl⟩

end Store

/-! ## Trees side by side -/

/-- The trees on the pages held: each is the map its root has. -/
def Grows (contents : Contents) (images : UInt32 → Page) (held : List UInt32) : Prop :=
  ∃ (roots : List UInt32) (pagesOf : UInt32 → List UInt32), roots.Nodup ∧
    held.Perm (roots.flatMap pagesOf) ∧ (∀ root, root ∈ roots ↔ contents root ≠ none) ∧
    ∀ root map, contents root = some map → Rooted root (mapOf · = map) images (pagesOf root)

/-- The used pages are those of the trees and of the frame. -/
def Planted
    (frame : UInt32 → Option Page)
    (used : Finset UInt32)
    (images : UInt32 → Page)
    (contents : Contents) : Prop :=
  ∃ held, Divides (· ∈ used) held frame images ∧ Grows contents images held

section Forest

variable {contents : Contents} {images later : UInt32 → Page} {held pages : List UInt32}
  {root : UInt32} {map : Bindings} {frame : UInt32 → Option Page} {used : Finset UInt32}

theorem Grows.congr
    (grows : Grows contents images held)
    (same : Same held images later) :
    Grows contents later held := by
  obtain ⟨roots, pagesOf, nodup, perm, known, rooted⟩ := grows
  refine ⟨roots, pagesOf, nodup, perm, known, fun root map opened => ?_⟩
  obtain ⟨depth, cells, node, holds⟩ := rooted root map opened
  refine ⟨depth, cells, node.congr fun no member => same no (perm.mem_iff.mpr ?_), holds⟩
  exact List.mem_flatMap.mpr ⟨root, (known root).mpr (by simp [opened]), member⟩

/-- One tree, and the others. -/
theorem Grows.take
    (grows : Grows contents images held)
    (opened : contents root = some map) :
    ∃ pages outer, held.Perm (pages ++ outer) ∧ Rooted root (mapOf · = map) images pages ∧
      Grows (Function.update contents root none) images outer := by
  obtain ⟨roots, pagesOf, nodup, perm, known, rooted⟩ := grows
  have member := (known root).mpr (by simp [opened])
  refine ⟨pagesOf root, (roots.erase root).flatMap pagesOf,
    perm.trans ((List.perm_cons_erase member).flatMap_right pagesOf), rooted root map opened,
    roots.erase root, pagesOf, nodup.erase root, .refl _, fun other => ?_, fun other map found => ?_⟩
  · rw [nodup.mem_erase_iff, known]
    by_cases same : other = root <;> simp [same]
  · by_cases same : other = root
    · simp [same] at found
    · exact rooted other map (by simpa [same] using found)

theorem Grows.put
    (grows : Grows contents images held)
    (absent : contents root = none)
    (tree : Rooted root (mapOf · = map) images pages) :
    Grows (Function.update contents root (some map)) images (pages ++ held) := by
  obtain ⟨roots, pagesOf, nodup, perm, known, rooted⟩ := grows
  have new : root ∉ roots := by simp [known, absent]
  have others : roots.flatMap (Function.update pagesOf root pages) = roots.flatMap pagesOf :=
    List.flatMap_congr fun other member => Function.update_of_ne (by grind) ..
  refine ⟨root :: roots, Function.update pagesOf root pages, List.nodup_cons.mpr ⟨new, nodup⟩, ?_,
    fun other => ?_, fun other map found => ?_⟩
  · rw [List.flatMap_cons, Function.update_self, others]
    exact perm.append_left pages
  · by_cases same : other = root <;> simp [same, known]
  · by_cases same : other = root
    · subst same
      rw [Function.update_self] at found ⊢
      exact Option.some.inj found ▸ tree
    · rw [Function.update_of_ne same] at found ⊢
      exact rooted other map found

theorem Planted.congr
    (planted : Planted frame used images contents)
    (same : ∀ no ∈ used, later no = images no) :
    Planted frame used later contents := by
  obtain ⟨held, divides, grows⟩ := planted
  refine ⟨held, ⟨divides.nodup, divides.used, divides.apart, fun no page known => ?_⟩,
    grows.congr fun no member => same no ((divides.used no).mpr (.inl member))⟩
  rw [same no ((divides.used no).mpr (.inr (by simp [known]))), divides.framed no page known]

end Forest

/-! ## The pager between two calls -/

/-- The trees stand now, and stood at the last commit. -/
structure Serving
    (frame : UInt32 → Option Page)
    (cluster : Cluster)
    (contents saved : Contents) : Prop where
  alone : cluster.Alone (cluster.ledgers 0)
  now : Planted frame (cluster.inUse 0) (cluster.ledgers 0).image contents
  before : Planted frame (cluster.committed 0) (cluster.ledgers 0).base saved

section Steps

variable {frame : UInt32 → Option Page} {cluster next : Cluster} {contents later saved : Contents}
  {root : UInt32} {map : Bindings}

theorem Serving.onward
    (serving : Serving frame cluster contents saved)
    (holds : Holds (Cluster.laws (cluster.ledgers 0)) frame (Grows later) next) :
    Serving frame next later saved := by
  obtain ⟨images, held, owns, grows⟩ := holds
  have alone : next.Alone (cluster.ledgers 0) := owns.valid
  have planted : Planted frame (next.inUse 0) images later := ⟨held, owns.toDivides, grows⟩
  refine ⟨⟨alone.solo, alone.allocation, rfl, rfl⟩, planted.congr owns.carries, ?_⟩
  rw [Cluster.committed, alone.committed, alone.base]
  exact serving.before

theorem Serving.called
    (serving : Serving frame cluster contents saved)
    (opened : contents root = some map)
    (call : Call) :
    Ensures Halt.isForeign (perform Cluster.pages ⟨root⟩ call) cluster fun reply next =>
      reply = (answer map call).1 ∧
        Serving frame next (Function.update contents root (some (answer map call).2)) saved := by
  obtain ⟨held, divides, grows⟩ := serving.now
  obtain ⟨pages, outer, perm, rooted, others⟩ := grows.take opened
  have owns : Owns (Cluster.laws (cluster.ledgers 0)) cluster held frame _ :=
    ⟨divides, serving.alone, fun _ _ => rfl⟩
  refine (Ensures.framed (owns.perm perm) (fun frame owns =>
    (@perform_spec _ _ _ _ _ _ _ ⟨root⟩ _ rooted owns call).mono fun reply next outcome =>
      outcome.2.mono fun _ _ grown => (⟨outcome.1, grown⟩ : _ ∧ _))).mono ?_
  rintro reply next ⟨images, _, ownsNext, inner, rfl, same, rfl, grown⟩
  refine ⟨rfl, serving.onward ⟨images, _, ownsNext, ?_⟩⟩
  have whole := (others.congr same).put (Function.update_self ..) grown
  rwa [Function.update_idem] at whole

theorem Serving.created
    (serving : Serving frame cluster contents saved) :
    Ensures Halt.isForeign (create Cluster.pages) cluster fun tree next =>
      contents tree.root = none ∧
        Serving frame next (Function.update contents tree.root (some fun _ => none)) saved := by
  obtain ⟨held, divides, grows⟩ := serving.now
  have owns : Owns (Cluster.laws (cluster.ledgers 0)) cluster ([] ++ held) frame _ :=
    ⟨divides, serving.alone, fun _ _ => rfl⟩
  refine (Ensures.framed owns fun frame owns => create_spec owns).mono ?_
  rintro tree next ⟨images, _, ownsNext, inner, rfl, same, depth, cells, node, holds⟩
  have absent : contents tree.root = none := by
    by_contra there
    obtain ⟨map, opened⟩ := Option.ne_none_iff_exists'.mp there
    obtain ⟨pages, outer, perm, ⟨_, _, old, -⟩, -⟩ := grows.take opened
    obtain ⟨_, rfl⟩ := node.head
    obtain ⟨_, rfl⟩ := old.head
    exact List.disjoint_of_nodup_append ownsNext.nodup List.mem_cons_self
      (perm.mem_iff.mpr List.mem_cons_self)
  exact ⟨absent, serving.onward ⟨images, _, ownsNext,
    (grows.congr same).put absent ⟨depth, cells, node, holds⟩⟩⟩

theorem Serving.committed
    {order : List UInt32}
    (serving : Serving frame cluster contents saved)
    (prudent : cluster.Prudent (0, .commit order))
    (taken : cluster.step (0, .commit order) = some next)
    (succeeded : ((cluster.view 0).commit order).1 = .ok ()) :
    Serving frame next contents contents := by
  obtain ⟨solo, allocation⟩ := serving.alone.step prudent taken
  have ledger : next.ledgers 0 = (cluster.ledgers 0).commit := by
    obtain ⟨state, result⟩ := Cluster.outcome_eq succeeded
    simp only [Cluster.step, result] at taken
    split at taken
    · simp [← Option.some.inj taken, Cluster.set]
    · cases taken
  have now := serving.now
  refine ⟨⟨solo, allocation, rfl, rfl⟩, ?_, ?_⟩
  · rw [Cluster.inUse, ledger]
    exact now
  · rw [Cluster.committed, ledger]
    exact now

theorem Serving.rolledBack
    {dropOrder drainOrder : List UInt32}
    (serving : Serving frame cluster contents saved)
    (prudent : cluster.Prudent (0, .rollback dropOrder drainOrder))
    (taken : cluster.step (0, .rollback dropOrder drainOrder) = some next) :
    Serving frame next saved saved := by
  obtain ⟨solo, allocation⟩ := serving.alone.step prudent taken
  have ledger : next.ledgers 0 = (cluster.ledgers 0).rollback := by
    simp only [Cluster.step] at taken
    split at taken
    · simp [← Option.some.inj taken, Cluster.set]
    · cases taken
  have before := serving.before
  refine ⟨⟨solo, allocation, rfl, rfl⟩, ?_, ?_⟩
  · rw [Cluster.inUse, ledger]
    exact before
  · rw [Cluster.committed, ledger]
    exact before

end Steps

/-! ## Runs -/

inductive Event where
  | created (root : UInt32)
  | called (root : UInt32) (call : Call) (reply : Reply)
  | committed
  | rolledBack

/-- The maps after an event, and those of the last commit, if maps allow the event. -/
def enter (books : Contents × Contents) : Event → Option (Contents × Contents)
  | .created root =>
      if (books.1 root).isNone then
        some (Function.update books.1 root (some fun _ => none), books.2)
      else none
  | .called root call reply => do
      let map ← books.1 root
      if reply = (answer map call).1 then
        some (Function.update books.1 root (some (answer map call).2), books.2)
      else none
  | .committed => some (books.1, books.1)
  | .rolledBack => some (books.2, books.2)

def account (opening : Contents) (events : List Event) : Option (Contents × Contents) :=
  events.foldlM enter (opening, opening)

/-- The events of a run of the pager, whose caller names trees that are open. -/
inductive Serves (opening : Contents) (start : Cluster) : List Event → Cluster → Prop where
  | nil : Serves opening start [] start
  | created
      {events : List Event}
      {cluster next : Cluster}
      {tree : BTree}
      (earlier : Serves opening start events cluster)
      (made : create Cluster.pages cluster = .ok (tree, next)) :
      Serves opening start (events ++ [.created tree.root]) next
  | called
      {events : List Event}
      {cluster next : Cluster}
      {root : UInt32}
      {call : Call}
      {reply : Reply}
      (earlier : Serves opening start events cluster)
      (opened : ∀ books, account opening events = some books → books.1 root ≠ none)
      (performed : perform Cluster.pages ⟨root⟩ call cluster = .ok (reply, next)) :
      Serves opening start (events ++ [.called root call reply]) next
  | committed
      {events : List Event}
      {cluster next : Cluster}
      {order : List UInt32}
      (earlier : Serves opening start events cluster)
      (prudent : cluster.Prudent (0, .commit order))
      (taken : cluster.step (0, .commit order) = some next)
      (succeeded : ((cluster.view 0).commit order).1 = .ok ()) :
      Serves opening start (events ++ [.committed]) next
  | rolledBack
      {events : List Event}
      {cluster next : Cluster}
      {dropOrder drainOrder : List UInt32}
      (earlier : Serves opening start events cluster)
      (prudent : cluster.Prudent (0, .rollback dropOrder drainOrder))
      (taken : cluster.step (0, .rollback dropOrder drainOrder) = some next) :
      Serves opening start (events ++ [.rolledBack]) next

section Runs

variable {frame : UInt32 → Option Page} {start final : Cluster} {opening : Contents}
  {events : List Event}

theorem Serves.serving
    (serves : Serves opening start events final)
    (standing : Serving frame start opening opening) :
    ∃ contents saved, account opening events = some (contents, saved) ∧
      Serving frame final contents saved := by
  have entered : ∀ {events event books}, account opening events = some books →
      account opening (events ++ [event]) = enter books event := by
    intro events event books known
    have known : events.foldlM enter (opening, opening) = some books := known
    simp [account, List.foldlM_append, known]
  induction serves with
  | nil => exact ⟨opening, opening, rfl, standing⟩
  | created earlier made inductionHypothesis =>
      obtain ⟨contents, saved, known, serving⟩ := inductionHypothesis
      obtain ⟨absent, servingNext⟩ := serving.created.result made
      exact ⟨_, saved, by rw [entered known]; simp [enter, absent], servingNext⟩
  | called earlier opened performed inductionHypothesis =>
      obtain ⟨contents, saved, known, serving⟩ := inductionHypothesis
      obtain ⟨map, here⟩ := Option.ne_none_iff_exists'.mp (opened _ known)
      dsimp only at here
      obtain ⟨rfl, servingNext⟩ := (serving.called here _).result performed
      exact ⟨_, saved, by rw [entered known]; simp [enter, here], servingNext⟩
  | committed earlier prudent taken succeeded inductionHypothesis =>
      obtain ⟨contents, saved, known, serving⟩ := inductionHypothesis
      exact ⟨contents, contents, entered known, serving.committed prudent taken succeeded⟩
  | rolledBack earlier prudent taken inductionHypothesis =>
      obtain ⟨contents, saved, known, serving⟩ := inductionHypothesis
      exact ⟨saved, saved, entered known, serving.rolledBack prudent taken⟩

section Results

variable (frame opening events final)

/--
The events are those of maps, the next call answers as their maps do, and after a crash the
recovered file has the maps of the last commit.
-/
def Refines : Prop :=
  ∃ contents saved, account opening events = some (contents, saved) ∧
    (∀ root map, contents root = some map → ∀ call,
      Ensures Halt.isForeign (perform Cluster.pages ⟨root⟩ call) final fun reply _ =>
        reply = (answer map call).1) ∧
    ∀ logs, (∀ log ∈ logs, final.Leaves log) →
      Planted frame (final.committed 0) (recoverLogs logs final.shared.file).pages saved

/--
Every page in use is of one tree, once, or of the frame; and the free list and the pages kept
for reuse have none of them.
-/
def Conserves : Prop :=
  ∃ contents saved held, account opening events = some (contents, saved) ∧
    Divides (· ∈ final.inUse 0) held frame (final.ledgers 0).image ∧
    Grows contents (final.ledgers 0).image held ∧
    (final.free ++ (final.pending 0 ++ held)).Nodup

end Results

section Opened

variable {disk : Disk} {capacity : Nat} {state : PagerState} {owned : Nat → Finset UInt32}
  {freeList : List (UInt32 × UInt32)}
  (opened : Pager.openWithPool disk (.withCapacity capacity) = .ok state)
  (layout : Cluster.Layout state owned freeList)
  (planted : Planted frame (owned 0) state.file.pages opening)
  (serves : Serves opening (.opened state owned freeList) events final)

include opened layout planted serves

theorem Serves.known :
    ∃ contents saved, account opening events = some (contents, saved) ∧
      Serving frame final contents saved := by
  have opening := PagerState.openWithPool_spec opened
  exact serves.serving ⟨⟨Cluster.soloImages_opened opening owned freeList,
    ⟨_, layout.allocation opening⟩, rfl, rfl⟩, planted, planted⟩

/--
In every run of one pager its trees answer as maps do, a commit saves the maps and a rollback
takes them back, unless the pager stops a call.
-/
theorem trees_refine_maps : Refines frame final opening events := by
  obtain ⟨contents, saved, known, serving⟩ := Serves.known opened layout planted serves
  refine ⟨contents, saved, known, fun root map opened call => ?_, fun logs left => ?_⟩
  · exact (serving.called opened call).mono fun _ _ outcome => outcome.1
  · obtain ⟨content, allocation⟩ := serving.alone.allocation
    exact serving.before.congr fun no member => allocation.intact.between 0 no member logs left

/-- In every run of one pager its trees lose and share no page. -/
theorem trees_conserve_pages : Conserves frame final opening events := by
  obtain ⟨contents, saved, known, serving⟩ := Serves.known opened layout planted serves
  obtain ⟨held, divides, grows⟩ := serving.now
  obtain ⟨content, allocation⟩ := serving.alone.allocation
  have divided := allocation.divided
  have used : ∀ no ∈ held, no ∈ final.inUse 0 := fun no member => (divides.used no).mpr (.inl member)
  refine ⟨contents, saved, held, known, divides, grows, ?_⟩
  refine List.nodup_append'.mpr ⟨divided.free_nodup, List.nodup_append'.mpr
    ⟨divided.pending_nodup, divides.nodup, ?_⟩, ?_⟩
  · exact fun no reused member => divided.pending_used reused (used no member)
  · intro no free either
    rcases List.mem_append.mp either with reused | member
    · exact divided.free_pending free reused
    · exact divided.free_used free (used no member)

end Opened

/-- The cluster after an operation that answered so. -/
def after
    {Result : Type}
    [DecidableEq Result]
    (ask : Ask Cluster Halt Result)
    (result : Result)
    (cluster : Cluster) : Option Cluster :=
  match ask cluster with
  | .ok (answer, next) => if answer = result then some next else none
  | .error _ => none

theorem answered_of_after
    {Result : Type}
    [DecidableEq Result]
    {ask : Ask Cluster Halt Result}
    {result : Result}
    {cluster next : Cluster}
    (found : after ask result cluster = some next) :
    ask cluster = .ok (result, next) := by
  unfold after at found
  split at found <;> grind

def insertLong (key fill : UInt8) : Call := .insert [key] (List.replicate 2100 fill)

def insertWide (key : UInt8) : Call := .insert [key] (List.replicate 1900 0)

/--
A value in an overflow page is committed, another rolled back; then three cells that
share no leaf split the root, and the first value goes with its overflow page.
-/
def grownAndPruned : List Event :=
  [.created 1, .called 1 (insertLong 9 1) (.inserted (.ok ())), .committed,
    .called 1 (insertLong 8 2) (.inserted (.ok ())), .rolledBack,
    .called 1 (insertWide 1) (.inserted (.ok ())), .called 1 (insertWide 2) (.inserted (.ok ())),
    .called 1 (insertWide 3) (.inserted (.ok ())), .called 1 (.delete [9]) (.deleted true)]

theorem prudent_commit
    {cluster : Cluster}
    {order : List UInt32}
    (logEmpty : (cluster.pagers 0).wal.appended.isEmpty = true) :
    cluster.Prudent (0, .commit order) where
  solo := rfl
  owns := by rintro _ ⟨⟩
  room := by rintro ⟨⟩
  undone := by rintro _ _ ⟨⟩
  logged := by
    intro _ _ no image _ _ _ inLog
    have notInLog : cluster.spilled 0 no = none := by
      rw [Cluster.spilled, Pager.spilled, List.isEmpty_iff.mp logEmpty]
      rfl
    rw [notInLog] at inLog
    cases inLog

theorem prudent_rollback
    {cluster : Cluster}
    {dropOrder drainOrder : List UInt32}
    (undone :
      (∀ no ∈ cluster.written 0, no ∉ cluster.free) ∧
        ∀ no ∈ cluster.allocated 0, no ∉ cluster.committed 0) :
    cluster.Prudent (0, .rollback dropOrder drainOrder) where
  solo := rfl
  owns := by rintro _ ⟨⟩
  room := by rintro ⟨⟩
  undone _ _ _ := undone
  logged := by rintro _ ⟨⟩

/-- The caller of a run names the one tree that the run has created. -/
theorem account_opens
    {root : UInt32}
    {opening : Contents}
    (events : List Event)
    (listed : (account opening events).all (fun books => (books.1 root).isSome) = true)
    (books : Contents × Contents)
    (found : account opening events = some books) :
    books.1 root ≠ none := by
  rw [found, Option.all_some] at listed
  exact Option.isSome_iff_ne_none.mp listed

theorem served_grownAndPruned :
    ∃ state final, Pager.openWithPool { file := .empty, logs := [] } (.withCapacity 4) = .ok state ∧
      Cluster.Layout state (fun _ => ∅) [] ∧
      Planted (fun _ => none) ∅ state.file.pages (fun _ => none) ∧
      Serves (fun _ => none) (.opened state (fun _ => ∅) []) grownAndPruned final := by
  let calling (call : Call) (reply : Reply) := after (perform Cluster.pages ⟨1⟩ call) reply
  have evaluated :
      ((createdWith 4).bind fun state =>
        (after (create Cluster.pages) ⟨1⟩ (.opened state (fun _ => ∅) [])).bind fun created =>
          (calling (insertLong 9 1) (.inserted (.ok ())) created).bind fun long =>
            (long.step (0, .commit [1, 2])).bind fun committed =>
              (calling (insertLong 8 2) (.inserted (.ok ())) committed).bind fun more =>
                (more.step (0, .rollback [1, 3] [3])).bind fun back =>
                  (calling (insertWide 1) (.inserted (.ok ())) back).bind fun first =>
                    (calling (insertWide 2) (.inserted (.ok ())) first).bind fun second =>
                      (calling (insertWide 3) (.inserted (.ok ())) second).bind fun third =>
                        (calling (.delete [9]) (.deleted true) third).map fun _ =>
                          decide ((state.metadata.pageCount = 1 ∧ state.metadata.freelistHead = 0) ∧
                            ((long.pagers 0).wal.appended.isEmpty ∧
                              ((long.view 0).commit [1, 2]).1 = .ok ()) ∧
                            (Disjoint (more.written 0) more.free.toFinset ∧
                              Disjoint (more.allocated 0) (more.committed 0)))) = some true := by
    decide +kernel
  obtain ⟨state, opened, evaluated⟩ := Option.bind_eq_some_iff.mp evaluated
  obtain ⟨created, one, evaluated⟩ := Option.bind_eq_some_iff.mp evaluated
  obtain ⟨long, two, evaluated⟩ := Option.bind_eq_some_iff.mp evaluated
  obtain ⟨committed, three, evaluated⟩ := Option.bind_eq_some_iff.mp evaluated
  obtain ⟨more, four, evaluated⟩ := Option.bind_eq_some_iff.mp evaluated
  obtain ⟨back, five, evaluated⟩ := Option.bind_eq_some_iff.mp evaluated
  obtain ⟨first, six, evaluated⟩ := Option.bind_eq_some_iff.mp evaluated
  obtain ⟨second, seven, evaluated⟩ := Option.bind_eq_some_iff.mp evaluated
  obtain ⟨third, eight, evaluated⟩ := Option.bind_eq_some_iff.mp evaluated
  obtain ⟨final, nine, values⟩ := Option.map_eq_some_iff.mp evaluated
  obtain ⟨⟨count, head⟩, ⟨logEmpty, succeeded⟩, unlisted, fresh⟩ := of_decide_eq_true values
  have undone : (∀ no ∈ more.written 0, no ∉ more.free) ∧
      ∀ no ∈ more.allocated 0, no ∉ more.committed 0 :=
    ⟨fun _ staged listed => Finset.disjoint_left.mp unlisted staged (List.mem_toFinset.mpr listed),
      fun _ taken kept => Finset.disjoint_left.mp fresh taken kept⟩
  have unplanted : Planted (fun _ => none) ∅ state.file.pages fun _ => none :=
    ⟨[], ⟨List.nodup_nil, by simp, by simp, by simp⟩, [], fun _ => [], List.nodup_nil, .refl _,
      by simp, by simp⟩
  have opening : Serves (fun _ => none) (.opened state (fun _ => ∅) []) [.created 1] created :=
    Serves.nil.created (answered_of_after one)
  have inserted := (opening.called (account_opens [.created 1] rfl) (answered_of_after two)).committed
    (prudent_commit logEmpty) three succeeded
  have rolledBack := (inserted.called (account_opens _ rfl) (answered_of_after four)).rolledBack
    (prudent_rollback undone) five
  have split := ((rolledBack.called (account_opens _ rfl) (answered_of_after six)).called
    (account_opens _ rfl) (answered_of_after seven)).called (account_opens _ rfl) (answered_of_after eight)
  exact ⟨state, final, openWithPool_of_createdWith opened, Cluster.layout_created count head,
    unplanted, split.called (account_opens _ rfl) (answered_of_after nine)⟩

/-- The maps allow it, and the recovered file still has the first value. -/
theorem grown_and_pruned :
    ∃ start final,
      Serves (fun _ => none) start grownAndPruned final ∧
        Refines (fun _ => none) final (fun _ => none) grownAndPruned := by
  obtain ⟨state, final, opened, layout, planted, serves⟩ := served_grownAndPruned
  exact ⟨_, final, serves, trees_refine_maps opened layout planted serves⟩

/-- The pages of the same tree. -/
theorem pruned_pages_conserved :
    ∃ start final,
      Serves (fun _ => none) start grownAndPruned final ∧
        Conserves (fun _ => none) final (fun _ => none) grownAndPruned := by
  obtain ⟨state, final, opened, layout, planted, serves⟩ := served_grownAndPruned
  exact ⟨_, final, serves, trees_conserve_pages opened layout planted serves⟩

end Runs

end BTree

end PrehniteDB
