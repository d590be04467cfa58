import PrehniteDB.PreparedPlans

namespace PrehniteDB.PreparedPlans

open TransitionRun

/-!
# A plan taken from the cache is the plan of the live catalog

Every root is in one place: an entry of the catalog, the dropped ones, or the
hands of one DDL statement, which holds what it has created until its put and
what it has removed from then on.
-/

variable {Query Plan : Type}

/-! ## The places of a root -/

theorem lists_update
    {catalog : Catalog}
    {table : String}
    {after : Option Schema}
    {root : Root} :
    Catalog.Lists (Function.update catalog table after) root ↔
      root ∈ rootsOf after ∨
        ∃ other, other ≠ table ∧ root ∈ rootsOf (catalog other) := by
  constructor
  · rintro ⟨other, member⟩
    by_cases same : other = table
    · subst same
      rw [Function.update_self] at member
      exact Or.inl member
    · rw [Function.update_of_ne same] at member
      exact Or.inr ⟨other, same, member⟩
  · intro place
    rcases place with written | ⟨other, different, member⟩
    · exact ⟨table, by rwa [Function.update_self]⟩
    · exact ⟨other, by rwa [Function.update_of_ne different]⟩

/-- Every root is in at most one place and has a serial that was given out. -/
structure Placed
    (catalog : Catalog)
    (dropped : List Root)
    (held : Nat → List Root)
    (serials : Nat) : Prop where
  bounded : ∀ {root}, catalog.Lists root → root.serial < serials
  apart :
    ∀ {left right root},
      root ∈ rootsOf (catalog left) →
      root ∈ rootsOf (catalog right) →
      left = right
  droppedBounded : ∀ root ∈ dropped, root.serial < serials
  live : ∀ {root}, catalog.Lists root → root ∉ dropped
  heldBounded : ∀ {who}, ∀ root ∈ held who, root.serial < serials
  unlisted : ∀ {who}, ∀ root ∈ held who, ¬ catalog.Lists root
  undropped : ∀ {who}, ∀ root ∈ held who, root ∉ dropped
  exclusive : ∀ {who other root}, root ∈ held who → root ∈ held other → who = other

namespace Placed

variable
  {catalog : Catalog}
  {dropped : List Root}
  {held : Nat → List Root}
  {serials : Nat}
  {connection : Nat}

theorem held_update
    {now : List Root}
    {who : Nat}
    {root : Root}
    (member : root ∈ Function.update held connection now who) :
    (who = connection ∧ root ∈ now) ∨ (who ≠ connection ∧ root ∈ held who) := by
  by_cases same : who = connection
  · subst same
    rw [Function.update_self] at member
    exact Or.inl ⟨rfl, member⟩
  · rw [Function.update_of_ne same] at member
    exact Or.inr ⟨same, member⟩

/-- Letting go of what it holds moves nothing else. -/
theorem release (connection : Nat) (placed : Placed catalog dropped held serials) :
    Placed catalog dropped (Function.update held connection []) serials where
  bounded := placed.bounded
  apart := placed.apart
  droppedBounded := placed.droppedBounded
  live := placed.live
  heldBounded root member := by
    rcases held_update member with ⟨_, none⟩ | ⟨_, other⟩
    · cases none
    · exact placed.heldBounded root other
  unlisted root member := by
    rcases held_update member with ⟨_, none⟩ | ⟨_, other⟩
    · cases none
    · exact placed.unlisted root other
  undropped root member := by
    rcases held_update member with ⟨_, none⟩ | ⟨_, other⟩
    · cases none
    · exact placed.undropped root other
  exclusive := by
    intro who other root left right
    rcases held_update left with ⟨_, none⟩ | ⟨_, first⟩
    · cases none
    · rcases held_update right with ⟨_, none⟩ | ⟨_, second⟩
      · cases none
      · exact placed.exclusive first second

/-- Roots under serials not yet given out are nowhere else. -/
theorem claim
    {created : List Root}
    {later : Nat}
    (connection : Nat)
    (placed : Placed catalog dropped held serials)
    (grown : serials ≤ later)
    (fresh : ∀ root ∈ created, serials ≤ root.serial ∧ root.serial < later) :
    Placed catalog dropped (Function.update held connection created) later where
  bounded listed := Nat.lt_of_lt_of_le (placed.bounded listed) grown
  apart := placed.apart
  droppedBounded root member := Nat.lt_of_lt_of_le (placed.droppedBounded root member) grown
  live := placed.live
  heldBounded root member := by
    rcases held_update member with ⟨_, own⟩ | ⟨_, other⟩
    · exact (fresh root own).2
    · exact Nat.lt_of_lt_of_le (placed.heldBounded root other) grown
  unlisted root member listed := by
    rcases held_update member with ⟨_, own⟩ | ⟨_, other⟩
    · exact absurd (placed.bounded listed) (Nat.not_lt.mpr (fresh root own).1)
    · exact placed.unlisted root other listed
  undropped root member gone := by
    rcases held_update member with ⟨_, own⟩ | ⟨_, other⟩
    · exact absurd (placed.droppedBounded root gone) (Nat.not_lt.mpr (fresh root own).1)
    · exact placed.undropped root other gone
  exclusive := by
    intro who other root left right
    rcases held_update left with ⟨here, own⟩ | ⟨_, first⟩ <;>
      rcases held_update right with ⟨there, same⟩ | ⟨_, second⟩
    · exact here.trans there.symm
    · exact absurd (placed.heldBounded root second) (Nat.not_lt.mpr (fresh root own).1)
    · exact absurd (placed.heldBounded root first) (Nat.not_lt.mpr (fresh root same).1)
    · exact placed.exclusive first second

/--
One entry is exchanged for another: what is new in it was held, and what is
held from now on was in it and no longer is.
-/
theorem exchange
    (connection : Nat)
    (table : String)
    (after : Option Schema)
    (now : List Root)
    (placed : Placed catalog dropped held serials)
    (incoming :
      ∀ root ∈ rootsOf after,
        root ∈ rootsOf (catalog table) ∨ root ∈ held connection)
    (outgoing :
      ∀ root ∈ now,
        root ∈ rootsOf (catalog table) ∧ root ∉ rootsOf after) :
    Placed
      (Function.update catalog table after)
      dropped
      (Function.update held connection now)
      serials := by
  have known :
      ∀ {root}, Catalog.Lists (Function.update catalog table after) root →
        catalog.Lists root ∨ root ∈ held connection := by
    intro root listed
    rcases lists_update.mp listed with written | ⟨other, _, member⟩
    · exact (incoming root written).imp_left fun member => ⟨table, member⟩
    · exact Or.inl ⟨other, member⟩
  have elsewhere :
      ∀ {other root}, other ≠ table → root ∈ rootsOf (catalog other) →
        root ∉ rootsOf after := by
    intro other root different member written
    rcases incoming root written with before | mine
    · exact different (placed.apart member before)
    · exact placed.unlisted root mine ⟨other, member⟩
  have taken : ∀ {who root}, who ≠ connection → root ∈ held who →
      ¬ Catalog.Lists (Function.update catalog table after) root := by
    intro who root different member listed
    rcases known listed with before | mine
    · exact placed.unlisted root member before
    · exact different (placed.exclusive member mine)
  refine {
    bounded := ?_
    apart := ?_
    droppedBounded := placed.droppedBounded
    live := ?_
    heldBounded := ?_
    unlisted := ?_
    undropped := ?_
    exclusive := ?_ }
  · intro root listed
    rcases known listed with before | mine
    · exact placed.bounded before
    · exact placed.heldBounded root mine
  · intro left right root first second
    by_cases atLeft : left = table <;> by_cases atRight : right = table
    · exact atLeft.trans atRight.symm
    · rw [atLeft, Function.update_self] at first
      rw [Function.update_of_ne atRight] at second
      exact absurd first (elsewhere atRight second)
    · rw [atRight, Function.update_self] at second
      rw [Function.update_of_ne atLeft] at first
      exact absurd second (elsewhere atLeft first)
    · rw [Function.update_of_ne atLeft] at first
      rw [Function.update_of_ne atRight] at second
      exact placed.apart first second
  · intro root listed
    rcases known listed with before | mine
    · exact placed.live before
    · exact placed.undropped root mine
  · intro who root member
    rcases held_update member with ⟨_, own⟩ | ⟨_, other⟩
    · exact placed.bounded ⟨table, (outgoing root own).1⟩
    · exact placed.heldBounded root other
  · intro who root member listed
    rcases held_update member with ⟨_, own⟩ | ⟨different, other⟩
    · rcases lists_update.mp listed with written | ⟨name, different, kept⟩
      · exact (outgoing root own).2 written
      · exact different (placed.apart kept (outgoing root own).1)
    · exact taken different other listed
  · intro who root member
    rcases held_update member with ⟨_, own⟩ | ⟨_, other⟩
    · exact placed.live ⟨table, (outgoing root own).1⟩
    · exact placed.undropped root other
  · intro who other root left right
    rcases held_update left with ⟨here, own⟩ | ⟨_, first⟩ <;>
      rcases held_update right with ⟨there, same⟩ | ⟨_, second⟩
    · exact here.trans there.symm
    · exact absurd ⟨table, (outgoing root own).1⟩ (placed.unlisted root second)
    · exact absurd ⟨table, (outgoing root same).1⟩ (placed.unlisted root first)
    · exact placed.exclusive first second

theorem drop (connection : Nat) (placed : Placed catalog dropped held serials) :
    Placed
      catalog
      (dropped ++ held connection)
      (Function.update held connection [])
      serials where
  bounded := placed.bounded
  apart := placed.apart
  droppedBounded root member := by
    rcases List.mem_append.mp member with before | own
    · exact placed.droppedBounded root before
    · exact placed.heldBounded root own
  live listed member := by
    rcases List.mem_append.mp member with before | own
    · exact placed.live listed before
    · exact placed.unlisted _ own listed
  heldBounded := (placed.release connection).heldBounded
  unlisted := (placed.release connection).unlisted
  undropped root member gone := by
    rcases held_update member with ⟨_, none⟩ | ⟨different, other⟩
    · cases none
    · rcases List.mem_append.mp gone with before | own
      · exact placed.undropped root other before
      · exact different (placed.exclusive other own)
  exclusive := (placed.release connection).exclusive

end Placed

/-! ## What a DDL statement creates -/

theorem builtIndexes_serial
    (indexes : List (String × List Nat))
    (pages : List UInt32)
    (serial : Nat) :
    ∀ index ∈ builtIndexes pages serial indexes,
      serial ≤ index.root.serial ∧ index.root.serial < serial + indexes.length := by
  induction indexes generalizing pages serial with
  | nil =>
      intro index member
      cases member
  | cons declared rest inductionHypothesis =>
      intro index member
      rcases List.mem_cons.mp member with first | later
      · subst first
        exact ⟨Nat.le_refl _, by simp⟩
      · have inner := inductionHypothesis pages.tail (serial + 1) index later
        rw [List.length_cons]
        omega

theorem Ddl.change_created
    {catalog : Catalog}
    {pages : List UInt32}
    {serial : Nat}
    {ddl : Ddl}
    {change : Change}
    (changed : ddl.change catalog pages serial = some change) :
    ∀ root ∈ change.created,
      serial ≤ root.serial ∧ root.serial < serial + ddl.allocates := by
  intro root created
  obtain ⟨after, new⟩ := List.mem_filter.mp created
  have absent : root ∉ rootsOf change.found := by simpa using new
  cases ddl with
  | createTable name indexes =>
      cases free : catalog name with
      | some schema => simp [Ddl.change, free] at changed
      | none =>
          simp only [Ddl.change, free, Option.some.injEq] at changed
          subst changed
          rcases List.mem_cons.mp after with table | built
          · subst table
            exact ⟨Nat.le_refl _, by simp [Ddl.allocates]⟩
          · obtain ⟨index, member, rfl⟩ := List.mem_map.mp built
            have inner := builtIndexes_serial indexes pages.tail (serial + 1) index member
            simp only [Ddl.allocates]
            omega
  | dropTable name =>
      obtain ⟨schema, present, rfl⟩ := Option.map_eq_some_iff.mp changed
      cases after
  | analyze table =>
      obtain ⟨schema, present, rfl⟩ := Option.map_eq_some_iff.mp changed
      exact absurd after absent
  | createIndex name table columns =>
      obtain ⟨schema, present, accepted⟩ := Option.bind_eq_some_iff.mp changed
      split at accepted
      · cases accepted
      · cases accepted
        simp only [rootsOf, Schema.roots, Option.map_some, Option.getD_some, List.map_append,
          List.map_cons, List.map_nil, List.mem_cons, List.mem_append, List.not_mem_nil,
          or_false, not_or] at after absent
        rcases after with table | old | built
        · exact absurd table absent.1
        · exact absurd old absent.2
        · subst built
          exact ⟨Nat.le_refl _, Nat.lt_succ_self _⟩
  | finalizeIndex name table =>
      obtain ⟨schema, present, accepted⟩ := Option.bind_eq_some_iff.mp changed
      split at accepted
      · cases accepted
        refine absurd ?_ absent
        rcases List.mem_cons.mp after with table | flipped
        · exact List.mem_cons.mpr (Or.inl table)
        · obtain ⟨_, flippedMember, rfl⟩ := List.mem_map.mp flipped
          obtain ⟨index, member, rfl⟩ := List.mem_map.mp flippedMember
          refine List.mem_cons.mpr (Or.inr (List.mem_map.mpr ⟨index, member, ?_⟩))
          split <;> rfl
      · cases accepted
  | dropIndex name table =>
      obtain ⟨schema, present, accepted⟩ := Option.bind_eq_some_iff.mp changed
      split at accepted
      · cases accepted
        refine absurd ?_ absent
        rcases List.mem_cons.mp after with table | left
        · exact List.mem_cons.mpr (Or.inl table)
        · obtain ⟨index, member, rfl⟩ := List.mem_map.mp left
          exact List.mem_cons.mpr
            (Or.inr (List.mem_map.mpr ⟨index, (List.mem_filter.mp member).1, rfl⟩))
      · cases accepted

/-! ## The invariant -/

/-- The roots a connection holds at one point of its statement. -/
def Activity.held : Activity Query Plan → List Root
  | .altering .read change => change.created
  | .altering _ change => change.removed
  | _ => []

namespace State

/-- The roots each connection holds. -/
def held (state : State Query Plan) : Nat → List Root :=
  fun connection => (state.activity connection).held

theorem setActivity_held
    (state : State Query Plan)
    (connection : Nat)
    (activity : Activity Query Plan)
    {roots : List Root}
    (holds : activity.held = roots) :
    (state.setActivity connection activity).held =
      Function.update state.held connection roots := by
  subst holds
  funext who
  by_cases same : who = connection
  · subst same
    simp [held, setActivity]
  · simp [held, setActivity, Function.update_of_ne same]

/-- Unchanged holdings, written as an update. -/
theorem held_idle
    {state : State Query Plan}
    {connection : Nat}
    {activity : Activity Query Plan}
    (current : state.activity connection = activity) :
    Function.update state.held connection activity.held = state.held := by
  rw [← current]
  exact Function.update_eq_self connection state.held

/-- The plans in the cache and in the making, and the places of the roots. -/
structure Sound (planner : Planner Query Plan) (state : State Query Plan) : Prop where
  placed : Placed state.catalog state.dropped state.held state.serials
  cached :
    ∀ {connection handle entry},
      state.preparedStatements connection handle = some entry →
      entry.schemaVersion ≤ state.schemaVersion ∧
        (entry.schemaVersion = state.schemaVersion →
          state.Unbumped ∨ planner.plan entry.query state.catalog = .ok entry.plan)
  planned :
    ∀ {connection query plan read},
      state.activity connection = .preparing query plan read →
      planner.plan query read = .ok plan

variable
  {planner : Planner Query Plan}
  {state next : State Query Plan}
  {connection handle : Nat}

theorem setActivity_self (activity : Activity Query Plan) :
    (state.setActivity connection activity).activity connection = activity :=
  Function.update_self ..

theorem setActivity_other
    {other : Nat}
    {activity : Activity Query Plan}
    (different : other ≠ connection) :
    (state.setActivity connection activity).activity other = state.activity other :=
  Function.update_of_ne different ..

/-- A step of a connection that has put nothing leaves the bumps that are due. -/
theorem Unbumped.setActivity
    {activity : Activity Query Plan}
    (due : state.Unbumped)
    (written : ∀ change, state.activity connection ≠ .altering .put change) :
    (state.setActivity connection activity).Unbumped := by
  obtain ⟨other, change, putting⟩ := due
  have different : other ≠ connection := fun same => written change (same ▸ putting)
  exact ⟨other, change, by rw [setActivity_other different, putting]⟩

theorem Sound.planned_setActivity
    (sound : Sound planner state)
    {activity : Activity Query Plan}
    (own :
      ∀ query plan read,
        activity = .preparing query plan read →
        planner.plan query read = .ok plan)
    {other : Nat}
    {query : Query}
    {plan : Plan}
    {read : Catalog}
    (preparing :
      (state.setActivity connection activity).activity other = .preparing query plan read) :
    planner.plan query read = .ok plan := by
  by_cases same : other = connection
  · subst same
    rw [setActivity_self] at preparing
    exact own query plan read preparing
  · rw [setActivity_other same] at preparing
    exact sound.planned preparing

/-- A step that changes only what one connection is doing, holding nothing. -/
theorem Sound.setActivity
    (sound : Sound planner state)
    (activity : Activity Query Plan)
    (written : ∀ change, state.activity connection ≠ .altering .put change)
    (free : activity.held = [])
    (own :
      ∀ query plan read,
        activity = .preparing query plan read →
        planner.plan query read = .ok plan) :
    Sound planner (state.setActivity connection activity) where
  placed := by
    rw [setActivity_held state connection activity free]
    exact sound.placed.release connection
  cached stored := by
    obtain ⟨bound, fresh⟩ := sound.cached stored
    exact ⟨bound, fun live => (fresh live).imp_left (·.setActivity written)⟩
  planned := sound.planned_setActivity own

/-- A cache entry that is as good as the others may be stored. -/
theorem Sound.setPrepared
    (sound : Sound planner state)
    {stored : Option (CachedPlan Query Plan)}
    (good :
      ∀ entry,
        stored = some entry →
        entry.schemaVersion = state.schemaVersion ∧
          (state.Unbumped ∨ planner.plan entry.query state.catalog = .ok entry.plan)) :
    Sound planner (state.setPrepared connection handle stored) where
  placed := sound.placed
  cached := by
    intro who which entry present
    by_cases same : who = connection
    · subst same
      simp only [State.setPrepared, Function.update_self] at present
      by_cases equal : which = handle
      · subst equal
        rw [Function.update_self] at present
        obtain ⟨version, current⟩ := good entry present
        exact ⟨Nat.le_of_eq version, fun _ => current⟩
      · rw [Function.update_of_ne equal] at present
        exact sound.cached present
    · simp only [State.setPrepared, Function.update_of_ne same] at present
      exact sound.cached present
  planned := sound.planned

/-! ## One lemma for each kind of step -/

theorem Sound.plan
    (sound : Sound planner state)
    (resting : state.activity connection = .idle)
    (query : Query) :
    Sound planner (state.plan planner connection query) := by
  unfold State.plan
  cases outcome : planner.plan query state.catalog with
  | error reason => exact sound
  | ok planned =>
      refine sound.setActivity _ (fun change => by rw [resting]; nofun) rfl ?_
      intro query' plan' read' same
      cases same
      exact outcome

theorem Sound.sample
    (sound : Sound planner state)
    {query : Query}
    {planned : Plan}
    {read : Catalog}
    (preparing : state.activity connection = .preparing query planned read)
    (ordered : read = state.catalog ∨ state.Unbumped) :
    Sound planner (state.sample connection query planned) := by
  have unwritten : ∀ change, state.activity connection ≠ .altering .put change := by
    intro change
    rw [preparing]
    nofun
  simp only [State.sample]
  split
  · have stored : Sound planner (state.setPrepared connection (state.nextHandle connection)
        (some {
          schemaVersion := state.schemaVersion
          plan := planned
          query := query })) := by
      refine sound.setPrepared ?_
      intro entry same
      cases same
      refine ⟨rfl, ?_⟩
      rcases ordered with current | due
      · exact Or.inr (current ▸ sound.planned preparing)
      · exact Or.inl due
    have finished := stored.setActivity .idle unwritten rfl nofun
    exact ⟨finished.placed, finished.cached, finished.planned⟩
  · exact sound.setActivity .idle unwritten rfl nofun

theorem Sound.take
    (sound : Sound planner state) :
    Sound planner (state.takeFreshPreparedPlan connection handle).2 := by
  unfold takeFreshPreparedPlan
  cases state.preparedStatements connection handle with
  | none => exact sound
  | some cached =>
      by_cases stale : cached.schemaVersion ≠ state.schemaVersion
      · simp only [if_pos stale]
        exact sound.setPrepared nofun
      · simp only [if_neg stale]
        exact sound

theorem Sound.read
    (sound : Sound planner state)
    {ddl : Ddl}
    {pages : List UInt32}
    {change : Change}
    (resting : state.activity connection = .idle)
    (changed : ddl.change state.catalog pages state.serials = some change) :
    Sound planner
      { state.setActivity connection (.altering .read change) with
        serials := state.serials + ddl.allocates } where
  placed := by
    have claimed :=
      sound.placed.claim connection
        (Nat.le_add_right _ _) (Ddl.change_created changed)
    exact (setActivity_held state connection (.altering .read change) rfl) ▸ claimed
  cached stored := by
    obtain ⟨bound, fresh⟩ := sound.cached stored
    refine ⟨bound, fun live => (fresh live).imp_left ?_⟩
    intro due
    exact due.setActivity fun change => by rw [resting]; nofun
  planned := sound.planned_setActivity (by nofun)

/-- The entry that is written is the one the statement has read. -/
theorem Sound.put
    (sound : Sound planner state)
    {change : Change}
    (reading : state.activity connection = .altering .read change)
    (ordered : state.catalog change.table = change.found) :
    Sound planner (state.put connection change) where
  placed := by
    have holding : state.held connection = change.created := by
      rw [held, reading]
      rfl
    have exchanged :=
      sound.placed.exchange connection change.table change.after change.removed
        (by
          intro root written
          rw [ordered, holding]
          by_cases old : root ∈ rootsOf change.found
          · exact Or.inl old
          · exact Or.inr (List.mem_filter.mpr ⟨written, by simpa using old⟩))
        (by
          intro root gone
          rw [ordered]
          obtain ⟨old, absent⟩ := List.mem_filter.mp gone
          exact ⟨old, by simpa using absent⟩)
    exact (setActivity_held state connection (.altering .put change) rfl) ▸ exchanged
  cached stored :=
    ⟨(sound.cached stored).1,
      fun _ => Or.inl ⟨connection, change, setActivity_self _⟩⟩
  planned := sound.planned_setActivity (by nofun)

theorem Sound.bump
    (sound : Sound planner state)
    {change : Change}
    (putting : state.activity connection = .altering .put change) :
    Sound planner
      (state.bumpSchemaVersion.setActivity connection (.altering .bumped change)) where
  placed := by
    have same : Function.update state.held connection change.removed = state.held :=
      held_idle putting
    have held : (state.bumpSchemaVersion.setActivity connection
        (.altering .bumped change)).held = state.held :=
      (setActivity_held state.bumpSchemaVersion connection _ rfl).trans same
    rw [held]
    exact sound.placed
  cached stored := by
    obtain ⟨bound, _⟩ := sound.cached stored
    refine ⟨Nat.le_succ_of_le bound, fun live => ?_⟩
    exact absurd bound (live ▸ Nat.not_succ_le_self state.schemaVersion)
  planned preparing := sound.planned_setActivity (by nofun) preparing

theorem Sound.commit
    (sound : Sound planner state)
    {change : Change}
    (bumped : state.activity connection = .altering .bumped change) :
    Sound planner
      { state.setActivity connection .idle with
        dropped := state.dropped ++ change.removed } := by
  have resting :=
    sound.setActivity .idle
      (fun change => by rw [bumped]; nofun) rfl nofun
  refine ⟨?_, resting.cached, resting.planned⟩
  have holding : state.held connection = change.removed := by
    rw [held, bumped]
    rfl
  have settled := sound.placed.drop connection
  rw [holding] at settled
  exact (setActivity_held state connection .idle rfl) ▸ settled

/-- A failed statement takes back its own change, and no plan relies on it. -/
theorem Sound.fail
    (sound : Sound planner state)
    {change : Change}
    {restored : Catalog}
    (bumped : state.activity connection = .altering .bumped change)
    (current : state.catalog change.table = change.after)
    (back : restored = Function.update state.catalog change.table change.found)
    (unused : state.HoldsFresh → state.Unbumped) :
    Sound planner { state.setActivity connection .idle with catalog := restored } where
  placed := by
    have holding : state.held connection = change.removed := by
      rw [held, bumped]
      rfl
    have exchanged :=
      sound.placed.exchange connection change.table change.found []
        (by
          intro root old
          rw [current, holding]
          by_cases kept : root ∈ rootsOf change.after
          · exact Or.inl kept
          · exact Or.inr (List.mem_filter.mpr ⟨old, by simpa using kept⟩))
        nofun
    rw [← back] at exchanged
    exact (setActivity_held state connection .idle rfl) ▸ exchanged
  cached {who which entry} stored := by
    obtain ⟨bound, _⟩ := sound.cached stored
    refine ⟨bound, fun live => Or.inl ?_⟩
    have due : state.Unbumped := unused ⟨who, which, entry, stored, live⟩
    exact due.setActivity fun change => by rw [bumped]; nofun
  planned := sound.planned_setActivity (by nofun)

/-- Every step keeps the plans of the current version valid. -/
theorem Sound.step
    (sound : Sound planner state)
    {action : Action Query}
    (ordered : state.Ordered action)
    (stepped : state.step planner action = some next) :
    Sound planner next := by
  cases action with
  | plan connection query =>
      cases doing : state.activity connection with
      | idle =>
          simp only [State.step, doing, Option.some.injEq] at stepped
          exact stepped ▸ sound.plan doing query
      | _ => simp [State.step, doing] at stepped
  | sample connection =>
      cases doing : state.activity connection with
      | preparing query planned read =>
          simp only [State.step, doing, Option.some.injEq] at stepped
          exact stepped ▸ sound.sample doing (ordered query planned read doing)
      | _ => simp [State.step, doing] at stepped
  | takeFreshPreparedPlan connection handle =>
      cases doing : state.activity connection with
      | idle =>
          simp only [State.step, doing, Option.some.injEq] at stepped
          exact stepped ▸ sound.take
      | _ => simp [State.step, doing] at stepped
  | deallocate connection handle =>
      cases doing : state.activity connection with
      | idle =>
          simp only [State.step, doing, Option.some.injEq] at stepped
          exact stepped ▸ sound.setPrepared nofun
      | _ => simp [State.step, doing] at stepped
  | read connection ddl pages =>
      cases doing : state.activity connection with
      | idle =>
          simp only [State.step, doing] at stepped
          obtain ⟨change, changed, rfl⟩ := Option.map_eq_some_iff.mp stepped
          exact sound.read doing changed
      | _ => simp [State.step, doing] at stepped
  | put connection =>
      cases doing : state.activity connection with
      | altering stage change =>
          cases stage with
          | read =>
              simp only [State.step, doing, Option.some.injEq] at stepped
              exact stepped ▸ sound.put doing (ordered change doing)
          | _ => simp [State.step, doing] at stepped
      | _ => simp [State.step, doing] at stepped
  | bump connection =>
      cases doing : state.activity connection with
      | altering stage change =>
          cases stage with
          | put =>
              simp only [State.step, doing, Option.some.injEq] at stepped
              exact stepped ▸ sound.bump doing
          | _ => simp [State.step, doing] at stepped
      | _ => simp [State.step, doing] at stepped
  | commit connection =>
      cases doing : state.activity connection with
      | altering stage change =>
          cases stage with
          | bumped =>
              simp only [State.step, doing, Option.some.injEq] at stepped
              exact stepped ▸ sound.commit doing
          | _ => simp [State.step, doing] at stepped
      | _ => simp [State.step, doing] at stepped
  | abandon connection =>
      cases doing : state.activity connection with
      | altering stage change =>
          cases stage with
          | read =>
              simp only [State.step, doing, Option.some.injEq] at stepped
              refine stepped ▸ sound.setActivity .idle ?_ rfl nofun
              intro change
              rw [doing]
              nofun
          | _ => simp [State.step, doing] at stepped
      | _ => simp [State.step, doing] at stepped
  | fail connection restored =>
      cases doing : state.activity connection with
      | altering stage change =>
          cases stage with
          | bumped =>
              simp only [State.step, doing, Option.some.injEq] at stepped
              obtain ⟨current, back, unused⟩ := ordered change doing
              exact stepped ▸ sound.fail doing current back unused
          | _ => simp [State.step, doing] at stepped
      | _ => simp [State.step, doing] at stepped

theorem sound_opened (planner : Planner Query Plan) (stored : Stored) :
    Sound planner (opened Query Plan stored) where
  placed := {
    bounded := stored.bounded
    apart := stored.apart
    droppedBounded := nofun
    live := fun _ => List.not_mem_nil
    heldBounded := nofun
    unlisted := nofun
    undropped := nofun
    exclusive := nofun }
  cached := nofun
  planned := nofun

/-- The invariant along a run. -/
theorem sound_of_run
    {planner : Planner Query Plan}
    {stored : Stored}
    {actions : List (Action Query)}
    {final : State Query Plan}
    (run : Run (step planner) Ordered (opened Query Plan stored) actions final) :
    Sound planner final :=
  run.invariant (Sound planner)
    (fun sound ordered stepped => sound.step ordered stepped)
    (sound_opened planner stored)

/-! ## The plan that is taken -/

theorem takeFreshPreparedPlan_cached
    {planned : Plan}
    (taken : (state.takeFreshPreparedPlan connection handle).1 = .ok planned) :
    ∃ entry,
      state.preparedStatements connection handle = some entry ∧
        entry.schemaVersion = state.schemaVersion ∧
        entry.plan = planned := by
  unfold takeFreshPreparedPlan at taken
  cases stored : state.preparedStatements connection handle with
  | none =>
      rw [stored] at taken
      cases taken
  | some entry =>
      rw [stored] at taken
      by_cases stale : entry.schemaVersion ≠ state.schemaVersion
      · simp only [if_pos stale] at taken
        cases taken
      · simp only [if_neg stale] at taken
        cases taken
        exact ⟨entry, rfl, not_not.mp stale, rfl⟩

end State

open State

/--
While the steps come in order, a plan is handed out only when the planner would
make the same one of the catalog as it is, and it names no dropped root.
-/
theorem taken_plan_valid
    {planner : Planner Query Plan}
    {stored : Stored}
    {actions : List (Action Query)}
    {final : State Query Plan}
    (run : Run (step planner) Ordered (opened Query Plan stored) actions final)
    {connection handle : Nat}
    {planned : Plan}
    (ordered : final.Ordered (.takeFreshPreparedPlan connection handle))
    (taken : (final.takeFreshPreparedPlan connection handle).1 = .ok planned) :
    ∃ entry,
      final.preparedStatements connection handle = some entry ∧
        entry.plan = planned ∧
        Valid planner final entry.query planned := by
  have sound := sound_of_run run
  obtain ⟨entry, cached, live, rfl⟩ := takeFreshPreparedPlan_cached taken
  refine ⟨entry, cached, rfl, ?_⟩
  have current : planner.plan entry.query final.catalog = .ok entry.plan :=
    ((sound.cached cached).2 live).resolve_left ordered
  exact ⟨current, fun root named => sound.placed.live (planner.drawn current root named)⟩

/-! ## A point query on one column -/

/-- The access path of a point query: the first finished index that leads with the column. -/
def choosePoint (schema : Schema) (column : Nat) : Option Index :=
  schema.indexes.find? fun index =>
    !index.isBuilding && decide (index.columns.head? = some column)

/-- The planner on point queries: a table, and the column compared with a literal. -/
def pointPlanner : Planner (String × Nat) (Option Root) where
  plan query catalog :=
    .ok ((catalog query.1).bind fun schema =>
      (choosePoint schema query.2).map Index.root)
  roots planned := planned.toList
  drawn := by
    intro query catalog planned made root named
    cases made
    obtain ⟨schema, present, chosen⟩ :=
      Option.bind_eq_some_iff.mp (Option.mem_toList.mp named)
    obtain ⟨index, found, rfl⟩ := Option.map_eq_some_iff.mp chosen
    refine ⟨query.1, ?_⟩
    rw [rootsOf, present]
    exact List.mem_cons.mpr
      (Or.inr (List.mem_map.mpr ⟨index, List.mem_of_find?_eq_some found, rfl⟩))

def byAge : Index where
  name := "by_age"
  columns := [1]
  root := { page := 4, serial := 1 }
  isBuilding := false

def users : Schema where
  root := { page := 2, serial := 0 }
  indexes := [byAge]

/-- One table with one index. -/
def usersCatalog : Catalog :=
  Function.update (fun _ => none) "users" (some users)

theorem mem_usersCatalog
    {table : String}
    {root : Root}
    (member : root ∈ rootsOf (usersCatalog table)) :
    table = "users" ∧ root ∈ users.roots := by
  by_cases same : table = "users"
  · subst same
    rw [usersCatalog, Function.update_self] at member
    exact ⟨rfl, member⟩
  · rw [usersCatalog, Function.update_of_ne same] at member
    cases member

def usersFile : Stored where
  catalog := usersCatalog
  serials := 2
  bounded := by
    rintro root ⟨table, member⟩
    have bound : ∀ root ∈ users.roots, root.serial < 2 := by decide
    exact bound root (mem_usersCatalog member).2
  apart left right :=
    (mem_usersCatalog left).1.trans (mem_usersCatalog right).1.symm

/-- No bump is due when every connection rests. -/
theorem State.not_unbumped
    {state : State Query Plan}
    (resting : ∀ connection, state.activity connection = .idle) :
    ¬ state.Unbumped := by
  rintro ⟨connection, change, putting⟩
  exact nomatch (resting connection).symm.trans putting

/-- A peer creates another index, then the query is prepared and taken. -/
theorem taken_plan_valid_users :
    ∃ final : State (String × Nat) (Option Root),
      ∃ entry,
        final.preparedStatements 0 1 = some entry ∧
          entry.plan = some byAge.root ∧
          Valid pointPlanner final entry.query (some byAge.root) := by
  have reached :
      ∃ final,
        Run (step pointPlanner) Ordered (opened _ _ usersFile)
            [.read 1 (.createIndex "by_city" "users" [2]) [7],
              .put 1, .bump 1, .commit 1,
              .plan 0 ("users", 1), .sample 0] final ∧
          (final.takeFreshPreparedPlan 0 1).1 = .ok (some byAge.root) ∧
          ∀ connection, final.activity connection = .idle := by
    refine ⟨_, .cons trivial rfl (.cons ?_ rfl (.cons trivial rfl (.cons trivial rfl
      (.cons trivial rfl (.cons ?_ rfl (.nil _)))))), rfl, ?_⟩
    · rintro change ⟨⟩
      rfl
    · rintro query planned read ⟨⟩
      exact Or.inl rfl
    · intro connection
      match connection with
      | 0 => rfl
      | 1 => rfl
      | _ + 2 => rfl
  obtain ⟨final, run, taken, resting⟩ := reached
  exact ⟨final, taken_plan_valid run (not_unbumped resting) taken⟩

/--
An index is dropped between the two halves of `prepare`: the plan is stamped
with the new version and names the dropped index.
-/
theorem dropped_index_planned :
    ∃ actions : List (Action (String × Nat)),
      ∃ final : State (String × Nat) (Option Root),
        Run (step pointPlanner) unrestricted (opened _ _ usersFile) actions final ∧
          (final.takeFreshPreparedPlan 0 1).1 = .ok (some byAge.root) ∧
          byAge.root ∈ final.dropped ∧
          pointPlanner.plan ("users", 1) final.catalog = .ok none := by
  have replayed :
      ∃ final,
        replay (step pointPlanner) unrestricted (opened _ _ usersFile)
            [.plan 0 ("users", 1),
              .read 1 (.dropIndex "by_age" "users") [],
              .put 1, .bump 1, .commit 1,
              .sample 0] = some final ∧
          (final.takeFreshPreparedPlan 0 1).1 = .ok (some byAge.root) ∧
          byAge.root ∈ final.dropped ∧
          pointPlanner.plan ("users", 1) final.catalog = .ok none :=
    ⟨_, rfl, rfl, by decide, rfl⟩
  obtain ⟨final, run, facts⟩ := replayed
  exact ⟨_, final, run_of_replay run, facts⟩

end PrehniteDB.PreparedPlans
