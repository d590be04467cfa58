import Mathlib.Data.List.Nodup
import Mathlib.Data.List.Perm.Basic
import Mathlib.Logic.Function.Basic

/-!
# Asking a store of pages

A program asks a store for its pages, writes them, and takes and gives back whole
pages.  What the program holds is a list of pages; the pages of others are a frame
whose images it leaves alone.
-/

namespace PagedStore

/-- A computation that asks the store, and may stop with a fault. -/
abbrev Ask (State Fault Result : Type) := StateT State (Except Fault) Result

variable {State Fault Number Image Result Next : Type}

/-! ## What a computation ensures -/

/-- How a computation may end: with a foreign fault, or with what satisfies `post`. -/
def Meets
    (foreign : Fault → Prop)
    (post : Result → State → Prop) : Except Fault (Result × State) → Prop
  | .ok outcome => post outcome.1 outcome.2
  | .error fault => foreign fault

/-- It stops with a foreign fault only; else its result and the next state satisfy `post`. -/
def Ensures
    (foreign : Fault → Prop)
    (ask : Ask State Fault Result)
    (state : State)
    (post : Result → State → Prop) : Prop :=
  Meets foreign post (ask state)

section Ensures

variable {foreign : Fault → Prop} {ask : Ask State Fault Result} {state : State}
  {post middle : Result → State → Prop}

theorem Ensures.bind
    {later : Result → Ask State Fault Next}
    {final : Next → State → Prop}
    (first : Ensures foreign ask state middle)
    (second : ∀ result next, middle result next → Ensures foreign (later result) next final) :
    Ensures foreign (ask >>= later) state final := by
  change Meets foreign final (ask state >>= fun outcome => later outcome.1 outcome.2)
  unfold Ensures at first
  cases outcome : ask state with
  | error fault =>
      rw [outcome] at first
      exact first
  | ok answer =>
      rw [outcome] at first
      exact second answer.1 answer.2 first

theorem Ensures.mono
    (ensures : Ensures foreign ask state middle)
    (weaker : ∀ result next, middle result next → post result next) :
    Ensures foreign ask state post := by
  unfold Ensures at ensures ⊢
  cases outcome : ask state with
  | error fault =>
      rw [outcome] at ensures
      exact ensures
  | ok answer =>
      rw [outcome] at ensures
      exact weaker answer.1 answer.2 ensures

theorem Ensures.result
    {result : Result}
    {next : State}
    (ensures : Ensures foreign ask state post)
    (answered : ask state = .ok (result, next)) :
    post result next := by
  unfold Ensures at ensures
  rw [answered] at ensures
  exact ensures

end Ensures

/-! ## Stores -/

structure Calls (State Fault Number Image : Type) where
  readPage : Number → Ask State Fault Image
  writePage : Number → Image → Ask State Fault Unit
  allocPage : Ask State Fault Number
  freePage : Number → Ask State Fault Unit

/-- What a store is relied on for: its pages keep their images while they are used. -/
structure Laws
    (foreign : Fault → Prop)
    (calls : Calls State Fault Number Image)
    (null : Number) where
  Valid : State → Prop
  image : State → Number → Image
  Used : State → Number → Prop
  used_ne : ∀ {state no}, Valid state → Used state no → no ≠ null
  read :
    ∀ {state no}, Valid state → Used state no →
      Ensures foreign (calls.readPage no) state fun page next =>
        page = image state no ∧ Valid next ∧ (∀ other, Used next other ↔ Used state other) ∧
          ∀ other, Used state other → image next other = image state other
  write :
    ∀ {state no} page, Valid state → Used state no →
      Ensures foreign (calls.writePage no page) state fun _ next =>
        Valid next ∧ (∀ other, Used next other ↔ Used state other) ∧ image next no = page ∧
          ∀ other, Used state other → other ≠ no → image next other = image state other
  alloc :
    ∀ {state}, Valid state →
      Ensures foreign calls.allocPage state fun no next =>
        Valid next ∧ ¬Used state no ∧ (∀ other, Used next other ↔ other = no ∨ Used state other) ∧
          ∀ other, Used state other → image next other = image state other
  free :
    ∀ {state no}, Valid state → Used state no →
      Ensures foreign (calls.freePage no) state fun _ next =>
        Valid next ∧ (∀ other, Used next other ↔ Used state other ∧ other ≠ no) ∧
          ∀ other, Used next other → image next other = image state other

/-! ## Pages held -/

variable {foreign : Fault → Prop} {calls : Calls State Fault Number Image} {null : Number}

/-- The used pages are those held and those of the frame, whose images stay. -/
structure Divides
    (used : Number → Prop)
    (held : List Number)
    (frame : Number → Option Image)
    (images : Number → Image) : Prop where
  nodup : held.Nodup
  used : ∀ no, used no ↔ no ∈ held ∨ frame no ≠ none
  apart : ∀ no ∈ held, frame no = none
  framed : ∀ no page, frame no = some page → images no = page

/-- A store with the pages so divided. -/
structure Owns
    (laws : Laws foreign calls null)
    (state : State)
    (held : List Number)
    (frame : Number → Option Image)
    (images : Number → Image) : Prop extends Divides (laws.Used state) held frame images where
  valid : laws.Valid state
  carries : ∀ no, laws.Used state no → laws.image state no = images no

/-- Pages are held whose images satisfy the condition. -/
def Holds
    (laws : Laws foreign calls null)
    (frame : Number → Option Image)
    (post : (Number → Image) → List Number → Prop)
    (state : State) : Prop :=
  ∃ images held, Owns laws state held frame images ∧ post images held

/-- These pages have the images they had. -/
def Same (list : List Number) (images later : Number → Image) : Prop :=
  ∀ no ∈ list, later no = images no

theorem Same.left
    {list others : List Number}
    {images later : Number → Image}
    (same : Same (list ++ others) images later) :
    Same list images later :=
  (List.forall_mem_append.mp same).1

theorem Same.right
    {list others : List Number}
    {images later : Number → Image}
    (same : Same (list ++ others) images later) :
    Same others images later :=
  (List.forall_mem_append.mp same).2

/-- These pages join the frame. -/
def joined
    [DecidableEq Number]
    (outer : List Number)
    (images : Number → Image)
    (frame : Number → Option Image) : Number → Option Image :=
  fun no => if no ∈ outer then some (images no) else frame no

section Owns

variable {laws : Laws foreign calls null} {state next : State} {held other : List Number}
  {frame : Number → Option Image} {images later : Number → Image} {no : Number}

theorem Holds.mono
    {post weaker : (Number → Image) → List Number → Prop}
    (holds : Holds laws frame post state)
    (implies : ∀ images held, post images held → weaker images held) :
    Holds laws frame weaker state := by
  obtain ⟨images, held, owns, known⟩ := holds
  exact ⟨images, held, owns, implies images held known⟩

theorem Owns.usedHeld
    (owns : Owns laws state held frame images)
    (member : no ∈ held) :
    laws.Used state no :=
  (owns.used no).mpr (.inl member)

theorem Owns.ne_null
    (owns : Owns laws state held frame images)
    (member : no ∈ held) :
    no ≠ null :=
  laws.used_ne owns.valid (owns.usedHeld member)

theorem Owns.perm
    (owns : Owns laws state held frame images)
    (same : held.Perm other) :
    Owns laws state other frame images where
  valid := owns.valid
  nodup := same.nodup_iff.mp owns.nodup
  used := fun no => (owns.used no).trans (or_congr_left same.mem_iff)
  apart := fun no member => owns.apart no (same.mem_iff.mpr member)
  carries := owns.carries
  framed := owns.framed

/-! ### The calls on pages held -/

theorem Owns.readPage
    (owns : Owns laws state held frame images)
    (member : no ∈ held) :
    Ensures foreign (calls.readPage no) state fun page next =>
      page = images no ∧ Owns laws next held frame images := by
  refine (laws.read owns.valid (owns.usedHeld member)).mono ?_
  rintro page next ⟨rfl, valid, used, same⟩
  refine ⟨owns.carries no (owns.usedHeld member), ⟨owns.nodup,
    fun other => (used other).trans (owns.used other), owns.apart, owns.framed⟩, valid,
    fun other now => ?_⟩
  rw [same other ((used other).mp now), owns.carries other ((used other).mp now)]

theorem Owns.writePage
    [DecidableEq Number]
    (owns : Owns laws state (no :: held) frame images)
    (page : Image) :
    Ensures foreign (calls.writePage no page) state fun _ next =>
      ∃ later, Owns laws next (no :: held) frame later ∧ later no = page ∧
        Same held images later := by
  refine (laws.write page owns.valid (owns.usedHeld List.mem_cons_self)).mono ?_
  rintro _ next ⟨valid, used, here, elsewhere⟩
  refine ⟨Function.update images no page, ⟨⟨owns.nodup,
    fun other => (used other).trans (owns.used other), owns.apart, fun other image known => ?_⟩,
    valid, fun other now => ?_⟩, Function.update_self .., fun other member => ?_⟩
  · have different : other ≠ no := by
      rintro rfl
      rw [owns.apart other List.mem_cons_self] at known
      cases known
    rw [Function.update_of_ne different]
    exact owns.framed other image known
  · by_cases same : other = no
    · rw [same, here, Function.update_self]
    · have before := (used other).mp now
      rw [Function.update_of_ne same, elsewhere other before same, owns.carries other before]
  · apply Function.update_of_ne
    rintro rfl
    exact (List.nodup_cons.mp owns.nodup).1 member

theorem Owns.allocPage
    [DecidableEq Number]
    (owns : Owns laws state held frame images) :
    Ensures foreign calls.allocPage state fun no next =>
      ∃ later, Owns laws next (no :: held) frame later ∧ Same held images later := by
  refine (laws.alloc owns.valid).mono ?_
  rintro no next ⟨valid, fresh, used, same⟩
  rw [owns.used no, not_or, ne_eq, not_not] at fresh
  have unchanged : ∀ other, other ≠ no →
      Function.update images no (laws.image next no) other = images other :=
    fun other different => Function.update_of_ne different ..
  refine ⟨Function.update images no (laws.image next no), ⟨⟨
    List.nodup_cons.mpr ⟨fresh.1, owns.nodup⟩, fun other => ?_,
    List.forall_mem_cons.mpr ⟨fresh.2, owns.apart⟩, fun other page known => ?_⟩, valid,
    fun other now => ?_⟩, fun other member => unchanged other ?_⟩
  · rw [used, owns.used, List.mem_cons, or_assoc]
  · rw [unchanged other]
    · exact owns.framed other page known
    · rintro rfl
      rw [fresh.2] at known
      cases known
  · by_cases here : other = no
    · rw [here, Function.update_self]
    · have before := ((used other).mp now).resolve_left here
      rw [unchanged other here, same other before, owns.carries other before]
  · rintro rfl
    exact fresh.1 member

theorem Owns.freePage
    (owns : Owns laws state (no :: held) frame images) :
    Ensures foreign (calls.freePage no) state fun _ next =>
      Owns laws next held frame images := by
  refine (laws.free owns.valid (owns.usedHeld List.mem_cons_self)).mono ?_
  rintro _ next ⟨valid, used, same⟩
  obtain ⟨absent, nodup⟩ := List.nodup_cons.mp owns.nodup
  refine ⟨⟨nodup, fun other => ?_, fun other inside =>
    owns.apart other (List.mem_cons_of_mem _ inside), owns.framed⟩, valid, fun other now => ?_⟩
  · have here := owns.apart no List.mem_cons_self
    rw [used, owns.used, List.mem_cons]
    by_cases equal : other = no
    · subst equal
      simp [absent, here]
    · simp [equal]
  · rw [same other now, owns.carries other ((used other).mp now).1]

end Owns

/-! ## The frame rule -/

section Framing

variable [DecidableEq Number] {laws : Laws foreign calls null} {state next : State}
  {held inner outer : List Number} {frame : Number → Option Image}
  {images later : Number → Image} {ask : Ask State Fault Result}

theorem Owns.focus
    (owns : Owns laws state (inner ++ outer) frame images) :
    Owns laws state inner (joined outer images frame) images where
  valid := owns.valid
  nodup := owns.nodup.of_append_left
  used := fun no => by
    rw [owns.used no, List.mem_append, joined]
    split <;> simp [*]
  apart := fun no member => by
    rw [joined, if_neg (List.disjoint_of_nodup_append owns.nodup member)]
    exact owns.apart no (List.mem_append_left _ member)
  carries := owns.carries
  framed := fun no page => by
    unfold joined
    split
    · exact Option.some.inj
    · exact owns.framed no page

/-- What was focused out is held again. -/
theorem Owns.unfocus
    (owns : Owns laws next inner (joined outer images frame) later)
    (before : Owns laws state (held ++ outer) frame images) :
    Owns laws next (inner ++ outer) frame later := by
  have joins : ∀ no, joined outer images frame no ≠ none ↔ no ∈ outer ∨ frame no ≠ none := by
    intro no
    unfold joined
    split <;> simp [*]
  have apart : ∀ no ∈ outer, frame no = none := fun no member =>
    before.apart no (List.mem_append_right _ member)
  refine ⟨⟨?_, fun no => ?_, fun no member => ?_, fun no page known => ?_⟩, owns.valid, owns.carries⟩
  · refine List.nodup_append'.mpr ⟨owns.nodup, before.nodup.of_append_right, ?_⟩
    intro no inside outside
    exact (joins no).mpr (.inl outside) (owns.apart no inside)
  · rw [owns.used, joins, List.mem_append, or_assoc]
  · rcases List.mem_append.mp member with inside | outside
    · by_contra framed
      exact (joins no).mpr (.inr framed) (owns.apart no inside)
    · exact apart no outside
  · have outside : no ∉ outer := by
      intro member
      rw [apart no member] at known
      cases known
    exact owns.framed no page (by rw [joined, if_neg outside, known])

/-- What a computation does with some of the pages, the others left alone. -/
theorem Ensures.framed
    {post : Result → (Number → Image) → List Number → Prop}
    (owns : Owns laws state (inner ++ outer) frame images)
    (ensures : ∀ frame, Owns laws state inner frame images →
      Ensures foreign ask state fun result => Holds laws frame (post result)) :
    Ensures foreign ask state fun result => Holds laws frame fun later held =>
      ∃ inner, held = inner ++ outer ∧ Same outer images later ∧ post result later inner := by
  refine (ensures _ owns.focus).mono ?_
  rintro result next ⟨later, inner, ownsInner, holds⟩
  exact ⟨later, inner ++ outer, ownsInner.unfocus owns, inner, rfl,
    fun no member => ownsInner.framed no _ (if_pos member), holds⟩

end Framing

end PagedStore
