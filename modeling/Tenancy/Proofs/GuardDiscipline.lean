import Mathlib.Data.List.Basic
import Tenancy.Context.Flow

/-!
# Tenancy - Guards dropped in any order

Within one flow, code begins scopes and drops their guards.  Nothing makes it drop
them in reverse order, and a guard may also be kept for good.  Dropping a guard
cuts the frames back to the depth it remembers, so a guard that is dropped late
cuts whatever was pushed at its index since.  Each frame above the inherited ones
nevertheless has a guard that still holds it.

Main definitions:

- `GuardedFlow`, `GuardedFlow.perform`: a flow with the guards begun in it, and what
  code does with them.
- `GuardedFlow.StandsOn`: frames that no guard from a number on can cut.
- `GuardedFlow.Holds`: the guard that has pushed the frame at an index.

Main results:

- Theorem `GuardedFlow.StandsOn.begin`, `GuardedFlow.StandsOn.drop`: such frames stay.
- Theorem `GuardedFlow.IsSound.performAll`: after all moves each frame above the
  inherited ones is held.
- Theorem `GuardedFlow.IsOpen.performAll`: a scope stays open while only younger guards
  are dropped.
- Theorem `guards_in_any_order`: the discipline of one flow.
-/

namespace Tenancy

/-- A guard, the context it was begun with, and whether it is still held. -/
structure Handle where
  guard : Guard
  context : Context
  held : Bool
deriving DecidableEq

namespace Handle

/-- What beginning a scope at a depth hands out. -/
def opened (depth : Nat) (context : Context) : Handle :=
  { guard := ⟨some depth⟩, context := context, held := true }

/-- The handle after its guard was dropped. -/
def released (handle : Handle) : Handle :=
  { handle with held := false }

end Handle

/-- A flow and the guards begun in it, the oldest first. -/
structure GuardedFlow where
  surroundings : Surroundings
  handles : List Handle
deriving DecidableEq

namespace GuardedFlow

/-- What code does in a flow; guards are numbered in the order they are begun in. -/
inductive Move
  | begin (context : Context)
  | drop (number : Nat)
deriving DecidableEq

/-- A flow with its inherited frames, before any guard was begun. -/
def initial (base : Flow) : GuardedFlow :=
  { surroundings := some base, handles := [] }

/-- Begin a scope or drop a guard; a guard that is not held any more cannot be dropped. -/
def perform (state : GuardedFlow) : Move → GuardedFlow
  | .begin context =>
    let (surroundings, guard) := state.surroundings.begin context
    { surroundings := surroundings
      handles := state.handles ++ [{ guard := guard, context := context, held := true }] }
  | .drop number =>
    match state.handles[number]? with
    | some handle =>
      if handle.held then
        { surroundings := state.surroundings.drop handle.guard
          handles := state.handles.set number handle.released }
      else state
    | none => state

/-- Moves one after the other. -/
def performAll (state : GuardedFlow) (moves : List Move) : GuardedFlow :=
  moves.foldl perform state

/-! ## What a move does -/

section Moves

variable {state : GuardedFlow} {flow : Flow}

/-- Beginning a scope in a flow pushes a frame and hands out a guard of its depth. -/
theorem perform_begin (current : state.surroundings = some flow) (context : Context) :
    state.perform (.begin context) =
      { surroundings := some (flow ++ [context])
        handles := state.handles ++ [Handle.opened flow.length context] } := by
  simp only [perform, current, Surroundings.begin, Handle.opened]

/-- Dropping a held guard cuts the flow to its depth. -/
theorem perform_drop (current : state.surroundings = some flow) {number depth : Nat}
    {handle : Handle} (hhandle : state.handles[number]? = some handle) (held : handle.held = true)
    (hdepth : handle.guard.restoreDepth = some depth) :
    state.perform (.drop number) =
      { surroundings := some (flow.take depth)
        handles := state.handles.set number handle.released } := by
  simp only [perform, hhandle, if_pos held, current, Surroundings.drop, hdepth, Option.map_some]

/-- A guard that is not held, or that there is not, is not dropped. -/
theorem perform_drop_not_held {number : Nat}
    (hnot : ∀ handle, state.handles[number]? = some handle → handle.held = false) :
    state.perform (.drop number) = state := by
  unfold perform
  dsimp only
  split
  · rename_i handle hhandle
    rw [if_neg (by simp [hnot handle hhandle])]
  · rfl

end Moves

/-! ## Handles after a move -/

section Handles

variable {handles : List Handle}

/-- A handle after a scope was begun is an old one or the new one. -/
theorem getElem?_concat_cases {new found : Handle} {number : Nat}
    (hfound : (handles ++ [new])[number]? = some found) :
    handles[number]? = some found ∨ number = handles.length ∧ found = new := by
  by_cases hlt : number < handles.length
  · rw [List.getElem?_append_left hlt] at hfound
    exact .inl hfound
  · have hbound := (List.getElem?_eq_some_iff.1 hfound).1
    rw [List.length_append, List.length_singleton] at hbound
    have hnumber : number = handles.length := by omega
    rw [hnumber, List.getElem?_concat_length] at hfound
    exact .inr ⟨hnumber, (Option.some.inj hfound).symm⟩

/-- Dropping a guard leaves the depths of all guards as they were. -/
theorem restoreDepth_of_getElem?_set {number : Nat} {handle : Handle}
    (hhandle : handles[number]? = some handle) {other : Nat} {found : Handle}
    (hfound : (handles.set number handle.released)[other]? = some found) :
    ∃ before, handles[other]? = some before ∧
      found.guard.restoreDepth = before.guard.restoreDepth := by
  by_cases hsame : number = other
  · subst hsame
    rw [List.getElem?_set_self (List.getElem?_eq_some_iff.1 hhandle).1] at hfound
    exact ⟨handle, hhandle, by rw [← Option.some.inj hfound]; rfl⟩
  · rw [List.getElem?_set_ne hsame] at hfound
    exact ⟨found, hfound, rfl⟩

end Handles

/-! ## Frames that no guard cuts -/

/-- The flow goes on from the frames `floor`, and no guard from the number `first` on cuts them. -/
structure StandsOn (floor : Flow) (first : Nat) (flow : Flow) (state : GuardedFlow) : Prop where
  current : state.surroundings = some flow
  inherited : floor <+: flow
  depths : ∀ number handle, first ≤ number → state.handles[number]? = some handle →
    ∃ depth, handle.guard.restoreDepth = some depth ∧ floor.length ≤ depth

namespace StandsOn

variable {floor flow : Flow} {first : Nat} {state : GuardedFlow}

/-- Beginning a scope pushes above the floor. -/
theorem begin (stands : StandsOn floor first flow state) (context : Context) :
    StandsOn floor first (flow ++ [context]) (state.perform (.begin context)) := by
  rw [perform_begin stands.current]
  refine ⟨rfl, stands.inherited.trans (List.prefix_append _ _), ?_⟩
  intro number handle hfirst hhandle
  rcases getElem?_concat_cases hhandle with hold | ⟨-, rfl⟩
  · exact stands.depths number handle hfirst hold
  · exact ⟨flow.length, rfl, stands.inherited.length_le⟩

/-- Dropping a guard from the number on cuts above the floor. -/
theorem drop (stands : StandsOn floor first flow state) {number depth : Nat} {handle : Handle}
    (hfirst : first ≤ number) (hhandle : state.handles[number]? = some handle)
    (held : handle.held = true) (hdepth : handle.guard.restoreDepth = some depth) :
    StandsOn floor first (flow.take depth) (state.perform (.drop number)) := by
  obtain ⟨known, hknown, hfloor⟩ := stands.depths number handle hfirst hhandle
  have hsame : known = depth := Option.some.inj (hknown.symm.trans hdepth)
  rw [perform_drop stands.current hhandle held hdepth]
  refine ⟨rfl, List.prefix_take_iff.2 ⟨stands.inherited, hsame ▸ hfloor⟩, ?_⟩
  intro other found hother hfound
  obtain ⟨before, hbefore, hdepths⟩ := restoreDepth_of_getElem?_set hhandle hfound
  rw [hdepths]
  exact stands.depths other before hother hbefore

end StandsOn

/-- What beginning a scope and dropping a held guard keep of a flow, all moves keep; `may` says
which guards they drop. -/
theorem exists_performAll (may : Nat → Prop) {keeps : Flow → GuardedFlow → Prop}
    (hbegin : ∀ flow state context, keeps flow state →
      ∃ after, keeps after (state.perform (.begin context)))
    (hdrop : ∀ flow state number handle, keeps flow state → may number →
      state.handles[number]? = some handle → handle.held = true →
      ∃ after, keeps after (state.perform (.drop number)))
    {flow : Flow} {state : GuardedFlow} (hstart : keeps flow state) (moves : List Move)
    (hmay : ∀ number, .drop number ∈ moves → may number) :
    ∃ after, keeps after (state.performAll moves) := by
  induction moves generalizing flow state with
  | nil => exact ⟨flow, hstart⟩
  | cons move rest ih =>
      have hrest : ∀ number, .drop number ∈ rest → may number :=
        fun number hmem => hmay number (List.mem_cons_of_mem _ hmem)
      cases move with
      | begin context =>
          obtain ⟨next, hnext⟩ := hbegin flow state context hstart
          exact ih hnext hrest
      | drop number =>
          by_cases held : ∃ handle, state.handles[number]? = some handle ∧ handle.held = true
          · obtain ⟨handle, hhandle, held⟩ := held
            have hnumber : may number := hmay number List.mem_cons_self
            obtain ⟨next, hnext⟩ := hdrop flow state number handle hstart hnumber hhandle held
            exact ih hnext hrest
          · have hsame : state.perform (.drop number) = state := by
              refine perform_drop_not_held fun handle hhandle => ?_
              exact Bool.eq_false_iff.2 fun hheld => held ⟨handle, hhandle, hheld⟩
            have hkept : keeps flow (state.perform (.drop number)) := by
              rw [hsame]
              exact hstart
            exact ih hkept hrest

/-! ## Frames that guards hold -/

/-- The guard of a number is held, and has pushed the frame at an index: it was begun at this depth,
and no guard was begun at this depth since. -/
structure Holds (handles : List Handle) (number index : Nat) (frame : Context) : Prop where
  held : handles[number]? = some (.opened index frame)
  last : ∀ later handle, number < later → handles[later]? = some handle →
    handle.guard.restoreDepth ≠ some index

namespace Holds

variable {handles : List Handle} {number index : Nat} {frame : Context}

/-- A guard goes on to hold its frame when another one is begun above. -/
theorem begin (holds : Holds handles number index frame) {depth : Nat} (habove : index < depth)
    (context : Context) : Holds (handles ++ [.opened depth context]) number index frame where
  held := by
    rw [List.getElem?_append_left (List.getElem?_eq_some_iff.1 holds.held).1]
    exact holds.held
  last := by
    intro later handle hlater hhandle
    rcases getElem?_concat_cases hhandle with hold | ⟨-, rfl⟩
    · exact holds.last later handle hlater hold
    · intro hdepth
      have hindex : depth = index := Option.some.inj hdepth
      omega

/-- A new guard holds the new frame. -/
theorem new (handles : List Handle) (depth : Nat) (context : Context) :
    Holds (handles ++ [.opened depth context]) handles.length depth context where
  held := List.getElem?_concat_length
  last := by
    intro later handle hlater hhandle
    have hbound := (List.getElem?_eq_some_iff.1 hhandle).1
    rw [List.length_append, List.length_singleton] at hbound
    omega

/-- A guard goes on to hold its frame when one of another depth is dropped. -/
theorem drop (holds : Holds handles number index frame) {dropped depth : Nat} {handle : Handle}
    (hhandle : handles[dropped]? = some handle)
    (hdepth : handle.guard.restoreDepth = some depth) (hother : index ≠ depth) :
    Holds (handles.set dropped handle.released) number index frame where
  held := by
    have hne : dropped ≠ number := by
      rintro rfl
      rw [holds.held] at hhandle
      rw [← Option.some.inj hhandle] at hdepth
      exact hother (Option.some.inj hdepth)
    rw [List.getElem?_set_ne hne]
    exact holds.held
  last := by
    intro later found hlater hfound
    obtain ⟨before, hbefore, hdepths⟩ := restoreDepth_of_getElem?_set hhandle hfound
    rw [hdepths]
    exact holds.last later before hlater hbefore

end Holds

/-- The inherited frames are there, no guard cuts them, and held guards hold the frames above. -/
structure IsSound (base flow : Flow) (state : GuardedFlow) : Prop where
  stands : StandsOn base 0 flow state
  holders : ∀ index frame, base.length ≤ index → flow[index]? = some frame →
    ∃ number, Holds state.handles number index frame

namespace IsSound

variable {base flow : Flow} {state : GuardedFlow}

/-- A flow in which nothing was begun is sound. -/
theorem initial (base : Flow) : IsSound base base (.initial base) where
  stands := ⟨rfl, List.prefix_rfl, by simp [GuardedFlow.initial]⟩
  holders := by
    intro index frame hbase hframe
    have hlt : index < base.length := (List.getElem?_eq_some_iff.1 hframe).1
    omega

/-- Beginning a scope keeps a flow sound: the new guard holds the new frame. -/
theorem begin (sound : IsSound base flow state) (context : Context) :
    IsSound base (flow ++ [context]) (state.perform (.begin context)) where
  stands := sound.stands.begin context
  holders := by
    intro index frame hbase hframe
    rw [perform_begin sound.stands.current]
    by_cases hlt : index < flow.length
    · rw [List.getElem?_append_left hlt] at hframe
      obtain ⟨number, holds⟩ := sound.holders index frame hbase hframe
      exact ⟨number, holds.begin hlt context⟩
    · have hbound := (List.getElem?_eq_some_iff.1 hframe).1
      rw [List.length_append, List.length_singleton] at hbound
      have hindex : index = flow.length := by omega
      rw [hindex, List.getElem?_concat_length] at hframe
      rw [hindex, ← Option.some.inj hframe]
      exact ⟨state.handles.length, Holds.new state.handles flow.length context⟩

/-- Dropping a guard keeps a flow sound: the frames that are left are below its depth, so it held
none of them. -/
theorem drop (sound : IsSound base flow state) {number : Nat} {handle : Handle}
    (hhandle : state.handles[number]? = some handle) (held : handle.held = true) :
    ∃ after, IsSound base after (state.perform (.drop number)) := by
  obtain ⟨depth, hdepth, -⟩ := sound.stands.depths number handle (Nat.zero_le _) hhandle
  refine ⟨flow.take depth, sound.stands.drop (Nat.zero_le _) hhandle held hdepth, ?_⟩
  intro index frame hbase hframe
  have hlt : index < depth := by
    have hbound := (List.getElem?_eq_some_iff.1 hframe).1
    rw [List.length_take] at hbound
    omega
  rw [List.getElem?_take_of_lt hlt] at hframe
  obtain ⟨holder, holds⟩ := sound.holders index frame hbase hframe
  rw [perform_drop sound.stands.current hhandle held hdepth]
  exact ⟨holder, holds.drop hhandle hdepth (by omega)⟩

/-- After all moves a flow is sound. -/
theorem performAll (base : Flow) (moves : List Move) :
    ∃ flow, IsSound base flow ((GuardedFlow.initial base).performAll moves) :=
  exists_performAll (fun _ => True)
    (fun flow _ context sound => ⟨flow ++ [context], sound.begin context⟩)
    (fun _ _ _ _ sound _ hhandle held => sound.drop hhandle held)
    (initial base) moves fun _ _ => trivial

/-- A sound flow whose guards are all dropped has its inherited frames only. -/
theorem eq_base (sound : IsSound base flow state)
    (dropped : ∀ handle ∈ state.handles, handle.held = false) : flow = base := by
  have hlength : flow.length ≤ base.length := by
    by_contra hlonger
    have hlt : base.length < flow.length := by omega
    have hframe := List.getElem?_eq_getElem hlt
    obtain ⟨number, holds⟩ := sound.holders base.length _ (Nat.le_refl _) hframe
    have hreleased := dropped _ (List.mem_of_getElem? holds.held)
    exact Bool.noConfusion hreleased
  exact (sound.stands.inherited.eq_of_length_le hlength).symm

end IsSound

/-! ## Scopes that are still open -/

/-- The scope of a context, begun on the frames `before` with the guard of a number, is open. -/
structure IsOpen (before : Flow) (context : Context) (number : Nat) (flow : Flow)
    (state : GuardedFlow) : Prop where
  stands : StandsOn (before ++ [context]) (number + 1) flow state
  held : state.handles[number]? = some (.opened before.length context)

namespace IsOpen

variable {before flow : Flow} {context : Context} {number : Nat} {state : GuardedFlow}

/-- A scope is open when it was begun. -/
theorem new (current : state.surroundings = some flow) (context : Context) :
    IsOpen flow context state.handles.length (flow ++ [context])
      (state.perform (.begin context)) := by
  rw [perform_begin current]
  refine ⟨⟨rfl, List.prefix_rfl, ?_⟩, List.getElem?_concat_length⟩
  intro later handle hlater hhandle
  have hbound := (List.getElem?_eq_some_iff.1 hhandle).1
  rw [List.length_append, List.length_singleton] at hbound
  omega

/-- A scope stays open when another one is begun. -/
theorem begin (isOpen : IsOpen before context number flow state) (other : Context) :
    IsOpen before context number (flow ++ [other]) (state.perform (.begin other)) where
  stands := isOpen.stands.begin other
  held := by
    rw [perform_begin isOpen.stands.current,
      List.getElem?_append_left (List.getElem?_eq_some_iff.1 isOpen.held).1]
    exact isOpen.held

/-- A scope stays open when a younger guard is dropped. -/
theorem drop (isOpen : IsOpen before context number flow state) {younger : Nat} {handle : Handle}
    (hyounger : number < younger) (hhandle : state.handles[younger]? = some handle)
    (held : handle.held = true) :
    ∃ after, IsOpen before context number after (state.perform (.drop younger)) := by
  obtain ⟨depth, hdepth, -⟩ := isOpen.stands.depths younger handle hyounger hhandle
  refine ⟨flow.take depth, isOpen.stands.drop hyounger hhandle held hdepth, ?_⟩
  rw [perform_drop isOpen.stands.current hhandle held hdepth, List.getElem?_set_ne (by omega)]
  exact isOpen.held

/-- A scope stays open while only younger guards are dropped. -/
theorem performAll (isOpen : IsOpen before context number flow state) (moves : List Move)
    (younger : ∀ other, .drop other ∈ moves → number < other) :
    ∃ after, IsOpen before context number after (state.performAll moves) :=
  exists_performAll (number < ·)
    (fun flow _ other isOpen => ⟨flow ++ [other], isOpen.begin other⟩)
    (fun _ _ _ _ isOpen hyounger hhandle held => isOpen.drop hyounger hhandle held)
    isOpen moves younger

/-- Dropping the guard of an open scope restores the frames the scope was begun on. -/
theorem surroundings_drop (isOpen : IsOpen before context number flow state) :
    (state.perform (.drop number)).surroundings = some before := by
  rw [perform_drop isOpen.stands.current isOpen.held rfl rfl]
  obtain ⟨above, rfl⟩ := isOpen.stands.inherited
  rw [List.append_assoc]
  exact congrArg some List.take_left

end IsOpen

end GuardedFlow

/-! ## The discipline of a flow -/

/-- Whatever scopes were begun and guards dropped in a flow, in whatever order: its inherited frames
are still there; each frame above them is held by the guard that pushed it, so none is left once all
guards are dropped; and dropping a guard restores the frames it was begun on, if only younger ones
were dropped since. -/
theorem guards_in_any_order (base : Flow) (moves : List GuardedFlow.Move) :
    let state := (GuardedFlow.initial base).performAll moves
    ∃ flow, state.surroundings = some flow ∧
      base <+: flow ∧
      (∀ index frame, base.length ≤ index → flow[index]? = some frame →
        ∃ number, GuardedFlow.Holds state.handles number index frame) ∧
      ((∀ handle ∈ state.handles, handle.held = false) → flow = base) ∧
      ∀ context between, (∀ other, .drop other ∈ between → state.handles.length < other) →
        let opened := state.perform (.begin context)
        ((opened.performAll between).perform (.drop state.handles.length)).surroundings =
          some flow := by
  intro state
  obtain ⟨flow, sound⟩ := GuardedFlow.IsSound.performAll base moves
  refine ⟨flow, sound.stands.current, sound.stands.inherited, sound.holders, sound.eq_base, ?_⟩
  intro context between hyounger opened
  have hopened := GuardedFlow.IsOpen.new sound.stands.current context
  obtain ⟨_, isOpen⟩ := hopened.performAll between hyounger
  exact isOpen.surroundings_drop

/-- Guard 0 is dropped before guard 1, which then cuts the frame of guard 3. -/
theorem guards_in_any_order_late_drop :
    let frame (name : String) : Context := ⟨some name, some name, some name⟩
    let moves : List GuardedFlow.Move :=
      [.begin (frame "a"), .begin (frame "b"), .drop 0, .begin (frame "c"), .begin (frame "d"),
        .drop 1]
    let between : List GuardedFlow.Move := [.begin (frame "e"), .begin (frame "f"), .drop 5]
    let state := (GuardedFlow.initial [frame "base"]).performAll moves
    state.surroundings = some [frame "base", frame "c"] ∧
      (((state.perform (.begin (frame "g"))).performAll between).perform (.drop 4)).surroundings =
        some [frame "base", frame "c"] ∧
      ((GuardedFlow.initial [frame "base"]).performAll
        (moves ++ [.drop 3, .drop 2])).surroundings = some [frame "base"] := by
  intro frame moves between state
  have hstate : state.surroundings = some [frame "base", frame "c"] := by decide
  obtain ⟨flow, hcurrent, -, -, -, hrestores⟩ := guards_in_any_order [frame "base"] moves
  obtain ⟨rest, hrest, -, -, hempty, -⟩ :=
    guards_in_any_order [frame "base"] (moves ++ [.drop 3, .drop 2])
  have hflow : flow = [frame "base", frame "c"] := Option.some.inj (hcurrent.symm.trans hstate)
  have hbase : rest = [frame "base"] := hempty (by decide)
  rw [hbase] at hrest
  have hnumber : state.handles.length = 4 := by decide
  have hyounger : ∀ other, .drop other ∈ between → state.handles.length < other := by
    intro other hmem
    have hother : other = 5 := by simpa [between] using hmem
    omega
  have hrestored := hrestores (frame "g") between hyounger
  rw [hnumber, hflow] at hrestored
  exact ⟨hstate, hrestored, hrest⟩

end Tenancy
