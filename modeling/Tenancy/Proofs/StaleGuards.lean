import Mathlib.Data.List.Induction
import Tenancy.Proofs.GuardDiscipline

/-!
# Tenancy - Guards that are dropped late

A guard remembers a depth, not a frame.  Once an outer guard was dropped, the frame
of an inner one is gone, but the inner guard still remembers its index; a scope that
is begun after that can take the same index, and the late drop then cuts its frame
although its own guard is still held.  This file says exactly when that happens.

Main definitions:

- `GuardedFlow.OnStack`: the frame of a guard is on the stack.
- `GuardedFlow.PushedUpon`: a guard was begun while the frame of another was on the stack.
- `GuardedFlow.RemovesOwnOnly`: a drop removes nothing but the guard's own frame and
  frames pushed upon it.
- `GuardedFlow.Reoccupied`: a newer guard's frame is at the index a guard remembers.

Main results:

- Theorem `GuardedFlow.IsLayered.performAll`: of two frames on the stack, the upper one
  was pushed upon the lower one.
- Theorem `drop_removesOwnOnly_iff`: a drop disturbs nothing exactly if the index that its
  guard remembers is not reoccupied.
-/

namespace Tenancy
namespace GuardedFlow

/-! ## Frames and the guards begun on them -/

/-- The frame that the guard of a number has pushed is on the stack. -/
def OnStack (state : GuardedFlow) (number : Nat) : Prop :=
  ∃ flow index frame, state.surroundings = some flow ∧ flow[index]? = some frame ∧
    Holds state.handles number index frame

/-- In these moves, the guard `upper` was begun while the frame of `lower` was on the stack. -/
def PushedUpon (base : Flow) (moves : List Move) (lower upper : Nat) : Prop :=
  ∃ earlier context later, moves = earlier ++ .begin context :: later ∧
    ((initial base).performAll earlier).handles.length = upper ∧
    ((initial base).performAll earlier).OnStack lower

/-- Dropping a guard after these moves removes its own frame and frames that were pushed above it
while it was on the stack, and no other. -/
def RemovesOwnOnly (base : Flow) (moves : List Move) (number : Nat) : Prop :=
  let state := (initial base).performAll moves
  ∃ flow kept, state.surroundings = some flow ∧
    (state.perform (.drop number)).surroundings = some (flow.take kept) ∧
    ∀ index frame, kept ≤ index → flow[index]? = some frame →
      ∃ holder, Holds state.handles holder index frame ∧
        (holder = number ∨ PushedUpon base moves number holder)

/-- The guard of a number is still held, and at the index it remembers is the frame of a newer
guard. -/
def Reoccupied (state : GuardedFlow) (number : Nat) : Prop :=
  ∃ handle depth flow frame newer, state.handles[number]? = some handle ∧ handle.held = true ∧
    handle.guard.restoreDepth = some depth ∧ state.surroundings = some flow ∧
    flow[depth]? = some frame ∧ number < newer ∧ Holds state.handles newer depth frame

/-! ## Depths through moves -/

section Depths

variable {state : GuardedFlow} {number : Nat} {handle : Handle}

/-- The depth that a guard remembers is not changed by a move. -/
theorem restoreDepth_perform (hhandle : state.handles[number]? = some handle) (move : Move) :
    ∃ after, (state.perform move).handles[number]? = some after ∧
      after.guard.restoreDepth = handle.guard.restoreDepth := by
  have hlt : number < state.handles.length := (List.getElem?_eq_some_iff.1 hhandle).1
  cases move with
  | begin context =>
      refine ⟨handle, ?_, rfl⟩
      simp only [perform]
      rw [List.getElem?_append_left hlt, hhandle]
  | drop dropped =>
      simp only [perform]
      split
      · rename_i found hfound
        split
        · by_cases hsame : dropped = number
          · subst hsame
            have hfound' : found = handle := Option.some.inj (hfound.symm.trans hhandle)
            exact ⟨found.released, List.getElem?_set_self hlt, by rw [hfound']; rfl⟩
          · exact ⟨handle, by rw [List.getElem?_set_ne hsame, hhandle], rfl⟩
        · exact ⟨handle, hhandle, rfl⟩
      · exact ⟨handle, hhandle, rfl⟩

/-- The depth that a guard remembers is not changed by moves. -/
theorem restoreDepth_performAll (hhandle : state.handles[number]? = some handle)
    (moves : List Move) :
    ∃ after, (state.performAll moves).handles[number]? = some after ∧
      after.guard.restoreDepth = handle.guard.restoreDepth := by
  induction moves generalizing state handle with
  | nil => exact ⟨handle, hhandle, rfl⟩
  | cons move rest ih =>
      obtain ⟨next, hnext, hdepth⟩ := restoreDepth_perform hhandle move
      obtain ⟨after, hafter, hdepths⟩ := ih hnext
      exact ⟨after, hafter, hdepths.trans hdepth⟩

/-- Moves one after the other, and then more of them. -/
theorem performAll_append (state : GuardedFlow) (moves more : List Move) :
    state.performAll (moves ++ more) = (state.performAll moves).performAll more :=
  List.foldl_append

/-- Moves one after the other, and then one more. -/
theorem performAll_concat (state : GuardedFlow) (moves : List Move) (move : Move) :
    state.performAll (moves ++ [move]) = (state.performAll moves).perform move := by
  rw [performAll_append]
  rfl

/-- A drop does nothing, or its guard was held and the flow is cut to the depth it remembers, which
is above the inherited frames. -/
theorem IsSound.drop_cases {base flow : Flow} (sound : IsSound base flow state) (number : Nat) :
    state.perform (.drop number) = state ∨
      ∃ handle depth, state.handles[number]? = some handle ∧ handle.held = true ∧
        handle.guard.restoreDepth = some depth ∧ base.length ≤ depth ∧
        state.perform (.drop number) =
          { surroundings := some (flow.take depth)
            handles := state.handles.set number handle.released } := by
  by_cases held : ∃ handle, state.handles[number]? = some handle ∧ handle.held = true
  · obtain ⟨handle, hhandle, held⟩ := held
    obtain ⟨depth, hdepth, hbase⟩ := sound.stands.depths number handle (Nat.zero_le _) hhandle
    exact .inr ⟨handle, depth, hhandle, held, hdepth, hbase,
      perform_drop sound.stands.current hhandle held hdepth⟩
  · refine .inl (perform_drop_not_held fun handle hhandle => ?_)
    exact Bool.eq_false_iff.2 fun hheld => held ⟨handle, hhandle, hheld⟩

end Depths

/-! ## Holders before a move -/

namespace Holds

variable {handles : List Handle} {number index : Nat} {frame : Context}

/-- At most one guard holds the frame at an index. -/
theorem unique (holds : Holds handles number index frame) {other : Nat} {found : Context}
    (others : Holds handles other index found) : number = other := by
  rcases Nat.lt_trichotomy number other with hlt | heq | hgt
  · exact absurd rfl (holds.last other _ hlt others.held)
  · exact heq
  · exact absurd rfl (others.last number _ hgt holds.held)

/-- Who holds a frame below a new one, held it before. -/
theorem of_begin {depth : Nat} {context : Context}
    (holds : Holds (handles ++ [.opened depth context]) number index frame)
    (hbelow : index < depth) : Holds handles number index frame where
  held := by
    rcases getElem?_concat_cases holds.held with hold | ⟨-, hnew⟩
    · exact hold
    · have hdepth : index = depth :=
        Option.some.inj (congrArg (fun handle => handle.guard.restoreDepth) hnew)
      omega
  last := by
    intro later handle hlater hhandle
    refine holds.last later handle hlater ?_
    rw [List.getElem?_append_left (List.getElem?_eq_some_iff.1 hhandle).1, hhandle]

/-- Who holds a frame after another guard was dropped, held it before. -/
theorem of_drop {dropped : Nat} {handle : Handle} (hhandle : handles[dropped]? = some handle)
    (holds : Holds (handles.set dropped handle.released) number index frame) :
    Holds handles number index frame := by
  have hlt : dropped < handles.length := (List.getElem?_eq_some_iff.1 hhandle).1
  have hne : dropped ≠ number := by
    rintro rfl
    have hheld := holds.held
    rw [List.getElem?_set_self hlt] at hheld
    have hreleased := congrArg Handle.held (Option.some.inj hheld)
    exact Bool.noConfusion hreleased
  refine ⟨by rw [← holds.held, List.getElem?_set_ne hne], ?_⟩
  intro later found hlater hfound hdepth
  by_cases hsame : dropped = later
  · subst hsame
    have hfound' : found = handle := Option.some.inj (hfound.symm.trans hhandle)
    refine holds.last dropped handle.released hlater (List.getElem?_set_self hlt) ?_
    rw [← hdepth, hfound']
    rfl
  · exact holds.last later found hlater (by rw [List.getElem?_set_ne hsame, hfound]) hdepth

end Holds

/-! ## Which frame was pushed upon which -/

namespace PushedUpon

variable {base : Flow} {moves : List Move} {lower upper : Nat}

/-- What was pushed upon a frame stays so through further moves. -/
theorem append (pushed : PushedUpon base moves lower upper) (more : List Move) :
    PushedUpon base (moves ++ more) lower upper := by
  obtain ⟨earlier, context, later, rfl, hupper, hlower⟩ := pushed
  exact ⟨earlier, context, later ++ more, by simp, hupper, hlower⟩

/-- A guard that was begun upon the frame of another remembers a greater depth. -/
theorem depth_lt (pushed : PushedUpon base moves lower upper) {below above : Handle}
    {depth height : Nat}
    (hbelow : ((initial base).performAll moves).handles[lower]? = some below)
    (habove : ((initial base).performAll moves).handles[upper]? = some above)
    (hdepth : below.guard.restoreDepth = some depth)
    (hheight : above.guard.restoreDepth = some height) : depth < height := by
  obtain ⟨earlier, context, later, rfl, hupper, flow, index, frame, hcurrent, hframe, holds⟩ :=
    pushed
  let state := (initial base).performAll earlier
  let next := state.perform (.begin context)
  have hafter : (initial base).performAll (earlier ++ .begin context :: later) =
      next.performAll later := performAll_append _ _ _
  have hnext : next.handles = state.handles ++ [.opened flow.length context] :=
    congrArg handles (perform_begin hcurrent context)
  have hnew : next.handles[upper]? = some (.opened flow.length context) := by
    rw [hnext, ← hupper]
    exact List.getElem?_concat_length
  have hold : next.handles[lower]? = some (.opened index frame) := by
    rw [hnext, List.getElem?_append_left (List.getElem?_eq_some_iff.1 holds.held).1]
    exact holds.held
  rw [hafter] at hbelow habove
  obtain ⟨below', hbelow', hindex⟩ := restoreDepth_performAll hold later
  obtain ⟨above', habove', hlength⟩ := restoreDepth_performAll hnew later
  rw [Option.some.inj (hbelow'.symm.trans hbelow), hdepth] at hindex
  rw [Option.some.inj (habove'.symm.trans habove), hheight] at hlength
  rw [Option.some.inj hindex, Option.some.inj hlength]
  exact (List.getElem?_eq_some_iff.1 hframe).1

end PushedUpon

/-- Of two frames above the inherited ones, the upper one was pushed upon the lower one. -/
def IsLayered (base : Flow) (moves : List Move) : Prop :=
  ∀ flow low high under above lower upper,
    ((initial base).performAll moves).surroundings = some flow →
    low < high → flow[low]? = some under → flow[high]? = some above →
    Holds ((initial base).performAll moves).handles lower low under →
    Holds ((initial base).performAll moves).handles upper high above →
    PushedUpon base moves lower upper

namespace IsLayered

variable {base : Flow} {moves : List Move}

/-- Beginning a scope keeps the frames layered: the new frame is pushed upon all others. -/
theorem begin (layered : IsLayered base moves) (context : Context) :
    IsLayered base (moves ++ [.begin context]) := by
  intro flow low high under above lower upper hflow hlt hunder habove hlower hupper
  obtain ⟨before, sound⟩ := IsSound.performAll base moves
  have hcurrent := sound.stands.current
  rw [performAll_concat, perform_begin hcurrent] at hflow hlower hupper
  have hgrown : before ++ [context] = flow := Option.some.inj hflow
  subst hgrown
  have hbound := (List.getElem?_eq_some_iff.1 habove).1
  rw [List.length_append, List.length_singleton] at hbound
  have hlow : low < before.length := by omega
  rw [List.getElem?_append_left hlow] at hunder
  have holder := hlower.of_begin hlow
  by_cases hhigh : high < before.length
  · rw [List.getElem?_append_left hhigh] at habove
    have pushed := layered before low high under above lower upper hcurrent hlt hunder habove holder
      (hupper.of_begin hhigh)
    exact pushed.append _
  · have hsame : high = before.length := by omega
    subst hsame
    have hnew := (Holds.new _ before.length context).unique hupper
    exact ⟨moves, context, [], rfl, hnew, before, low, under, hcurrent, hunder, holder⟩

/-- Dropping a guard keeps the frames layered: those that are left were there before. -/
theorem drop (layered : IsLayered base moves) (number : Nat) :
    IsLayered base (moves ++ [.drop number]) := by
  intro flow low high under above lower upper hflow hlt hunder habove hlower hupper
  obtain ⟨before, sound⟩ := IsSound.performAll base moves
  have hcurrent := sound.stands.current
  refine PushedUpon.append ?_ _
  rw [performAll_concat] at hflow hlower hupper
  rcases sound.drop_cases number with hsame | ⟨handle, depth, hhandle, -, -, -, hcut⟩
  · rw [hsame] at hflow hlower hupper
    exact layered flow low high under above lower upper hflow hlt hunder habove hlower hupper
  · rw [hcut] at hflow hlower hupper
    have hleft : before.take depth = flow := Option.some.inj hflow
    subst hleft
    have hbound := (List.getElem?_eq_some_iff.1 habove).1
    rw [List.length_take] at hbound
    rw [List.getElem?_take_of_lt (by omega)] at hunder habove
    exact layered before low high under above lower upper hcurrent hlt hunder habove
      (hlower.of_drop hhandle) (hupper.of_drop hhandle)

/-- After all moves the frames are layered. -/
theorem performAll (base : Flow) (moves : List Move) : IsLayered base moves := by
  induction moves using List.reverseRecOn with
  | nil =>
      intro flow low high under above lower upper _ _ _ _ hlower _
      have hnone : lower < 0 := (List.getElem?_eq_some_iff.1 hlower.held).1
      omega
  | append_singleton earlier move ih =>
      cases move with
      | begin context => exact ih.begin context
      | drop number => exact ih.drop number

end IsLayered

/-! ## Late drops -/

section LateDrops

variable {base flow : Flow} {moves : List Move} {state : GuardedFlow} {number : Nat}

/-- The index of a frame that is on the stack is not reoccupied. -/
theorem OnStack.not_reoccupied (onStack : state.OnStack number) : ¬ state.Reoccupied number := by
  rintro ⟨handle, depth, flow, frame, newer, hhandle, -, hdepth, -, -, hnewer, holds⟩
  obtain ⟨-, index, own, -, -, owns⟩ := onStack
  have hindex : depth = index := by
    rw [← Option.some.inj (owns.held.symm.trans hhandle)] at hdepth
    exact (Option.some.inj hdepth).symm
  subst hindex
  exact owns.last newer _ hnewer holds.held rfl

/-- Dropping a guard whose index is reoccupied changes the stack. -/
theorem Reoccupied.changes (reoccupied : state.Reoccupied number) :
    ∃ flow depth, state.surroundings = some flow ∧ depth < flow.length ∧
      (state.perform (.drop number)).surroundings = some (flow.take depth) := by
  obtain ⟨handle, depth, flow, frame, newer, hhandle, held, hdepth, hcurrent, hframe, -, -⟩ :=
    reoccupied
  refine ⟨flow, depth, hcurrent, (List.getElem?_eq_some_iff.1 hframe).1, ?_⟩
  rw [perform_drop hcurrent hhandle held hdepth]

/-- The frame that a reoccupied index costs was not pushed upon the guard's own frame. -/
theorem Reoccupied.not_removesOwnOnly
    (reoccupied : ((initial base).performAll moves).Reoccupied number) :
    ¬ RemovesOwnOnly base moves number := by
  rintro ⟨whole, kept, hwhole, hkept, hremoved⟩
  obtain ⟨handle, depth, flow, frame, newer, hhandle, held, hdepth, hcurrent, hframe, hnewer,
    holds⟩ := reoccupied
  have hsame : whole = flow := Option.some.inj (hwhole.symm.trans hcurrent)
  subst hsame
  rw [perform_drop hcurrent hhandle held hdepth] at hkept
  have hlength := congrArg List.length (Option.some.inj hkept)
  rw [List.length_take, List.length_take] at hlength
  have hlt := (List.getElem?_eq_some_iff.1 hframe).1
  obtain ⟨holder, hholder, hown⟩ := hremoved depth frame (by omega) hframe
  have hholders : newer = holder := holds.unique hholder
  subst hholders
  rcases hown with heq | pushed
  · omega
  · exact absurd (pushed.depth_lt hhandle holds.held hdepth rfl) (Nat.lt_irrefl depth)

/-- If the index of a guard is not reoccupied, dropping it changes nothing, or its own frame is on
the stack and the drop cuts to it. -/
theorem IsSound.drop_of_not_reoccupied (sound : IsSound base flow state)
    (hfree : ¬ state.Reoccupied number) :
    (state.perform (.drop number)).surroundings = some flow ∨
      ∃ depth frame, base.length ≤ depth ∧ flow[depth]? = some frame ∧
        Holds state.handles number depth frame ∧
        (state.perform (.drop number)).surroundings = some (flow.take depth) := by
  have hcurrent := sound.stands.current
  rcases sound.drop_cases number with
    hsame | ⟨handle, depth, hhandle, held, hdepth, hbase, hcut⟩
  · left
    rw [hsame, hcurrent]
  · by_cases hlt : depth < flow.length
    · right
      have hframe := List.getElem?_eq_getElem hlt
      obtain ⟨holder, holds⟩ := sound.holders depth _ hbase hframe
      -- The holder is not newer, as the index is free, and not older, as this guard took it since.
      have hsame : number = holder := by
        rcases Nat.lt_trichotomy number holder with hnewer | heq | holder_lt
        · exact absurd ⟨handle, depth, flow, _, holder, hhandle, held, hdepth, hcurrent, hframe,
            hnewer, holds⟩ hfree
        · exact heq
        · exact absurd hdepth (holds.last number handle holder_lt hhandle)
      subst hsame
      exact ⟨depth, _, hbase, hframe, holds, by rw [hcut]⟩
    · left
      rw [hcut, List.take_of_length_le (by omega)]

/-- If the index of a guard is not reoccupied, dropping it removes nothing but its own. -/
theorem removesOwnOnly_of_not_reoccupied
    (hfree : ¬ ((initial base).performAll moves).Reoccupied number) :
    RemovesOwnOnly base moves number := by
  obtain ⟨flow, sound⟩ := IsSound.performAll base moves
  have hcurrent := sound.stands.current
  rcases sound.drop_of_not_reoccupied hfree with hsame | ⟨depth, own, hbase, hown, owns, hcut⟩
  · refine ⟨flow, flow.length, hcurrent, by rw [hsame, List.take_length], ?_⟩
    intro index frame hindex hframe
    have hlt := (List.getElem?_eq_some_iff.1 hframe).1
    omega
  · refine ⟨flow, depth, hcurrent, hcut, ?_⟩
    intro index frame hindex hframe
    obtain ⟨holder, holds⟩ := sound.holders index frame (by omega) hframe
    refine ⟨holder, holds, ?_⟩
    rcases Nat.eq_or_lt_of_le hindex with rfl | habove
    · exact .inl (holds.unique owns)
    · exact .inr (IsLayered.performAll base moves flow depth index own frame number holder hcurrent
        habove hown hframe owns holds)

end LateDrops

end GuardedFlow

/-! ## When a drop disturbs nothing -/

/-- Whatever scopes were begun and guards dropped in a flow: dropping a guard removes only its own
frame and what was pushed above it while it was on the stack, exactly if no newer guard's frame is
at the index that it remembers; this is so as long as its own frame is on the stack, and once it is
not, it is exactly then that the drop changes nothing. -/
theorem drop_removesOwnOnly_iff (base : Flow) (moves : List GuardedFlow.Move) (number : Nat) :
    let state := (GuardedFlow.initial base).performAll moves
    (GuardedFlow.RemovesOwnOnly base moves number ↔ ¬ state.Reoccupied number) ∧
      (state.OnStack number → ¬ state.Reoccupied number) ∧
      (¬ state.OnStack number →
        ((state.perform (.drop number)).surroundings = state.surroundings ↔
          ¬ state.Reoccupied number)) := by
  intro state
  obtain ⟨flow, sound⟩ := GuardedFlow.IsSound.performAll base moves
  have hcurrent : state.surroundings = some flow := sound.stands.current
  refine ⟨⟨fun hown reoccupied => reoccupied.not_removesOwnOnly hown,
    GuardedFlow.removesOwnOnly_of_not_reoccupied⟩, GuardedFlow.OnStack.not_reoccupied, ?_⟩
  intro hgone
  constructor
  · intro hsame reoccupied
    obtain ⟨whole, depth, hwhole, hlt, hcut⟩ := reoccupied.changes
    rw [hsame, hwhole] at hcut
    have hlength := congrArg List.length (Option.some.inj hcut)
    rw [List.length_take] at hlength
    omega
  · intro hfree
    rcases sound.drop_of_not_reoccupied hfree with hsame | ⟨depth, frame, -, hframe, holds, -⟩
    · exact hsame.trans hcurrent.symm
    · exact absurd ⟨flow, depth, frame, hcurrent, hframe, holds⟩ hgone

/-- Guard 0 is dropped before guard 1, and two more scopes are begun: the frame of guard 1 is gone,
and dropping it cuts the innermost one, whose guard 3 is still held. -/
theorem not_removesOwnOnly_late_drop :
    let frame (name : String) : Context := ⟨some name, some name, some name⟩
    let moves : List GuardedFlow.Move :=
      [.begin (frame "a"), .begin (frame "b"), .drop 0, .begin (frame "c"), .begin (frame "d")]
    let state := (GuardedFlow.initial []).performAll moves
    ¬ state.OnStack 1 ∧
      state.surroundings = some [frame "c", frame "d"] ∧
      (state.perform (.drop 1)).surroundings = some [frame "c"] ∧
      ¬ GuardedFlow.RemovesOwnOnly [] moves 1 := by
  intro frame moves state
  have holds : GuardedFlow.Holds state.handles 3 1 (frame "d") := by
    have hhandles : state.handles = state.handles.take 3 ++ [Handle.opened 1 (frame "d")] := by
      decide
    rw [hhandles]
    exact GuardedFlow.Holds.new (state.handles.take 3) 1 (frame "d")
  have reoccupied : state.Reoccupied 1 :=
    ⟨Handle.opened 1 (frame "b"), 1, [frame "c", frame "d"], frame "d", 3, by decide, rfl, rfl,
      by decide, rfl, by omega, holds⟩
  exact ⟨fun onStack => onStack.not_reoccupied reoccupied, by decide, by decide,
    reoccupied.not_removesOwnOnly⟩

end Tenancy
