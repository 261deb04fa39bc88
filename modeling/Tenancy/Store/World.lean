import Tenancy.Audit
import Tenancy.Program
import Tenancy.Store.Tables

/-!
# Tenancy - The world that operations act on

Besides its store calls an operation reads the clock, draws fresh ids and random
bytes, and leaves audit notes.  A world answers all of these.

Main definitions:

- `Effect`, `Effect.Reply`: everything an operation can ask for.
- `World`, `World.perform`: a world, and its answer to one request.
- `Trail`: an audit trail that may be absent or refuse entries.
- `Trail.record`, `Trail.offer`: its answer to an entry, and an offer that drops the answer.
- `FaultPlan`, `World.performFaulty`: the same with store calls that go wrong.
-/

namespace Tenancy

/-- A request that an operation makes. -/
inductive Effect
  | store (call : Call)
  | clock
  | freshId
  | randomBytes
  | note (note : AuditNote)

/-- What each request replies; nothing is heard of what became of a note. -/
@[reducible]
def Effect.Reply : Effect → Type
  | .store call => Except StoreError call.Answer
  | .clock => Nat
  | .freshId => String
  | .randomBytes => List UInt8
  | .note _ => Unit

/-- The clock reading for a system time; a time before 1970 reads as zero. -/
def Clock.ofSystemTime (seconds : Int) : Nat :=
  seconds.toNat

/-- An audit trail. -/
structure Trail where
  /-- Whether operations have a trail to write to. -/
  attached : Bool
  /-- Whether the trail takes in the note with a given number. -/
  accepts : Nat → Bool
  offered : Nat
  /-- The entries taken in, oldest first. -/
  entries : List AuditEntry

namespace Trail

/-- The trail that operations do not write to. -/
def detached : Trail :=
  { attached := false, accepts := fun _ => true, offered := 0, entries := [] }

/-- The trail that takes in every note. -/
def working : Trail :=
  { detached with attached := true }

/-- Take an entry in, or fail to; either way the entry was offered. -/
def record (trail : Trail) (entry : AuditEntry) : Except StoreError Unit × Trail :=
  let after := { trail with offered := trail.offered + 1 }
  if trail.accepts trail.offered then (.ok (), { after with entries := trail.entries ++ [entry] })
  else (.error (.database "audit table unavailable"), after)

/-- Offer a note at a time to the trail, if there is one.  Whether the note was taken in is not
passed on. -/
def offer (trail : Trail) (note : AuditNote) (now : Nat) : Trail :=
  if trail.attached then
    match trail.record { id := toString trail.offered, note := note, timestamp := now } with
    | (.ok (), after) => after
    | (.error _, after) => after
  else trail

/-- Recording an entry counts it, and keeps it exactly if the trail accepts it. -/
theorem record_snd (trail : Trail) (entry : AuditEntry) :
    (trail.record entry).2 =
      { trail with
        offered := trail.offered + 1
        entries :=
          if trail.accepts trail.offered then trail.entries ++ [entry] else trail.entries } := by
  unfold record
  split <;> rfl

/-- A note that is offered is recorded if there is a trail, whatever the trail answers. -/
theorem offer_eq (trail : Trail) (note : AuditNote) (now : Nat) :
    trail.offer note now =
      if trail.attached then
        (trail.record { id := toString trail.offered, note := note, timestamp := now }).2
      else trail := by
  unfold offer
  generalize trail.record _ = answered
  obtain ⟨_ | _, after⟩ := answered <;> rfl

/-- A note that is offered is kept if there is a trail that accepts it. -/
theorem entries_offer (trail : Trail) (note : AuditNote) (now : Nat) :
    (trail.offer note now).entries = trail.entries ++
      if trail.attached && trail.accepts trail.offered then
        [{ id := toString trail.offered, note := note, timestamp := now }]
      else [] := by
  rw [offer_eq, record_snd]
  cases trail.attached <;> cases trail.accepts trail.offered <;> simp

/-- The newest entries of an organization, at most `limit`. -/
def ofOrganization (trail : Trail) (organizationId : String) (limit : Nat) : List AuditEntry :=
  (trail.entries.reverse.filter (·.note.organizationId == some organizationId)).take limit

/-- The newest entries of an acting user, at most `limit`. -/
def ofActor (trail : Trail) (actorId : String) (limit : Nat) : List AuditEntry :=
  (trail.entries.reverse.filter (·.note.actorId == some actorId)).take limit

end Trail

/-- Where fresh ids and random bytes come from, and how many were drawn. -/
structure Supply where
  ids : Nat → String
  idsDrawn : Nat
  bytes : Nat → List UInt8
  bytesDrawn : Nat

/-- Everything that operations act on. -/
structure World where
  tables : Tables
  clock : Nat
  supply : Supply
  trail : Trail

namespace World

/-- Draw a fresh id. -/
def drawId (world : World) : String × World :=
  (world.supply.ids world.supply.idsDrawn,
    { world with supply := { world.supply with idsDrawn := world.supply.idsDrawn + 1 } })

/-- Draw random bytes. -/
def drawBytes (world : World) : List UInt8 × World :=
  (world.supply.bytes world.supply.bytesDrawn,
    { world with supply := { world.supply with bytesDrawn := world.supply.bytesDrawn + 1 } })

/-- Pass a call to the store. -/
def callStore (world : World) (call : Call) : Except StoreError call.Answer × World :=
  let (answer, tables) := world.tables.perform call
  (answer, { world with tables := tables })

/-- Reply to one request. -/
def perform : (effect : Effect) → World → effect.Reply × World
  | .store call, world => world.callStore call
  | .clock, world => (world.clock, world)
  | .freshId, world => world.drawId
  | .randomBytes, world => world.drawBytes
  | .note note, world => ((), { world with trail := world.trail.offer note world.clock })

end World

/-! ## Worlds where calls go wrong -/

/-- Which store calls go wrong, by their number in a run and by what they ask. -/
abbrev FaultPlan := Nat → Call → Option Fault

/-- The plan under which nothing goes wrong. -/
def FaultPlan.none : FaultPlan :=
  fun _ _ => Option.none

/-- Reply to one request under a fault plan; the state counts the store calls so far. -/
def World.performFaulty (plan : FaultPlan) : (effect : Effect) → World × Nat →
    effect.Reply × (World × Nat)
  | .store call, (world, made) =>
    match (plan made call).bind (·.reply? call) with
    | some reply => (reply, (world, made + 1))
    | none =>
      let (reply, world) := world.callStore call
      (reply, (world, made + 1))
  | effect, (world, made) =>
    let (reply, world) := world.perform effect
    (reply, (world, made))

end Tenancy
