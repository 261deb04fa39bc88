import Tenancy.Proofs.UnnoticedPurges

/-!
# Tenancy - Audits that go unnoticed

Operations offer their notes to the audit trail and go on without looking at what becomes
of them.  So whether there is a trail, and which notes it refuses, changes neither what
operations return nor what they leave in the tables, whatever store calls go wrong.  A
trail that refuses notes keeps of those that a working one keeps the ones it accepts.

Main definitions:

- `World.AuditedLike`: two worlds that differ at most in their trails.
- `Occasion.outcomes`: what operations one after the other return and leave, where calls
  go wrong.
- `Trail.Samples`: a trail holds what it accepts of another one.

Main results:

- Theorem `World.AuditedLike.performFaulty`: one request of two such worlds.
- Theorem `World.AuditedLike.run`: a run in two such worlds.
- Theorem `World.AuditedLike.outcomes`: operations one after the other in two such worlds.
- Theorem `outcomes_audited`: the same with no trail, a working one and a failing one.
-/

namespace Tenancy

/-! ## Two runs of a program -/

/-- If every request is replied to alike in states that are alike, and leaves them alike, a program
ends alike in such states. -/
theorem Program.run_alike {Request σ α : Type} {Reply : Request → Type}
    (program : Program Request Reply α) (handle : (request : Request) → σ → Reply request × σ)
    (alike : σ → σ → Prop)
    (hstep : ∀ request first second, alike first second →
      (handle request first).1 = (handle request second).1 ∧
        alike (handle request first).2 (handle request second).2)
    (first second : σ) (halike : alike first second) :
    (program.run handle first).1 = (program.run handle second).1 ∧
      alike (program.run handle first).2 (program.run handle second).2 := by
  induction program generalizing first second with
  | done value => exact ⟨rfl, halike⟩
  | ask request next ih =>
      obtain ⟨hreply, hafter⟩ := hstep request first second halike
      rw [run_ask, run_ask, hreply]
      exact ih _ _ _ hafter

/-! ## Worlds with different trails -/

/-- The world with another trail. -/
def World.withTrail (world : World) (trail : Trail) : World :=
  { world with trail := trail }

/-- Two trails stay related when both are offered the same notes. -/
def Trail.OfferKeeps (related : Trail → Trail → Prop) : Prop :=
  ∀ ⦃first second : Trail⦄, related first second →
    ∀ note now, related (first.offer note now) (second.offer note now)

/-- Two worlds are equal but for their trails, which are related. -/
structure World.AuditedLike (related : Trail → Trail → Prop) (first second : World) : Prop where
  tables : first.tables = second.tables
  clock : first.clock = second.clock
  supply : first.supply = second.supply
  trail : related first.trail second.trail

namespace World.AuditedLike

variable {related : Trail → Trail → Prop} {first second : World}

/-- Trails that are related make worlds that are. -/
theorem withTrail (world : World) {trail other : Trail} (hrelated : related trail other) :
    (world.withTrail trail).AuditedLike related (world.withTrail other) :=
  ⟨rfl, rfl, rfl, hrelated⟩

/-- What no operation controls changes in both worlds alike. -/
theorem shift (alike : first.AuditedLike related second) (outside : Outside) :
    (first.withOutside outside).AuditedLike related (second.withOutside outside) where
  tables := by simp only [World.withOutside, alike.tables]
  clock := rfl
  supply := alike.supply
  trail := alike.trail

/-- A store call is answered alike. -/
theorem callStore (alike : first.AuditedLike related second) (call : Call) :
    (first.callStore call).1 = (second.callStore call).1 ∧
      (first.callStore call).2.AuditedLike related (second.callStore call).2 := by
  unfold World.callStore
  rw [alike.tables]
  exact ⟨rfl, rfl, alike.clock, alike.supply, alike.trail⟩

/-- A request is replied to alike, and keeps the worlds alike. -/
theorem performFaulty (keeps : Trail.OfferKeeps related) (alike : first.AuditedLike related second)
    (plan : FaultPlan) (effect : Effect) (made : Nat) :
    (World.performFaulty plan effect (first, made)).1 =
        (World.performFaulty plan effect (second, made)).1 ∧
      (World.performFaulty plan effect (first, made)).2.1.AuditedLike related
        (World.performFaulty plan effect (second, made)).2.1 ∧
      (World.performFaulty plan effect (first, made)).2.2 =
        (World.performFaulty plan effect (second, made)).2.2 := by
  cases effect with
  | store call =>
      simp only [World.performFaulty]
      split
      · exact ⟨rfl, alike, rfl⟩
      · obtain ⟨hreply, hafter⟩ := alike.callStore call
        exact ⟨hreply, hafter, rfl⟩
  | clock => exact ⟨alike.clock, alike, rfl⟩
  | freshId | randomBytes =>
      simp only [World.performFaulty, World.perform, World.drawId, World.drawBytes, alike.supply]
      exact ⟨trivial, ⟨alike.tables, alike.clock, rfl, alike.trail⟩, trivial⟩
  | note noted =>
      refine ⟨rfl, ⟨alike.tables, alike.clock, alike.supply, ?_⟩, rfl⟩
      simp only [World.performFaulty, World.perform, alike.clock]
      exact keeps alike.trail noted second.clock

/-- A program ends alike in both worlds. -/
theorem run {α : Type} (keeps : Trail.OfferKeeps related) (alike : first.AuditedLike related second)
    (plan : FaultPlan) (program : Program Effect Effect.Reply α) :
    (program.run (World.performFaulty plan) (first, 0)).1 =
        (program.run (World.performFaulty plan) (second, 0)).1 ∧
      (program.run (World.performFaulty plan) (first, 0)).2.1.AuditedLike related
        (program.run (World.performFaulty plan) (second, 0)).2.1 := by
  have hrun := program.run_alike (World.performFaulty plan)
    (fun left right : World × Nat => left.1.AuditedLike related right.1 ∧ left.2 = right.2)
    (by
      rintro effect ⟨left, made⟩ ⟨right, _⟩ ⟨halike, rfl⟩
      exact halike.performFaulty keeps plan effect made)
    (first, 0) (second, 0) ⟨alike, rfl⟩
  exact ⟨hrun.1, hrun.2.1⟩

end World.AuditedLike

/-! ## Sequences of operations -/

/-- The run of an operation on its occasion where store calls go wrong as planned. -/
def Occasion.runFaulty (occasion : Occasion) (plan : FaultPlan) (world : World) :
    Except Error occasion.operation.Answer × World :=
  occasion.operation.runFaulty occasion.deployment plan (world.withOutside occasion.outside)

/-- What an operation returned and the tables that it left. -/
structure Outcome where
  operation : Operation
  result : Except Error operation.Answer
  tables : Tables

/-- The outcomes of operations one after the other, each with its own plan of what goes wrong, and
the world after them. -/
def Occasion.outcomes : List (Occasion × FaultPlan) → World → List Outcome × World
  | [], world => ([], world)
  | (occasion, plan) :: rest, world =>
    let (result, after) := occasion.runFaulty plan world
    let (later, last) := outcomes rest after
    (⟨occasion.operation, result, after.tables⟩ :: later, last)

namespace World.AuditedLike

variable {related : Trail → Trail → Prop} {first second : World}

/-- An operation ends alike in both worlds. -/
theorem runFaulty (keeps : Trail.OfferKeeps related) (alike : first.AuditedLike related second)
    (occasion : Occasion) (plan : FaultPlan) :
    (occasion.runFaulty plan first).1 = (occasion.runFaulty plan second).1 ∧
      (occasion.runFaulty plan first).2.AuditedLike related (occasion.runFaulty plan second).2 :=
  (alike.shift occasion.outside).run keeps plan _

/-- Operations one after the other have the same outcomes in both worlds. -/
theorem outcomes (keeps : Trail.OfferKeeps related) (alike : first.AuditedLike related second)
    (occasions : List (Occasion × FaultPlan)) :
    (Occasion.outcomes occasions first).1 = (Occasion.outcomes occasions second).1 ∧
      (Occasion.outcomes occasions first).2.AuditedLike related
        (Occasion.outcomes occasions second).2 := by
  induction occasions generalizing first second with
  | nil => exact ⟨rfl, alike⟩
  | cons head rest ih =>
      obtain ⟨occasion, plan⟩ := head
      obtain ⟨hresult, hafter⟩ := alike.runFaulty keeps occasion plan
      obtain ⟨hlater, hlast⟩ := ih hafter
      refine ⟨?_, hlast⟩
      simp only [Occasion.outcomes, hresult, hafter.tables, hlater]

end World.AuditedLike

/-! ## No trail, a working one and a failing one -/

namespace Trail

/-- A trail fails on the entries that it does not keep and on no others. -/
theorem record_ok_iff (trail : Trail) (entry : AuditEntry) :
    (trail.record entry).1 = .ok () ↔
      (trail.record entry).2.entries = trail.entries ++ [entry] := by
  unfold record
  split
  · exact iff_of_true rfl rfl
  · exact iff_of_false nofun (by simp)

/-- The trail that refuses the notes that it does not accept. -/
def failing (accepts : Nat → Bool) : Trail :=
  { working with accepts := accepts }

/-- The entries whose numbers are accepted. -/
def sampled (accepts : Nat → Bool) (entries : List AuditEntry) : List AuditEntry :=
  (entries.zipIdx.filter fun (_, number) => accepts number).map Prod.fst

/-- One more entry is there if its number is accepted. -/
theorem sampled_append (accepts : Nat → Bool) (entries : List AuditEntry) (entry : AuditEntry) :
    sampled accepts (entries ++ [entry]) =
      if accepts entries.length then sampled accepts entries ++ [entry]
      else sampled accepts entries := by
  simp only [sampled, List.zipIdx_append, List.filter_append, List.map_append, Nat.zero_add,
    List.zipIdx_singleton]
  split
  · rename_i haccepts
    simp [haccepts]
  · rename_i hrefuses
    simp [hrefuses]

/-- The second trail holds what it accepts of the first, which holds everything it was offered. -/
structure Samples (accepts : Nat → Bool) (whole sample : Trail) : Prop where
  whole_attached : whole.attached = true
  whole_accepts : ∀ number, whole.accepts number = true
  whole_offered : whole.offered = whole.entries.length
  sample_attached : sample.attached = true
  sample_accepts : sample.accepts = accepts
  sample_offered : sample.offered = whole.entries.length
  entries : sample.entries = sampled accepts whole.entries

/-- Before any note, a failing trail holds what it accepts of a working one. -/
theorem Samples.failing (accepts : Nat → Bool) : Samples accepts .working (.failing accepts) where
  whole_attached := rfl
  whole_accepts _ := rfl
  whole_offered := rfl
  sample_attached := rfl
  sample_accepts := rfl
  sample_offered := rfl
  entries := rfl

/-- Notes keep a trail holding what it accepts of another one. -/
theorem offerKeeps_samples (accepts : Nat → Bool) : OfferKeeps (Samples accepts) := by
  intro whole sample samples note now
  have hwhole : whole.offer note now =
      { whole with
        offered := whole.offered + 1
        entries := whole.entries ++
          [{ id := toString whole.offered, note := note, timestamp := now }] } := by
    simp only [offer_eq, record_snd, samples.whole_attached, samples.whole_accepts, if_true]
  have hsample : sample.offer note now =
      { sample with
        offered := sample.offered + 1
        entries := sampled accepts (whole.offer note now).entries } := by
    rw [hwhole, sampled_append]
    simp only [offer_eq, record_snd, samples.sample_attached, samples.sample_accepts,
      samples.sample_offered, samples.whole_offered, samples.entries, if_true]
  have hlength : (whole.offer note now).entries.length = whole.entries.length + 1 := by
    simp [hwhole]
  constructor
  · rw [hwhole, samples.whole_attached]
  · rw [hwhole]
    exact samples.whole_accepts
  · rw [hlength, hwhole, samples.whole_offered]
  · rw [hsample, samples.sample_attached]
  · rw [hsample, samples.sample_accepts]
  · rw [hlength, hsample, samples.sample_offered]
  · rw [hsample]

/-- A detached trail stays as it is, whatever happens to others. -/
theorem offerKeeps_detached : OfferKeeps fun _ detached => detached = .detached := by
  rintro _ _ rfl note now
  rfl

end Trail

/-- No trail, a working one, and one that fails on any of its writes: operations one after the
other, whatever store calls go wrong in them, return the same and leave the same tables after each
of them.  The failing trail ends with the entries of the working one that it accepts. -/
theorem outcomes_audited (world : World) (accepts : Nat → Bool)
    (occasions : List (Occasion × FaultPlan)) :
    let detached := Occasion.outcomes occasions (world.withTrail .detached)
    let working := Occasion.outcomes occasions (world.withTrail .working)
    let failing := Occasion.outcomes occasions (world.withTrail (.failing accepts))
    detached.1 = working.1 ∧ failing.1 = working.1 ∧ detached.2.trail = .detached ∧
      failing.2.trail.entries = Trail.sampled accepts working.2.trail.entries := by
  have sharing : (world.withTrail .working).AuditedLike (fun _ trail => trail = .detached)
      (world.withTrail .detached) := .withTrail world rfl
  have hdetached := sharing.outcomes Trail.offerKeeps_detached occasions
  have hfailing := (World.AuditedLike.withTrail world (Trail.Samples.failing accepts)).outcomes
    (Trail.offerKeeps_samples accepts) occasions
  exact ⟨hdetached.1.symm, hfailing.1.symm, hdetached.2.trail, hfailing.2.trail.entries⟩

end Tenancy
