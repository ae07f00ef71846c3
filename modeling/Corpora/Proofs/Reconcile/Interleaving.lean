import Corpora.Proofs.Reconcile.Plan

/-!
Cycles whose steps are interleaved in any order. At most one call owns the flag, every other one is
skipped, and the registry is on its way from one settled state to the next: once the changes that
the owner still has to make are made, it holds what the last observation asks for. What earlier
cycles did has left no trace by then.
-/

namespace Corpora

namespace CycleStage

def inProgress : CycleStage → Bool
  | waiting | finished _ => false
  | _ => true

def remaining : CycleStage → List RegistryChange
  | applying _ todo => todo
  | _ => []

def observation? : CycleStage → Option (List IndexSummary)
  | planning observed => some observed
  | _ => none

end CycleStage

/-- Any number of calls on one registry, and the observation that was planned for last. -/
structure Reconciling where
  shared : ReconcilerState
  calls : Nat → CycleStage
  applied : Option (List IndexSummary)

namespace Reconciling

def start (registry : ToolRegistry) : Reconciling := ⟨⟨false, registry⟩, fun _ => .waiting, none⟩

def place (calls : Nat → CycleStage) (call : Nat) (stage : CycleStage) : Nat → CycleStage :=
  fun other => if other = call then stage else calls other

@[simp]
theorem place_self (calls : Nat → CycleStage) (call : Nat) (stage : CycleStage) :
    place calls call stage call = stage := if_pos rfl

theorem place_other (calls : Nat → CycleStage) {call other : Nat} (stage : CycleStage)
    (different : other ≠ call) : place calls call stage other = calls other := if_neg different

-- Whether a call owns the flag is looked at for the call that moves and for all others apart.
theorem place_progress {calls : Nat → CycleStage} {call : Nat} {stage : CycleStage}
    {owner next : Option Nat}
    (progress : ∀ other, (calls other).inProgress = true ↔ owner = some other)
    (self : stage.inProgress = true ↔ next = some call)
    (others : ∀ other, other ≠ call → (owner = some other ↔ next = some other)) (other : Nat) :
    (place calls call stage other).inProgress = true ↔ next = some other := by
  by_cases same : other = call
  · rw [same, place_self]
    exact self
  · rw [place_other _ _ same, progress]
    exact others other same

section Steps

variable (limit : Nat) (answers : Nat → Option (List IndexSummary))

/-- One step of one call; `answers` tells what each call observes, which is nothing where its poll
fails or takes too long. -/
def advance (system : Reconciling) (call : Nat) : Reconciling :=
  let (stage, shared) := (system.calls call).step limit (answers call) system.shared
  { shared := shared
    calls := place system.calls call stage
    applied := (system.calls call).observation?.or system.applied }

def run (schedule : List Nat) (system : Reconciling) : Reconciling :=
  schedule.foldl (advance limit answers) system

end Steps

def Quiet (system : Reconciling) : Prop := ∀ call, (system.calls call).inProgress = false

/-- The flag has this owner, if it has one, and with the changes that the owner has still to make
the registry is settled. -/
structure Sound (start : ToolRegistry) (limit : Nat) (system : Reconciling)
    (owner : Option Nat) : Prop where
  flag : system.shared.running = owner.isSome
  progress : ∀ call, (system.calls call).inProgress = true ↔ owner = some call
  settled : start.Settled limit (system.applied.getD [])
    (((owner.map fun call => (system.calls call).remaining).getD []).foldl
      (ToolRegistry.apply limit) system.shared.registry)

section Invariant

variable {start : ToolRegistry} {limit : Nat} {system : Reconciling} {owner : Option Nat}
  {call : Nat}

theorem sound_start (plain : start.Plain) (limit : Nat) :
    Sound start limit (.start start) none where
  flag := rfl
  progress call := by simp [Reconciling.start, CycleStage.inProgress]
  settled := ToolRegistry.Settled.start plain

-- A call that does not own the flag can at most be skipped.
theorem Sound.bystander (sound : Sound start limit system owner) {stage : CycleStage}
    (before : (system.calls call).inProgress = false) (after : stage.inProgress = false) :
    Sound start limit { system with calls := place system.calls call stage } owner where
  flag := sound.flag
  progress := by
    refine place_progress sound.progress ?_ fun _ _ => Iff.rfl
    rw [after, ← sound.progress, before]
  settled := by
    have settled := sound.settled
    cases owner with
    | none => exact settled
    | some holder =>
        have different : holder ≠ call := by
          rintro rfl
          rw [(sound.progress holder).mpr rfl] at before
          cases before
        simp only [Option.map_some, place_other _ _ different]
        exact settled

-- The owner goes on, to a stage from which the registry can still be settled.
theorem Sound.keep (sound : Sound start limit system (some call)) {stage : CycleStage}
    {registry : ToolRegistry} {applied : Option (List IndexSummary)}
    (goes : stage.inProgress = true)
    (settled : start.Settled limit (applied.getD [])
      (stage.remaining.foldl (ToolRegistry.apply limit) registry)) :
    Sound start limit
      ⟨{ system.shared with registry := registry }, place system.calls call stage, applied⟩
      (some call) where
  flag := sound.flag
  progress := by
    refine place_progress sound.progress ?_ fun _ _ => Iff.rfl
    rw [goes]
    simp only
  settled := by
    simp only [Option.map_some, place_self]
    exact settled

-- The flag is free: the call takes it, and nothing is to be changed so far.
theorem Sound.take (sound : Sound start limit system none) (call : Nat) :
    Sound start limit
      { system with
        shared := { system.shared with running := true }
        calls := place system.calls call .polling } (some call) where
  flag := rfl
  progress := by
    apply place_progress sound.progress (by simp [CycleStage.inProgress])
    intro other different
    simp [different.symm]
  settled := by
    simp only [Option.map_some, place_self]
    exact sound.settled

-- The owner gives the flag back when it has nothing left to change.
theorem Sound.release (sound : Sound start limit system (some call)) {outcome : CycleOutcome}
    (at_ : system.calls call = .releasing outcome) :
    Sound start limit
      { system with
        shared := { system.shared with running := false }
        calls := place system.calls call (.finished outcome) } none where
  flag := rfl
  progress := by
    apply place_progress sound.progress (by simp [CycleStage.inProgress])
    intro other different
    simp [different.symm]
  settled := by
    have settled := sound.settled
    rw [Option.map_some, at_] at settled
    exact settled

theorem Sound.owner_eq (sound : Sound start limit system owner) (call : Nat)
    (goes : (system.calls call).inProgress = true) : owner = some call :=
  (sound.progress call).mp goes

-- A call in progress is the owner, and with its own remaining changes the registry is settled.
theorem Sound.owned (sound : Sound start limit system owner) {stage : CycleStage}
    (at_ : system.calls call = stage) (goes : stage.inProgress = true) :
    owner = some call ∧ start.Settled limit (system.applied.getD [])
      (stage.remaining.foldl (ToolRegistry.apply limit) system.shared.registry) := by
  obtain rfl := sound.owner_eq call (by rw [at_]; exact goes)
  have settled := sound.settled
  rw [Option.map_some, at_] at settled
  exact ⟨rfl, settled⟩

theorem Sound.owner_none (sound : Sound start limit system owner)
    (free : system.shared.running = false) : owner = none := by
  have flag := sound.flag
  rw [free] at flag
  cases owner with
  | none => rfl
  | some holder => cases flag

theorem Sound.advance (sound : Sound start limit system owner) (plain : start.Plain)
    (answers : Nat → Option (List IndexSummary)) (call : Nat) :
    ∃ next, Sound start limit (system.advance limit answers call) next := by
  cases stage : system.calls call with
  | waiting =>
      cases busy : system.shared.running with
      | true =>
          have idle : (system.calls call).inProgress = false := by
            rw [stage]
            rfl
          refine ⟨owner, ?_⟩
          simp only [Reconciling.advance, stage, CycleStage.step, busy, ↓reduceIte]
          exact sound.bystander idle rfl
      | false =>
          obtain rfl := sound.owner_none busy
          refine ⟨some call, ?_⟩
          simp only [Reconciling.advance, stage, CycleStage.step, busy, Bool.false_eq_true,
            ↓reduceIte]
          exact sound.take call
  | finished outcome =>
      have idle : (system.calls call).inProgress = false := by
        rw [stage]
        rfl
      refine ⟨owner, ?_⟩
      simp only [Reconciling.advance, stage, CycleStage.step]
      exact sound.bystander idle rfl
  | polling =>
      obtain ⟨rfl, settled⟩ := sound.owned stage rfl
      refine ⟨some call, ?_⟩
      cases answer : answers call with
      | none =>
          simp only [Reconciling.advance, stage, CycleStage.step, answer]
          exact sound.keep rfl settled
      | some observed =>
          simp only [Reconciling.advance, stage, CycleStage.step, answer]
          exact sound.keep rfl settled
  | planning observed =>
      obtain ⟨rfl, settled⟩ := sound.owned stage rfl
      refine ⟨some call, ?_⟩
      simp only [Reconciling.advance, stage, CycleStage.step]
      exact sound.keep rfl (settled.reconcile plain observed)
  | applying plan todo =>
      obtain ⟨rfl, settled⟩ := sound.owned stage rfl
      refine ⟨some call, ?_⟩
      cases todo with
      | nil =>
          simp only [Reconciling.advance, stage, CycleStage.step]
          exact sound.keep rfl settled
      | cons change todo =>
          simp only [Reconciling.advance, stage, CycleStage.step]
          exact sound.keep rfl settled
  | releasing outcome =>
      obtain ⟨rfl, _⟩ := sound.owned stage rfl
      refine ⟨none, ?_⟩
      simp only [Reconciling.advance, stage, CycleStage.step]
      exact sound.release stage

/-- After any schedule the system is sound. -/
theorem Sound.run (sound : Sound start limit system owner) (plain : start.Plain)
    (answers : Nat → Option (List IndexSummary)) (schedule : List Nat) :
    ∃ next, Sound start limit (Reconciling.run limit answers schedule system) next := by
  -- The owner passes from one call to the next, so the induction is for every owner.
  induction schedule generalizing system owner with
  | nil => exact ⟨owner, sound⟩
  | cons call rest ih =>
      obtain ⟨next, stepped⟩ := sound.advance plain answers call
      exact ih stepped

theorem Sound.exclusive (sound : Sound start limit system owner) {left right : Nat}
    (first : (system.calls left).inProgress) (second : (system.calls right).inProgress) :
    left = right :=
  Option.some.inj ((sound.owner_eq left first).symm.trans (sound.owner_eq right second))

theorem Sound.quiet (sound : Sound start limit system owner) (quiet : system.Quiet) :
    system.shared.running = false ∧
      start.Settled limit (system.applied.getD []) system.shared.registry := by
  cases owner with
  | none => exact ⟨sound.flag, sound.settled⟩
  | some holder =>
      have goes := (sound.progress holder).mpr rfl
      rw [quiet holder] at goes
      cases goes

-- While one call owns the flag the steps of the others come to nothing.
theorem Sound.others (sound : Sound start limit system (some call))
    (answers : Nat → Option (List IndexSummary)) {other : Nat} (different : other ≠ call) :
    (system.advance limit answers other).shared = system.shared ∧
      (system.advance limit answers other).applied = system.applied ∧
      (system.advance limit answers other).calls call = system.calls call ∧
      Sound start limit (system.advance limit answers other) (some call) := by
  have idle : (system.calls other).inProgress = false := by
    cases goes : (system.calls other).inProgress with
    | false => rfl
    | true =>
        cases sound.owner_eq other goes
        exact absurd rfl different
  have busy : system.shared.running = true := sound.flag
  cases stage : system.calls other with
  | waiting =>
      simp only [Reconciling.advance, stage, CycleStage.step, busy, ↓reduceIte]
      exact ⟨trivial, rfl, place_other _ _ different.symm, sound.bystander idle rfl⟩
  | finished outcome =>
      simp only [Reconciling.advance, stage, CycleStage.step]
      exact ⟨trivial, rfl, place_other _ _ different.symm, sound.bystander idle rfl⟩
  | polling => rw [stage] at idle; cases idle
  | planning observed => rw [stage] at idle; cases idle
  | applying plan todo => rw [stage] at idle; cases idle
  | releasing outcome => rw [stage] at idle; cases idle

theorem Sound.run_others (sound : Sound start limit system (some call))
    (answers : Nat → Option (List IndexSummary)) {others : List Nat}
    (different : ∀ other ∈ others, other ≠ call) :
    (Reconciling.run limit answers others system).shared = system.shared ∧
      (Reconciling.run limit answers others system).applied = system.applied ∧
      (Reconciling.run limit answers others system).calls call = system.calls call ∧
      Sound start limit (Reconciling.run limit answers others system) (some call) := by
  induction others generalizing system with
  | nil => exact ⟨rfl, rfl, rfl, sound⟩
  | cons other rest ih =>
      obtain ⟨shared, applied, calls, stepped⟩ :=
        sound.others answers (different other List.mem_cons_self)
      obtain ⟨sharedAfter, appliedAfter, callsAfter, after⟩ :=
        ih stepped fun later member => different later (List.mem_cons_of_mem _ member)
      exact ⟨sharedAfter.trans shared, appliedAfter.trans applied, callsAfter.trans calls, after⟩

end Invariant

section Calls

variable {limit : Nat} {answers : Nat → Option (List IndexSummary)} {system : Reconciling}
  {call : Nat}

theorem run_around (others : List Nat) :
    system.run limit answers (call :: (others ++ [call])) =
      ((system.advance limit answers call).run limit answers others).advance limit answers
        call := by
  rw [run, List.foldl_cons, List.foldl_append]
  rfl

theorem advance_skipped (waits : system.calls call = .waiting)
    (busy : system.shared.running = true) :
    system.advance limit answers call =
      { system with calls := place system.calls call (.finished .skipped) } := by
  simp only [advance, waits, CycleStage.step, busy, ↓reduceIte]
  rfl

theorem advance_unanswered (polls : system.calls call = .polling) (failed : answers call = none) :
    system.advance limit answers call =
      { system with calls := place system.calls call (.releasing .pollFailed) } := by
  simp only [advance, polls, CycleStage.step, failed]
  rfl

theorem advance_release {outcome : CycleOutcome} (done : system.calls call = .releasing outcome) :
    system.advance limit answers call =
      { system with
        shared := { system.shared with running := false }
        calls := place system.calls call (.finished outcome) } := by
  simp only [advance, done, CycleStage.step]
  rfl

theorem run_untouched {schedule : List Nat} (unnamed : call ∉ schedule) :
    (system.run limit answers schedule).calls call = system.calls call := by
  induction schedule generalizing system with
  | nil => rfl
  | cons first rest ih =>
      rw [List.mem_cons, not_or] at unnamed
      rw [run, List.foldl_cons]
      exact (ih unnamed.2).trans (place_other _ _ unnamed.1)

-- From its plan on, a call that is not interrupted makes all its changes and then stops.
theorem run_changes {plan : ReconcilePlan} (todo : List RegistryChange)
    (at_ : system.calls call = .applying plan todo) :
    ∃ count,
      let after := run limit answers (List.replicate count call) system
      let registry := todo.foldl (ToolRegistry.apply limit) system.shared.registry
      after.calls call = .finished (.applied (plan.report registry)) ∧
        after.shared = ⟨false, registry⟩ := by
  induction todo generalizing system with
  | nil =>
      refine ⟨2, ?_⟩
      simp [run, advance, at_, CycleStage.step]
  | cons change rest ih =>
      have moved : system.advance limit answers call =
          ⟨{ system.shared with registry := system.shared.registry.apply limit change },
            place system.calls call (.applying plan rest), system.applied⟩ := by
        simp [advance, at_, CycleStage.step, CycleStage.observation?]
      have rested : (system.advance limit answers call).calls call = .applying plan rest := by
        rw [moved]
        exact place_self _ _ _
      obtain ⟨count, done⟩ := ih rested
      refine ⟨count + 1, ?_⟩
      rw [moved] at done
      rw [List.replicate_succ, run, List.foldl_cons, moved]
      exact done

/-- A call that is not interrupted comes to what a whole cycle does. -/
theorem run_alone (waits : system.calls call = .waiting) :
    ∃ count,
      let after := run limit answers (List.replicate count call) system
      let (outcome, shared) := system.shared.runCycle limit (answers call)
      after.calls call = .finished outcome ∧ after.shared = shared := by
  cases busy : system.shared.running with
  | true =>
      refine ⟨1, ?_⟩
      simp [run, advance, waits, CycleStage.step, busy, ReconcilerState.runCycle]
  | false =>
      cases answer : answers call with
      | none =>
          refine ⟨3, ?_⟩
          simp [run, advance, waits, CycleStage.step, busy, answer, ReconcilerState.runCycle]
          rw [← busy]
      | some observed =>
          let planned := run limit answers (List.replicate 3 call) system
          have at_ : planned.calls call =
              .applying (ReconcilePlan.of observed system.shared.registry.indices)
                (ReconcilePlan.of observed system.shared.registry.indices).changes := by
            simp [planned, run, advance, waits, CycleStage.step, busy, answer]
          have unchanged : planned.shared.registry = system.shared.registry := by
            simp [planned, run, advance, waits, CycleStage.step, busy, answer]
          obtain ⟨count, done⟩ := run_changes _ at_
          refine ⟨3 + count, ?_⟩
          rw [← List.replicate_append_replicate, run, List.foldl_append]
          rw [unchanged] at done
          simp only [ReconcilerState.runCycle, busy, ToolRegistry.reconcile, Bool.false_eq_true,
            ↓reduceIte]
          exact done

end Calls

/-- What is so of a state that calls from a registry have reached. -/
structure Orderly (start : ToolRegistry) (limit : Nat) (answers : Nat → Option (List IndexSummary))
    (reached : Reconciling) : Prop where
  exclusive : ∀ left right, (reached.calls left).inProgress → (reached.calls right).inProgress →
    left = right
  flag : reached.shared.running ↔ ∃ call, (reached.calls call).inProgress
  skipped : ∀ call, reached.calls call = .waiting → reached.shared.running = true →
    reached.advance limit answers call =
      { reached with calls := place reached.calls call (.finished .skipped) }
  /-- A poll without an answer is followed by the release of the flag, and meanwhile others do
  nothing. -/
  pollFailed : ∀ call others, reached.calls call = .polling → answers call = none →
    (∀ other ∈ others, other ≠ call) →
      let after := reached.run limit answers (call :: (others ++ [call]))
      after.calls call = .finished .pollFailed ∧
        after.shared = { reached.shared with running := false } ∧
        after.applied = reached.applied
  settled : reached.Quiet →
    start.Settled limit (reached.applied.getD []) reached.shared.registry

section Outcome

variable {start : ToolRegistry} {limit : Nat} {answers : Nat → Option (List IndexSummary)}
  {system : Reconciling} {owner : Option Nat} {call : Nat}

theorem Sound.unanswered (sound : Sound start limit system owner)
    (polls : system.calls call = .polling) (failed : answers call = none) {others : List Nat}
    (different : ∀ other ∈ others, other ≠ call) :
    let after := system.run limit answers (call :: (others ++ [call]))
    after.calls call = .finished .pollFailed ∧
      after.shared = { system.shared with running := false } ∧
      after.applied = system.applied := by
  obtain ⟨rfl, settled⟩ := sound.owned polls rfl
  have kept : Sound start limit (system.advance limit answers call) (some call) := by
    rw [advance_unanswered polls failed]
    exact sound.keep rfl settled
  obtain ⟨shared, applied, calls, _⟩ := kept.run_others answers different
  rw [advance_unanswered polls failed] at shared applied calls
  have releases := calls.trans (place_self _ _ _)
  rw [run_around, advance_unanswered polls failed, advance_release releases, shared]
  exact ⟨place_self _ _ _, rfl, applied⟩

theorem Sound.orderly (sound : Sound start limit system owner) :
    Orderly start limit answers system where
  exclusive left right := sound.exclusive
  flag := by
    rw [sound.flag]
    constructor
    · intro taken
      obtain ⟨holder, rfl⟩ := Option.isSome_iff_exists.mp taken
      exact ⟨holder, (sound.progress holder).mpr rfl⟩
    · rintro ⟨holder, goes⟩
      rw [sound.owner_eq holder goes]
      rfl
  skipped call := advance_skipped
  pollFailed call others polls failed different := sound.unanswered polls failed different
  settled quiet := (sound.quiet quiet).2

end Outcome

/-- However calls from a registry without query tools are interleaved, they stay orderly, and two
histories that end with the same observation end with the same registry. -/
theorem reconciler_converges (start : ToolRegistry) (plain : start.Plain) (limit : Nat)
    (answers : Nat → Option (List IndexSummary)) (schedule : List Nat) :
    let reached := run limit answers schedule (.start start)
    Orderly start limit answers reached ∧
      ∀ others otherSchedule,
        let other := run limit others otherSchedule (.start start)
        reached.Quiet → other.Quiet → reached.applied = other.applied →
          reached.shared.registry = other.shared.registry := by
  obtain ⟨_, sound⟩ := (sound_start plain limit).run plain answers schedule
  constructor
  · exact sound.orderly
  · intro others otherSchedule _ quiet quietOther same
    obtain ⟨_, soundOther⟩ := (sound_start plain limit).run plain others otherSchedule
    have settled := (sound.quiet quiet).2
    rw [same] at settled
    exact settled.unique (soundOther.quiet quietOther).2

def echoing : ToolRegistry := .register .empty (.echo "echo")

/-- One call observes a name twice and an invalid one, a second one comes in between, and the poll
of a third one fails. -/
def overlapping : Reconciling :=
  run 5
    (fun call =>
      if call = 0 then some [⟨"docs", "first"⟩, ⟨"docs", "other"⟩, ⟨"a b", ""⟩] else none)
    [0, 0, 1, 0, 0, 0, 0, 2, 2, 2] (.start echoing)

theorem echoing_plain : echoing.Plain := by
  intro name tool found
  have held : (SortedMap.insert ∅ "echo" (Tool.echo "echo")).get? name = some tool := found
  rw [SortedMap.get?_insert] at held
  split at held
  · subst name
    cases held
    exact ⟨rfl, rfl⟩
  · cases held

theorem overlapping_quiet : overlapping.Quiet := by
  intro call
  by_cases named : call ∈ [0, 0, 1, 0, 0, 0, 0, 2, 2, 2]
  · have few : call = 0 ∨ call = 1 ∨ call = 2 := by
      simp only [List.mem_cons, List.not_mem_nil, or_false] at named
      omega
    rcases few with rfl | rfl | rfl <;> rfl
  · rw [overlapping, run_untouched named]
    rfl

theorem overlapping_converges :
    overlapping.calls 1 = .finished .skipped ∧ overlapping.calls 2 = .finished .pollFailed ∧
      overlapping.shared.registry.get? "query-docs" =
        some (.query (QueryTool.new "docs" "first" 5)) ∧
      overlapping.shared.registry.get? "echo" = some (.echo "echo") := by
  have settled := (reconciler_converges echoing echoing_plain 5 _ _).1.settled overlapping_quiet
  exact ⟨rfl, rfl, (settled "query-docs").trans rfl, (settled "echo").trans rfl⟩

end Reconciling
end Corpora
