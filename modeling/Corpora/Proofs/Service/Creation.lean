import Corpora.Proofs.Index.Metadata
import Corpora.Proofs.Service.Armed
import Mathlib.Logic.Function.Basic

/-!
Creations of one index that run at the same time. To ask for the bucket and to make it are two
calls, so several creations may find the name free. The store lets one of them have the bucket,
and until that one has finished it owns it: no other creation gets past its own attempt to make
the bucket, so none of them writes into the bucket or takes it away. A creation that succeeds
owns its bucket for good.
-/

namespace Corpora.Service

section Parts

variable (target : NotificationTarget) (name description : String)

def undo (error : ServiceError) : Program (Answered Index) := do
  rollBack name
  return .error error

def storeMetadata (index : Index) : Program (Answered Index) := do
  match ← Program.object (putMetadata index) with
  | .error why => undo name (.internal "Failed to create index metadata" why)
  | .ok _ => return .ok index

def dateIndex : Program (Answered Index) := do
  storeMetadata name ⟨name, description, ← Program.clock⟩

def armBucket : Program (Answered Index) := do
  match ← Program.object (.setNotification name (target.notification name)) with
  | .error why => undo name (.internal "Failed to configure index notifications" why)
  | .ok _ => dateIndex name description

def makeBucket : Program (Answered Index) := do
  match ← Program.object (.createBucket name) with
  | .error why => return .error (.internal "Failed to create index" why)
  | .ok _ => armBucket target name description

def askForBucket : Program (Answered Index) := do
  match ← Program.object (.bucketExists name) with
  | .error why => return .error (.internal "Failed to check index" why)
  | .ok true => return .error (indexPresent name)
  | .ok false => makeBucket target name description

end Parts

/-- A creation under a name that an index can have begins with the question for its bucket; under
any other name it ends at once. -/
theorem createIndex_cases (target : NotificationTarget) (name description : String) :
    createIndex target name description = askForBucket target name description ∨
      ∃ error, createIndex target name description = Program.done (.error error) := by
  by_cases empty : name.isEmpty
  · refine Or.inr ⟨nameMissing, ?_⟩
    simp only [createIndex, empty, ↓reduceIte]
    rfl
  by_cases valid : Index.isValidName name
  · refine Or.inl ?_
    simp only [createIndex, empty, valid, Bool.not_true, Bool.false_eq_true, ↓reduceIte]
    refine congrArg (Program.call (.object (.bucketExists name))) (funext fun asked => ?_)
    rcases asked with why | _ | _
    · rfl
    · refine congrArg (Program.call (.object (.createBucket name))) (funext fun made => ?_)
      rcases made with why | _
      · rfl
      refine congrArg (Program.call (.object (.setNotification name _))) (funext fun armed => ?_)
      rcases armed with why | _
      · rfl
      refine congrArg (Program.call .clock) (funext fun now => ?_)
      refine congrArg (Program.call (.object (putMetadata ⟨name, description, now⟩)))
        (funext fun stored => ?_)
      rcases stored with why | _ <;> rfl
    · rfl
  · refine Or.inr ⟨nameInvalid, ?_⟩
    simp only [createIndex, empty, valid, Bool.false_eq_true, Bool.not_false, ↓reduceIte]
    rfl

inductive CreationStage where
  | asking
  | making
  | arming
  | dating
  | storing (index : Index)
  | undoing (error : ServiceError)
  | finished (answer : Answered Index)

namespace CreationStage

def rest (target : NotificationTarget) (name description : String) :
    CreationStage → Program (Answered Index)
  | asking => askForBucket target name description
  | making => makeBucket target name description
  | arming => armBucket target name description
  | dating => dateIndex name description
  | storing index => storeMetadata name index
  | undoing error => undo name error
  | finished answer => .done answer

/-- A creation to which the bucket does not belong. -/
def IsBystander : CreationStage → Prop
  | asking | making | finished (.error _) => True
  | _ => False

def Owns (target : NotificationTarget) (name description : String) (bucket : Bucket) :
    CreationStage → Prop
  | arming | undoing _ => True
  | dating => bucket.notification = some (target.notification name)
  | storing index => bucket.notification = some (target.notification name) ∧
      index.name = name ∧ index.description = description ∧ index.createdAt.Regular
  | finished (.ok index) => bucket.notification = some (target.notification name) ∧
      index.name = name ∧ index.description = description ∧ bucket.index? = some index
  | asking | making | finished (.error _) => False

end CreationStage

open CreationStage

inductive CreationStep (target : NotificationTarget) (circumstances : Circumstances)
    (name description : String) (before : Stores) : CreationStage → CreationStage → Stores → Prop
  | asked : CreationStep target circumstances name description before .asking .making before
  | refused {stage : CreationStage} {error : ServiceError}
      (begun : stage = .asking ∨ stage = .making) :
      CreationStep target circumstances name description before stage (.finished (.error error))
        before
  | made (absent : before.objects.buckets.get? name = none) :
      CreationStep target circumstances name description before .making .arming
        { before with objects := before.objects.replace name .empty }
  | armed {bucket : Bucket} (found : before.objects.buckets.get? name = some bucket) :
      CreationStep target circumstances name description before .arming .dating
        { before with
          objects := before.objects.replace name
            { bucket with notification := some (target.notification name) } }
  | unarmed (error : ServiceError) :
      CreationStep target circumstances name description before .arming (.undoing error) before
  | dated (reading : Nat) :
      CreationStep target circumstances name description before .dating
        (.storing ⟨name, description, circumstances.clock reading⟩) before
  | stored {index : Index} {bucket : Bucket} (now : Time.Instant)
      (found : before.objects.buckets.get? index.name = some bucket) :
      CreationStep target circumstances name description before (.storing index)
        (.finished (.ok index))
        { before with
          objects := before.objects.replace index.name
            { bucket with
              objects := bucket.objects.insert Document.metadataKey
                ⟨⟨index.metadata, metadataContentType⟩, now⟩ } }
  | unstored {index : Index} (error : ServiceError) :
      CreationStep target circumstances name description before (.storing index)
        (.undoing error) before
  | undone {error : ServiceError} :
      CreationStep target circumstances name description before (.undoing error)
        (.finished (.error error)) { before with objects := ⟨before.objects.buckets.erase name⟩ }
  | stranded {error : ServiceError} :
      CreationStep target circumstances name description before (.undoing error)
        (.finished (.error error)) before
  | ended {answer : Answered Index} :
      CreationStep target circumstances name description before (.finished answer)
        (.finished answer) before

-- A program that begins with a call on the object store goes on from what is observed.
theorem Program.step_object {α : Type} {call : ObjectCall} {program : Program α}
    {next : Attempt call.Answer → Program α} (begins : program = .call (.object call) next)
    (circumstances : Circumstances) (session : Session) :
    ∃ answer after faults,
      program.step (Session.handle circumstances) session = (next answer, after) ∧
        call.Observed session.stores answer after.stores faults := by
  subst begins
  exact ⟨_, _, _, rfl, handle_observed circumstances session call⟩

section Step

variable {target : NotificationTarget} {circumstances : Circumstances} {name description : String}

/-- Every step of a creation is one of those listed. -/
theorem CreationStage.step_cases (target : NotificationTarget) (circumstances : Circumstances)
    (name description : String) (stage : CreationStage) (session : Session) :
    ∃ next after,
      (stage.rest target name description).step (Session.handle circumstances) session =
        (next.rest target name description, after) ∧
      CreationStep target circumstances name description session.stores stage next
        after.stores := by
  cases stage with
  | asking =>
      obtain ⟨answer, after, faults, stepped, observed⟩ := Program.step_object
        (rfl : askForBucket target name description = _) circumstances session
      rcases answer with why | there | there
      · obtain ⟨kept, _⟩ := observed
        refine ⟨.finished (.error _), after, stepped, ?_⟩
        rw [kept]
        exact .refused (Or.inl rfl)
      · have kept := observed.2.unchanged
        refine ⟨.making, after, stepped, ?_⟩
        rw [kept]
        exact .asked
      · have kept := observed.2.unchanged
        refine ⟨.finished (.error _), after, stepped, ?_⟩
        rw [kept]
        exact .refused (Or.inl rfl)
  | making =>
      obtain ⟨answer, after, faults, stepped, observed⟩ := Program.step_object
        (rfl : makeBucket target name description = _) circumstances session
      rcases answer with why | value
      · obtain ⟨kept, _⟩ := observed
        refine ⟨.finished (.error _), after, stepped, ?_⟩
        rw [kept]
        exact .refused (Or.inr rfl)
      · obtain ⟨objects, ⟨absent, rfl⟩, changed⟩ := observed.2.does rfl
        refine ⟨.arming, after, stepped, ?_⟩
        rw [changed]
        exact .made absent
  | arming =>
      obtain ⟨answer, after, faults, stepped, observed⟩ := Program.step_object
        (rfl : armBucket target name description = _) circumstances session
      rcases answer with why | value
      · obtain ⟨kept, _⟩ := observed
        refine ⟨.undoing _, after, stepped, ?_⟩
        rw [kept]
        exact .unarmed _
      · obtain ⟨objects, ⟨bucket, found, rfl⟩, changed⟩ := observed.2.does rfl
        refine ⟨.dating, after, stepped, ?_⟩
        rw [changed]
        exact .armed found
  | dating => exact ⟨.storing _, _, rfl, .dated session.clockReads⟩
  | storing index =>
      obtain ⟨answer, after, faults, stepped, observed⟩ := Program.step_object
        (rfl : storeMetadata name index = _) circumstances session
      rcases answer with why | value
      · obtain ⟨kept, _⟩ := observed
        refine ⟨.undoing _, after, stepped, ?_⟩
        rw [kept]
        exact .unstored _
      · obtain ⟨objects, ⟨bucket, now, found, rfl⟩, changed⟩ := observed.2.does rfl
        refine ⟨.finished (.ok index), after, stepped, ?_⟩
        rw [changed]
        exact .stored now found
  | undoing error =>
      obtain ⟨answer, after, faults, stepped, observed⟩ := Program.step_object
        (rfl : undo name error = _) circumstances session
      refine ⟨.finished (.error error), after, stepped, ?_⟩
      rcases answer with why | value
      · obtain ⟨kept, _⟩ := observed
        rw [kept]
        exact .stranded
      · obtain ⟨objects, ⟨bucket, found, rfl⟩, changed⟩ := observed.2.does rfl
        rw [changed]
        exact .undone
  | finished answer => exact ⟨.finished answer, session, rfl, .ended⟩

end Step

structure Creations where
  session : Session
  calls : Nat → Program (Answered Index)

namespace Creations

/-- No creation has begun. They all have the same name in mind, each with a description of its
own. -/
def start (target : NotificationTarget) (name : String) (descriptions : Nat → String)
    (session : Session) : Creations :=
  ⟨session, fun call => createIndex target name (descriptions call)⟩

def advance (circumstances : Circumstances) (system : Creations) (call : Nat) : Creations :=
  let (program, session) := (system.calls call).step (Session.handle circumstances) system.session
  ⟨session, Function.update system.calls call program⟩

def run (circumstances : Circumstances) (schedule : List Nat) (system : Creations) : Creations :=
  schedule.foldl (advance circumstances) system

def Returned (system : Creations) (call : Nat) (answer : Answered Index) : Prop :=
  system.calls call = .done answer

def bucket? (system : Creations) (name : String) : Option Bucket :=
  system.session.stores.objects.buckets.get? name

/-- All creations but the owner are bystanders, the bucket is what the owner has made of it, and
other buckets are as they were. -/
structure Sound (target : NotificationTarget) (name : String) (descriptions : Nat → String)
    (before : ObjectStore) (system : Creations) (stages : Nat → CreationStage)
    (owner : Option Nat) : Prop where
  calls : ∀ call, system.calls call = (stages call).rest target name (descriptions call)
  bystanders : ∀ call, owner ≠ some call → (stages call).IsBystander
  owned : ∀ call, owner = some call → ∃ bucket, system.bucket? name = some bucket ∧
    (stages call).Owns target name (descriptions call) bucket
  others : ∀ other, other ≠ name → system.bucket? other = before.buckets.get? other

section Invariant

variable {target : NotificationTarget} {circumstances : Circumstances} {name : String}
  {descriptions : Nat → String} {before : ObjectStore} {system : Creations}
  {stages : Nat → CreationStage} {owner : Option Nat} {call : Nat}

theorem sound_start (target : NotificationTarget) (name : String) (descriptions : Nat → String)
    (session : Session) :
    ∃ stages, Sound target name descriptions session.stores.objects
      (start target name descriptions session) stages none := by
  have begins : ∀ call, ∃ stage : CreationStage, stage.IsBystander ∧
      createIndex target name (descriptions call) = stage.rest target name (descriptions call) := by
    intro call
    rcases createIndex_cases target name (descriptions call) with asks | ⟨error, ends⟩
    · exact ⟨.asking, trivial, asks⟩
    · exact ⟨.finished (.error error), trivial, ends⟩
  obtain ⟨stages, known⟩ := Classical.axiomOfChoice begins
  refine ⟨stages, fun call => (known call).2, fun call _ => (known call).1, ?_, fun _ _ => rfl⟩
  rintro call owns
  cases owns

-- A creation moves on to its next stage; all that can change is who owns the bucket.
theorem Sound.place (sound : Sound target name descriptions before system stages owner)
    {next : CreationStage} {after : Session} {heir : Option Nat}
    (others : ∀ other, other ≠ call → owner = some other → heir = some other)
    (bystander : heir ≠ some call → next.IsBystander)
    (owned : ∀ holder, heir = some holder → ∃ bucket,
      after.stores.objects.buckets.get? name = some bucket ∧
        (Function.update stages call next holder).Owns target name (descriptions holder) bucket)
    (frame : ∀ other, other ≠ name →
      after.stores.objects.buckets.get? other = system.bucket? other) :
    Sound target name descriptions before
      ⟨after, Function.update system.calls call (next.rest target name (descriptions call))⟩
      (Function.update stages call next) heir where
  calls other := by
    by_cases same : other = call
    · subst same
      simp only [Function.update_self]
    · simp only [Function.update_of_ne same]
      exact sound.calls other
  bystanders other free := by
    by_cases same : other = call
    · subst same
      rw [Function.update_self]
      exact bystander free
    · rw [Function.update_of_ne same]
      exact sound.bystanders other fun owns => free (others other same owns)
  owned := owned
  others other different := (frame other different).trans (sound.others other different)

-- A bystander has been refused, or has found the name free and is going to try.
theorem Sound.bystander (sound : Sound target name descriptions before system stages owner)
    {next : CreationStage} {after : Session} (free : owner ≠ some call)
    (bystander : next.IsBystander) (kept : after.stores = system.session.stores) :
    Sound target name descriptions before
      ⟨after, Function.update system.calls call (next.rest target name (descriptions call))⟩
      (Function.update stages call next) owner := by
  refine sound.place (fun _ _ owns => owns) (fun _ => bystander) ?_ ?_
  · intro holder owns
    have different : holder ≠ call := by
      rintro rfl
      exact free owns
    obtain ⟨bucket, held, stage⟩ := sound.owned holder owns
    rw [kept, Function.update_of_ne different]
    exact ⟨bucket, held, stage⟩
  · intro other _
    rw [kept]
    rfl

-- The owner goes on, or a creation becomes the owner of a bucket that nobody owned.
theorem Sound.own (sound : Sound target name descriptions before system stages owner)
    {next : CreationStage} {after : Session} {bucket : Bucket}
    (alone : ∀ other, owner = some other → other = call)
    (held : after.stores.objects.buckets.get? name = some bucket)
    (owns : next.Owns target name (descriptions call) bucket)
    (frame : ∀ other, other ≠ name →
      after.stores.objects.buckets.get? other = system.bucket? other) :
    Sound target name descriptions before
      ⟨after, Function.update system.calls call (next.rest target name (descriptions call))⟩
      (Function.update stages call next) (some call) := by
  refine sound.place ?_ (fun other => absurd rfl other) ?_ frame
  · intro other different owned
    exact absurd (alone other owned) different
  · rintro holder same
    cases same
    rw [Function.update_self]
    exact ⟨bucket, held, owns⟩

-- The owner has failed; whether the bucket is gone or not, nobody owns it any more.
theorem Sound.release (sound : Sound target name descriptions before system stages (some call))
    {error : ServiceError} {after : Session}
    (frame : ∀ other, other ≠ name →
      after.stores.objects.buckets.get? other = system.bucket? other) :
    Sound target name descriptions before
      ⟨after, Function.update system.calls call
        (CreationStage.rest target name (descriptions call) (.finished (.error error)))⟩
      (Function.update stages call (.finished (.error error))) none := by
  refine sound.place ?_ (fun _ => trivial) ?_ frame
  · intro other different owned
    exact absurd (Option.some.inj owned).symm different
  · intro holder owned
    cases owned

-- A step of the owner.
theorem Sound.owner_step (sound : Sound target name descriptions before system stages (some call))
    (regular : ∀ number, (circumstances.clock number).Regular) {next : CreationStage}
    {after : Session}
    (moved : CreationStep target circumstances name (descriptions call) system.session.stores
      (stages call) next after.stores) :
    ∃ owner, Sound target name descriptions before
      ⟨after, Function.update system.calls call (next.rest target name (descriptions call))⟩
      (Function.update stages call next) owner := by
  obtain ⟨bucket, held, owns⟩ := sound.owned call rfl
  have alone : ∀ other, some call = some other → other = call := by
    rintro other same
    cases same
    rfl
  have unmoved : after.stores = system.session.stores →
      after.stores.objects.buckets.get? name = some bucket ∧ ∀ other, other ≠ name →
        after.stores.objects.buckets.get? other = system.bucket? other := by
    intro kept
    rw [kept]
    exact ⟨held, fun _ _ => rfl⟩
  have changed : ∀ new : Bucket, after.stores =
        { system.session.stores with
          objects := system.session.stores.objects.replace name new } →
      after.stores.objects.buckets.get? name = some new ∧ ∀ other, other ≠ name →
        after.stores.objects.buckets.get? other = system.bucket? other := by
    intro new put
    rw [put]
    exact ⟨SortedMap.get?_insert_self _ _ _, fun other different =>
      SortedMap.get?_insert_of_ne _ _ different⟩
  have same : ∀ {found : Bucket}, system.session.stores.objects.buckets.get? name = some found →
      found = bucket := fun there => Option.some.inj (there.symm.trans held)
  generalize stage : stages call = current at moved owns
  generalize kept : after.stores = stores at moved
  cases moved with
  | asked => exact owns.elim
  | refused begun => rcases begun with rfl | rfl <;> exact owns.elim
  | made absent => exact owns.elim
  | armed found =>
      obtain ⟨there, frame⟩ := changed _ kept
      exact ⟨some call, sound.own alone there rfl frame⟩
  | unarmed error =>
      obtain ⟨there, frame⟩ := unmoved kept
      exact ⟨some call, sound.own alone there trivial frame⟩
  | dated reading =>
      obtain ⟨there, frame⟩ := unmoved kept
      exact ⟨some call, sound.own alone there ⟨owns, rfl, rfl, regular reading⟩ frame⟩
  | @stored index found now there =>
      obtain ⟨armed, rfl, described, dated⟩ := owns
      obtain rfl := same there
      obtain ⟨stored, frame⟩ := changed _ kept
      refine ⟨some call, sound.own alone stored ⟨armed, rfl, described, ?_⟩ frame⟩
      simp only [Bucket.index?, SortedMap.get?_insert_self, Option.bind_some]
      exact Index.ofMetadata?_metadata index dated
  | unstored error =>
      obtain ⟨there, frame⟩ := unmoved kept
      exact ⟨some call, sound.own alone there trivial frame⟩
  | undone =>
      refine ⟨none, sound.release ?_⟩
      intro other different
      rw [kept, SortedMap.get?_erase, if_neg different]
      rfl
  | stranded => exact ⟨none, sound.release (unmoved kept).2⟩
  | ended =>
      obtain ⟨there, frame⟩ := unmoved kept
      exact ⟨some call, sound.own alone there owns frame⟩

-- A step of any other creation. It gets the bucket only if nobody has it.
theorem Sound.bystander_step
    (sound : Sound target name descriptions before system stages owner) (free : owner ≠ some call)
    {next : CreationStage} {after : Session}
    (moved : CreationStep target circumstances name (descriptions call) system.session.stores
      (stages call) next after.stores) :
    ∃ owner, Sound target name descriptions before
      ⟨after, Function.update system.calls call (next.rest target name (descriptions call))⟩
      (Function.update stages call next) owner := by
  have waits := sound.bystanders call free
  generalize stage : stages call = current at moved waits
  generalize kept : after.stores = stores at moved
  cases moved with
  | asked => exact ⟨owner, sound.bystander free trivial kept⟩
  | refused begun => exact ⟨owner, sound.bystander free trivial kept⟩
  | made absent =>
      have made : after.stores.objects.buckets.get? name = some .empty := by
        rw [kept]
        exact SortedMap.get?_insert_self _ _ _
      refine ⟨some call, sound.own ?_ made trivial ?_⟩
      · intro other owns
        obtain ⟨bucket, held, _⟩ := sound.owned other owns
        exact absurd (held.symm.trans absent) (Option.some_ne_none bucket)
      · intro other different
        rw [kept]
        exact SortedMap.get?_insert_of_ne _ _ different
  | ended => exact ⟨owner, sound.bystander free waits kept⟩
  | _ => exact waits.elim

theorem Sound.advance (sound : Sound target name descriptions before system stages owner)
    (regular : ∀ number, (circumstances.clock number).Regular) (call : Nat) :
    ∃ stages owner, Sound target name descriptions before (system.advance circumstances call)
      stages owner := by
  obtain ⟨next, after, stepped, moved⟩ := (stages call).step_cases target circumstances name
    (descriptions call) system.session
  have reached : system.advance circumstances call =
      ⟨after, Function.update system.calls call
        (next.rest target name (descriptions call))⟩ := by
    simp only [Creations.advance, sound.calls call, stepped]
  rw [reached]
  refine ⟨Function.update stages call next, ?_⟩
  by_cases owns : owner = some call
  · subst owns
    exact sound.owner_step regular moved
  · exact sound.bystander_step owns moved

/-- After any schedule the system is sound. -/
theorem Sound.run (sound : Sound target name descriptions before system stages owner)
    (regular : ∀ number, (circumstances.clock number).Regular) (schedule : List Nat) :
    ∃ stages owner, Sound target name descriptions before (system.run circumstances schedule)
      stages owner := by
  -- The bucket passes from one owner to the next, so the induction is for every owner.
  induction schedule generalizing system stages owner with
  | nil => exact ⟨stages, owner, sound⟩
  | cons call rest ih =>
      obtain ⟨_, _, stepped⟩ := sound.advance regular call
      exact ih stepped

theorem returned_advance {answer : Answered Index} (returned : system.Returned call answer)
    (other : Nat) : (system.advance circumstances other).Returned call answer := by
  by_cases same : call = other
  · subst same
    have ended : system.calls call = .done answer := returned
    simp only [Returned, Creations.advance, ended, Program.step, Function.update_self]
  · simp only [Returned, Creations.advance, Function.update_of_ne same]
    exact returned

theorem returned_run {answer : Answered Index} (returned : system.Returned call answer)
    (schedule : List Nat) : (system.run circumstances schedule).Returned call answer := by
  induction schedule generalizing system with
  | nil => exact returned
  | cons other rest ih => exact ih (returned_advance returned other)

-- Only a creation that owns the bucket can have succeeded.
theorem Sound.winner (sound : Sound target name descriptions before system stages owner)
    {index : Index} (returned : system.Returned call (.ok index)) :
    owner = some call ∧ index.name = name ∧ index.description = descriptions call ∧
      ∃ bucket, system.bucket? name = some bucket ∧
        bucket.notification = some (target.notification name) ∧ bucket.index? = some index := by
  have stage : stages call = .finished (.ok index) := by
    have ended := (sound.calls call).symm.trans returned
    generalize stages call = stage at ended
    cases stage with
    | finished answer =>
        cases ended
        rfl
    | _ => cases ended
  have owns : owner = some call := by
    by_contra free
    have waits := sound.bystanders call free
    rw [stage] at waits
    exact waits
  obtain ⟨bucket, held, armed, named, described, read⟩ := stage ▸ sound.owned call owns
  exact ⟨owns, named, described, bucket, held, armed, read⟩

end Invariant

/-- However creations of one index are interleaved and whichever of their calls fail, at most one
succeeds. From then on its bucket is armed and holds the index that was answered, whatever the
others still do; and no creation touches another bucket. -/
theorem one_creation_prevails (target : NotificationTarget) (circumstances : Circumstances)
    (regular : ∀ number, (circumstances.clock number).Regular) (name : String)
    (descriptions : Nat → String) (session : Session) (schedule : List Nat) :
    let reached := run circumstances schedule (start target name descriptions session)
    (∀ left right first second, reached.Returned left (.ok first) →
      reached.Returned right (.ok second) → left = right) ∧
    (∀ call index, reached.Returned call (.ok index) →
      index.name = name ∧ index.description = descriptions call ∧
        ∀ later : List Nat, ∃ bucket, (reached.run circumstances later).bucket? name = some bucket ∧
          bucket.notification = some (target.notification name) ∧ bucket.index? = some index) ∧
    ∀ other, other ≠ name →
      reached.bucket? other = session.stores.objects.buckets.get? other := by
  obtain ⟨_, begun⟩ := sound_start target name descriptions session
  obtain ⟨_, _, sound⟩ := begun.run regular schedule
  refine ⟨?_, ?_, sound.others⟩
  · intro left right first second won wonToo
    exact Option.some.inj ((sound.winner won).1.symm.trans (sound.winner wonToo).1)
  · intro call index won
    obtain ⟨_, named, described, _⟩ := sound.winner won
    refine ⟨named, described, ?_⟩
    intro later
    obtain ⟨_, _, still⟩ := sound.run regular later
    exact (still.winner (returned_run won later)).2.2.2

def refusing : Circumstances where
  objectFate number call :=
    match call with
    | .setNotification .. => if number < 6 then .failed (.because "not now") else .performed
    | _ => .performed
  statusFate _ _ := .performed
  clock _ := Time.Instant.epoch
  ids _ := ""

def contenders : Nat → String
  | 0 => "first"
  | 1 => "second"
  | _ => "third"

/-- Three creations find the name free. The first one gets the bucket, while the second one tries
in vain, and has to take it away again; only then the third one makes it. -/
def contended : Creations :=
  run refusing [0, 1, 2, 0, 1, 0, 0, 2, 2, 2, 2]
    (start ⟨"q", "webhook", "", []⟩ "a" contenders (.start ⟨.empty, .memory .empty⟩))

theorem contended_prevails :
    (∀ number, (refusing.clock number).Regular) ∧
      contended.Returned 0
        (.error (.internal "Failed to configure index notifications" (.because "not now"))) ∧
      contended.Returned 2 (.ok ⟨"a", "third", Time.Instant.epoch⟩) ∧
      ∃ bucket, (contended.run refusing [0, 1, 2]).bucket? "a" = some bucket ∧
        bucket.notification =
          some (NotificationTarget.notification ⟨"q", "webhook", "", []⟩ "a") ∧
        bucket.index? = some ⟨"a", "third", Time.Instant.epoch⟩ := by
  have regular : ∀ number, (refusing.clock number).Regular := fun _ => Time.Instant.regular_epoch
  have won : contended.Returned 2 (.ok ⟨"a", "third", Time.Instant.epoch⟩) := by
    unfold Returned
    rfl
  have undone : contended.Returned 0
      (.error (.internal "Failed to configure index notifications" (.because "not now"))) := by
    unfold Returned
    rfl
  have prevails := one_creation_prevails ⟨"q", "webhook", "", []⟩ refusing regular "a" contenders
    (.start ⟨.empty, .memory .empty⟩) [0, 1, 2, 0, 1, 0, 0, 2, 2, 2, 2]
  exact ⟨regular, undone, won, (prevails.2.1 2 _ won).2.2 [0, 1, 2]⟩

end Creations
end Corpora.Service
