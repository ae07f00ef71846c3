import Corpora.Proofs.S3.Paging

/-!
The deletion of a bucket. Nothing is removed before the whole listing is there; then the objects
are removed in its order and the bucket behind them, up to the first removal that is not granted.
A removal reaches what it is meant for unless a listed key leads astray by dots.
-/

namespace Corpora.S3

open Wire (Authority Conversation Outcome Reply Sent)

section Row

variable (client : Client) (clock : Time.Clock)

def Client.Grants (calls : List Call) (before : Conversation) (i : Nat) : Prop :=
  ∃ call reply, calls[i]? = some call ∧ client.grantedAt? clock call before i = some reply

/-- The requests of a row of calls, each signed at the time that its place has. -/
def Client.rowRequests (calls : List Call) (before : Conversation) : List Sent :=
  (calls.zipIdx before.sent.length).filterMap fun placed =>
    client.request? (clock.reading placed.2) placed.1

/-- Calls of a row are made one after the other, the next one if the one before is granted. -/
structure Client.Proceeds (calls : List Call) (tried : Nat) (before after : Conversation)
    (answer : Attempt Unit) : Prop where
  tries : 0 < tried
  within : tried ≤ calls.length
  sent : after.sent = before.sent ++ client.rowRequests clock (calls.take tried) before
  goesOn : ∀ i < tried, i + 1 < tried ↔
    client.Grants clock calls before i ∧ i + 1 < calls.length
  answer : answer = .ok () ↔
    tried = calls.length ∧ client.Grants clock calls before (tried - 1)

variable {client clock} {call : Call} {calls : List Call} {before between after : Conversation}
  {operation : String} {answer : Attempt Unit}

theorem grants_first (calls : List Call) (before : Conversation) :
    client.Grants clock (call :: calls) before 0 ↔
      (client.grantedAt? clock call before 0).isSome = true := by
  rw [Option.isSome_iff_exists]
  constructor
  · rintro ⟨_, reply, ⟨⟩, granted⟩
    exact ⟨reply, granted⟩
  · rintro ⟨reply, granted⟩
    exact ⟨call, reply, rfl, granted⟩

theorem rowRequests_cons (longer : between.sent.length = before.sent.length + 1) :
    client.rowRequests clock (call :: calls) before =
      (client.requestAt? clock call before 0).toList ++
        client.rowRequests clock calls between := by
  rw [Client.rowRequests, List.zipIdx_cons, List.filterMap_cons, Client.rowRequests, longer,
    Client.requestAt?, Nat.add_zero]
  cases client.request? (clock.reading before.sent.length) call <;> simp

theorem rowRequests_single (call : Call) (before : Conversation) :
    client.rowRequests clock [call] before = (client.requestAt? clock call before 0).toList := by
  rw [Client.rowRequests, List.zipIdx_singleton, Client.requestAt?, Nat.add_zero]
  cases asked : client.request? (clock.reading before.sent.length) call <;> simp [asked]

theorem performOnly_eq (operation : String) (call : Call) (before : Conversation) :
    client.performOnly clock operation call before =
      ((client.perform clock operation call before).1.map fun _ => (),
        (client.perform clock operation call before).2) := rfl

theorem performOnly_ok_iff : (client.performOnly clock operation call before).1 = .ok () ↔
    client.Grants clock (call :: calls) before 0 := by
  rw [grants_first, ← perform_granted operation call before, performOnly_eq]
  cases (client.perform clock operation call before).1 with
  | error why => exact iff_of_false (nomatch ·) Bool.false_ne_true
  | ok reply => exact iff_of_true rfl rfl

theorem performOnly_ok
    (made : client.performOnly clock operation call before = (.ok (), between)) :
    ∃ request outcome, client.requestAt? clock call before 0 = some request ∧
      before.script = outcome :: between.script ∧ between.sent = before.sent ++ [request] := by
  rw [performOnly_eq] at made
  cases performed : client.perform clock operation call before with
  | mk answer later =>
      rw [performed] at made
      cases answer with
      | error why => cases made
      | ok reply =>
          cases made
          obtain ⟨request, outcome, asked, script, _, sent⟩ := perform_ok performed
          exact ⟨request, outcome, asked, script, sent⟩

theorem performOnly_sent (operation : String) (call : Call) (before : Conversation) :
    (client.performOnly clock operation call before).2.sent =
      before.sent ++ (client.requestAt? clock call before 0).toList :=
  perform_sent operation call before

theorem Client.Proceeds.last {result : Attempt Unit}
    (made : client.performOnly clock operation call before = (result, after))
    (same : answer = .ok () ↔ result = .ok ()) (ends : result = .ok () → calls = []) :
    client.Proceeds clock (call :: calls) 1 before after answer := by
  have granted := @performOnly_ok_iff client clock call calls before operation
  have sent := @performOnly_sent client clock operation call before
  rw [made] at granted sent
  constructor
  · exact Nat.one_pos
  · simp
  · rw [sent, List.take_succ_cons, List.take_zero, rowRequests_single]
  · intro i less
    obtain rfl : i = 0 := by omega
    refine iff_of_false (Nat.lt_irrefl 1) ?_
    rintro ⟨came, more⟩
    rw [ends (granted.mpr came)] at more
    exact Nat.lt_irrefl 1 more
  · rw [same, Nat.sub_self, ← granted, List.length_cons]
    refine ⟨fun ok => ⟨?_, ok⟩, And.right⟩
    rw [ends ok]
    rfl

theorem Client.Proceeds.behind {tried : Nat}
    (made : client.performOnly clock operation call before = (.ok (), between))
    (rest : client.Proceeds clock calls tried between after answer) :
    client.Proceeds clock (call :: calls) (tried + 1) before after answer := by
  obtain ⟨request, outcome, asked, script, sent⟩ := performOnly_ok made
  have longer : between.sent.length = before.sent.length + 1 := by
    rw [sent, List.length_append, List.length_singleton]
  have first : client.Grants clock (call :: calls) before 0 :=
    performOnly_ok_iff.mp (by rw [made])
  have later (i : Nat) : client.Grants clock (call :: calls) before (i + 1) ↔
      client.Grants clock calls between i := by
    rw [Client.Grants, Client.Grants]
    simp only [grantedAt?_succ longer script, List.getElem?_cons_succ]
  have tries := rest.tries
  constructor
  · exact Nat.succ_pos tried
  · exact Nat.succ_le_succ rest.within
  · rw [rest.sent, sent, List.append_assoc, List.take_succ_cons, rowRequests_cons longer, asked]
    rfl
  · intro i less
    cases i with
    | zero =>
        have within := rest.within
        exact iff_of_true (by omega) ⟨first, by rw [List.length_cons]; omega⟩
    | succ i =>
        rw [later, List.length_cons, Nat.add_lt_add_iff_right, Nat.add_lt_add_iff_right]
        exact rest.goesOn i (by omega)
  · obtain ⟨less, rfl⟩ : ∃ less, tried = less + 1 := ⟨tried - 1, by omega⟩
    rw [rest.answer, List.length_cons, Nat.add_right_cancel_iff]
    exact and_congr_right fun _ => (later less).symm

end Row

section Removal

def removalCalls (bucket : String) (objects : List ObjectInfo) : List Call :=
  objects.map (fun object => ⟨.delete, .object bucket object.key, [], [], none⟩) ++
    [⟨.delete, .bucket bucket, [], [], none⟩]

/-- The deletion of a bucket: a listing, and, if it is complete, a row of removals. It is told by
the calls behind the listing, each with its place in the conversation. -/
inductive Client.Deletes (client : Client) (clock : Time.Clock) (bucket : String)
    (before : Conversation) : List (Call × Nat) → Conversation → Attempt Unit → Prop
  | unlisted {count : Nat} {after : Conversation} {why : Failure}
      (listing : client.Lists clock bucket none count before after (.error why)) :
      Deletes client clock bucket before [] after (.error why)
  | listed {count tried : Nat} {between after : Conversation} {objects : List ObjectInfo}
      {answer : Attempt Unit}
      (listing : client.Lists clock bucket none count before between (.ok objects))
      (removal : client.Proceeds clock (removalCalls bucket objects) tried between after answer) :
      Deletes client clock bucket before
        (((removalCalls bucket objects).take tried).zipIdx between.sent.length) after answer

variable {client : Client} {clock : Time.Clock} {now : Time.Instant} {bucket : String}

def Client.removeListed (client : Client) (clock : Time.Clock) (bucket : String)
    (objects : List ObjectInfo) (conversation : Conversation) : Attempt Unit × Conversation :=
  match client.deleteObjects clock bucket objects conversation with
  | (.error why, after) => (.error why, after)
  | (.ok (), after) =>
      client.performOnly clock "DeleteBucket" { method := .delete, address := .bucket bucket } after

theorem deleteBucket_eq (conversation : Conversation) :
    client.deleteBucket clock bucket conversation =
      match client.listObjects clock bucket conversation with
      | (.error why, after) => (.error why, after)
      | (.ok objects, after) => client.removeListed clock bucket objects after := rfl

theorem removeListed_proceeds (objects : List ObjectInfo) (conversation : Conversation) :
    ∃ tried, client.Proceeds clock (removalCalls bucket objects) tried conversation
      (client.removeListed clock bucket objects conversation).2
      (client.removeListed clock bucket objects conversation).1 := by
  induction objects generalizing conversation with
  | nil => exact ⟨1, .last rfl Iff.rfl fun _ => rfl⟩
  | cons object rest ih =>
      rw [Client.removeListed, Client.deleteObjects]
      cases made : client.deleteObject clock bucket object.key conversation with
      | mk result between =>
          cases result with
          | error why =>
              refine ⟨1, .last made (by simp) fun had => ?_⟩
              cases had
          | ok =>
              obtain ⟨tried, proceeds⟩ := ih between
              exact ⟨tried + 1, .behind made proceeds⟩

theorem deleteBucket_deletes (conversation : Conversation) :
    ∃ calls, client.Deletes clock bucket conversation calls
      (client.deleteBucket clock bucket conversation).2
      (client.deleteBucket clock bucket conversation).1 := by
  obtain ⟨count, listing⟩ := listObjects_lists client clock bucket conversation
  rw [deleteBucket_eq]
  cases listed : client.listObjects clock bucket conversation with
  | mk answer between =>
      rw [listed] at listing
      cases answer with
      | error why => exact ⟨_, .unlisted listing⟩
      | ok objects =>
          obtain ⟨tried, proceeds⟩ :=
            @removeListed_proceeds client clock bucket objects between
          exact ⟨_, .listed listing proceeds⟩

/-- A call is sent as a removal of what it is meant for. -/
def Client.RemovesMeant (client : Client) (now : Time.Instant) (call : Call) : Prop :=
  ∃ request, client.request? now call = some request ∧ request.method = .delete ∧
    client.Reaches now call request

theorem removesMeant_iff {scheme : String} {authority : Authority scheme} {objects : List ObjectInfo}
    (here : client.At scheme authority) (able : client.able = true) {call : Call}
    (among : call ∈ removalCalls bucket objects) :
    client.RemovesMeant now call ↔ call.address.Undotted ∧ call.address.Filled := by
  have removal : call.method = .delete ∧ call.contentType = none := by
    rcases List.mem_append.mp among with object | container
    · obtain ⟨_, _, rfl⟩ := List.mem_map.mp object
      exact ⟨rfl, rfl⟩
    · obtain rfl := List.mem_singleton.mp container
      exact ⟨rfl, rfl⟩
  have sent := request?_bare now here able removal.2
  rw [← reaches_iff here sent]
  constructor
  · rintro ⟨request, same, _, reaches⟩
    cases sent.symm.trans same
    exact reaches
  · exact fun reaches => ⟨_, sent, removal.1, reaches⟩

theorem removalCalls_of_deletes {before after : Conversation} {calls : List (Call × Nat)}
    {answer : Attempt Unit} (deletes : client.Deletes clock bucket before calls after answer) :
    ∃ objects, ∀ call place, (call, place) ∈ calls → call ∈ removalCalls bucket objects := by
  cases deletes with
  | unlisted listing => exact ⟨[], fun call place member => absurd member List.not_mem_nil⟩
  | @listed _ _ _ _ objects _ listing removal =>
      exact ⟨objects, fun call place member =>
        List.mem_of_mem_take (List.fst_mem_of_mem_zipIdx member)⟩

/-- Whatever a store answers, the deletion of a bucket keeps to its order, and what it sends behind
the listing removes what it is meant for exactly if no call leads astray by dots or emptiness. -/
theorem deletion_removes_meant_iff (client : Client) (clock : Time.Clock) (bucket : String)
    (conversation : Conversation) : ∃ calls,
    client.Deletes clock bucket conversation calls
      (client.deleteBucket clock bucket conversation).2
      (client.deleteBucket clock bucket conversation).1 ∧
    ∀ scheme (authority : Authority scheme), client.At scheme authority → client.able = true →
      ((∀ call place, (call, place) ∈ calls → client.RemovesMeant (clock.reading place) call) ↔
        ∀ call place, (call, place) ∈ calls → call.address.Undotted ∧ call.address.Filled) := by
  obtain ⟨calls, deletes⟩ := @deleteBucket_deletes client clock bucket conversation
  obtain ⟨objects, among⟩ := removalCalls_of_deletes deletes
  refine ⟨calls, deletes, fun scheme authority here able => ?_⟩
  exact forall₃_congr fun call place member => removesMeant_iff here able (among call place member)

section Single

variable {before after : Conversation} {page : Page}
  (came : client.pageAt? clock bucket none before 0 = some page) (last : page.next? = none)

include came last

theorem Client.Lists.single {count : Nat} {answer : Attempt (List ObjectInfo)}
    (listing : client.Lists clock bucket none count before after answer) :
    answer.toOption = some page.objects := by
  have only : ¬ 1 < count := fun further => by
    obtain ⟨other, next, brought, more⟩ := (listing.goesOn 0 listing.asks).mp further
    cases came.symm.trans brought
    exact Option.some_ne_none next ((next?_eq_some.mpr more).symm.trans last)
  obtain rfl : count = 1 := by
    have asks := listing.asks
    omega
  have pages : client.pages clock bucket none before 1 = [page] := by
    rw [Client.pages, List.range_one, List.filterMap_cons_some came, List.filterMap_nil]
  rw [listing.objects, Nat.sub_self, came, Option.map_some, pages, List.flatMap_singleton]

theorem Client.Deletes.single {calls : List (Call × Nat)} {answer : Attempt Unit}
    (deletes : client.Deletes clock bucket before calls after answer) : ∃ tried start,
      0 < tried ∧ calls = ((removalCalls bucket page.objects).take tried).zipIdx start := by
  cases deletes with
  | unlisted listing => cases listing.single came last
  | listed listing removal =>
      cases listing.single came last
      exact ⟨_, _, removal.tries, rfl⟩

end Single

/-- A bucket with one note in it, and outcomes by which both can be removed. -/
def noteOutcomes : List Outcome :=
  [success (Text.Utf8.encode "<Contents><Key>notes/a b</Key></Contents>"), success [], success []]

theorem note_deletion_removes_meant : localClient.At "http" loopback ∧ localClient.able = true ∧
    ∃ calls, localClient.Deletes Time.Instant.epoch "docs" ⟨noteOutcomes, []⟩ calls
        (localClient.deleteBucket Time.Instant.epoch "docs" ⟨noteOutcomes, []⟩).2
        (localClient.deleteBucket Time.Instant.epoch "docs" ⟨noteOutcomes, []⟩).1 ∧
      calls ≠ [] ∧ ∀ call place, (call, place) ∈ calls →
        localClient.RemovesMeant Time.Instant.epoch call := by
  obtain ⟨calls, deletes, meant⟩ :=
    deletion_removes_meant_iff localClient Time.Instant.epoch "docs" ⟨noteOutcomes, []⟩
  have shown : noteOutcomes[0]?.bind pageOf? =
      some ⟨[⟨"notes/a b", 0, none, Time.Instant.epoch⟩], false, none⟩ := by decide +kernel
  have came := (pageAt?_able localClient_at localClient_able Time.Instant.epoch "docs" none
    ⟨noteOutcomes, []⟩ 0).trans shown
  have named : Index.isValidName "docs" = true := by decide
  have undotted : KeyUndotted "notes/a b" := by
    rw [KeyUndotted]
    decide
  refine ⟨localClient_at, localClient_able, calls, deletes, ?_⟩
  obtain ⟨tried, start, tries, rfl⟩ := deletes.single came rfl
  constructor
  · cases tried with
    | zero => exact absurd tries (Nat.lt_irrefl 0)
    | succ tried => exact List.cons_ne_nil _ _
  · refine (meant _ _ localClient_at localClient_able).mpr fun call place placed => ?_
    have member := List.mem_of_mem_take (List.fst_mem_of_mem_zipIdx placed)
    rcases List.mem_cons.mp member with rfl | container
    · have filled : "notes/a b" ≠ "" := by decide
      exact ⟨undotted_object named undotted, filled⟩
    · obtain rfl := List.mem_singleton.mp container
      exact ⟨undotted_bucket named, name_filled named⟩

theorem performOnly_answered {operation : String} {call : Call} {conversation : Conversation}
    {request : Sent} {reply : Reply} {later : List Outcome}
    (sent : client.requestAt? clock call conversation 0 = some request)
    (script : conversation.script = .answered reply :: later) :
    client.performOnly clock operation call conversation =
      ((Client.accepted operation reply).map fun _ => (),
        ⟨later, conversation.sent ++ [request]⟩) := by
  rw [Client.performOnly, Client.perform, send_answered sent script]
  rfl

theorem listObjects_answered {conversation : Conversation} {request : Sent} {reply : Reply}
    {later : List Outcome}
    (sent : client.requestAt? clock (Client.pageCall bucket none) conversation 0 = some request)
    (script : conversation.script = .answered reply :: later) (accepted : reply.isSuccess = true)
    (last : (Page.ofXml reply.text).next? = none) :
    client.listObjects clock bucket conversation =
      (.ok (Page.ofXml reply.text).objects, ⟨later, conversation.sent ++ [request]⟩) := by
  have fetched : (client.pageSource clock bucket).fetch none conversation =
      (.ok (Page.ofXml reply.text), ⟨later, conversation.sent ++ [request]⟩) := by
    change client.fetchPage clock bucket none conversation = _
    rw [Client.fetchPage, send_answered sent script]
    simp only [Except.bind, Client.accepted, if_pos accepted]
    rfl
  rw [Client.listObjects, objectsFrom_fetched fetched, last]

section Objects

variable {object : ObjectInfo} {objects : List ObjectInfo} {before after : Conversation}
  {why : Failure}

theorem deleteObjects_gone
    (made : client.deleteObject clock bucket object.key before = (.ok (), after)) :
    client.deleteObjects clock bucket (object :: objects) before =
      client.deleteObjects clock bucket objects after := by
  rw [Client.deleteObjects, made]

theorem deleteObjects_kept
    (made : client.deleteObject clock bucket object.key before = (.error why, after)) :
    client.deleteObjects clock bucket (object :: objects) before =
      (.error (why.within ("failed to remove object " ++ object.key)), after) := by
  rw [Client.deleteObjects, made]

theorem removeListed_kept
    (made : client.deleteObjects clock bucket objects before = (.error why, after)) :
    client.removeListed clock bucket objects before = (.error why, after) := by
  rw [Client.removeListed, made]

end Objects

/-- A bucket with a key that points back at it, and an object that cannot be removed. -/
def strayPage : String := "<Contents><Key>../a</Key></Contents><Contents><Key>x</Key></Contents>"

/-- The bucket is asked to go before its objects are gone. -/
theorem stray_deletion : ∃ listing first second why,
    localClient.deleteBucket Time.Instant.epoch "a"
        ⟨[success (Text.Utf8.encode strayPage), .answered ⟨204, none, []⟩,
          .answered ⟨500, none, []⟩], []⟩ = (.error why, ⟨[], [listing, first, second]⟩) ∧
    first.method = .delete ∧ Address.ofPath? first.url.path = some (.bucket "a") ∧
    second.method = .delete ∧ Address.ofPath? second.url.path = some (.object "a" "x") := by
  let listing := localClient.departed Time.Instant.epoch (Client.pageCall "a" none) loopback
  let first := localClient.departed Time.Instant.epoch
    ⟨.delete, .object "a" "../a", [], [], none⟩ loopback
  let second := localClient.departed Time.Instant.epoch
    ⟨.delete, .object "a" "x", [], [], none⟩ loopback
  have sent {call : Call} (bare : call.contentType = none) (before : Conversation) :
      localClient.requestAt? Time.Instant.epoch call before 0 =
        some (localClient.departed Time.Instant.epoch call loopback) :=
    request?_bare _ localClient_at localClient_able bare
  have page : Page.ofXml (Reply.text ⟨200, none, Text.Utf8.encode strayPage⟩) =
      ⟨[⟨"../a", 0, none, Time.Instant.epoch⟩, ⟨"x", 0, none, Time.Instant.epoch⟩], false, none⟩ := by
    decide +kernel
  have listed : localClient.listObjects Time.Instant.epoch "a"
      ⟨[success (Text.Utf8.encode strayPage), .answered ⟨204, none, []⟩,
        .answered ⟨500, none, []⟩], []⟩ =
      (.ok [⟨"../a", 0, none, Time.Instant.epoch⟩, ⟨"x", 0, none, Time.Instant.epoch⟩],
        ⟨[.answered ⟨204, none, []⟩, .answered ⟨500, none, []⟩], [listing]⟩) := by
    rw [listObjects_answered (sent rfl _) rfl rfl (by rw [page]; rfl), page]
    rfl
  have gone : localClient.deleteObject Time.Instant.epoch "a" "../a"
      ⟨[.answered ⟨204, none, []⟩, .answered ⟨500, none, []⟩], [listing]⟩ =
        (.ok (), ⟨[.answered ⟨500, none, []⟩], [listing, first]⟩) := by
    rw [Client.deleteObject, performOnly_answered (sent rfl _) rfl]
    rfl
  have kept : localClient.deleteObject Time.Instant.epoch "a" "x"
      ⟨[.answered ⟨500, none, []⟩], [listing, first]⟩ =
        (.error (Client.refusal "DeleteObject" ⟨500, none, []⟩),
          ⟨[], [listing, first, second]⟩) := by
    rw [Client.deleteObject, performOnly_answered (sent rfl _) rfl]
    rfl
  have back : (Address.object "a" "../a").sentPath = "/a" := by decide +kernel
  have inside : (Address.object "a" "x").sentPath = "/a/x" := by decide +kernel
  have container : Address.ofPath? "/a" = some (.bucket "a") := by decide +kernel
  have object : Address.ofPath? "/a/x" = some (.object "a" "x") := by decide +kernel
  refine ⟨listing, first, second,
    (Client.refusal "DeleteObject" ⟨500, none, []⟩).within "failed to remove object x", ?_, rfl,
    (congrArg Address.ofPath? back).trans container, rfl,
    (congrArg Address.ofPath? inside).trans object⟩
  rw [deleteBucket_eq, listed]
  exact removeListed_kept ((deleteObjects_gone gone).trans (deleteObjects_kept kept))

end Removal

end Corpora.S3
