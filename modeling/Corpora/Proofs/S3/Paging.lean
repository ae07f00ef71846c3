import Corpora.Proofs.S3.Documents

/-!
A listing asks for one page after the other. What is asked for next stands on the page before it;
the listing is complete with the first page that does not go on, and it ends without objects at
the first answer that is no page.
-/

namespace Corpora.S3

open Text (splitAt)
open Text.Percent (decode?)
open Wire (Authority Conversation Outcome Reply Sent)

section Calls

def granted? : Outcome → Option Reply
  | .answered reply => if reply.isSuccess then some reply else none
  | .dropped => none

def Client.requestAt? (client : Client) (clock : Time.Clock) (call : Call) (before : Conversation)
    (i : Nat) : Option Sent :=
  client.request? (clock.reading (before.sent.length + i)) call

/-- The reply of success that a call meets if a number of others go before, and if it can be
sent. -/
def Client.grantedAt? (client : Client) (clock : Time.Clock) (call : Call) (before : Conversation)
    (i : Nat) : Option Reply := do
  let _ ← client.requestAt? clock call before i
  granted? (← before.script[i]?)

variable {client : Client} {clock : Time.Clock}

theorem script_sendIfPossible (conversation : Conversation) (request : Option Sent) :
    (conversation.sendIfPossible request).2.script =
      conversation.script.drop request.toList.length := by
  cases request with
  | none => rfl
  | some request =>
      rw [Conversation.sendIfPossible, Conversation.send]
      cases conversation.script <;> rfl

theorem perform_granted (operation : String) (call : Call) (conversation : Conversation) :
    (client.perform clock operation call conversation).1.toOption =
      client.grantedAt? clock call conversation 0 := by
  simp only [Client.perform, Client.send, Client.grantedAt?, Client.requestAt?, Nat.add_zero]
  cases client.request? (clock.reading conversation.sent.length) call with
  | none => rfl
  | some request =>
      rw [Conversation.sendIfPossible, Conversation.send]
      cases conversation.script with
      | nil => rfl
      | cons outcome later =>
          cases outcome with
          | dropped => rfl
          | answered reply =>
              by_cases success : reply.isSuccess = true
              · simp [Except.bind, Client.accepted, granted?, success, Except.toOption]
              · simp [Except.bind, Client.accepted, granted?, success, Except.toOption]

theorem perform_next (operation : String) (call : Call) (conversation : Conversation) :
    (client.perform clock operation call conversation).2 =
      (conversation.sendIfPossible (client.requestAt? clock call conversation 0)).2 := send_next call

theorem perform_sent (operation : String) (call : Call) (conversation : Conversation) :
    (client.perform clock operation call conversation).2.sent =
      conversation.sent ++ (client.requestAt? clock call conversation 0).toList := by
  rw [perform_next, sent_sendIfPossible]

theorem perform_script (operation : String) (call : Call) (conversation : Conversation) :
    (client.perform clock operation call conversation).2.script =
      conversation.script.drop (client.requestAt? clock call conversation 0).toList.length := by
  rw [perform_next, script_sendIfPossible]

theorem perform_ok {operation : String} {call : Call} {conversation after : Conversation}
    {reply : Reply}
    (performed : client.perform clock operation call conversation = (.ok reply, after)) :
    ∃ request outcome, client.requestAt? clock call conversation 0 = some request ∧
      conversation.script = outcome :: after.script ∧ granted? outcome = some reply ∧
      after.sent = conversation.sent ++ [request] := by
  have granted := @perform_granted client clock operation call conversation
  have sent := @perform_sent client clock operation call conversation
  have left := @perform_script client clock operation call conversation
  rw [performed] at granted sent left
  rw [Client.grantedAt?] at granted
  cases asked : client.requestAt? clock call conversation 0 with
  | none =>
      rw [asked] at granted
      cases granted
  | some request =>
      rw [asked] at granted sent left
      cases script : conversation.script with
      | nil =>
          rw [script] at granted
          cases granted
      | cons outcome later =>
          rw [script] at granted left
          exact ⟨request, outcome, rfl, congrArg (outcome :: ·) left.symm, granted.symm, sent⟩

section Later

variable {call : Call} {before between : Conversation}
  (sent : between.sent.length = before.sent.length + 1)

include sent

theorem requestAt?_succ (i : Nat) :
    client.requestAt? clock call before (i + 1) = client.requestAt? clock call between i := by
  rw [Client.requestAt?, Client.requestAt?, sent, Nat.add_assoc, Nat.add_comm 1 i]

theorem grantedAt?_succ {outcome : Outcome} (script : before.script = outcome :: between.script)
    (i : Nat) :
    client.grantedAt? clock call before (i + 1) = client.grantedAt? clock call between i := by
  rw [Client.grantedAt?, Client.grantedAt?, requestAt?_succ sent, script]
  rfl

end Later

end Calls

section Pages

def pageOf? (outcome : Outcome) : Option Page :=
  (granted? outcome).map fun reply => Page.ofXml reply.text

/-- The token with which each page of a listing is asked for: the one that it starts with, and
then the token of the page before. -/
def tokenAt (token : Option String) (script : List Outcome) : Nat → Option String
  | 0 => token
  | i + 1 => (script[i]?.bind pageOf?).bind Page.nextToken

variable (client : Client) (clock : Time.Clock) (bucket : String) (token : Option String)
  (before : Conversation)

def Client.pageRequest? (i : Nat) : Option Sent :=
  client.requestAt? clock (Client.pageCall bucket (tokenAt token before.script i)) before i

def Client.pageRequests (count : Nat) : List Sent :=
  (List.range count).filterMap (client.pageRequest? clock bucket token before)

def Client.pageAt? (i : Nat) : Option Page :=
  (client.grantedAt? clock (Client.pageCall bucket (tokenAt token before.script i)) before i).map
    fun reply => Page.ofXml reply.text

def Client.pages (count : Nat) : List Page :=
  (List.range count).filterMap (client.pageAt? clock bucket token before)

/-- A listing that asks for a number of pages. It goes on behind each page that is truncated and
has a token, and behind no other; it has objects if the last page comes, and these are the objects
of all pages. -/
structure Client.Lists (count : Nat) (before after : Conversation)
    (answer : Attempt (List ObjectInfo)) : Prop where
  asks : 0 < count
  sent : after.sent = before.sent ++ client.pageRequests clock bucket token before count
  script : after.script =
    before.script.drop (client.pageRequests clock bucket token before count).length
  goesOn : ∀ i < count, i + 1 < count ↔
    ∃ page next, client.pageAt? clock bucket token before i = some page ∧
      page.truncated = true ∧ page.nextToken = some next
  objects : answer.toOption =
    (client.pageAt? clock bucket token before (count - 1)).map fun _ =>
      (client.pages clock bucket token before count).flatMap Page.objects

variable {client clock bucket token before} {after between : Conversation}

theorem fetchPage_eq (conversation : Conversation) :
    client.fetchPage clock bucket token conversation =
      ((client.perform clock "ListObjectsV2" (Client.pageCall bucket token) conversation).1.map
          fun reply => Page.ofXml reply.text,
        (client.perform clock "ListObjectsV2" (Client.pageCall bucket token) conversation).2) := rfl

theorem fetchPage_page (conversation : Conversation) :
    (client.fetchPage clock bucket token conversation).1.toOption =
      client.pageAt? clock bucket token conversation 0 := by
  rw [Client.pageAt?, tokenAt, fetchPage_eq,
    ← perform_granted "ListObjectsV2" (Client.pageCall bucket token) conversation]
  cases (client.perform clock "ListObjectsV2" (Client.pageCall bucket token) conversation).1 <;> rfl

theorem fetchPage_sent (conversation : Conversation) :
    (client.fetchPage clock bucket token conversation).2.sent =
      conversation.sent ++ (client.pageRequest? clock bucket token conversation 0).toList :=
  perform_sent "ListObjectsV2" (Client.pageCall bucket token) conversation

theorem fetchPage_script (conversation : Conversation) :
    (client.fetchPage clock bucket token conversation).2.script =
      conversation.script.drop
        (client.pageRequest? clock bucket token conversation 0).toList.length :=
  perform_script "ListObjectsV2" (Client.pageCall bucket token) conversation

theorem fetchPage_ok {page : Page}
    (fetched : client.fetchPage clock bucket token before = (.ok page, after)) :
    ∃ request outcome, client.pageRequest? clock bucket token before 0 = some request ∧
      before.script = outcome :: after.script ∧ pageOf? outcome = some page ∧
      after.sent = before.sent ++ [request] := by
  rw [fetchPage_eq] at fetched
  cases performed :
      client.perform clock "ListObjectsV2" (Client.pageCall bucket token) before with
  | mk answer later =>
      rw [performed] at fetched
      cases answer with
      | error why => cases fetched
      | ok reply =>
          cases fetched
          obtain ⟨request, outcome, asked, script, granted, sent⟩ := perform_ok performed
          exact ⟨request, outcome, asked, script, by rw [pageOf?, granted]; rfl, sent⟩

theorem next?_eq_some {page : Page} {next : String} :
    page.next? = some next ↔ page.truncated = true ∧ page.nextToken = some next := by
  rw [Page.next?, Option.ite_none_right_eq_some]

section Behind

variable {outcome : Outcome} {page : Page} {next : String}
  (brought : pageOf? outcome = some page) (more : page.nextToken = some next)

include brought more

theorem tokenAt_succ (later : List Outcome) (i : Nat) :
    tokenAt token (outcome :: later) (i + 1) = tokenAt (some next) later i := by
  cases i with
  | zero => simp [tokenAt, brought, more]
  | succ i => rfl

variable (script : before.script = outcome :: between.script)
  (sent : between.sent.length = before.sent.length + 1)

include script sent

theorem pageRequest?_succ (i : Nat) : client.pageRequest? clock bucket token before (i + 1) =
    client.pageRequest? clock bucket (some next) between i := by
  rw [Client.pageRequest?, Client.pageRequest?, script, tokenAt_succ brought more,
    requestAt?_succ sent]

theorem pageRequests_succ (count : Nat) :
    client.pageRequests clock bucket token before (count + 1) =
      (client.pageRequest? clock bucket token before 0).toList ++
        client.pageRequests clock bucket (some next) between count := by
  rw [Client.pageRequests, List.range_succ_eq_map, List.filterMap_cons, List.filterMap_map]
  simp only [Function.comp_def, pageRequest?_succ brought more script sent]
  cases client.pageRequest? clock bucket token before 0 <;> rfl

theorem pageAt?_succ (i : Nat) : client.pageAt? clock bucket token before (i + 1) =
    client.pageAt? clock bucket (some next) between i := by
  rw [Client.pageAt?, Client.pageAt?, script, tokenAt_succ brought more,
    grantedAt?_succ sent script]

end Behind

theorem Client.Lists.last {outcome : Attempt Page}
    (fetched : client.fetchPage clock bucket token before = (outcome, after))
    (ends : ∀ page, outcome = .ok page → page.next? = none) :
    client.Lists clock bucket token 1 before after (outcome.map Page.objects) := by
  have came := @fetchPage_page client clock bucket token before
  have sent := @fetchPage_sent client clock bucket token before
  have script := @fetchPage_script client clock bucket token before
  rw [fetched] at came sent script
  have requests : client.pageRequests clock bucket token before 1 =
      (client.pageRequest? clock bucket token before 0).toList := by
    rw [Client.pageRequests, List.range_one, List.filterMap_cons, List.filterMap_nil]
    cases client.pageRequest? clock bucket token before 0 <;> rfl
  have pages : client.pages clock bucket token before 1 = outcome.toOption.toList := by
    rw [Client.pages, List.range_one, List.filterMap_cons, List.filterMap_nil, ← came]
    cases outcome <;> rfl
  constructor
  · exact Nat.one_pos
  · rw [requests, sent]
  · rw [requests, script]
  · intro i less
    obtain rfl : i = 0 := by omega
    refine iff_of_false (Nat.lt_irrefl 1) ?_
    rintro ⟨page, next, brought, more⟩
    rw [← came] at brought
    cases outcome with
    | error why => cases brought
    | ok other =>
        cases brought
        exact Option.some_ne_none next ((next?_eq_some.mpr more).symm.trans (ends page rfl))
  · rw [pages, Nat.sub_self, ← came]
    cases outcome with
    | error why => rfl
    | ok page => exact congrArg some (List.flatMap_singleton _ _).symm

theorem Client.Lists.behind {count : Nat} {rest : Attempt (List ObjectInfo)} {page : Page}
    {next : String} (fetched : client.fetchPage clock bucket token before = (.ok page, between))
    (more : page.next? = some next)
    (listing : client.Lists clock bucket (some next) count between after rest) :
    client.Lists clock bucket token (count + 1) before after (rest.map (page.objects ++ ·)) := by
  obtain ⟨request, outcome, asked, script, brought, sent⟩ := fetchPage_ok fetched
  have marked := next?_eq_some.mp more
  have longer : between.sent.length = before.sent.length + 1 := by
    rw [sent, List.length_append, List.length_singleton]
  have first : client.pageAt? clock bucket token before 0 = some page := by
    rw [← fetchPage_page, fetched]
    rfl
  have later (i : Nat) : client.pageAt? clock bucket token before (i + 1) =
      client.pageAt? clock bucket (some next) between i :=
    pageAt?_succ brought marked.2 script longer i
  have requests : client.pageRequests clock bucket token before (count + 1) =
      request :: client.pageRequests clock bucket (some next) between count := by
    rw [pageRequests_succ brought marked.2 script longer, asked]
    rfl
  constructor
  · exact Nat.succ_pos count
  · rw [requests, listing.sent, sent, List.append_assoc]
    rfl
  · rw [requests, listing.script, script]
    rfl
  · intro i less
    cases i with
    | zero =>
        have asks := listing.asks
        exact iff_of_true (by omega) ⟨page, next, first, marked⟩
    | succ i =>
        rw [later, ← listing.goesOn i (by omega)]
        omega
  · have last : client.pageAt? clock bucket token before (count + 1 - 1) =
        client.pageAt? clock bucket (some next) between (count - 1) := by
      rw [← later]
      congr 1
      have asks := listing.asks
      omega
    have pages : client.pages clock bucket token before (count + 1) =
        page :: client.pages clock bucket (some next) between count := by
      simp only [Client.pages, List.range_succ_eq_map, List.filterMap_cons, first,
        List.filterMap_map, Function.comp_def, later]
    rw [last, pages, List.flatMap_cons]
    have joined : (rest.map (page.objects ++ ·)).toOption =
        rest.toOption.map (page.objects ++ ·) := by
      cases rest <;> rfl
    rw [joined, listing.objects, Option.map_map]
    rfl

theorem objectsFrom_lists (token : Option String) (conversation : Conversation) :
    ∃ count, client.Lists clock bucket token count conversation
      ((client.pageSource clock bucket).objectsFrom token conversation).2
      ((client.pageSource clock bucket).objectsFrom token conversation).1 := by
  induction token, conversation using
    PageSource.objectsFrom.induct (client.pageSource clock bucket) with
  | case1 token conversation why after fetched =>
      rw [objectsFrom_refused fetched]
      refine ⟨1, .last fetched fun page came => ?_⟩
      cases came
  | case2 token conversation page after fetched last =>
      rw [objectsFrom_fetched fetched, last]
      refine ⟨1, .last fetched fun other came => ?_⟩
      cases came
      exact last
  | case3 token conversation page after fetched next more _ _ _ ih =>
      obtain ⟨count, listing⟩ := ih
      rw [objectsFrom_fetched fetched, more]
      exact ⟨count + 1, .behind fetched more listing⟩

end Pages

section Query

def parameter? (piece : List Char) : Option QueryPair := do
  let name ← decode? (String.ofList (piece.takeWhile (· != '=')))
  let value ← decode? (String.ofList ((piece.dropWhile (· != '=')).drop 1))
  return ⟨name, value⟩

def parameters? (query : String) : Option (List QueryPair) :=
  (splitAt '&' query.toList).mapM parameter?

theorem decode?_encode (text : String) : decode? (Text.Percent.encode text) = some text := by
  rw [decode?, Text.Percent.decodeBytes_encode, Text.Utf8.decode?_encode]

theorem parameter?_pairChars (pair : QueryPair) : parameter? (pairChars pair) = some pair := by
  obtain ⟨name, value⟩ := pairChars_parts pair
  rw [parameter?, name, value, String.ofList_toList, String.ofList_toList, decode?_encode,
    decode?_encode]
  rfl

theorem parameters?_queryText {pairs : List QueryPair} (some : Signature.sortPairs pairs ≠ []) :
    parameters? (Signature.queryText pairs) = Option.some (Signature.sortPairs pairs) := by
  rw [parameters?, splitAt_queryText some, List.mapM_map]
  induction Signature.sortPairs pairs with
  | nil => rfl
  | cons pair rest ih =>
      rw [List.mapM_cons, ih]
      simp only [Function.comp_apply, parameter?_pairChars]
      rfl

def pageParameters (token : Option String) : List QueryPair :=
  (token.map fun token => ⟨"continuation-token", token⟩).toList ++
    [⟨"list-type", "2"⟩, ⟨"max-keys", "1000"⟩]

theorem sortPairs_pageCall (bucket : String) (token : Option String) :
    Signature.sortPairs (Client.pageCall bucket token).query = pageParameters token := by
  cases token with
  | none => rfl
  | some token =>
      have first : "continuation-token" < "list-type" := by decide
      have third : ¬ "max-keys" < "list-type" := by decide
      simp [Client.pageCall, pageParameters, Signature.sortPairs, Signature.insertPair, first, third]

end Query

section Following

variable {scheme : String} {authority : Authority scheme} {client : Client} {now : Time.Instant}

/-- The request for a page tells the token of the page before, and none on the first page. -/
theorem pageRequest_arrives (here : client.At scheme authority) (able : client.able = true)
    (bucket : String) (token : Option String) : ∃ request query,
      client.request? now (Client.pageCall bucket token) = some request ∧ request.method = .get ∧
      request.url.query = some query ∧ parameters? query = some (pageParameters token) := by
  have pairs : Signature.sortPairs (Client.pageCall bucket token).query ≠ [] := by
    rw [sortPairs_pageCall]
    exact List.append_ne_nil_of_right_ne_nil _ (List.cons_ne_nil _ _)
  have query : (client.departed now (Client.pageCall bucket token) authority).url.query =
      some (Signature.queryText (Client.pageCall bucket token).query) := by
    have filled := List.isEmpty_eq_false_iff.mpr (queryText_ne_nil pairs)
    simp only [Client.departed, Client.arrived, filled, Bool.false_eq_true, ↓reduceIte,
      String.ofList_toList]
  refine ⟨_, _, request?_bare now here able rfl, rfl, query, ?_⟩
  rw [parameters?_queryText pairs, sortPairs_pageCall]

theorem pageAt?_able (here : client.At scheme authority) (able : client.able = true)
    (clock : Time.Clock) (bucket : String) (token : Option String) (before : Conversation)
    (i : Nat) : client.pageAt? clock bucket token before i = before.script[i]?.bind pageOf? := by
  obtain ⟨request, _, asked, _⟩ := @pageRequest_arrives _ _ _
    (clock.reading (before.sent.length + i)) here able bucket (tokenAt token before.script i)
  rw [Client.pageAt?, Client.grantedAt?, Client.requestAt?, asked]
  cases before.script[i]? <;> rfl

theorem listObjects_lists (client : Client) (clock : Time.Clock) (bucket : String)
    (conversation : Conversation) : ∃ count, client.Lists clock bucket none count conversation
      (client.listObjects clock bucket conversation).2
      (client.listObjects clock bucket conversation).1 :=
  objectsFrom_lists none conversation

/-- Whatever a store answers, a listing follows its pages, and each request for a page that can be
sent names the page that it is for. -/
theorem listing_follows_pages (client : Client) (clock : Time.Clock) (bucket : String)
    (conversation : Conversation) :
    (∃ count, client.Lists clock bucket none count conversation
      (client.listObjects clock bucket conversation).2
      (client.listObjects clock bucket conversation).1) ∧
    ∀ scheme (authority : Authority scheme), client.At scheme authority → client.able = true →
      ∀ now token, ∃ request query,
        client.request? now (Client.pageCall bucket token) = some request ∧
        request.method = .get ∧ request.url.query = some query ∧
        parameters? query = some (pageParameters token) :=
  ⟨listObjects_lists client clock bucket conversation,
    fun _ _ here able _ token => pageRequest_arrives here able bucket token⟩

/-- Two pages, and an outcome behind them that is not asked for. -/
def notePages : List Outcome :=
  [success (Text.Utf8.encode ("<IsTruncated>true</IsTruncated>" ++
      "<NextContinuationToken>1&amp;2</NextContinuationToken><Contents><Key>a</Key></Contents>")),
    success (Text.Utf8.encode "<Contents><Key>b</Key></Contents>"), .dropped]

theorem note_pages_listed : localClient.At "http" loopback ∧ localClient.able = true ∧
    (localClient.listObjects Time.Instant.epoch "docs" ⟨notePages, []⟩).1 =
      .ok [⟨"a", 0, none, Time.Instant.epoch⟩, ⟨"b", 0, none, Time.Instant.epoch⟩] ∧
    (localClient.listObjects Time.Instant.epoch "docs" ⟨notePages, []⟩).2.script = [.dropped] ∧
    ∃ first second, (localClient.listObjects Time.Instant.epoch "docs" ⟨notePages, []⟩).2.sent =
      [first, second] ∧
      first.url.query.bind parameters? =
        some [⟨"list-type", "2"⟩, ⟨"max-keys", "1000"⟩] ∧
      second.url.query.bind parameters? =
        some [⟨"continuation-token", "1&2"⟩, ⟨"list-type", "2"⟩, ⟨"max-keys", "1000"⟩] := by
  obtain ⟨⟨count, listing⟩, arrives⟩ :=
    listing_follows_pages localClient Time.Instant.epoch "docs" ⟨notePages, []⟩
  have read := arrives "http" loopback localClient_at localClient_able Time.Instant.epoch
  have page := pageAt?_able localClient_at localClient_able Time.Instant.epoch "docs" none
    ⟨notePages, []⟩
  have first : notePages[0]?.bind pageOf? =
      some ⟨[⟨"a", 0, none, Time.Instant.epoch⟩], true, some "1&2"⟩ := by decide +kernel
  have second : notePages[1]?.bind pageOf? =
      some ⟨[⟨"b", 0, none, Time.Instant.epoch⟩], false, none⟩ := by decide +kernel
  obtain rfl : count = 2 := by
    have asks := listing.asks
    have more := (listing.goesOn 0 asks).mpr ⟨_, _, (page 0).trans first, rfl, rfl⟩
    have ends : ¬ 2 < count := fun further => by
      obtain ⟨_, _, came, goesOn, _⟩ := (listing.goesOn 1 more).mp further
      cases came.symm.trans ((page 1).trans second)
      exact Bool.false_ne_true goesOn
    omega
  have token : tokenAt none notePages 1 = some "1&2" := congrArg (·.bind Page.nextToken) first
  obtain ⟨front, frontQuery, asked, _, stands, fields⟩ := read none
  obtain ⟨back, backQuery, askedNext, _, standsNext, fieldsNext⟩ := read (some "1&2")
  have request : localClient.pageRequest? Time.Instant.epoch "docs" none ⟨notePages, []⟩ 0 =
      some front := asked
  have nextRequest : localClient.pageRequest? Time.Instant.epoch "docs" none ⟨notePages, []⟩ 1 =
      some back := by
    rw [Client.pageRequest?, token]
    exact askedNext
  have requests : localClient.pageRequests Time.Instant.epoch "docs" none ⟨notePages, []⟩ 2 =
      [front, back] :=
    (List.filterMap_cons_some request).trans
      (congrArg (front :: ·) (List.filterMap_cons_some nextRequest))
  have pages : localClient.pages Time.Instant.epoch "docs" none ⟨notePages, []⟩ 2 =
      [⟨[⟨"a", 0, none, Time.Instant.epoch⟩], true, some "1&2"⟩,
        ⟨[⟨"b", 0, none, Time.Instant.epoch⟩], false, none⟩] :=
    (List.filterMap_cons_some ((page 0).trans first)).trans
      (congrArg (_ :: ·) (List.filterMap_cons_some ((page 1).trans second)))
  have left := listing.script
  have sent := listing.sent
  have objects := listing.objects
  simp only [requests] at left sent
  simp only [pages, page, second] at objects
  refine ⟨localClient_at, localClient_able, ?_, left, front, back, sent, ?_, ?_⟩
  · cases answer : (localClient.listObjects Time.Instant.epoch "docs" ⟨notePages, []⟩).1 with
    | error why =>
        rw [answer] at objects
        cases objects
    | ok listed =>
        rw [answer] at objects
        cases objects
        rfl
  · rw [stands, Option.bind_some, fields]
    rfl
  · rw [standsNext, Option.bind_some, fieldsNext]
    rfl

end Following

end Corpora.S3
