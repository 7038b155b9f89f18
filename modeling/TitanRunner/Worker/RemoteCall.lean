import TitanRunner.Worker.RemoteTools

/-!
# Calls of a remote tool

`openSession` and `callRemoteTool` of `mcpClient.js`: a modern request first, then the handshake
of the older protocol and a second request.  The server may answer anything.
-/

namespace TitanRunner

namespace RemoteCall

open Utf16 RemoteTools

/-- `MODERN_VERSION` -/
def modernVersion : Utf16 := ofString "2026-07-28"

/-- `LEGACY_VERSION` -/
def legacyVersion : Utf16 := ofString "2025-11-25"

/-- `McpClientError` -/
structure McpClientError where
  code : String
  message : Utf16
  status : Nat := 502

/-! ## Answers -/

/-- An answer that `safeFetch` hands on: it refuses a redirect. -/
structure Reply where
  status : Nat
  /-- The content type is that of a stream. -/
  eventStream : Bool := false
  sessionId : Option Utf16 := none
  text : Utf16
  proper : 200 ≤ status ∧ status < 300 ∨ 400 ≤ status ∧ status < 600

/-- What a `fetch` comes to. -/
abbrev Answer := Except McpClientError Reply

/-- Put a unit before the first piece. -/
def glue (unit : UInt16) : List Utf16 → List Utf16
  | [] => [[unit]]
  | piece :: pieces => (unit :: piece) :: pieces

/-- `text.split(/\r?\n/)` -/
def linesOf : Utf16 → List Utf16
  | [] => [[]]
  | 0xD :: 0xA :: rest | 0xA :: rest => [] :: linesOf rest
  | unit :: rest => glue unit (linesOf rest)

/-- `text.split(/\r?\n\r?\n/)` -/
def blocksOf : Utf16 → List Utf16
  | [] => [[]]
  | 0xD :: 0xA :: 0xD :: 0xA :: rest | 0xD :: 0xA :: 0xA :: rest | 0xA :: 0xD :: 0xA :: rest
  | 0xA :: 0xA :: rest => [] :: blocksOf rest
  | unit :: rest => glue unit (blocksOf rest)

/-- The data lines of a block. -/
def dataOf (block : Utf16) : Utf16 :=
  join [0xA] ((linesOf block).filterMap fun line =>
    if (ofString "data:").isPrefixOf line then
      match line.drop 5 with
      | 0x20 :: rest => some rest
      | rest => some rest
    else none)

/-- The JSON-RPC id of a message; a notification has none. -/
def hasId (message : Json) (id : Option Nat) : Bool :=
  match message.member (ofString "id"), id with
  | some .null, none => true
  | some value, some id => Validate.same value (.number (ofNat id))
  | _, _ => false

def isAnswer (message : Json) : Bool :=
  (message.member (ofString "result")).isSome || (message.member (ofString "error")).isSome

/-- The messages of a stream. -/
def messagesOf (text : Utf16) : List Json :=
  (blocksOf text).filterMap fun block =>
    let data := dataOf block
    if data.isEmpty then none else Json.parse data

def parseSse (text : Utf16) (id : Option Nat) : Json :=
  let messages := (messagesOf text).filter isAnswer
  (messages.find? (hasId · id)).getD (messages.getLast?.getD .null)

/-- The message of an answer, `null` where there is none. -/
def Reply.message (reply : Reply) (id : Option Nat) : Json :=
  if reply.eventStream then parseSse reply.text id
  else (Json.parse reply.text).getD .null

/-! ## Requests -/

inductive Era where
  | legacy | modern
  deriving DecidableEq, Repr

/-- A request that is sent. -/
inductive Message where
  | initialize' (id : Nat) (version : Utf16)
  | initialized
  | request (era : Era) (id : Nat) (method name : Utf16)
  deriving DecidableEq

/-- A request with its answer. -/
structure Exchange where
  message : Message
  answer : Answer

/-- The answers to come, and the exchanges so far. -/
structure Wire where
  answers : List Answer
  sent : List Exchange := []

/-- One `post`.  With no answer left the call times out. -/
def Wire.post (wire : Wire) (message : Message) : Answer × Wire :=
  let answer := wire.answers.head?.getD
    (.error { code := "timeout", message := ofString "The call timed out." })
  (answer, { answers := wire.answers.tail, sent := wire.sent ++ [⟨message, answer⟩] })

/-! ## The session -/

structure Session where
  era : Option Era := none
  version : Option Utf16 := none
  sessionId : Option Utf16 := none
  handshook : Bool := false
  nextId : Nat := 1

/-- `String(value).slice(0, 160)` of a member, or of a default. -/
def excerpt (error : Json) (fallback : Utf16) : Utf16 :=
  (((present error "message").map Validate.display).getD fallback).take 160

def refused (status : Nat) : Bool := status = 401 || status = 403

def remoteAuth (status : Nat) : McpClientError where
  code := "remote_auth"
  message := ofString "The server answered " ++ ofNat status ++
    ofString ". Check the bearer token."
  status := 401

def remoteError (before : String) (error : Json) (fallback : Utf16) : McpClientError where
  code := "remote_error"
  message := ofString before ++ excerpt error fallback

/-- `message?.error` that counts as true. -/
def errorOf (message : Json) : Option Json :=
  (message.member (ofString "error")).filter Json.truthy

def initializeFailed (status : Nat) (message : Json) : McpClientError where
  code := "initialize_failed"
  message := ofString "The server did not accept initialize (HTTP " ++ ofNat status ++
    ofString ")" ++
    (match (errorOf message).bind fun error =>
        (error.member (ofString "message")).filter Json.truthy with
      | some why => ofString ": " ++ (Validate.display why).take 160
      | none => []) ++ ofString "."

/-- The answer to `initialize`. -/
def accepts (reply : Reply) (id : Nat) : Except McpClientError Json :=
  let message := reply.message (some id)
  if refused reply.status then .error (remoteAuth reply.status)
  else if reply.status ≥ 400 || !message.truthy || (errorOf message).isSome then
    .error (initializeFailed reply.status message)
  else .ok message

/-- `legacyHandshake`; the era that `remember` stores is the one of the session. -/
def Session.legacyHandshake (session : Session) (version : Option Utf16) (wire : Wire) :
    Except McpClientError Session × Wire :=
  let id := session.nextId
  let (answer, wire) := wire.post (.initialize' id (version.getD legacyVersion))
  match answer with
  | .error error => (.error error, wire)
  | .ok reply =>
      match accepts reply id with
      | .error error => (.error error, wire)
      | .ok message =>
          let told := ((message.member (ofString "result")).bind fun result =>
            present result "protocolVersion").map Validate.display
          (.ok { session with
            era := some .legacy
            version := some (told.getD (version.getD legacyVersion))
            sessionId := reply.sessionId
            nextId := id + 1 }, (wire.post .initialized).2)

/-- What follows from the answer to a modern request. -/
inductive Next where
  | returns (result : Json)
  | throws (error : McpClientError)
  | handshake (version : Utf16)

/-- The code of a message's error, where it is one of `MODERN_ERRORS`. -/
def modernError (message : Json) : Option Int :=
  ((((message.member (ofString "error")).bind fun error =>
    error.member (ofString "code")).bind Json.integer?).filter
      fun code => code = -32020 || code = -32021 || code = -32022)

/-- `res.message.error.data?.supported`, where it is a list without the modern version. -/
def olderVersions (message : Json) : Option (List Json) :=
  ((((message.member (ofString "error")).bind fun error =>
    error.member (ofString "data")).bind fun data =>
      data.member (ofString "supported")).bind Json.array?).filter
        fun supported => !supported.any fun value => value.string? = some modernVersion

/-- The first version of a list that the older protocol has. -/
def olderVersion (supported : List Json) : Utf16 :=
  ((supported.filterMap Json.string?).find? fun version =>
    !(legacyVersion < version : Bool)).getD legacyVersion

def Reply.next (reply : Reply) (id : Nat) : Next :=
  let message := reply.message (some id)
  let error := (message.member (ofString "error")).getD .null
  if refused reply.status then .throws (remoteAuth reply.status)
  else
    match (message.member (ofString "result")).filter fun _ => reply.status < 400 with
    | some result => .returns result
    | none =>
        match modernError message with
        | some code =>
            match (olderVersions message).filter fun _ => code = -32022 with
            | some supported => .handshake (olderVersion supported)
            | none => .throws (remoteError "The server refused the request: " error
                (ofString (toString code)))
        | none =>
            if (errorOf message).isSome && reply.status < 400 then
              .throws (remoteError "The server returned an error: " error (ofString "unknown"))
            else .handshake legacyVersion

/-- The answer to a request of the older protocol. -/
def Reply.result (reply : Reply) (id : Nat) : Except McpClientError Json :=
  let message := reply.message (some id)
  if refused reply.status then .error (remoteAuth reply.status)
  else
    match errorOf message, message.member (ofString "result") with
    | some error, _ => .error (remoteError "The server returned an error: " error
        (ofString "unknown"))
    | none, some result => .ok result
    | none, none => .error {
        code := "bad_answer"
        message := ofString "The server answered " ++ ofNat reply.status ++
          ofString " with no JSON-RPC result." }

/-- The request of the older protocol. -/
def Session.legacyRequest (session : Session) (method name : Utf16) (wire : Wire) :
    Except McpClientError Json × Wire :=
  let id := session.nextId
  let (answer, wire) := wire.post (.request .legacy id method name)
  (answer.bind fun reply => reply.result id, wire)

/-- The handshake, and then the request. -/
def Session.handshakeRequest (session : Session) (version : Option Utf16) (method name : Utf16)
    (wire : Wire) : Except McpClientError Json × Wire :=
  match session.legacyHandshake version wire with
  | (.error error, wire) => (.error error, wire)
  | (.ok session, wire) => { session with handshook := true }.legacyRequest method name wire

def Session.call (session : Session) (method name : Utf16) (wire : Wire) :
    Except McpClientError Json × Wire :=
  if session.era = some .legacy then
    if session.sessionId.isNone && !session.handshook then
      session.handshakeRequest session.version method name wire
    else session.legacyRequest method name wire
  else
    let id := session.nextId
    let (answer, wire) := wire.post (.request .modern id method name)
    match answer with
    | .error error => (.error error, wire)
    | .ok reply =>
        match reply.next id with
        | .returns result => (.ok result, wire)
        | .throws error => (.error error, wire)
        | .handshake version =>
            { session with nextId := id + 1 }.handshakeRequest (some version) method name wire

/-! ## The tool -/

/-- What a call of a tool answers. -/
structure ToolResult where
  ok : Bool
  text : Utf16
  otherParts : Nat
  structuredContent : Option Json
  error : Option Utf16

/-- The parts of a result; none where the code throws. -/
def contentOf (result : Json) : Option (List Json) :=
  match result with
  | .null => none
  | _ =>
      match present result "content" with
      | none => some []
      | some (.array parts) => some parts
      | some _ => none

def isText (part : Json) : Bool :=
  (part.member (ofString "type")).any fun kind => kind.string? = some (ofString "text")

/-- The answer that is made of a result. -/
def shape (result : Json) : Option ToolResult :=
  (contentOf result).map fun parts =>
    let text := join [0xA] ((parts.filter isText).filterMap fun part =>
      (part.member (ofString "text")).bind Json.string?)
    let failed := (result.member (ofString "isError")).any Json.truthy
    { ok := !failed
      text := clip 12000 text
      otherParts := (parts.filter fun part => part.truthy && !isText part).length
      structuredContent := (result.member (ofString "structuredContent")).filter Json.truthy
      error :=
        if failed then some (ofString "The tool reported an error: " ++ clip 160 text) else none }

/-- A call of a tool over a connection with a remembered era; the answer of the call, and the
exchanges with the server. -/
def callRemoteTool (era : Option Era) (version : Option Utf16) (name : Utf16)
    (answers : List Answer) : Except McpClientError (Option ToolResult) × List Exchange :=
  let (result, wire) :=
    { era, version : Session }.call (ofString "tools/call") name { answers }
  (result.map shape, wire.sent)

/-! ## Never twice -/

def Message.isCall : Message → Bool
  | .request _ _ _ _ => true
  | _ => false

/-- The answer shows that the request was not executed: it is a 4xx answer, or it names a version
error and is no 5xx answer. -/
def Exchange.isUnexecuted (exchange : Exchange) : Bool :=
  match exchange.message, exchange.answer with
  | .request _ id _ _, .ok reply =>
      400 ≤ reply.status && reply.status < 500 ||
        reply.status < 400 && (modernError (reply.message (some id))).isSome
  | _, _ => false

/-- The requests for a tool among the exchanges. -/
def calls (sent : List Exchange) : List Exchange := sent.filter fun exchange =>
  exchange.message.isCall

/-- A request is sent after another one only if the answer shows that the other one was not
executed. -/
def Once (sent : List Exchange) : Prop :=
  (calls sent).Pairwise fun earlier _ => earlier.isUnexecuted = true

instance (sent : List Exchange) : Decidable (Once sent) :=
  inferInstanceAs (Decidable ((calls sent).Pairwise fun earlier _ => earlier.isUnexecuted = true))

/-- An answer that leaves open whether the tool was executed, and that the client takes for one of
an older server: a 5xx answer without a version error, or with one that asks for an older version,
and a success answer with neither a result nor an error. -/
def Reply.isUnclear (reply : Reply) (id : Nat) : Bool :=
  let message := reply.message (some id)
  let older := (olderVersions message).isSome && modernError message = some (-32022)
  500 ≤ reply.status && ((modernError message).isNone || older) ||
    reply.status < 400 && (modernError message).isNone && (errorOf message).isNone &&
      (message.member (ofString "result")).isNone

/-- The server accepts `initialize`. -/
def handshakes (answers : List Answer) (id : Nat) : Bool :=
  match answers with
  | .ok reply :: _ => (accepts reply id).isOk
  | _ => false

/-- The answers that make the client send the request again: the first one is unclear and the
server accepts the handshake. -/
def Resent (era : Option Era) (answers : List Answer) : Prop :=
  era ≠ some .legacy ∧ ∃ reply rest, answers = .ok reply :: rest ∧ reply.isUnclear 1 = true ∧
    handshakes rest 2 = true

variable {session : Session} {version : Option Utf16} {method name : Utf16} {wire : Wire}

theorem calls_post_request {era : Era} {id : Nat} :
    calls (wire.post (.request era id method name)).2.sent =
      calls wire.sent ++ [⟨.request era id method name,
        (wire.post (.request era id method name)).1⟩] := by
  rw [calls, Wire.post, List.filter_append]
  rfl

theorem calls_post {message : Message} (other : message.isCall = false) :
    calls (wire.post message).2.sent = calls wire.sent := by
  rw [calls, Wire.post, List.filter_append, List.filter_cons_of_neg (by simp [other]),
    List.filter_nil, List.append_nil, calls]

theorem calls_legacyHandshake :
    calls (session.legacyHandshake version wire).2.sent = calls wire.sent := by
  unfold Session.legacyHandshake
  dsimp only
  split
  next => exact calls_post rfl
  next =>
    split
    next => exact calls_post rfl
    next => exact (calls_post rfl).trans (calls_post rfl)

/-- The handshake goes on with a session exactly if the server accepts. -/
theorem isOk_legacyHandshake : (session.legacyHandshake version wire).1.isOk =
    handshakes wire.answers session.nextId := by
  unfold Session.legacyHandshake handshakes Wire.post
  dsimp only
  cases wire.answers with
  | nil => rfl
  | cons answer rest =>
      cases answer with
      | error => rfl
      | ok reply =>
          simp only [List.head?_cons, Option.getD_some]
          cases accepts reply session.nextId <;> rfl

/-- After the handshake the request is sent, if the server accepts. -/
theorem calls_handshakeRequest :
    ∃ last, calls (session.handshakeRequest version method name wire).2.sent =
      calls wire.sent ++ if handshakes wire.answers session.nextId then [last] else [] := by
  have accepted := @isOk_legacyHandshake session version wire
  have kept := @calls_legacyHandshake session version wire
  unfold Session.handshakeRequest
  split
  next error wire' went =>
    rw [went] at accepted kept
    rw [← accepted]
    exact ⟨⟨.initialized, .error error⟩, kept.trans (List.append_nil _).symm⟩
  next session' wire' went =>
    rw [went] at accepted kept
    rw [← accepted, ← kept]
    exact ⟨_, calls_post_request⟩

/-- The client takes an answer for one of an older server, though it does not show that the
request was not executed, exactly if the answer is unclear. -/
theorem isUnclear_iff (reply : Reply) (id : Nat) : reply.isUnclear id = true ↔
    (∃ version, reply.next id = .handshake version) ∧
      Exchange.isUnexecuted ⟨.request .modern id method name, .ok reply⟩ = false := by
  have proper := reply.proper
  unfold Reply.isUnclear Reply.next Exchange.isUnexecuted
  dsimp only
  generalize reply.message (some id) = message
  have answered : (message.member (ofString "result")).filter (fun _ => decide (reply.status < 400)) =
      if reply.status < 400 then message.member (ofString "result") else none := by
    cases message.member (ofString "result") <;> simp [Option.filter]
  rw [answered]
  by_cases low : reply.status < 400
  · -- a success answer
    have unrefused : refused reply.status = false := by
      simp only [refused, Bool.or_eq_false_iff, decide_eq_false_iff_not]
      omega
    have notHigh : ¬ 500 ≤ reply.status := by omega
    have notMiddle : ¬ 400 ≤ reply.status := by omega
    simp only [unrefused, low, notHigh, notMiddle]
    cases message.member (ofString "result") with
    | some result => simp
    | none =>
        cases known : modernError message with
        | some code => simp
        | none => cases errorOf message <;> simp
  · simp only [low, if_false, decide_false, Bool.false_and, Bool.or_false, Bool.and_false]
    by_cases middle : reply.status < 500
    · -- a 4xx answer
      have above : 400 ≤ reply.status := Nat.le_of_not_lt low
      have notHigh : ¬ 500 ≤ reply.status := Nat.not_le_of_lt middle
      simp [above, middle, notHigh]
    · -- a 5xx answer
      have high : 500 ≤ reply.status := Nat.le_of_not_lt middle
      have unrefused : refused reply.status = false := by
        simp only [refused, Bool.or_eq_false_iff, decide_eq_false_iff_not]
        omega
      simp only [unrefused, high, middle]
      cases known : modernError message with
      | none => simp
      | some code =>
          by_cases older : code = -32022
          · cases olderVersions message <;> simp [older, Option.filter]
          · cases olderVersions message <;> simp [older, Option.filter]

theorem once_of_singleton {sent : List Exchange} {only : Exchange} (same : calls sent = [only]) :
    Once sent := by
  rw [Once, same]
  exact List.pairwise_singleton _ _

/-- After a remembered older era there is one request at most. -/
theorem once_of_legacy (version : Option Utf16) (name : Utf16) (answers : List Answer) :
    Once (callRemoteTool (some .legacy) version name answers).2 := by
  unfold callRemoteTool Session.call
  dsimp only
  have begins : ((none : Option Utf16).isNone && !false) = true := rfl
  rw [if_pos rfl, if_pos begins]
  obtain ⟨last, sent⟩ := @calls_handshakeRequest { era := some .legacy, version } version
    (ofString "tools/call") name { answers }
  rw [Once, sent]
  split
  next => exact List.pairwise_singleton _ _
  next => exact List.Pairwise.nil

/-- A call sends the request for its tool a second time only after an answer that shows that the
tool was not executed, exactly if the connection is remembered as one to an older server, or the
first answer is not unclear, or the server does not accept the handshake after it. -/
theorem once_iff (era : Option Era) (version : Option Utf16) (name : Utf16)
    (answers : List Answer) :
    Once (callRemoteTool era version name answers).2 ↔ ¬ Resent era answers := by
  by_cases legacy : era = some .legacy
  · subst legacy
    exact iff_of_true (once_of_legacy version name answers) fun resent => resent.1 rfl
  unfold callRemoteTool Session.call
  dsimp only
  rw [if_neg legacy]
  have first := @calls_post_request (ofString "tools/call") name { answers } .modern 1
  cases answers with
  | nil =>
      refine iff_of_true (once_of_singleton first) ?_
      intro ⟨_, reply, rest, same, _⟩
      contradiction
  | cons answer rest =>
      cases answer with
      | error error =>
          refine iff_of_true (once_of_singleton first) ?_
          intro ⟨_, reply, rest, same, _⟩
          cases same
      | ok reply =>
          have unclear := @isUnclear_iff (ofString "tools/call") name reply 1
          have resent : Resent era (.ok reply :: rest) ↔
              reply.isUnclear 1 = true ∧ handshakes rest 2 = true := by
            constructor
            · intro ⟨_, reply', rest', same, goes⟩
              cases same
              exact goes
            · exact fun goes => ⟨legacy, reply, rest, rfl, goes⟩
          rw [resent]
          simp only [Wire.post, List.head?_cons, Option.getD_some, List.tail_cons, List.nil_append]
            at first ⊢
          cases next : reply.next 1 with
          | returns result =>
              refine iff_of_true (once_of_singleton first) fun goes => ?_
              obtain ⟨version, handshake⟩ := (unclear.1 goes.1).1
              rw [next] at handshake
              contradiction
          | throws error =>
              refine iff_of_true (once_of_singleton first) fun goes => ?_
              obtain ⟨version, handshake⟩ := (unclear.1 goes.1).1
              rw [next] at handshake
              contradiction
          | handshake older =>
              obtain ⟨last, sent⟩ := @calls_handshakeRequest
                { era, version, nextId := 2 : Session } (some older) (ofString "tools/call") name
                ⟨rest, [⟨.request .modern 1 (ofString "tools/call") name, .ok reply⟩]⟩
              have two : List.Pairwise (fun earlier _ => earlier.isUnexecuted = true)
                  (calls [⟨.request .modern 1 (ofString "tools/call") name, .ok reply⟩] ++
                    if handshakes rest 2 then [last] else []) ↔
                  ¬ (reply.isUnclear 1 = true ∧ handshakes rest 2 = true) := by
                have none' : calls [] = [] := rfl
                rw [first, none', unclear]
                cases handshakes rest 2 with
                | false => simp
                | true => simp [next]
              rw [Once]
              exact sent ▸ two

/-- A server error, and then a server that accepts the handshake: the request is sent again. -/
def serverError : List Answer :=
  [.ok { status := 500, text := [], proper := by decide },
    .ok {
      status := 200
      text := ofString "\x7b\"jsonrpc\":\"2.0\",\"id\":2,\"result\":\x7b\x7d\x7d"
      proper := by decide }]

theorem not_once : ¬ ∀ era version name answers,
    Once (callRemoteTool era version name answers).2 := by
  intro claimed
  have twice : ¬ Once (callRemoteTool none none (ofString "echo") serverError).2 := by
    decide
  exact twice (claimed none none _ serverError)

end RemoteCall

end TitanRunner
