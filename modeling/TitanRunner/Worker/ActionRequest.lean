import TitanRunner.Worker.JsonSchema
import TitanRunner.Worker.Template

/-!
# The request of an action

`buildActionRequest` of `connectors/core.js`: the input is checked and filled, the template of the
action is filled, and the connector puts its key where its kind of authentication says.
-/

namespace TitanRunner

namespace ActionRequest

open Utf16 Template

/-! ## Manifests -/

/-- `auth.kind` -/
inductive AuthKind where
  | none | apiKeyHeader | apiKeyQuery | bearer | basic | secretUrl | oauth2Pkce | mcpRemote
  | telegramBot
  deriving DecidableEq, Repr

/-- A field of `auth.fields`. -/
structure Field where
  name : Utf16
  secret : Bool

structure Auth where
  kind : AuthKind
  header : Option Utf16 := .none
  keyPrefix : Option Utf16 := .none
  queryParam : Option Utf16 := .none
  fields : List Field := []

structure Manifest where
  id : Utf16
  auth : Auth

structure Action where
  id : Utf16
  input : Option Json := none
  handler : Option Utf16 := none
  request : Option RequestSpec := none

/-- `config` or `secrets` of a connection. -/
abbrev Fields := List (Utf16 × Utf16)

/-- The own field of a name. -/
def Fields.own (fields : Fields) (name : Utf16) : Option Utf16 :=
  (KeyedList.get Prod.fst fields name).map Prod.snd

/-- A field in a text.  Of the names that a manifest may give a field, objects inherit one. -/
def Fields.shown (fields : Fields) (name : Utf16) : Utf16 :=
  (fields.own name).getD (
    if name = ofString "constructor" then ofString "function Object() \x7b [native code] \x7d"
    else ofString "undefined")

def Fields.json (fields : Fields) : Json :=
  .object (fields.map fun (name, value) => (name, .string value))

/-! ## The key -/

/-- `unescape`, of the escapes with two digits -/
def unescape : Utf16 → Utf16
  | 0x25 :: high :: low :: rest =>
      match Json.hexValue high, Json.hexValue low with
      | some high, some low => (high * 16 + low) :: unescape rest
      | _, _ => 0x25 :: unescape (high :: low :: rest)
  | unit :: rest => unit :: unescape rest
  | [] => []

/-- A digit of base64. -/
def base64Digit (value : Nat) : UInt16 :=
  UInt16.ofNat (
    if value < 26 then 0x41 + value
    else if value < 52 then 0x61 + (value - 26)
    else if value < 62 then 0x30 + (value - 52)
    else if value = 62 then 0x2B
    else 0x2F)

def base64Digits (count value : Nat) : Utf16 :=
  (List.range count).map fun place => base64Digit (value / 64 ^ (3 - place) % 64)

/-- `btoa` -/
def btoa : Utf16 → Utf16
  | first :: second :: third :: rest =>
      base64Digits 4 (first.toNat * 65536 + second.toNat * 256 + third.toNat) ++ btoa rest
  | [first, second] => base64Digits 3 (first.toNat * 65536 + second.toNat * 256) ++ [0x3D]
  | [first] => base64Digits 2 (first.toNat * 65536) ++ [0x3D, 0x3D]
  | [] => []

def b64 (text : Utf16) : Option Utf16 :=
  (UriComponent.encodeURIComponent text).map fun encoded => btoa (unescape encoded)

/-- A value, or an exception of the language. -/
def orThrow {α : Type} (value : Option α) : Except Template.Failure α :=
  match value with
  | some value => .ok value
  | none => .error .other

/-- The name of the first secret field. -/
def Auth.secretName (auth : Auth) (fallback : String) : Utf16 :=
  ((auth.fields.find? (·.secret)).map Field.name).getD (ofString fallback)

abbrev Headers := List (Utf16 × Utf16)

def Headers.put (headers : Headers) (name : String) (value : Utf16) : Headers :=
  KeyedList.insert Prod.fst headers (ofString name, value)

/-- `Object.keys(headers).some((h) => h.toLowerCase() === name)` -/
def Headers.names (headers : Headers) (name : String) : Bool :=
  headers.any fun entry => entry.1.map lower = ofString name

/-- The headers with the key, where it goes into a header. -/
def authorize (auth : Auth) (config secrets : Fields) (headers : Headers) :
    Except Template.Failure Headers :=
  let bearer := fun key => headers.put "Authorization" (ofString "Bearer " ++ key)
  match auth.kind with
  | .bearer => .ok (bearer (secrets.shown (auth.secretName "token")))
  | .apiKeyHeader => .ok (KeyedList.insert Prod.fst headers
      (auth.header.getD (ofString "Authorization"),
        auth.keyPrefix.getD [] ++ secrets.shown (auth.secretName "api_key")))
  | .basic =>
      let user := ((secrets.own (ofString "username")).or
        (config.own (ofString "username"))).getD []
      let password := (secrets.own (ofString "password")).getD []
      (orThrow (b64 (user ++ ofString ":" ++ password))).map fun encoded =>
        headers.put "Authorization" (ofString "Basic " ++ encoded)
  | .oauth2Pkce => .ok (bearer (secrets.shown (ofString "access_token")))
  | .mcpRemote =>
      match (secrets.own (ofString "token")).filter fun token => !token.isEmpty with
      | some token => .ok (bearer token)
      | none => .ok headers
  | .none | .apiKeyQuery | .secretUrl | .telegramBot => .ok headers

/-- The address with the key, where it goes into the query. -/
def keyedUrl (auth : Auth) (secrets : Fields) (url : Utf16) : Except Template.Failure Utf16 :=
  if auth.kind = .apiKeyQuery then do
    let name ← orThrow (UriComponent.encodeURIComponent (auth.queryParam.getD (ofString "key")))
    let key ← orThrow
      (UriComponent.encodeURIComponent (secrets.shown (auth.secretName "api_key")))
    .ok (url ++ (if url.contains 0x3F then ofString "&" else ofString "?") ++ name ++
      ofString "=" ++ key)
  else .ok url

/-! ## Requests -/

structure Request where
  method : Utf16
  url : Utf16
  headers : Headers
  body : Option Utf16
  input : Json

/-- The headers with those that every request has. -/
def withTypes (contentType : Option Utf16) (headers : Headers) : Headers :=
  let typed := match contentType.filter fun type => !type.isEmpty with
    | some type => if headers.names "content-type" then headers else headers.put "Content-Type" type
    | none => headers
  if typed.names "accept" then typed else typed.put "Accept" (ofString "application/json")

/-- `finishRequest`, of no other headers -/
def finishRequest (built : Built) (merged : Json) : Request :=
  { method := built.method, url := built.url, headers := withTypes built.contentType built.headers,
    body := built.body, input := merged }

/-- The handlers of the source: those that the broker runs, and the table of the others. -/
structure Handlers where
  isImpure : Utf16 → Bool
  build : Utf16 →
    Option (Manifest → Fields → Fields → Json → Except Template.Failure Built)

inductive Refusal where
  /-- `ActionInputError` -/
  | input (message : Utf16) (problems : List Utf16)
  | failed (failure : Template.Failure)

def refuse (message : Utf16) : Refusal := .failed (.template (.because message))

def runHandlerBuild (handlers : Handlers) (manifest : Manifest) (handler : Utf16)
    (config secrets : Fields) (input : Json) : Except Refusal Request :=
  if handlers.isImpure handler then
    .error (refuse (ofString "The handler " ++ handler ++
      ofString " needs the broker. It cannot run as a single request."))
  else
    match handlers.build handler with
    | none => .error (refuse (ofString "The manifest of " ++ manifest.id ++
        ofString " names an unknown handler \"" ++ handler ++ ofString "\"."))
    | some build =>
        ((build manifest config secrets input).mapError .failed).map (finishRequest · input)

def defaultSchema : Json :=
  .object [(ofString "type", .string (ofString "object")), (ofString "properties", .object [])]

/-- `action.input ?? { type: 'object', properties: {} }` -/
def Action.schema (action : Action) : Json :=
  match action.input with
  | none | some .null => defaultSchema
  | some schema => schema

/-- `action.handler`, where it is not empty -/
def Action.customHandler (action : Action) : Option Utf16 :=
  action.handler.filter fun name => !name.isEmpty

/-- The template filled, with the address of the kinds that keep a secret in it. -/
def buildTemplate (auth : Auth) (spec : RequestSpec) (config secrets : Fields) (merged : Json) :
    Except Template.Failure Built :=
  let context : Context := { input := merged, config := config.json, secret := secrets.json }
  match auth.kind with
  | .secretUrl =>
      buildRequest { spec with url := secrets.own (ofString "url") }
        (context.withSecret (.object []))
  | .telegramBot =>
      buildRequest { spec with url := some (ofString "https://api.telegram.org/bot" ++
          secrets.shown (ofString "token") ++ ofString "/" ++
            spec.telegram.getD (ofString "undefined")) }
        (context.withSecret (.object []))
  | _ => buildRequest spec context

/-- The request of a template, with the key in its place. -/
def buildKeyed (auth : Auth) (spec : RequestSpec) (config secrets : Fields) (merged : Json) :
    Except Template.Failure Request := do
  let built ← buildTemplate auth spec config secrets merged
  let headers ← authorize auth config secrets built.headers
  let url ← keyedUrl auth secrets built.url
  .ok { method := built.method, url, headers := withTypes built.contentType headers,
        body := built.body, input := merged }

def buildActionRequest (regExp : JsonSchema.RegExp) (handlers : Handlers) (manifest : Manifest)
    (action : Action) (config secrets : Fields) (input : Json) : Except Refusal Request :=
  let merged := JsonSchema.withDefaults action.schema input
  match JsonSchema.validate regExp action.schema merged with
  | problem :: problems =>
      .error (.input (ofString "The input for " ++ action.id ++ ofString " is not valid.")
        (problem :: problems))
  | [] =>
      match action.customHandler with
      | some handler => runHandlerBuild handlers manifest handler config secrets merged
      | none =>
          let spec := action.request.getD {}
          match checkRequestSpec spec (manifest.auth.kind = .apiKeyQuery) with
          | problem :: _ => .error (refuse (ofString "The manifest of " ++ manifest.id ++
              ofString " breaks a placement rule: " ++ problem))
          | [] => (buildKeyed manifest.auth spec config secrets merged).mapError .failed

/-! ## Where secrets go -/

section Secrets

/-- The kinds whose key is part of the address. -/
def AuthKind.keepsInUrl : AuthKind → Bool
  | .secretUrl | .telegramBot | .apiKeyQuery => true
  | _ => false

theorem of_bind_ok {ε α β : Type} {before : Except ε α} {next : α → Except ε β} {result : β}
    (made : before >>= next = .ok result) :
    ∃ value, before = .ok value ∧ next value = .ok result := by
  cases before with
  | error failure => contradiction
  | ok value => exact ⟨value, rfl, made⟩

variable {auth : Auth} {spec : RequestSpec} {config secrets others : Fields} {merged : Json}

/-- What the check of a request leaves to look at. -/
theorem public_of_check (fine : checkRequestSpec spec false = []) :
    Public spec.urlRefs ∧ Public spec.bodyRefs ∧ Public (findRefsMembers spec.query) := by
  simp only [checkRequestSpec, List.append_eq_nil_iff, Bool.false_eq_true, if_false] at fine
  exact ⟨clear_of_misplaced fine.1.1.1, clear_of_misplaced fine.1.1.2, clear_of_misplaced fine.1.2⟩

/-- A template that is filled shows its address and its body. -/
theorem parts_of_buildRequest {context : Context} {built : Built}
    (made : buildRequest spec context = .ok built) :
    built.method = spec.methodName ∧ buildUrl spec context = .ok built.url ∧
      buildBody spec context = .ok (built.body, built.contentType) := by
  rw [buildRequest] at made
  obtain ⟨url, addressed, made⟩ := of_bind_ok made
  obtain ⟨headers, _, made⟩ := of_bind_ok made
  obtain ⟨body, written, made⟩ := of_bind_ok made
  obtain rfl := Except.ok.inj made
  exact ⟨rfl, addressed, written⟩

/-- The parts of a request outside its headers are those of the filled template. -/
theorem parts_of_buildKeyed (apart : auth.kind.keepsInUrl = false) {request : Request}
    (made : buildKeyed auth spec config secrets merged = .ok request) :
    let context : Context := { input := merged, config := config.json, secret := secrets.json }
    buildUrl spec context = .ok request.url ∧
      (buildBody spec context).map Prod.fst = .ok request.body := by
  rw [buildKeyed] at made
  obtain ⟨built, filled, made⟩ := of_bind_ok made
  obtain ⟨headers, _, made⟩ := of_bind_ok made
  obtain ⟨url, keyed, made⟩ := of_bind_ok made
  obtain rfl := Except.ok.inj made
  have plain : buildRequest spec
      { input := merged, config := config.json, secret := secrets.json } = .ok built := by
    rw [buildTemplate] at filled
    revert apart filled
    cases auth.kind <;> intro apart filled <;> first | exact filled | contradiction
  have unkeyed : built.url = url := by
    rw [keyedUrl, if_neg] at keyed
    · exact Except.ok.inj keyed
    · intro kind
      rw [kind] at apart
      contradiction
  obtain ⟨_, addressed, written⟩ := parts_of_buildRequest plain
  exact ⟨unkeyed ▸ addressed, by rw [written]; rfl⟩

/-- Two connections that differ in their secrets show the same address and the same body. -/
theorem buildKeyed_agrees (apart : auth.kind.keepsInUrl = false)
    (fine : checkRequestSpec spec false = []) {request other : Request}
    (made : buildKeyed auth spec config secrets merged = .ok request)
    (made' : buildKeyed auth spec config others merged = .ok other) :
    request.url = other.url ∧ request.body = other.body := by
  obtain ⟨url, body⟩ := parts_of_buildKeyed apart made
  obtain ⟨url', body'⟩ := parts_of_buildKeyed apart made'
  obtain ⟨inUrl, inBody, inQuery⟩ := public_of_check fine
  let context : Context := { input := merged, config := config.json, secret := secrets.json }
  have sameUrl := @buildUrl_withSecret context others.json _ inUrl inQuery
  have sameBody := @buildBody_withSecret context others.json _ inBody
  simp only [Context.withSecret] at sameUrl sameBody
  constructor
  · exact Except.ok.inj (url.symm.trans (sameUrl.symm.trans url'))
  · rw [sameBody] at body'
    exact Except.ok.inj (body.symm.trans body')

theorem of_buildActionRequest {regExp : JsonSchema.RegExp} {handlers : Handlers}
    {manifest : Manifest} {action : Action} {input : Json} {request : Request}
    (plain : action.customHandler = none)
    (made : buildActionRequest regExp handlers manifest action config secrets input = .ok request) :
    checkRequestSpec (action.request.getD {}) (manifest.auth.kind = .apiKeyQuery) = [] ∧
      buildKeyed manifest.auth (action.request.getD {}) config secrets
        (JsonSchema.withDefaults action.schema input) = .ok request := by
  rw [buildActionRequest] at made
  split at made
  next => contradiction
  next =>
    rw [plain] at made
    simp only at made
    split at made
    next => contradiction
    next fine =>
      refine ⟨fine, ?_⟩
      revert made
      generalize buildKeyed _ _ _ _ _ = keyed
      cases keyed with
      | error failure => exact fun made => by contradiction
      | ok value => exact fun made => congrArg Except.ok (Except.ok.inj made)

/-- The address, with its query, and the body of a request are the same for any two values of the
connection's secrets, unless its kind keeps the key in the address. -/
theorem secrets_stay (regExp : JsonSchema.RegExp) (handlers : Handlers) (manifest : Manifest)
    (action : Action) (config secrets others : Fields) (input : Json)
    (apart : manifest.auth.kind.keepsInUrl = false) (plain : action.customHandler = none)
    {request other : Request}
    (built : buildActionRequest regExp handlers manifest action config secrets input = .ok request)
    (built' : buildActionRequest regExp handlers manifest action config others input = .ok other) :
    request.url = other.url ∧ request.body = other.body := by
  obtain ⟨fine, made⟩ := of_buildActionRequest plain built
  obtain ⟨_, made'⟩ := of_buildActionRequest plain built'
  have keyless : manifest.auth.kind ≠ .apiKeyQuery := by
    intro kind
    rw [kind] at apart
    contradiction
  rw [decide_eq_false keyless] at fine
  exact buildKeyed_agrees apart fine made made'

theorem exists_of_isOk {ε α : Type} {result : Except ε α} (fine : result.isOk = true) :
    ∃ value, result = .ok value := by
  cases result with
  | error failure => contradiction
  | ok value => exact ⟨value, rfl⟩

def sampleManifest : Manifest where
  id := ofString "notes"
  auth := { kind := .bearer, fields := [⟨ofString "token", true⟩] }

def sampleAction : Action where
  id := ofString "find"
  input := some (.object [(ofString "properties", .object [(ofString "name",
    .object [(ofString "type", .string (ofString "string"))])])])
  request := some {
    method := some (ofString "POST")
    url := some (ofString "https://notes.example/v1/\x7b\x7binput.name\x7d\x7d")
    query := [(ofString "q", .string (ofString "\x7b\x7binput.name\x7d\x7d"))]
    body := some (.object [(ofString "name", .string (ofString "\x7b\x7binput.name\x7d\x7d"))]) }

/-- The input reads like a reference to the secret that it is sent with. -/
def sampleRequest (token : String) : Except Refusal Request :=
  buildActionRequest (fun _ => none) ⟨fun _ => false, fun _ => none⟩ sampleManifest sampleAction []
    [(ofString "token", ofString token)]
    (.object [(ofString "name", .string (ofString "\x7b\x7bsecret.token\x7d\x7d"))])

theorem secrets_stay_quoted : ∃ request other, sampleRequest "first" = .ok request ∧
    sampleRequest "second" = .ok other ∧ request.url = other.url ∧ request.body = other.body := by
  obtain ⟨request, built⟩ := exists_of_isOk (by decide +kernel : (sampleRequest "first").isOk = true)
  obtain ⟨other, built'⟩ := exists_of_isOk (by decide +kernel : (sampleRequest "second").isOk = true)
  exact ⟨request, other, built, built',
    secrets_stay _ _ _ _ _ _ _ _ (by decide) (by decide) built built'⟩

end Secrets

end ActionRequest

end TitanRunner
