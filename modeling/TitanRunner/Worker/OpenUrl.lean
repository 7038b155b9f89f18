import TitanRunner.Lib.UrlFilling
import TitanRunner.Worker.ActionRequest

/-!
# The addresses that connectors ask for

`checkUrl` of `lib/safeFetch.js`, and the addresses that the templates of actions come to.  A
template keeps its inputs open; what they are filled with is escaped, so the host stays what it is,
but a segment may become a dot segment.
-/

namespace TitanRunner

namespace OpenUrl

open Utf16 Template Url ActionRequest

/-! ## What may be requested -/

/-- `BLOCKED_SUFFIXES` -/
def blockedSuffixes : List Utf16 :=
  [".localhost", ".local", ".internal", ".lan", ".home", ".corp", ".intranet", ".test",
    ".invalid"].map ofString

def isHex (unit : UInt16) : Bool := isDigit unit || (0x61 ≤ lower unit && lower unit ≤ 0x66)

/-- `looksLikeIp` -/
def looksLikeIp (host : Utf16) : Bool :=
  let short := fun part : Utf16 => part.all isDigit && decide (1 ≤ part.length ∧ part.length ≤ 3)
  let parts := split 0x2E host
  host.contains 0x3A || (!host.isEmpty && host.all isDigit) ||
    (match host with
      | 0x30 :: x :: digits => lower x == 0x78 && !digits.isEmpty && digits.all isHex
      | _ => false) ||
    (parts.all short && decide (2 ≤ parts.length ∧ parts.length ≤ 4))

/-- `hostAllowed` -/
def hostAllowed (host : Utf16) (allow : List Utf16) : Bool :=
  allow.any fun entry =>
    let entry := entry.map lower
    if (ofString ".").isPrefixOf entry then host = entry.drop 1 || entry.isSuffixOf host
    else host = entry

inductive Checked where
  | ok (url : Address) (host : Utf16)
  | refused (code : String) (message : Utf16)

/-- `url.hostname.toLowerCase().replace(/\.$/, '')` -/
def plainHost (address : Address) : Utf16 :=
  let host := address.host.map lower
  if host.getLast? = some 0x2E then host.dropLast else host

/-- `checkUrl`; an address of another scheme is one that `new URL` takes. -/
def checkUrl (hosts : HostParser) (otherScheme : Utf16 → Bool) (text : Utf16)
    (allow : List Utf16) : Checked :=
  match parse hosts text with
  | none =>
      if otherScheme text then .refused "not_https" (ofString "The address must use https.")
      else .refused "bad_url" (ofString "The address is not valid.")
  | some url =>
      let host := plainHost url
      if url.credentials then
        .refused "credentials_in_url"
          (ofString "The address must not hold a user name or a password.")
      else if url.port.isSome then
        .refused "bad_port" (ofString "The address must use the default https port.")
      else if host.isEmpty || looksLikeIp host || !host.contains 0x2E ||
          host = ofString "localhost" || blockedSuffixes.any fun ending => ending.isSuffixOf host then
        .refused "not_public" (ofString "The address must use a public host name.")
      else if !hostAllowed host allow then
        .refused "host_not_allowed"
          (ofString "The host " ++ host ++ ofString " is not on the allowlist.")
      else .ok url host

/-! ## Templates with open inputs -/

inductive Token where
  | unit (unit : UInt16)
  | input (ref : Ref)

def Token.view : Token → Option UInt16
  | .unit code => some code
  | .input _ => none

/-- What an input is filled with. -/
def Token.fill (context : Context) : Token → Utf16
  | .unit code => [code]
  | .input ref => (expandRef context .path { ref with raw := false }).toOption.getD []

/-- A piece of a template: what is configured is filled in, an input stays open. -/
def openPiece (context : Context) : Piece → List Token
  | .unit unit => [.unit unit]
  | .ref ref =>
      if ref.scope = Scope.input.name then [.input ref]
      else ((expandRef context .path ref).toOption.getD []).map .unit

def openUrl (context : Context) (template : Utf16) : List Token :=
  (pieces template).flatMap (openPiece context)

/-- The filter `raw` stands on configured values only. -/
def RawOnConfig (template : Utf16) : Prop :=
  ∀ ref ∈ refsIn template, ref.raw = true → ref.scope = Scope.config.name

/-- The template of the address. -/
def urlTemplate (auth : Auth) (spec : RequestSpec) (secrets : Fields) : Option Utf16 :=
  match auth.kind with
  | .secretUrl => secrets.own (ofString "url")
  | .telegramBot => some (ofString "https://api.telegram.org/bot" ++
      secrets.shown (ofString "token") ++ ofString "/" ++ spec.telegram.getD (ofString "undefined"))
  | _ => spec.url

def contextOf (auth : Auth) (config secrets : Fields) (merged : Json) : Context where
  input := merged
  config := config.json
  secret :=
    match auth.kind with
    | .secretUrl | .telegramBot => .object []
    | _ => secrets.json

/-- What a request is filled from. -/
def requestContext (manifest : Manifest) (action : ActionRequest.Action) (config secrets : Fields)
    (input : Json) : Context :=
  contextOf manifest.auth config secrets (JsonSchema.withDefaults action.schema input)

def requestTemplate (manifest : Manifest) (action : ActionRequest.Action) (secrets : Fields) : Utf16 :=
  let spec := action.request.getD { query := [], bodyText := none, proper := Eq.refl true }
  (urlTemplate manifest.auth spec secrets).getD []

/-- The address of a request with its inputs open, and with the query that is put behind it. -/
def openRequest (manifest : Manifest) (action : ActionRequest.Action) (config secrets : Fields)
    (input : Json) (url : Utf16) : List Token :=
  let context := requestContext manifest action config secrets input
  let tokens := openUrl context (requestTemplate manifest action secrets)
  tokens ++ (url.drop (filled (Token.fill context) tokens).length).map .unit

/-- The address has the host of its template, as many segments, and what is written out in the
template in its place. -/
def KeepsPlace (hosts : HostParser) (template : List Token) (url : Utf16) : Prop :=
  ∃ parts host address, partsOf Token.view template = some parts ∧
    textOf Token.view parts.host = some host ∧ parse hosts url = some address ∧
      hosts.read host = some address.host ∧ InPlace Token.view parts.segments address.path

/-- The host of the template is written out, and no segment becomes a dot segment that the parser
follows to another place. -/
def Unmoved (context : Context) (template : List Token) : Prop :=
  ∃ parts host, partsOf Token.view template = some parts ∧
    textOf Token.view parts.host = some host ∧ host ≠ [] ∧
      astray Token.view 0 false (parts.segments.zip (parts.filled (Token.fill context))) = false

/-! ## Filled templates -/

section Filled

variable {context : Context} {template text : Utf16}

theorem isInert_of_isEncoded {unit : UInt16} (encoded : UriComponent.isEncoded unit = true) :
    isInert unit = true := by
  simp only [UriComponent.isEncoded, UriComponent.isUnreserved, isAlnum, isLower, isUpper, isDigit,
    isInert, isBlank, endsAuthority, isSlash, endsPath, isAt, isColon, Bool.or_eq_true,
    Bool.and_eq_true, Bool.not_eq_true', Bool.or_eq_false_iff, decide_eq_true_eq,
    decide_eq_false_iff_not, beq_iff_eq, bne_iff_ne, beq_eq_false_iff_ne, ne_eq, ← UInt16.toNat_inj,
    UInt16.le_iff_toNat_le, UInt16.reduceToNat] at encoded ⊢
  omega

/-- What an input is filled with is escaped. -/
theorem isEncoded_of_expandRef {ref : Ref} (escaped : ref.raw = false)
    (made : expandRef context .path ref = .ok text) :
    ∀ unit ∈ text, UriComponent.isEncoded unit = true := by
  rw [expandRef] at made
  obtain ⟨value, _, made⟩ := of_bind_ok made
  obtain ⟨plain, _, made⟩ := of_bind_ok made
  rw [escaped, if_pos (by decide)] at made
  cases encoded : UriComponent.encodeURIComponent plain with
  | none =>
      rw [encoded] at made
      contradiction
  | some result =>
      rw [encoded] at made
      obtain rfl := Except.ok.inj made
      exact UriComponent.isEncoded_of_encode encoded

theorem fills_fill (context : Context) : Fills Token.view (Token.fill context) := by
  constructor
  · intro token unit seen
    cases token with
    | unit code =>
        obtain rfl := Option.some.inj seen
        rfl
    | input ref => contradiction
  · intro token open' unit inside
    cases token with
    | unit code => contradiction
    | input ref =>
        rw [Token.fill] at inside
        cases made : expandRef context .path { ref with raw := false } with
        | error failure =>
            rw [made] at inside
            contradiction
        | ok text =>
            rw [made] at inside
            have escaped := isEncoded_of_expandRef rfl made unit inside
            exact isInert_of_isEncoded escaped

theorem filled_units (context : Context) (text : Utf16) :
    filled (Token.fill context) (text.map .unit) = text := by
  induction text with
  | nil => rfl
  | cons unit text ih =>
      rw [List.map_cons, filled_cons, ih]
      rfl

/-- A template is filled piece by piece. -/
theorem filled_pieces {parts : List Piece}
    (raw : ∀ ref, .ref ref ∈ parts → ref.raw = true → ref.scope = Scope.config.name)
    (made : expandPieces context .path parts = .ok text) :
    filled (Token.fill context) (parts.flatMap (openPiece context)) = text := by
  induction parts generalizing text with
  | nil =>
      obtain rfl := Except.ok.inj made
      rfl
  | cons piece parts ih =>
      have later := fun ref inside => raw ref (List.mem_cons_of_mem _ inside)
      rw [List.flatMap_cons, filled_append]
      cases piece with
      | unit code =>
          rw [expandPieces] at made
          cases rest : expandPieces context .path parts with
          | error failure =>
              rw [rest] at made
              contradiction
          | ok more =>
              rw [rest] at made
              obtain rfl := Except.ok.inj made
              rw [ih later rest]
              rfl
      | ref ref =>
          rw [expandPieces] at made
          obtain ⟨value, valued, made⟩ := of_bind_ok made
          cases rest : expandPieces context .path parts with
          | error failure =>
              rw [rest] at made
              contradiction
          | ok more =>
              rw [rest] at made
              obtain rfl := Except.ok.inj made
              rw [ih later rest, openPiece]
              congr 1
              split
              next isInput =>
                have escaped : ref.raw = false := by
                  cases flag : ref.raw with
                  | false => rfl
                  | true =>
                      have configured := raw ref List.mem_cons_self flag
                      rw [isInput] at configured
                      exact absurd configured (by decide)
                have same : { ref with raw := false } = ref := by
                  rw [← escaped]
                rw [filled_cons, Token.fill, same, valued]
                exact List.append_nil _
              next =>
                rw [filled_units, valued]
                rfl

theorem filled_openUrl (raw : RawOnConfig template)
    (made : expandString template context .path = .ok text) :
    filled (Token.fill context) (openUrl context template) = text :=
  filled_pieces (fun ref inside => raw ref (mem_refsIn_of_mem_pieces inside)) made

end Filled

/-! ## The address of a request -/

section Requests

variable {regExp : JsonSchema.RegExp} {handlers : Handlers} {manifest : Manifest}
  {action : ActionRequest.Action} {config secrets : Fields} {input : Json} {request : Request}

theorem buildTemplate_eq (auth : Auth) (spec : RequestSpec) (config secrets : Fields)
    (merged : Json) :
    buildTemplate auth spec config secrets merged =
      buildRequest { spec with url := urlTemplate auth spec secrets }
        (contextOf auth config secrets merged) := by
  rw [buildTemplate, urlTemplate, contextOf]
  cases auth.kind <;> rfl

theorem exists_text {spec : RequestSpec} {context : Context} {template : Option Utf16}
    {url : Utf16} (made : buildUrl { spec with url := template } context = .ok url) :
    ∃ text more, expandString (template.getD []) context .path = .ok text ∧
      url = text ++ more := by
  rw [buildUrl] at made
  cases template with
  | none => contradiction
  | some template =>
      obtain ⟨text, expanded, made⟩ := of_bind_ok made
      obtain ⟨pairs, _, made⟩ := of_bind_ok made
      refine ⟨text, ?_⟩
      split at made
      · obtain rfl := Except.ok.inj made
        exact ⟨[], expanded, (List.append_nil _).symm⟩
      · obtain rfl := Except.ok.inj made
        exact ⟨_, expanded, by simp only [List.append_assoc]; rfl⟩

/-- An address is a filled template, and what is put behind it. -/
theorem exists_address
    (plain : action.customHandler = none)
    (built : buildActionRequest regExp handlers manifest action config secrets input = .ok request) :
    ∃ text more, expandString (requestTemplate manifest action secrets)
      (requestContext manifest action config secrets input) .path = .ok text ∧
        request.url = text ++ more := by
  obtain ⟨_, made⟩ := of_buildActionRequest plain built
  rw [buildKeyed] at made
  obtain ⟨template, filled, made⟩ := of_bind_ok made
  obtain ⟨headers, _, made⟩ := of_bind_ok made
  obtain ⟨url, keyed, made⟩ := of_bind_ok made
  obtain rfl := Except.ok.inj made
  rw [buildTemplate_eq] at filled
  obtain ⟨_, addressed, _⟩ := parts_of_buildRequest filled
  obtain ⟨text, more, expanded, same⟩ : ∃ text more,
      expandString (requestTemplate manifest action secrets)
        (requestContext manifest action config secrets input) .path = .ok text ∧
          template.url = text ++ more := exists_text addressed
  refine ⟨text, ?_⟩
  rw [keyedUrl] at keyed
  split at keyed
  · obtain ⟨name, _, keyed⟩ := of_bind_ok keyed
    obtain ⟨key, _, keyed⟩ := of_bind_ok keyed
    obtain rfl := Except.ok.inj keyed
    rw [same]
    exact ⟨_, expanded, by simp only [List.append_assoc]; rfl⟩
  · obtain rfl := Except.ok.inj keyed
    exact ⟨more, expanded, same⟩

/-- The address of a request is its open address, filled. -/
theorem filled_openRequest (plain : action.customHandler = none)
    (raw : RawOnConfig (requestTemplate manifest action secrets))
    (built : buildActionRequest regExp handlers manifest action config secrets input = .ok request) :
    filled (Token.fill (requestContext manifest action config secrets input))
      (openRequest manifest action config secrets input request.url) = request.url := by
  obtain ⟨text, more, expanded, same⟩ := exists_address plain built
  rw [openRequest, filled_append, filled_openUrl raw expanded, filled_units, same,
    List.drop_left]

variable {hosts : HostParser} {otherScheme : Utf16 → Bool} {allow : List Utf16}
  {address : Address} {host : Utf16}

theorem parse_of_checkUrl {text : Utf16}
    (requested : checkUrl hosts otherScheme text allow = .ok address host) :
    parse hosts text = some address := by
  rw [checkUrl] at requested
  split at requested
  next => split at requested <;> contradiction
  next found read =>
    rw [read]
    split at requested
    · contradiction
    · split at requested
      · contradiction
      · dsimp only at requested
        split at requested
        · contradiction
        · split at requested
          · contradiction
          · cases requested
            rfl

/-- A filled template keeps its place exactly if no dot segment moves it. -/
theorem keepsPlace_filled_iff {context : Context} {template : List Token} {url : Utf16}
    (whole : filled (Token.fill context) template = url) (read : parse hosts url = some address) :
    KeepsPlace hosts template url ↔ Unmoved context template := by
  have fills := fills_fill context
  constructor
  · rintro ⟨parts, host, address', parted, literal, read', named, inPlace⟩
    obtain rfl := Option.some.inj (read.symm.trans read')
    have some' : host ≠ [] := by
      rintro rfl
      contradiction
    refine ⟨parts, host, parted, literal, some', ?_⟩
    obtain ⟨parts', parted', _, segments⟩ := partsOf_filled fills parted literal some'
    rw [whole] at parted'
    rw [parse, parted', Option.bind_some] at read
    rw [(path_of_url read), segments] at inPlace
    exact (inPlace_filled_iff fills parted).1 inPlace
  · rintro ⟨parts, host, parted, literal, some', still⟩
    obtain ⟨parts', parted', sameHost, segments⟩ := partsOf_filled fills parted literal some'
    rw [whole] at parted'
    have made := read
    rw [parse, parted', Option.bind_some] at made
    refine ⟨parts, host, address, parted, literal, read, ?_, ?_⟩
    · rw [← sameHost]
      exact host_of_url made
    · rw [path_of_url made, segments]
      exact (inPlace_filled_iff fills parted).2 still

/-- Every request of a template keeps the host, the number of segments and what is written out,
exactly if no segment becomes a dot segment that moves it. -/
theorem keepsPlace_iff (hosts : HostParser) (otherScheme : Utf16 → Bool)
    (regExp : JsonSchema.RegExp) (handlers : Handlers) (manifest : Manifest)
    (action : ActionRequest.Action)
    (config secrets : Fields) (input : Json) (allow : List Utf16)
    (plain : action.customHandler = none)
    (raw : RawOnConfig (requestTemplate manifest action secrets)) {request : Request}
    (built : buildActionRequest regExp handlers manifest action config secrets input = .ok request)
    {address : Address} {host : Utf16}
    (requested : checkUrl hosts otherScheme request.url allow = .ok address host) :
    KeepsPlace hosts (openRequest manifest action config secrets input request.url) request.url ↔
      Unmoved (requestContext manifest action config secrets input)
        (openRequest manifest action config secrets input request.url) :=
  keepsPlace_filled_iff (filled_openRequest plain raw built) (parse_of_checkUrl requested)

/-- `^[A-Za-z0-9._-]{1,96}$` -/
def isName (text : Utf16) : Bool :=
  !text.isEmpty && decide (text.length ≤ 96) &&
    text.all fun unit => isAlnum unit || unit == 0x2E || unit == 0x5F || unit == 0x2D

def namePattern : Utf16 := ofString "^[A-Za-z0-9._-]\x7b1,96\x7d$"

def nameRegExp : JsonSchema.RegExp := fun pattern =>
  if pattern = namePattern then some isName else none

def nameSchema : Json :=
  .object [(ofString "type", .string (ofString "string")), (ofString "pattern", .string namePattern)]

def noHandlers : Handlers := ⟨fun _ => false, fun _ => none⟩

def spacesManifest : Manifest where
  id := ofString "huggingface"
  auth := { kind := .bearer, fields := [⟨ofString "token", true⟩] }

/-- The status of a space. -/
def spaceStatus : ActionRequest.Action where
  id := ofString "space_status"
  input := some (.object [(ofString "type", .string (ofString "object")),
    (ofString "properties", .object
      [(ofString "owner", nameSchema), (ofString "name", nameSchema)]),
    (ofString "required", .array [.string (ofString "owner"), .string (ofString "name")])])
  request := some {
    method := some (ofString "GET")
    url := some (ofString
      "https://huggingface.co/api/spaces/\x7b\x7binput.owner\x7d\x7d/\x7b\x7binput.name\x7d\x7d")
    query := []
    bodyText := none
    proper := Eq.refl true }

def spaceInput (owner name : String) : Json :=
  .object [(ofString "owner", .string (ofString owner)), (ofString "name", .string (ofString name))]

def spaceRequest (owner name : String) : Except Refusal Request :=
  buildActionRequest nameRegExp noHandlers spacesManifest spaceStatus []
    [(ofString "token", ofString "hf")] (spaceInput owner name)

def isRequested (url : Utf16) : Bool :=
  match checkUrl domains (fun _ => false) url [ofString "huggingface.co"] with
  | .ok _ _ => true
  | .refused _ _ => false

theorem exists_request {owner name : String} {url : Utf16}
    (made : (spaceRequest owner name).toOption.map Request.url = some url) :
    ∃ request, spaceRequest owner name = .ok request ∧ request.url = url := by
  cases built : spaceRequest owner name with
  | error refusal =>
      rw [built] at made
      contradiction
  | ok request =>
      rw [built] at made
      exact ⟨request, rfl, Option.some.inj made⟩

theorem exists_checked {url : Utf16} (fine : isRequested url = true) :
    ∃ address host, checkUrl domains (fun _ => false) url [ofString "huggingface.co"] =
      .ok address host := by
  rw [isRequested] at fine
  split at fine
  next address host checked => exact ⟨address, host, checked⟩
  next => contradiction

theorem rawOnConfig_space : RawOnConfig (requestTemplate spacesManifest spaceStatus
    [(ofString "token", ofString "hf")]) := by
  unfold RawOnConfig
  decide

theorem keepsPlace_iff_runner : ∃ request, spaceRequest "titan" "runner" = .ok request ∧
    (KeepsPlace domains (openRequest spacesManifest spaceStatus []
      [(ofString "token", ofString "hf")] (spaceInput "titan" "runner") request.url) request.url ↔
      Unmoved (requestContext spacesManifest spaceStatus [] [(ofString "token", ofString "hf")]
        (spaceInput "titan" "runner"))
        (openRequest spacesManifest spaceStatus [] [(ofString "token", ofString "hf")]
          (spaceInput "titan" "runner") request.url)) := by
  have requested : (spaceRequest "titan" "runner").toOption.map Request.url =
      some (ofString "https://huggingface.co/api/spaces/titan/runner") := by decide +kernel
  obtain ⟨request, built, same⟩ := exists_request requested
  have allowed : isRequested request.url = true := by
    rw [same]
    decide
  obtain ⟨address, host, checked⟩ := exists_checked allowed
  exact ⟨request, built, keepsPlace_iff domains (fun _ => false) nameRegExp noHandlers
    spacesManifest spaceStatus [] _ _ [ofString "huggingface.co"] (by decide) rawOnConfig_space
    built checked⟩

/-- Two dots are a name that the schema accepts: the address of the status of the space `../..` is
that of the start page. -/
theorem not_keepsPlace : ¬ ∀ (hosts : HostParser) (otherScheme : Utf16 → Bool)
    (regExp : JsonSchema.RegExp) (handlers : Handlers) (manifest : Manifest)
    (action : ActionRequest.Action) (config secrets : Fields) (input : Json) (allow : List Utf16)
    (request : Request)
    (address : Address) (host : Utf16), action.customHandler = none →
    RawOnConfig (requestTemplate manifest action secrets) →
    buildActionRequest regExp handlers manifest action config secrets input = .ok request →
    checkUrl hosts otherScheme request.url allow = .ok address host →
    KeepsPlace hosts (openRequest manifest action config secrets input request.url)
      request.url := by
  intro claim
  have requested : (spaceRequest ".." "..").toOption.map Request.url =
      some (ofString "https://huggingface.co/api/spaces/../..") := by decide +kernel
  obtain ⟨request, built, same⟩ := exists_request requested
  have allowed : isRequested request.url = true := by
    rw [same]
    decide
  obtain ⟨address, host, checked⟩ := exists_checked allowed
  obtain ⟨parts, _, address', parted, _, read, _, inPlace⟩ := claim domains (fun _ => false)
    nameRegExp noHandlers spacesManifest spaceStatus [] _ _ [ofString "huggingface.co"] request
    address host (by decide) rawOnConfig_space built checked
  rw [same] at parted read
  have four : ((partsOf Token.view (openRequest spacesManifest spaceStatus []
      [(ofString "token", ofString "hf")] (spaceInput ".." "..")
        (ofString "https://huggingface.co/api/spaces/../.."))).map fun parts =>
          (follow Token.view [] parts.segments).length) = some 4 := by decide +kernel
  have one : ((parse domains (ofString "https://huggingface.co/api/spaces/../..")).map fun
      address => address.path.length) = some 1 := by decide
  rw [parted] at four
  rw [read] at one
  have long : (follow Token.view [] parts.segments).length = 4 := Option.some.inj four
  have short : address'.path.length = 1 := Option.some.inj one
  have level := inPlace.1
  omega

end Requests

end OpenUrl

end TitanRunner
