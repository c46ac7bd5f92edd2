import Verlet.Kernel.MandateLifecycle
import Verlet.Support.Globs
import Verlet.Support.Utf8
import Verlet.Wasm.Addresses

/-!
# Wasm — HTTP

The HTTP host call of a guest, up to the connection: what request the guest's bytes make, with or without
an input mapping; which grant its destination asks for; and to which addresses the client may connect.

The URL parser, the client and `serde_json` are parameters (`HttpLibrary`), and so is what a name resolves
to.  What comes after the connection, the response and its limits, is left out.
-/

namespace Verlet.Wasm
open Support Schema
open Kernel (debugText)

/-! ### Requests -/

structure WasmAttachmentConfig where
  allowedSecrets : List String
  /-- The methods that each origin pattern is allowed with. -/
  allowedPrivateNetwork : List (String × List String)

structure WasmHttpRequest where
  abi : String
  method : String
  url : String
  headers : List (String × String)
  secretHeaders : List (String × String)
  secretHeaderPrefixes : List (String × String × String)
  inputMapping : Option Json
  responseEnvelope : Bool
  timeoutMs : Option Nat
  maxResponseBytes : Option Nat
deriving DecidableEq

structure WasmHttpParameterMapping where
  name : String
  inputProperty : String
  location : String
  required : Bool
  schema : Json

structure WasmHttpRequestBodyMapping where
  required : Bool
  inputProperty : Option String
  schema : Json

structure WasmHttpInputMapping where
  inputSchema : Option Json
  parameters : List WasmHttpParameterMapping
  requestBody : Option WasmHttpRequestBodyMapping

/-- The `STATUS_*` codes a failed request ends with before its connection. -/
inductive Status where
  | invalidArgument
  | capabilityDenied
  | transportError

structure WasmHttpError where
  status : Status
  message : String

abbrev HttpResult (α : Type) := Except WasmHttpError α

/-- `WasmHttpError::invalid_argument`. -/
def invalidArgument (message : String) : WasmHttpError := ⟨.invalidArgument, message⟩

/-- `WasmHttpError::capability_denied`. -/
def capabilityDenied (message : String) : WasmHttpError := ⟨.capabilityDenied, message⟩

/-- `map_err` of a failure that has a text. -/
def orInvalid {α : Type} (text : String) : Except String α → HttpResult α
  | .ok a      => .ok a
  | .error err => .error (invalidArgument (text ++ err))

/-- `ok_or_else`. -/
def orRefuse {α : Type} (error : WasmHttpError) : Option α → HttpResult α
  | some a => .ok a
  | none   => .error error

theorem orRefuse_ok {α : Type} {error : WasmHttpError} {found : Option α} {a : α} :
    orRefuse error found = .ok a ↔ found = some a := by
  cases found <;> simp [orRefuse]

theorem orInvalid_ok {α : Type} {text : String} {result : Except String α} {a : α} :
    orInvalid text result = .ok a ↔ result = .ok a := by
  cases result <;> simp [orInvalid]

/-! ### URLs -/

inductive Host where
  | domain (name : String)
  | ipv4 (ip : Ipv4Addr)
  | ipv6 (ip : Ipv6Addr)

/-- `reqwest::Url`, by what its methods answer. -/
structure Url where
  text : String
  scheme : String
  username : String
  password : Option String
  host : Option Host
  hostStr : Option String
  port : Option Nat
  query : Option String
  fragment : Option String

/-- What the runner uses of other libraries. -/
structure HttpLibrary where
  /-- `reqwest::Url::parse`. -/
  parseUrl : String → Option Url
  /-- `query_pairs_mut().append_pair`, of each pair. -/
  appendPairs : Url → List (String × String) → Url
  /-- `reqwest::Method::from_bytes`. -/
  methodFromBytes : String → Option String
  /-- `HeaderName::from_bytes`. -/
  headerName : String → Option String
  /-- `HeaderValue::from_str` succeeds. -/
  isHeaderValue : String → Bool
  /-- `Client::builder().build()`, with a timeout. -/
  buildClient : Nat → Except String Unit
  /-- `serde_json::from_slice`. -/
  parseRequest : List UInt8 → Except String WasmHttpRequest
  parseJson : List UInt8 → Except String Json
  /-- `serde_json::from_value`. -/
  parseInputMapping : Json → Except String WasmHttpInputMapping
  /-- `serde_json::to_vec`. -/
  jsonBytes : Json → Except String (List UInt8)
  numberText : JsonNumber → String
  /-- `Display` of a schema error. -/
  schemaText : ValidationError → String

/-- The URL parser follows the WHATWG standard. -/
structure HttpLibrary.Standard (library : HttpLibrary) : Prop where
  /-- What a URL is written as is parsed as that URL. -/
  parsesAgain : ∀ value url, library.parseUrl value = some url → library.parseUrl url.text = some url
  /-- An IPv4 host is written as four octets. -/
  octets : ∀ value url ip, library.parseUrl value = some url → url.host = some (.ipv4 ip) →
    url.hostStr = some (String.ofList ip.text)
  /-- An IPv6 host is written in brackets. -/
  brackets : ∀ value url ip, library.parseUrl value = some url → url.host = some (.ipv6 ip) →
    ∃ inside, url.hostStr = some (String.ofList ('[' :: inside))

def httpOrigin (url : Url) : Option String :=
  url.hostStr.map fun host =>
    let host := if host.toList.contains ':' ∧ host.toList.head? ≠ some '[' then "[" ++ host ++ "]" else host
    let defaultPort := if url.scheme = "http" then some 80 else if url.scheme = "https" then some 443 else none
    match url.port.filter fun port => some port ≠ defaultPort with
    | some port => url.scheme ++ "://" ++ host ++ ":" ++ toString port
    | none      => url.scheme ++ "://" ++ host

def isPrivateOrSpecialUrl (url : Url) : Bool :=
  match url.hostStr with
  | none      => false
  | some host =>
    host.toLower = "localhost" || ((parseIpAddr host.toList).map isPrivateOrSpecialIp).getD false

structure NormalizedHttpUrl where
  url : String
  origin : String
  privateDestination : Bool
  hasCredentials : Bool
  hasQuery : Bool
  hasFragment : Bool

variable (library : HttpLibrary)

def normalizeHttpUrl (value : String) : HttpResult NormalizedHttpUrl := do
  let url ← orRefuse (invalidArgument "invalid HTTP URL") (library.parseUrl value)
  require (url.scheme = "http" ∨ url.scheme = "https")
    (invalidArgument "HTTP URL scheme must be http or https")
  let origin ← orRefuse (invalidArgument "HTTP URL must include a host") (httpOrigin url)
  pure {
    url := url.text
    origin
    privateDestination := isPrivateOrSpecialUrl url
    hasCredentials := url.username ≠ "" || url.password.isSome
    hasQuery := url.query.isSome
    hasFragment := url.fragment.isSome
  }

/-! ### Input mappings -/

def httpParameterValue : Json → HttpResult String
  | .str value => .ok value
  | .num value => .ok (library.numberText value)
  | .bool value => .ok (toString value)
  | _ => .error (invalidArgument "HTTP parameters must be strings, numbers, or booleans")

def percentEncodePathSegment (value : String) : String :=
  String.ofList ((Utf8.encode value.toList).flatMap fun byte =>
    let c := Char.ofNat byte.toNat
    if c.isAlphanum ∨ c = '-' ∨ c = '.' ∨ c = '_' ∨ c = '~' then [c]
    else '%' :: (Uuid.hexDigits 2 byte.toNat).map Char.toUpper)

/-- `validate_json_value_against_schema`, with the text its failure has here. -/
def validateMapped (schema value : Json) (label text : String) : HttpResult Unit :=
  match validateJsonValueAgainstSchema schema value label with
  | .ok ()     => .ok ()
  | .error err => .error (invalidArgument (text ++ library.schemaText err))

/-- What the parameters have made so far: the URL, the query and the headers. -/
structure MappedParameters where
  url : String
  query : List (String × String)
  headers : List (String × String)

def applyParameter (object : List (String × Json)) (mapped : MappedParameters)
    (parameter : WasmHttpParameterMapping) : HttpResult MappedParameters :=
  match (Json.get? object parameter.inputProperty).filter (· ≠ .null) with
  | none =>
    if parameter.required then
      .error (invalidArgument ("missing required HTTP input property " ++
        debugText parameter.inputProperty))
    else .ok mapped
  | some value => do
    validateMapped library parameter.schema value
      ("HTTP input property " ++ debugText parameter.inputProperty)
      ("HTTP input property " ++ debugText parameter.inputProperty ++ " violates its pinned schema: ")
    let value ← httpParameterValue library value
    if parameter.location = "path" then
      let placeholder := "\x7b" ++ parameter.name ++ "\x7d"
      require (mapped.url.contains placeholder)
        (invalidArgument ("HTTP path placeholder " ++ debugText placeholder ++ " was not found"))
      pure { mapped with url := mapped.url.replace placeholder (percentEncodePathSegment value) }
    else if parameter.location = "query" then
      pure { mapped with query := mapped.query ++ [(parameter.name, value)] }
    else if parameter.location = "header" then
      pure { mapped with headers := mapped.headers ++ [(parameter.name, value)] }
    else .error (invalidArgument "unsupported HTTP input parameter location")

def mappedBody (object : List (String × Json)) (input : Json) :
    Option WasmHttpRequestBodyMapping → HttpResult (List UInt8)
  | none => .ok []
  | some requestBody => do
    let found ←
      match requestBody.inputProperty with
      | none => pure (some input)
      | some property =>
        match Json.get? object property with
        | some body => pure (some body)
        | none =>
          if requestBody.required then
            .error (invalidArgument ("missing required HTTP request body property " ++
              debugText property))
          else pure none
    match found with
    | none => pure []
    | some body =>
      require (¬(body = .null ∧ requestBody.required))
        (invalidArgument "required HTTP request body must not be null")
      if body = .null then pure []
      else
        validateMapped library requestBody.schema body "HTTP request body"
          "HTTP request body violates its pinned schema: "
        orInvalid "failed to encode HTTP request body: " (library.jsonBytes body)

/-- `apply_http_input_mapping`: the request as the mapping leaves it, and its body. -/
def applyHttpInputMapping (request : WasmHttpRequest) (inputBytes : List UInt8) :
    HttpResult (WasmHttpRequest × List UInt8) :=
  match request.inputMapping with
  | none => .ok (request, inputBytes)
  | some mapping => do
    let mapping ← orInvalid "invalid HTTP input mapping: " (library.parseInputMapping mapping)
    let input ← orInvalid "invalid JSON input: " (library.parseJson inputBytes)
    mapping.inputSchema.forM fun schema =>
      validateMapped library schema input "HTTP mapped input" "HTTP input violates its pinned schema: "
    let object := input.asObject.getD []
    let mapped ← mapping.parameters.foldlM (applyParameter library object)
      ⟨request.url, [], request.headers⟩
    let parsed ← orRefuse (invalidArgument "invalid mapped HTTP url") (library.parseUrl mapped.url)
    let parsed := if mapped.query = [] then parsed else library.appendPairs parsed mapped.query
    let body ← mappedBody library object input mapping.requestBody
    pure ({ request with inputMapping := none, url := parsed.text, headers := mapped.headers }, body)

/-! ### Grants -/

/-- `wildcard_match`, of the bytes. -/
def wildcardMatch (pattern value : String) : Bool :=
  globMatch 42 (Utf8.encode pattern.toList) (Utf8.encode value.toList)

def httpCapabilityMatches (grant namespace' method origin : String) : Bool :=
  match (grant.toList.dropPrefix? namespace'.toList).bind (·.dropPrefix? [':']) with
  | none => false
  | some rest =>
    if rest = ['*'] then true
    else
      match rest.dropPrefix? ['*', ':'] with
      | some originPattern => wildcardMatch (String.ofList originPattern) origin
      | none =>
        match (rest.dropPrefix? method.toList).bind (·.dropPrefix? [':']) with
        | some originPattern => wildcardMatch (String.ofList originPattern) origin
        | none               => wildcardMatch (String.ofList rest) origin

def ensureHttpCapability (grants : List String) (attachmentConfig : WasmAttachmentConfig)
    (method origin : String) (privateDestination : Bool) : HttpResult Unit :=
  if privateDestination then
    require (attachmentConfig.allowedPrivateNetwork.any fun entry =>
        (entry.2.contains "*" || entry.2.contains method) && wildcardMatch entry.1 origin)
      (capabilityDenied ("missing required capability net.http.private:" ++ method ++ ":" ++ origin))
  else
    require (grants.any fun grant => httpCapabilityMatches grant "net.http" method origin)
      (capabilityDenied ("missing required capability net.http:" ++ method ++ ":" ++ origin))

/-! ### Headers -/

def forbiddenOutboundHeader (name : String) : Bool :=
  ["connection", "content-length", "host", "keep-alive", "proxy-authenticate", "proxy-authorization",
    "te", "trailer", "transfer-encoding", "upgrade"].contains name

def outboundHeaderName (name invalidMessage : String) : HttpResult String := do
  let name ← orRefuse (invalidArgument invalidMessage) (library.headerName name)
  require (forbiddenOutboundHeader name = false)
    (invalidArgument "forbidden HTTP header controls routing or message framing")
  pure name

/-- `HeaderMap::insert`. -/
def insertHeader (headers : List (String × String)) (name value : String) : List (String × String) :=
  headers.filter (fun header => header.1 ≠ name) ++ [(name, value)]

def addHeader (headers : List (String × String)) (header : String × String) :
    HttpResult (List (String × String)) := do
  let name ← outboundHeaderName library header.1 "invalid HTTP header name"
  require (library.isHeaderValue header.2) (invalidArgument "invalid HTTP header value")
  pure (insertHeader headers name header.2)

/-- A header with a secret for its value, after `valuePrefix`. -/
def addSecretHeader (allowedSecrets : List String)
    (secrets : List (String × String)) (invalidMessage : String) (headers : List (String × String))
    (header : String × String × String) : HttpResult (List (String × String)) := do
  let name ← outboundHeaderName library header.1 invalidMessage
  require (header.2.1 ∈ allowedSecrets) (capabilityDenied "missing required secret capability")
  let value ← orRefuse (capabilityDenied "required secret is not available") (secrets.lookup header.2.1)
  require (library.isHeaderValue (header.2.2 ++ value))
    (invalidArgument "secret value is not valid for HTTP header")
  pure (insertHeader headers name (header.2.2 ++ value))

def outboundHeaders (request : WasmHttpRequest) (allowedSecrets : List String)
    (secrets : List (String × String)) : HttpResult (List (String × String)) := do
  let headers ← request.headers.foldlM (addHeader library) []
  let headers ← (request.secretHeaders.map fun header => (header.1, header.2, "")).foldlM
    (addSecretHeader library allowedSecrets secrets "invalid HTTP secret header name") headers
  request.secretHeaderPrefixes.foldlM
    (addSecretHeader library allowedSecrets secrets "invalid HTTP prefixed secret header name") headers

/-! ### The request and its connection -/

def httpAbi : String := "cooldis.net.http/0.1"

def httpDefaultTimeoutMs : Nat := 30000

def httpMaxTimeoutMs : Nat := 180000

/-- What `execute_http_request` is called with. -/
structure HttpCall where
  requestBytes : List UInt8
  body : List UInt8
  grants : List String
  attachmentConfig : WasmAttachmentConfig
  secrets : List (String × String)

/-- What is handed to the client. -/
structure Sent where
  method : String
  url : Url
  headers : List (String × String)
  body : List UInt8
  timeoutMs : Nat

/-- `execute_http_request`, up to `send`. -/
def executeHttpRequest (call : HttpCall) : HttpResult Sent := do
  let request ← orInvalid "invalid HTTP request: " (library.parseRequest call.requestBytes)
  require (request.abi = httpAbi) (invalidArgument ("unsupported HTTP ABI " ++ debugText request.abi))
  let mapped ← applyHttpInputMapping library request call.body
  let method ← orRefuse (invalidArgument "invalid HTTP method") (library.methodFromBytes mapped.1.method)
  let target ← normalizeHttpUrl library mapped.1.url
  require (target.hasCredentials = false) (invalidArgument "HTTP URL must not contain credentials")
  let url ← orRefuse (invalidArgument "invalid canonical HTTP URL") (library.parseUrl target.url)
  ensureHttpCapability call.grants call.attachmentConfig method target.origin target.privateDestination
  let timeoutMs := min (mapped.1.timeoutMs.getD httpDefaultTimeoutMs) httpMaxTimeoutMs
  match library.buildClient timeoutMs with
  | .error err => .error ⟨.transportError, err⟩
  | .ok ()     => do
    let headers ← outboundHeaders library mapped.1 call.attachmentConfig.allowedSecrets call.secrets
    pure { method, url, headers, body := mapped.2, timeoutMs }

/-- `FilteredDnsResolver::resolve`. -/
def filteredDnsResolve (lookupHost : String → Except String (List IpAddr)) (name : String) :
    Except String (List IpAddr) := do
  let addrs ← lookupHost name
  let filteredAddrs := addrs.filter fun addr => !isPrivateOrSpecialIp addr
  require (filteredAddrs ≠ []) "refusing to connect to private or special-purpose address"
  pure filteredAddrs

/-- Where the client may connect: to a host that is an address directly, to any other at what its resolver
returned.  It follows no redirect. -/
def destinations (lookupHost : String → Except String (List IpAddr)) (url : Url) : List IpAddr :=
  match url.host with
  | none => []
  | some (.ipv4 ip) => [.v4 ip]
  | some (.ipv6 ip) => [.v6 ip]
  | some (.domain name) =>
    match filteredDnsResolve lookupHost name with
    | .ok addrs => addrs
    | .error _  => []

end Verlet.Wasm
