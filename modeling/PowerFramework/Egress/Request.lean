import PowerFramework.Lib.Failure
import PowerFramework.Lib.Grouping
import PowerFramework.Lib.SortedSet
import PowerFramework.Lib.Text
/-!
# Safe requests

`safe_http_request`: the checks of an endpoint, its public addresses, and the loop that follows
redirects.  At every hop a network answers the query for addresses and the request as it likes; the
requests that are sent are listed with the result.
-/

namespace PowerFramework.Egress

open Lib Lib.Failure Lib.Text Lib.Grouping

/-! ## The standard library -/

/-- What `urlsplit` makes of a URL; the port is `none` when reading it raises a `ValueError`. -/
structure SplitUrl where
  scheme : String
  username : Option String
  password : Option String
  fragment : String
  hostname : Option String
  port : Option (Option Nat)
  path : String
  query : String
  deriving DecidableEq, Repr

/-- URLs, host names and addresses, as the standard library reads them.  A URL with another scheme
than its base does not depend on the base, ASCII letters have their lower case, and there are public
addresses. -/
class Internet where
  Address : Type
  urlsplit : String → Except Exn SplitUrl
  urljoin : String → String → Except Exn String
  lower : String → String
  upper : String → String
  idna : String → Option String
  ipAddress : String → Option Address
  ipv4Mapped : Address → Option Address
  isGlobal : Address → Bool
  addressText : Address → String
  urljoin_scheme : ∀ {base url splitBase split}, urlsplit base = .ok splitBase →
    urlsplit url = .ok split → split.scheme ≠ "" → split.scheme ≠ splitBase.scheme →
    urljoin base url = .ok url
  lower_ascii : ∀ {text : String}, (∀ c ∈ text.toList, c.toNat < 128) →
    lower text = String.ofList (text.toList.map Char.toLower)
  exists_global : ∃ text address, ipAddress text = some address ∧
    isGlobal ((ipv4Mapped address).getD address) = true

variable [Internet]

/-! ## Endpoints -/

def endpointPolicyError (message : String) : Exn := ⟨"EndpointPolicyError", message⟩

/-- `ValidatedEndpoint` -/
structure ValidatedEndpoint where
  originalUrl : String
  scheme : String
  hostname : String
  port : Nat
  path : String
  query : String
  origin : String
  deriving DecidableEq, Repr

namespace ValidatedEndpoint

def requestTarget (self : ValidatedEndpoint) : String :=
  let target := if self.path = "" then "/" else self.path
  if self.query = "" then target else target ++ "?" ++ self.query

end ValidatedEndpoint

def defaultPort (scheme : String) : Nat := if scheme = "https" then 443 else 80

/-- A host that is an IPv6 address stands in brackets. -/
def bracketed (hostname : String) : String :=
  if ':' ∈ hostname.toList then "[" ++ hostname ++ "]" else hostname

/-- The port is named when it is not the default. -/
def withPort (scheme host : String) (port : Nat) : String :=
  if port = defaultPort scheme then host else host ++ ":" ++ toString port

def ValidatedEndpoint.hostHeader (self : ValidatedEndpoint) : String :=
  withPort self.scheme (bracketed self.hostname) self.port

/-- `_is_unsafe_address` -/
def isUnsafeAddress (address : Internet.Address) : Bool :=
  !Internet.isGlobal ((Internet.ipv4Mapped address).getD address)

/-- `hostname.rstrip(".")` -/
def stripDots (hostname : String) : String :=
  String.ofList (hostname.toList.reverse.dropWhile (· == '.')).reverse

/-- The name of the host, checked and in ASCII. -/
def checkHostname (hostname : String) : Except Exn String := do
  raiseIf (hostname = "" ∨ hostname ∈ ["localhost", "localhost.localdomain"] ∨
      endsWith ".localhost" hostname = true)
    (endpointPolicyError "localhost endpoints are forbidden")
  match Internet.ipAddress hostname with
  | some literal =>
      raiseIf (isUnsafeAddress literal = true)
        (endpointPolicyError "endpoint address is not public")
      pure hostname
  | none =>
      match Internet.idna hostname with
      | some ascii => pure ascii
      | none => .error (endpointPolicyError "endpoint hostname is not valid IDNA")

/-- `_validate_endpoint_syntax` -/
def validateEndpointSyntax (url : String) (requireHttps : Bool) :
    Except Exn ValidatedEndpoint := do
  raiseIf (url = "" ∨ 2048 < url.length)
    (endpointPolicyError "endpoint URL is missing or exceeds the length limit")
  raiseIf (url.toList.any isControl = true)
    (endpointPolicyError "endpoint URL contains control characters")
  let parsed ← Internet.urlsplit url
  raiseIf (parsed.scheme ∉ if requireHttps then ["https"] else ["http", "https"])
    (endpointPolicyError
      ("endpoint must use " ++ if requireHttps then "https" else "http or https"))
  raiseIf (parsed.username ≠ none ∨ parsed.password ≠ none)
    (endpointPolicyError "endpoint userinfo is forbidden")
  raiseIf (parsed.fragment ≠ "") (endpointPolicyError "endpoint fragments are forbidden")
  let name := parsed.hostname.getD ""
  raiseIf (name = "") (endpointPolicyError "endpoint hostname is required")
  match parsed.port with
  | none => .error (endpointPolicyError "endpoint port is invalid")
  | some given =>
      let port := given.getD (defaultPort parsed.scheme)
      raiseIf (port < 1 ∨ 65535 < port)
        (endpointPolicyError "endpoint port is outside the valid range")
      let hostname ← checkHostname (Internet.lower (stripDots name))
      pure
        { originalUrl := url
          scheme := parsed.scheme
          hostname := hostname
          port := port
          path := parsed.path
          query := parsed.query
          origin := withPort parsed.scheme (parsed.scheme ++ "://" ++ bracketed hostname) port }

/-- The arguments of `safe_http_request` besides the URL. -/
structure RequestOptions where
  method : String
  headers : List (String × String)
  body : Option (List UInt8)
  requireHttps : Bool
  allowedOrigins : Option (List String)
  allowQuery : Bool
  maxRedirects : Int
  maxBytes : Int

/-- `validate_remote_endpoint` -/
def validateRemoteEndpoint (options : RequestOptions) (url : String) :
    Except Exn ValidatedEndpoint := do
  let endpoint ← validateEndpointSyntax url options.requireHttps
  raiseIf (options.allowQuery = false ∧ endpoint.query ≠ "")
    (endpointPolicyError "endpoint query parameters are forbidden")
  raiseIf (options.allowedOrigins.any (fun origins => endpoint.origin ∉ origins) = true)
    (endpointPolicyError "endpoint origin is not in the explicit allowlist")
  pure endpoint

/-! ## The network -/

/-- A request on its way to an address. -/
structure SentRequest where
  endpoint : ValidatedEndpoint
  pinnedAddress : String
  method : String
  target : String
  headers : List (String × String)
  body : Option (List UInt8)

structure Reply where
  status : Nat
  headers : List (String × String)
  body : List UInt8

/-- The answers at every hop.  The query for addresses fails, or has records with or without an
address; a request fails, or gets a reply. -/
structure Network where
  getaddrinfo : Nat → String → Nat → Option (List (Option String))
  getresponse : Nat → SentRequest → Option Reply

/-- The address of one record. -/
def publicAddress (addressText : String) : Except Exn String :=
  match Internet.ipAddress addressText with
  | none => .error (endpointPolicyError "endpoint DNS returned an invalid address")
  | some address =>
      if isUnsafeAddress address then
        .error (endpointPolicyError "endpoint DNS returned a non-public address")
      else .ok (Internet.addressText address)

/-- `resolve_public_endpoint` -/
def resolvePublicEndpoint (network : Network) (hop : Nat) (endpoint : ValidatedEndpoint) :
    Except Exn (List String) :=
  match network.getaddrinfo hop endpoint.hostname endpoint.port with
  | none => .error (endpointPolicyError "endpoint DNS resolution failed")
  | some records => do
      let addresses ← (records.filterMap id).mapM publicAddress
      raiseIf (addresses = []) (endpointPolicyError "endpoint DNS returned no addresses")
      pure (sortedSet addresses)

/-- `SafeHttpResponse` -/
structure SafeHttpResponse where
  url : String
  status : Nat
  headers : List (String × String)
  body : List UInt8

/-- The headers that `_request_once` sends. -/
def requestHeaders (endpoint : ValidatedEndpoint) (headers : List (String × String)) :
    List (String × String) :=
  put "Host" endpoint.hostHeader
    (headers.filter fun header => Internet.lower header.1 ≠ "host")

/-- What `response.read(max_bytes + 1)` returns. -/
def readAtMost (maxBytes : Int) (body : List UInt8) : List UInt8 :=
  if maxBytes + 1 < 0 then body else body.take (maxBytes + 1).toNat

/-- `_request_once` on what becomes of its request. -/
def requestOnce (options : RequestOptions) (request : SentRequest) (reply : Option Reply) :
    Except Exn SafeHttpResponse :=
  match reply with
  | none => .error (endpointPolicyError "endpoint request failed")
  | some response =>
      let payload := readAtMost options.maxBytes response.body
      if options.maxBytes < payload.length then
        .error (endpointPolicyError "endpoint response exceeds the size limit")
      else .ok
        { url := request.endpoint.originalUrl
          status := response.status
          headers := response.headers.foldl
            (fun d header => put (Internet.lower header.1) header.2 d) []
          body := payload }

/-! ## The loop over redirects -/

/-- The variables of the loop; `initial` is the scheme and the origin of the first hop. -/
structure Progress where
  currentUrl : String
  initial : Option (String × String)
  forwarding : Bool
  visited : List String

def isAuthorization (header : String × String) : Bool :=
  Internet.lower header.1 == "authorization"

/-- The hop up to its request. -/
def prepare (options : RequestOptions) (network : Network) (hop : Nat) (progress : Progress) :
    Except Exn (SentRequest × Progress) := do
  let endpoint ← validateRemoteEndpoint options progress.currentUrl
  raiseIf (progress.initial.any (fun initial => initial.1 = "https" ∧ endpoint.scheme ≠ "https"))
    (endpointPolicyError "HTTPS endpoint downgrade through redirect is forbidden")
  let initial := progress.initial.getD (endpoint.scheme, endpoint.origin)
  raiseIf (endpoint.originalUrl ∈ progress.visited)
    (endpointPolicyError "endpoint redirect loop detected")
  let forwarding := progress.forwarding && !(hop ≠ 0 && endpoint.origin ≠ initial.2)
  let headers := if forwarding then options.headers
    else options.headers.filter fun header => !isAuthorization header
  match ← resolvePublicEndpoint network hop endpoint with
  | [] => .error ⟨"IndexError", "tuple index out of range"⟩
  | address :: _ =>
      pure
        ({ endpoint := endpoint
           pinnedAddress := address
           method := Internet.upper options.method
           target := endpoint.requestTarget
           headers := requestHeaders endpoint headers
           body := options.body },
         { currentUrl := progress.currentUrl
           initial := some initial
           forwarding := forwarding
           visited := progress.visited ++ [endpoint.originalUrl] })

def isRedirect (status : Nat) : Bool := decide (status ∈ [301, 302, 303, 307, 308])

/-- The URL a response redirects to, or the response itself. -/
def redirectOf (options : RequestOptions) (hop : Nat) (currentUrl : String)
    (response : SafeHttpResponse) : Except Exn (SafeHttpResponse ⊕ String) := do
  if !isRedirect response.status then return .inl response
  raiseIf (options.maxRedirects ≤ hop) (endpointPolicyError "endpoint redirect is not permitted")
  let location := (response.headers.lookup "location").getD ""
  raiseIf (location = "") (endpointPolicyError "endpoint redirect has no Location header")
  return .inr (← Internet.urljoin currentUrl location)

/-- The requests that were sent, and the result. -/
structure Outcome where
  sent : List SentRequest
  result : Except Exn SafeHttpResponse

/-- The loop, with the number of hops that are left. -/
def follow (options : RequestOptions) (network : Network) : Nat → Nat → Progress → Outcome
  | 0, _, _ => ⟨[], .error (endpointPolicyError "endpoint redirect policy exhausted")⟩
  | left + 1, hop, progress =>
      match prepare options network hop progress with
      | .error e => ⟨[], .error e⟩
      | .ok (request, progress) =>
          match requestOnce options request (network.getresponse hop request) >>=
            redirectOf options hop progress.currentUrl with
          | .error e => ⟨[request], .error e⟩
          | .ok (.inl response) => ⟨[request], .ok response⟩
          | .ok (.inr url) =>
              let rest := follow options network left (hop + 1) { progress with currentUrl := url }
              ⟨request :: rest.sent, rest.result⟩

/-- The variables before the first hop. -/
def start (options : RequestOptions) (url : String) : Progress where
  currentUrl := url
  initial := none
  forwarding := options.headers.any isAuthorization
  visited := []

/-- The checks before the first hop. -/
def checkOptions (options : RequestOptions) : Except Exn Unit := do
  raiseIf (options.maxRedirects < 0 ∨ 5 < options.maxRedirects)
    (endpointPolicyError "redirect limit is outside the supported range")
  raiseIf (options.headers.any isAuthorization = true ∧ options.allowedOrigins = none)
    (endpointPolicyError "authorization requires an explicit endpoint allowlist")

/-- `safe_http_request` -/
def safeHttpRequest (options : RequestOptions) (network : Network) (url : String) : Outcome :=
  match checkOptions options with
  | .error e => ⟨[], .error e⟩
  | .ok _ => follow options network (options.maxRedirects + 1).toNat 0 (start options url)

end PowerFramework.Egress
