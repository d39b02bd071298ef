import JobAgg.Foundation.Checked

/-! # Requests that follow redirects

A request is sent hop by hop. Each hop carries fixed headers of the client, its default headers
and those that it is given. The next hop is given the headers of the one before, and only the
public ones when the destination is another one. Names of headers are ASCII: others are refused
before anything is sent. -/

namespace JobAgg.HttpCheckpoint

variable (lower : List Char → List Char)

/-- What `urlsplit` finds in a URL: a scheme in small letters, a host that is not empty and a port
where they are written, and the path with the rest -/
structure Url where
  scheme : List Char
  hostname : Option (List Char)
  port : Option Nat
  path : List Char
  named : hostname ≠ some []
deriving DecidableEq

def https : List Char := "https".toList

@[ext] structure Origin where
  scheme : List Char
  hostname : Option (List Char)
  port : Nat
deriving DecidableEq

def Url.origin (url : Url) : Origin where
  scheme := url.scheme
  hostname := url.hostname
  port :=
    if url.port.getD 0 ≠ 0 then url.port.getD 0 else if url.scheme = https then 443 else 80

/-- Who a header comes from -/
inductive Provenance where
  | fixed
  | default
  | caller
deriving DecidableEq

structure Header where
  name : List Char
  value : List Char
  provenance : Provenance
deriving DecidableEq

def publicNames : List (List Char) :=
  ["accept".toList, "accept-encoding".toList, "accept-language".toList, "user-agent".toList,
    "cache-control".toList]

/-- `str.lower`, of the name of a header -/
def lowerName (name : List Char) : List Char := name.map Char.toLower

/-- `str.capitalize`, of the name of a header -/
def capitalizeName : List Char → List Char
  | [] => []
  | first :: rest => first.toUpper :: rest.map Char.toLower

def Header.isPublic (header : Header) : Bool := decide (lowerName header.name ∈ publicNames)

/-- `headers[name] = value` -/
def setHeader (header : Header) : List Header → List Header
  | [] => [header]
  | first :: rest =>
    if first.name = header.name then header :: rest else first :: setHeader header rest

/-- `headers.update(later)` -/
def updateHeaders (headers later : List Header) : List Header :=
  later.foldl (fun headers header => setHeader header headers) headers

/-- The checks of a `SafeHTTPPolicy`: redirects are counted, and a URL is resolved. -/
structure Policy where
  maxRedirects : Nat
  resolves : Url → Bool

structure Client where
  userAgent : List Char
  acceptEncoding : List Char
  defaultHeaders : List (List Char × List Char)
  safePolicy : Option Policy

structure Capture where
  client : Client
  defaultHeaderOrigin : Option Origin

def Client.fixedHeaders (client : Client) : List Header :=
  [⟨"User-Agent".toList, client.userAgent, .fixed⟩, ⟨"Accept".toList, "*/*".toList, .fixed⟩,
    ⟨"Accept-Encoding".toList, client.acceptEncoding, .fixed⟩]

/-- `DurableCapture.transport`: the default headers of a request -/
def Capture.transportDefaults (capture : Capture) (url : Url) : List Header :=
  let defaults := capture.client.defaultHeaders.map fun entry => ⟨entry.1, entry.2, .default⟩
  if some url.origin ≠ capture.defaultHeaderOrigin then defaults.filter Header.isPublic
  else defaults

/-- `Request.add_header`, of one header after the other -/
def addHeaders (sent headers : List Header) : List Header :=
  headers.foldl (fun sent header =>
    setHeader { header with name := capitalizeName header.name } sent) sent

/-- `HttpClient._request`: the headers of a `Request`, under names that are capitalized -/
def Capture.requestHeaders (capture : Capture) (url : Url) (given : List Header) : List Header :=
  addHeaders [] (updateHeaders
    (updateHeaders capture.client.fixedHeaders (capture.transportDefaults url)) given)

/-- `HTTPRedirectHandler.redirect_request`: the headers of the next `Request` -/
def redirectHeaders (sent : List Header) : List Header :=
  sent.filter fun header =>
    decide (lowerName header.name ∉ ["content-length".toList, "content-type".toList])

/-- `(urlsplit(url).hostname or "").lower()` -/
def Url.host (url : Url) : List Char := lower (url.hostname.getD [])

/-- A redirect is to the scheme, host and port that it came from. -/
def keepsDestination (url target : Url) : Bool :=
  decide (url.scheme = target.scheme ∧ some (url.host lower) = target.hostname ∧
    url.port = target.port)

/-- `validate_redirect`, of a location that is a whole URL -/
def validateRedirect (policy : Policy) (location : Url) (redirectCount : Nat) :
    Except String Url := do
  require (decide (redirectCount ≤ policy.maxRedirects)) "Too many redirects"
  require (policy.resolves location) "SSRFProtectionError"
  return location

/-- The URL of the next hop, checked where there is a policy -/
def Client.checkRedirect (client : Client) (location : Url) (redirectCount : Nat) :
    Except String Url :=
  match client.safePolicy with
  | none => .ok location
  | some policy => validateRedirect policy location redirectCount

/-- The next hop of a request, or the refusal of a redirect -/
def Capture.follow (capture : Capture) (depth : Nat) (url : Url) (sent : List Header)
    (location : Url) : Except String (Url × List Header) := do
  require (!(url.scheme == https && location.scheme != https))
    "HTTPS downgrade redirect rejected"
  let target ← capture.client.checkRedirect location (depth + 1)
  let headers := redirectHeaders sent
  return (target,
    if keepsDestination lower url target then headers else headers.filter Header.isPublic)

/-- A request that was sent -/
structure Hop where
  url : Url
  headers : List Header
deriving DecidableEq

/-- The other checks of `DurableCapture.request`, which raise before anything is sent -/
abbrev Admits : Type := Nat → Url → Bool

/-- The recursion of `DurableCapture.request`: what is sent when the servers answer with
redirects to these locations -/
def Capture.requestFrom (capture : Capture) (admits : Admits) :
    Nat → Url → List Header → List Url → List Hop
  | depth, url, given, locations =>
    if 10 < depth ∨ admits depth url = false then []
    else
      let sent := capture.requestHeaders url given
      ⟨url, sent⟩ ::
        match locations with
        | [] => []
        | location :: later =>
          match capture.follow lower depth url sent location with
          | .error _ => []
          | .ok next => capture.requestFrom admits (depth + 1) next.1 next.2 later

/-- The first request decides where default headers belong. -/
def Capture.begun (capture : Capture) (url : Url) : Capture :=
  match capture.defaultHeaderOrigin with
  | none => { capture with defaultHeaderOrigin := some url.origin }
  | some _ => capture

/-- `DurableCapture.request`, with headers of the caller -/
def Capture.request (capture : Capture) (admits : Admits) (url : Url)
    (headers : List (List Char × List Char)) (locations : List Url) : List Hop :=
  (capture.begun url).requestFrom lower admits 0 url
    (headers.map fun entry => ⟨entry.1, entry.2, .caller⟩) locations

end JobAgg.HttpCheckpoint
