import PowerFramework.Egress.Request
/-!
# Redirects

Whatever the network answers, every request goes to a public address of its own hop and to a listed
origin, and carries the authorization only while no hop has left the first origin
(`guarded_safeHttpRequest`).  The step from `https` back to `http` is forbidden only when the first
hop was `https` already (`safeHttpRequest_safe_iff`).
-/

namespace PowerFramework.Egress

open Lib Lib.Failure Lib.Text Lib.Grouping

section
variable [Internet] {options : RequestOptions} {network : Network} {hop left : Nat}
  {progress next : Progress} {request : SentRequest} {sent : List SentRequest}
  {endpoint : ValidatedEndpoint} {url : String}

/-! ## One hop -/

/-- What the checks of an endpoint have found. -/
structure Validated (options : RequestOptions) (url : String) (endpoint : ValidatedEndpoint) :
    Prop where
  originalUrl : endpoint.originalUrl = url
  nonempty : url ≠ ""
  scheme : endpoint.scheme = "http" ∨ endpoint.scheme = "https"
  allowed : ∀ origins, options.allowedOrigins = some origins → endpoint.origin ∈ origins
  split : ∃ parsed, Internet.urlsplit url = .ok parsed ∧ parsed.scheme = endpoint.scheme

theorem validated_syntax {requireHttps : Bool}
    (h : validateEndpointSyntax url requireHttps = .ok endpoint) :
    endpoint.originalUrl = url ∧ url ≠ "" ∧
      (endpoint.scheme = "http" ∨ endpoint.scheme = "https") ∧
      ∃ parsed, Internet.urlsplit url = .ok parsed ∧ parsed.scheme = endpoint.scheme := by
  unfold validateEndpointSyntax at h
  obtain ⟨⟨⟩, hlength, h⟩ := bind_eq_ok.mp h
  obtain ⟨⟨⟩, -, h⟩ := bind_eq_ok.mp h
  obtain ⟨parsed, hparsed, h⟩ := bind_eq_ok.mp h
  obtain ⟨⟨⟩, hscheme, h⟩ := bind_eq_ok.mp h
  obtain ⟨⟨⟩, -, h⟩ := bind_eq_ok.mp h
  obtain ⟨⟨⟩, -, h⟩ := bind_eq_ok.mp h
  obtain ⟨⟨⟩, -, h⟩ := bind_eq_ok.mp h
  rw [raiseIf_eq_ok, not_or] at hlength
  rw [raiseIf_eq_ok, not_not] at hscheme
  split at h
  · cases h
  · obtain ⟨⟨⟩, -, h⟩ := bind_eq_ok.mp h
    obtain ⟨hostname, -, h⟩ := bind_eq_ok.mp h
    cases h
    refine ⟨rfl, hlength.1, ?_, parsed, hparsed, rfl⟩
    cases requireHttps with
    | true => exact Or.inr (List.mem_singleton.mp hscheme)
    | false => simpa using hscheme

theorem validated (h : validateRemoteEndpoint options url = .ok endpoint) :
    Validated options url endpoint := by
  unfold validateRemoteEndpoint at h
  obtain ⟨found, hfound, h⟩ := bind_eq_ok.mp h
  obtain ⟨⟨⟩, -, h⟩ := bind_eq_ok.mp h
  obtain ⟨⟨⟩, hallowed, h⟩ := bind_eq_ok.mp h
  cases h
  obtain ⟨hurl, hnonempty, hscheme, hsplit⟩ := validated_syntax hfound
  rw [raiseIf_eq_ok] at hallowed
  refine ⟨hurl, hnonempty, hscheme, ?_, hsplit⟩
  intro origins horigins
  rw [horigins, Option.any_some, decide_eq_true_eq, not_not] at hallowed
  exact hallowed

/-- The request goes to an address that the network named at this hop, and it named public ones
only. -/
def Resolved (network : Network) (hop : Nat) (request : SentRequest) : Prop :=
  ∃ records, network.getaddrinfo hop request.endpoint.hostname request.endpoint.port =
      some records ∧
    (∀ text, some text ∈ records →
      ∃ address, Internet.ipAddress text = some address ∧ isUnsafeAddress address = false) ∧
    ∃ text address, some text ∈ records ∧ Internet.ipAddress text = some address ∧
      request.pinnedAddress = Internet.addressText address

theorem publicAddress_eq_ok {text shown : String} : publicAddress text = .ok shown ↔
    ∃ address, Internet.ipAddress text = some address ∧ isUnsafeAddress address = false ∧
      shown = Internet.addressText address := by
  unfold publicAddress
  cases haddress : Internet.ipAddress text with
  | none => simp
  | some address =>
    change (if isUnsafeAddress address = true then _ else .ok (Internet.addressText address)) =
      Except.ok shown ↔ _
    split_ifs with hunsafe
    · constructor
      · intro h
        cases h
      · rintro ⟨other, hother, hsafe, -⟩
        rw [← Option.some.inj hother, hunsafe] at hsafe
        cases hsafe
    · constructor
      · intro h
        cases h
        exact ⟨address, rfl, eq_false_of_ne_true hunsafe, rfl⟩
      · rintro ⟨other, hother, -, rfl⟩
        rw [Option.some.inj hother]

omit [Internet] in
theorem mem_filterMap_id {records : List (Option String)} {text : String} :
    text ∈ records.filterMap id ↔ some text ∈ records := by
  simp [List.mem_filterMap]

theorem resolved_of_mem {addresses : List String}
    (h : resolvePublicEndpoint network hop request.endpoint = .ok addresses)
    (haddress : request.pinnedAddress ∈ addresses) : Resolved network hop request := by
  unfold resolvePublicEndpoint at h
  cases hrecords : network.getaddrinfo hop request.endpoint.hostname request.endpoint.port with
  | none =>
    rw [hrecords] at h
    cases h
  | some records =>
    rw [hrecords] at h
    obtain ⟨found, hfound, h⟩ := bind_eq_ok.mp h
    obtain ⟨⟨⟩, -, h⟩ := bind_eq_ok.mp h
    cases h
    refine ⟨records, hrecords, ?_, ?_⟩
    · intro text htext
      obtain ⟨shown, -, hshown⟩ := exists_of_mapM hfound (mem_filterMap_id.mpr htext)
      obtain ⟨address, haddress, hsafe, -⟩ := publicAddress_eq_ok.mp hshown
      exact ⟨address, haddress, hsafe⟩
    · rw [mem_sortedSet] at haddress
      obtain ⟨text, htext, hshown⟩ := mem_of_mapM hfound haddress
      obtain ⟨address, haddress, -, heq⟩ := publicAddress_eq_ok.mp hshown
      exact ⟨text, address, mem_filterMap_id.mp htext, haddress, heq⟩

/-- What a hop does up to its request. -/
structure Prepared (options : RequestOptions) (network : Network) (hop : Nat)
    (progress : Progress) (request : SentRequest) (next : Progress) : Prop where
  validated : validateRemoteEndpoint options progress.currentUrl = .ok request.endpoint
  kept : ∀ initial, progress.initial = some initial → initial.1 = "https" →
    request.endpoint.scheme = "https"
  fresh : request.endpoint.originalUrl ∉ progress.visited
  resolved : Resolved network hop request
  headers : request.headers = requestHeaders request.endpoint
    (if next.forwarding then options.headers
      else options.headers.filter fun header => !isAuthorization header)
  initial : next.initial =
    some (progress.initial.getD (request.endpoint.scheme, request.endpoint.origin))
  forwarding : next.forwarding = true → progress.forwarding = true ∧
    (hop = 0 ∨ request.endpoint.origin =
      (progress.initial.getD (request.endpoint.scheme, request.endpoint.origin)).2)
  visited : next.visited = progress.visited ++ [request.endpoint.originalUrl]
  currentUrl : next.currentUrl = progress.currentUrl

theorem prepared (h : prepare options network hop progress = .ok (request, next)) :
    Prepared options network hop progress request next := by
  unfold prepare at h
  obtain ⟨endpoint, hendpoint, h⟩ := bind_eq_ok.mp h
  obtain ⟨⟨⟩, hkept, h⟩ := bind_eq_ok.mp h
  obtain ⟨⟨⟩, hfresh, h⟩ := bind_eq_ok.mp h
  obtain ⟨addresses, haddresses, h⟩ := bind_eq_ok.mp h
  rw [raiseIf_eq_ok] at hkept hfresh
  cases addresses with
  | nil => cases h
  | cons address addresses =>
    cases h
    constructor
    · exact hendpoint
    · intro initial hinitial hhttps
      rw [hinitial, Option.any_some, decide_eq_true_eq, not_and, not_not] at hkept
      exact hkept hhttps
    · exact hfresh
    · exact resolved_of_mem haddresses List.mem_cons_self
    · rfl
    · rfl
    · intro hforwarding
      rw [Bool.and_eq_true, Bool.not_eq_true', Bool.and_eq_false_iff, decide_eq_false_iff_not,
        decide_eq_false_iff_not, not_not, not_not] at hforwarding
      exact hforwarding
    · rfl
    · rfl

/-! ## The hops of a run -/

/-- The requests of the hops from here on.  Behind a redirect the reply was not too large. -/
inductive Follows (options : RequestOptions) (network : Network) :
    Nat → Progress → List SentRequest → Prop where
  | none (hop : Nat) (progress : Progress) : Follows options network hop progress []
  | last {hop : Nat} {progress next : Progress} {request : SentRequest}
      (h : Prepared options network hop progress request next) :
      Follows options network hop progress [request]
  | redirect {hop : Nat} {progress next : Progress} {request : SentRequest} (url : String)
      {sent : List SentRequest} (h : Prepared options network hop progress request next)
      (hbytes : 0 ≤ options.maxBytes)
      (hrest : Follows options network (hop + 1) { next with currentUrl := url } sent) :
      Follows options network hop progress (request :: sent)

theorem maxBytes_of_requestOnce {reply : Option Reply} {response : SafeHttpResponse}
    (h : requestOnce options request reply = .ok response) : 0 ≤ options.maxBytes := by
  unfold requestOnce at h
  split at h
  · cases h
  · simp only at h
    split_ifs at h with hlarge
    omega

theorem follows_follow :
    Follows options network hop progress (follow options network left hop progress).sent := by
  induction left generalizing hop progress with
  | zero => exact Follows.none hop progress
  | succ left ih =>
    rw [follow]
    cases hprepare : prepare options network hop progress with
    | error e => exact Follows.none hop progress
    | ok pair =>
      obtain ⟨request, next⟩ := pair
      have hprepared := prepared hprepare
      simp only
      split
      · exact Follows.last hprepared
      · exact Follows.last hprepared
      · rename_i url hurl
        obtain ⟨response, hresponse, -⟩ := bind_eq_ok.mp hurl
        exact Follows.redirect url hprepared (maxBytes_of_requestOnce hresponse) ih

theorem length_follow : (follow options network left hop progress).sent.length ≤ left := by
  induction left generalizing hop progress with
  | zero => exact le_rfl
  | succ left ih =>
    rw [follow]
    cases hprepare : prepare options network hop progress with
    | error e => exact Nat.zero_le _
    | ok pair =>
      simp only
      split
      · exact Nat.succ_le_succ (Nat.zero_le _)
      · exact Nat.succ_le_succ (Nat.zero_le _)
      · exact Nat.succ_le_succ ih

theorem Follows.resolved (h : Follows options network hop progress sent) {i : Nat}
    (hi : sent[i]? = some request) : Resolved network (hop + i) request := by
  induction h generalizing i with
  | none => cases hi
  | last hprepared =>
    cases i with
    | zero =>
      cases hi
      exact hprepared.resolved
    | succ i => cases hi
  | redirect url hprepared hbytes hrest ih =>
    cases i with
    | zero =>
      cases hi
      exact hprepared.resolved
    | succ i =>
      rw [Nat.add_succ, ← Nat.succ_add]
      exact ih hi

theorem Follows.validated (h : Follows options network hop progress sent)
    (hrequest : request ∈ sent) :
    validateRemoteEndpoint options request.endpoint.originalUrl = .ok request.endpoint := by
  have hself : ∀ {hop progress request next}, Prepared options network hop progress request next →
      validateRemoteEndpoint options request.endpoint.originalUrl = .ok request.endpoint := by
    intro hop progress request next hprepared
    rw [(Egress.validated hprepared.validated).originalUrl]
    exact hprepared.validated
  induction h with
  | none => cases hrequest
  | last hprepared =>
    rw [List.mem_singleton] at hrequest
    rw [hrequest]
    exact hself hprepared
  | redirect url hprepared hbytes hrest ih =>
    rcases List.mem_cons.mp hrequest with rfl | hrequest
    · exact hself hprepared
    · exact ih hrequest

/-! ## Authorization -/

/-- The request has a header named `Authorization`, in any letter case. -/
def Carries (request : SentRequest) : Prop :=
  ∃ header ∈ request.headers, isAuthorization header = true

theorem lower_host : Internet.lower "Host" = "host" := by
  rw [Internet.lower_ascii (by decide)]
  decide

theorem isAuthorization_host (value : String) : isAuthorization ("Host", value) = false := by
  rw [isAuthorization, lower_host]
  decide

theorem Prepared.carries (h : Prepared options network hop progress request next)
    (hcarries : Carries request) : next.forwarding = true := by
  obtain ⟨header, hheader, hauthorization⟩ := hcarries
  by_contra hforwarding
  rw [h.headers, if_neg hforwarding, requestHeaders] at hheader
  rcases mem_put hheader with rfl | hheader
  · rw [isAuthorization_host] at hauthorization
    cases hauthorization
  · have hkept := List.of_mem_filter (List.mem_of_mem_filter hheader)
    rw [hauthorization] at hkept
    cases hkept

/-- Behind the first hop the authorization is carried only while all hops have its origin. -/
theorem Follows.authorization (h : Follows options network hop progress sent) (hhop : hop ≠ 0)
    {initial : String × String} (hinitial : progress.initial = some initial) {i : Nat}
    (hi : sent[i]? = some request) (hcarries : Carries request) :
    progress.forwarding = true ∧
      ∀ earlier ∈ sent.take (i + 1), earlier.endpoint.origin = initial.2 := by
  have hfirst : ∀ {hop progress request next}, hop ≠ 0 → progress.initial = some initial →
      Prepared options network hop progress request next → next.forwarding = true →
      progress.forwarding = true ∧ request.endpoint.origin = initial.2 := by
    intro hop progress request next hhop hinitial hprepared hforwarding
    obtain ⟨hbefore, horigin⟩ := hprepared.forwarding hforwarding
    rw [hinitial, Option.getD_some] at horigin
    exact ⟨hbefore, horigin.resolve_left hhop⟩
  induction h generalizing i with
  | none => cases hi
  | last hprepared =>
    cases i with
    | zero =>
      cases hi
      have hown := hfirst hhop hinitial hprepared (hprepared.carries hcarries)
      exact ⟨hown.1, by simpa using hown.2⟩
    | succ i => cases hi
  | redirect url hprepared hbytes hrest ih =>
    cases i with
    | zero =>
      cases hi
      have hown := hfirst hhop hinitial hprepared (hprepared.carries hcarries)
      exact ⟨hown.1, by simpa using hown.2⟩
    | succ i =>
      have hnext := hprepared.initial
      rw [hinitial, Option.getD_some] at hnext
      obtain ⟨hforwarding, hearlier⟩ := ih (Nat.succ_ne_zero _) hnext hi
      have hown := hfirst hhop hinitial hprepared hforwarding
      rw [List.take_succ_cons, List.forall_mem_cons]
      exact ⟨hown.1, hown.2, hearlier⟩

/-! ## What holds of every run -/

/-- Requests go to public addresses of their hops and to listed origins, carry the authorization
only while no hop has left the first origin, and are not too many. -/
structure Guarded (options : RequestOptions) (network : Network) (sent : List SentRequest) :
    Prop where
  resolved : ∀ hop request, sent[hop]? = some request → Resolved network hop request
  allowed : ∀ request ∈ sent, ∀ origins, options.allowedOrigins = some origins →
    request.endpoint.origin ∈ origins
  authorization : ∀ hop request, sent[hop]? = some request → Carries request →
    ∀ first, sent[0]? = some first →
      ∀ earlier ∈ sent.take (hop + 1), earlier.endpoint.origin = first.endpoint.origin
  count : sent.length ≤ (options.maxRedirects + 1).toNat

theorem Follows.guarded (h : Follows options network 0 (start options url) sent)
    (hcount : sent.length ≤ (options.maxRedirects + 1).toNat) : Guarded options network sent := by
  refine ⟨?_, ?_, ?_, hcount⟩
  · intro hop request hrequest
    have hresolved := h.resolved hrequest
    rwa [Nat.zero_add] at hresolved
  · intro request hrequest
    exact (Egress.validated (h.validated hrequest)).allowed
  · intro hop request hrequest hcarries first hfirst
    cases h with
    | none => cases hrequest
    | last hprepared =>
      intro earlier hearlier
      rw [List.mem_singleton.mp (List.mem_of_mem_take hearlier)]
      cases hfirst
      rfl
    | redirect url hprepared hbytes hrest =>
      cases hfirst
      rw [List.take_succ_cons, List.forall_mem_cons]
      refine ⟨rfl, ?_⟩
      cases hop with
      | zero => simp
      | succ hop =>
        exact (hrest.authorization Nat.one_ne_zero hprepared.initial hrequest hcarries).2

theorem follows_safeHttpRequest :
    Follows options network 0 (start options url) (safeHttpRequest options network url).sent ∧
      (safeHttpRequest options network url).sent.length ≤ (options.maxRedirects + 1).toNat := by
  unfold safeHttpRequest
  cases checkOptions options with
  | error e => exact ⟨Follows.none _ _, Nat.zero_le _⟩
  | ok u => exact ⟨follows_follow, length_follow⟩

/-- Whatever the network answers, the requests are guarded. -/
theorem guarded_safeHttpRequest :
    Guarded options network (safeHttpRequest options network url).sent :=
  follows_safeHttpRequest.1.guarded follows_safeHttpRequest.2

/-! ## From `https` to `http` -/

/-- The requests are guarded, and none is sent with `http` behind one with `https`. -/
structure Safe (options : RequestOptions) (network : Network) (sent : List SentRequest) : Prop
    extends Guarded options network sent where
  kept : ∀ hop before after, sent[hop]? = some before → sent[hop + 1]? = some after →
    before.endpoint.scheme = "https" → after.endpoint.scheme = "https"

/-- Two redirects are allowed, the first URL has `http`, and other URLs are accepted with `https`
and with `http`. -/
structure Downgradable (options : RequestOptions) (url : String) : Prop where
  bytes : 0 ≤ options.maxBytes
  redirects : 2 ≤ options.maxRedirects
  checked : checkOptions options = .ok ⟨⟩
  first : ∃ endpoint, validateRemoteEndpoint options url = .ok endpoint ∧ endpoint.scheme = "http"
  up : ∃ other endpoint, validateRemoteEndpoint options other = .ok endpoint ∧
    endpoint.scheme = "https"
  down : ∃ other endpoint, other ≠ url ∧ validateRemoteEndpoint options other = .ok endpoint ∧
    endpoint.scheme = "http"

theorem Follows.https (h : Follows options network hop progress sent) {initial : String × String}
    (hinitial : progress.initial = some initial) (hhttps : initial.1 = "https") :
    ∀ request ∈ sent, request.endpoint.scheme = "https" := by
  induction h with
  | none => simp
  | last hprepared =>
    intro request hrequest
    rw [List.mem_singleton.mp hrequest]
    exact hprepared.kept initial hinitial hhttps
  | redirect url hprepared hbytes hrest ih =>
    have hnext := hprepared.initial
    rw [hinitial, Option.getD_some] at hnext
    rw [List.forall_mem_cons]
    exact ⟨hprepared.kept initial hinitial hhttps, ih hnext⟩

/-- No URL is requested again. -/
theorem Follows.fresh (h : Follows options network hop progress sent) :
    ∀ request ∈ sent, request.endpoint.originalUrl ∉ progress.visited := by
  induction h with
  | none => simp
  | last hprepared =>
    intro request hrequest
    rw [List.mem_singleton.mp hrequest]
    exact hprepared.fresh
  | @redirect hop progress next first url sent hprepared hbytes hrest ih =>
    rw [List.forall_mem_cons]
    refine ⟨hprepared.fresh, ?_⟩
    intro request hrequest hvisited
    apply ih request hrequest
    show request.endpoint.originalUrl ∈ next.visited
    rw [hprepared.visited]
    exact List.mem_append_left _ hvisited

/-- A request with `http` behind one with `https` was led there from a first one with `http`. -/
theorem Follows.downgradable (h : Follows options network 0 (start options url) sent)
    (hchecked : checkOptions options = .ok ⟨⟩)
    (hcount : sent.length ≤ (options.maxRedirects + 1).toNat) {before after : SentRequest}
    (hbefore : sent[hop]? = some before) (hafter : sent[hop + 1]? = some after)
    (hhttps : before.endpoint.scheme = "https") (hdown : after.endpoint.scheme ≠ "https") :
    Downgradable options url := by
  cases h with
  | none => cases hbefore
  | last hprepared => cases hafter
  | redirect url' hprepared hbytes hrest =>
    rename_i next request rest
    rw [List.getElem?_cons_succ] at hafter
    have hmem := List.mem_of_getElem? hafter
    have hfirst : request.endpoint.scheme ≠ "https" := by
      intro hsecure
      exact hdown (hrest.https hprepared.initial hsecure after hmem)
    have hscheme : ∀ {options url} {endpoint : ValidatedEndpoint},
        validateRemoteEndpoint options url = .ok endpoint → endpoint.scheme ≠ "https" →
        endpoint.scheme = "http" := by
      intro options url endpoint hvalid hne
      exact (Egress.validated hvalid).scheme.resolve_right hne
    cases hop with
    | zero =>
      cases hbefore
      exact absurd hhttps hfirst
    | succ hop =>
      rw [List.getElem?_cons_succ] at hbefore
      have hlong := (List.getElem?_eq_some_iff.mp hafter).1
      rw [List.length_cons] at hcount
      have hurl := (Egress.validated hprepared.validated).originalUrl
      have hother : after.endpoint.originalUrl ≠ url := by
        intro heq
        apply hrest.fresh after hmem
        show after.endpoint.originalUrl ∈ next.visited
        rw [hprepared.visited, heq]
        exact List.mem_append_right _ (List.mem_singleton.mpr hurl.symm)
      exact
        { bytes := hbytes
          redirects := by omega
          checked := hchecked
          first := ⟨_, hprepared.validated, hscheme hprepared.validated hfirst⟩
          up := ⟨_, _, hrest.validated (List.mem_of_getElem? hbefore), hhttps⟩
          down := ⟨_, _, hother, hrest.validated hmem, hscheme (hrest.validated hmem) hdown⟩ }

/-! ### A server that redirects up and down -/

/-- A reply that redirects to the URL. -/
def redirectTo (url : String) : Reply := ⟨302, [("location", url)], []⟩

/-- Every host has the address; the first two requests are redirected. -/
def misleading (address up down : String) : Network where
  getaddrinfo _ _ _ := some [some address]
  getresponse hop _ := some
    (if hop = 0 then redirectTo up else if hop = 1 then redirectTo down else ⟨200, [], []⟩)

theorem resolve_misleading {text up down : String} {address : Internet.Address}
    (haddress : Internet.ipAddress text = some address) (hsafe : isUnsafeAddress address = false) :
    resolvePublicEndpoint (misleading text up down) hop endpoint =
      .ok [Internet.addressText address] := by
  have hshown : publicAddress text = .ok (Internet.addressText address) :=
    publicAddress_eq_ok.mpr ⟨address, haddress, hsafe, rfl⟩
  unfold resolvePublicEndpoint misleading
  show ([text].mapM publicAddress >>= _) = _
  rw [List.mapM_cons, hshown]
  show Except.ok (sortedSet [Internet.addressText address]) = _
  rw [sortedSet_singleton]

/-- An endpoint that is accepted is requested, unless it is visited or a downgrade. -/
theorem prepare_eq_ok {address : String}
    (hvalid : validateRemoteEndpoint options progress.currentUrl = .ok endpoint)
    (hkept : ∀ initial, progress.initial = some initial → initial.1 ≠ "https")
    (hfresh : endpoint.originalUrl ∉ progress.visited)
    (hresolve : resolvePublicEndpoint network hop endpoint = .ok [address]) :
    ∃ request next, prepare options network hop progress = .ok (request, next) ∧
      request.endpoint = endpoint := by
  have hdown : ¬ progress.initial.any (fun initial =>
      initial.1 = "https" ∧ endpoint.scheme ≠ "https") = true := by
    rw [Option.any_eq_true]
    rintro ⟨initial, hinitial, hboth⟩
    exact hkept initial hinitial (of_decide_eq_true hboth).1
  have hok : ∃ pair, prepare options network hop progress = .ok pair :=
    ⟨_, bind_eq_ok.mpr ⟨endpoint, hvalid, bind_eq_ok.mpr ⟨⟨⟩, raiseIf_eq_ok.mpr hdown,
      bind_eq_ok.mpr ⟨⟨⟩, raiseIf_eq_ok.mpr hfresh, bind_eq_ok.mpr ⟨[address], hresolve, rfl⟩⟩⟩⟩⟩
  obtain ⟨⟨request, next⟩, hprepare⟩ := hok
  have hown := (prepared hprepare).validated
  rw [hvalid] at hown
  exact ⟨request, next, hprepare, (Except.ok.inj hown).symm⟩

theorem lower_location : Internet.lower "location" = "location" := by
  rw [Internet.lower_ascii (by decide)]
  decide

/-- A redirect to another scheme is followed. -/
theorem follow_redirect (hprepare : prepare options network hop progress = .ok (request, next))
    (hreply : network.getresponse hop request = some (redirectTo url)) (hurl : url ≠ "")
    (hbytes : 0 ≤ options.maxBytes) (hhop : (hop : Int) < options.maxRedirects)
    (hjoin : Internet.urljoin next.currentUrl url = .ok url) :
    (follow options network (left + 1) hop progress).sent = request ::
      (follow options network left (hop + 1) { next with currentUrl := url }).sent := by
  have honce : requestOnce options request (some (redirectTo url)) = .ok
      ⟨request.endpoint.originalUrl, 302, [("location", url)], []⟩ := by
    have hread : readAtMost options.maxBytes [] = [] := by
      unfold readAtMost
      split_ifs
      · rfl
      · exact List.take_nil
    unfold requestOnce redirectTo
    simp only
    rw [hread, if_neg (by simpa using hbytes), List.foldl_cons, List.foldl_nil, lower_location]
    rfl
  have hredirect : redirectOf options hop next.currentUrl
      ⟨request.endpoint.originalUrl, 302, [("location", url)], []⟩ = .ok (.inr url) := by
    unfold redirectOf
    rw [if_neg (show ¬ (!isRedirect 302) = true by decide)]
    apply bind_eq_ok.mpr ⟨⟨⟩, raiseIf_eq_ok.mpr (by omega), ?_⟩
    apply bind_eq_ok.mpr ⟨⟨⟩, raiseIf_eq_ok.mpr hurl, ?_⟩
    exact bind_eq_ok.mpr ⟨url, hjoin, rfl⟩
  have hstep : (requestOnce options request (network.getresponse hop request) >>=
      redirectOf options hop next.currentUrl) = .ok (.inr url) := by
    rw [hreply]
    exact bind_eq_ok.mpr ⟨_, honce, hredirect⟩
  rw [follow, hprepare]
  simp only
  rw [hstep]

/-- A hop that can be prepared sends its request first. -/
theorem sent_follow (hprepare : prepare options network hop progress = .ok (request, next)) :
    (follow options network (left + 1) hop progress).sent[0]? = some request := by
  rw [follow, hprepare]
  simp only
  split <;> rfl

/-- Where a downgrade is possible, some network leads there. -/
theorem Downgradable.exists_network (h : Downgradable options url) :
    ∃ network, ¬ Safe options network (safeHttpRequest options network url).sent := by
  obtain ⟨first, hfirst, hplain⟩ := h.first
  obtain ⟨up, second, hup, hsecure⟩ := h.up
  obtain ⟨down, third, hne, hdown, hthird⟩ := h.down
  obtain ⟨text, address, haddress, hglobal⟩ := Internet.exists_global
  have hsafe : isUnsafeAddress address = false := by rw [isUnsafeAddress, hglobal]; rfl
  obtain ⟨hurl₁, -, -, -, split₁, hsplit₁, hscheme₁⟩ := validated hfirst
  obtain ⟨hurl₂, hnonempty₂, -, -, split₂, hsplit₂, hscheme₂⟩ := validated hup
  obtain ⟨hurl₃, hnonempty₃, -, -, split₃, hsplit₃, hscheme₃⟩ := validated hdown
  have hjoin₂ : Internet.urljoin url up = .ok up := by
    apply Internet.urljoin_scheme hsplit₁ hsplit₂ <;> rw [hscheme₂, hsecure]
    · decide
    · rw [hscheme₁, hplain]
      decide
  have hjoin₃ : Internet.urljoin up down = .ok down := by
    apply Internet.urljoin_scheme hsplit₂ hsplit₃ <;> rw [hscheme₃, hthird]
    · decide
    · rw [hscheme₂, hsecure]
      decide
  have hup_ne : up ≠ url := by
    rintro rfl
    rw [hfirst] at hup
    rw [Except.ok.inj hup, hsecure] at hplain
    exact absurd hplain (by decide)
  have hdown_ne : down ≠ up := by
    rintro rfl
    rw [hup] at hdown
    rw [Except.ok.inj hdown, hthird] at hsecure
    exact absurd hsecure (by decide)
  -- the three hops of the run
  have hresolve : ∀ hop endpoint, resolvePublicEndpoint (misleading text up down) hop endpoint =
      .ok [Internet.addressText address] := by
    intro hop endpoint
    exact resolve_misleading haddress hsafe
  have hstart : ∀ initial, (start options url).initial = some initial → initial.1 ≠ "https" := by
    intro initial hinitial
    cases hinitial
  obtain ⟨request₁, next₁, hprepare₁, rfl⟩ :=
    prepare_eq_ok hfirst hstart List.not_mem_nil (hresolve 0 first)
  obtain ⟨-, -, -, -, -, hinitial₁, -, hvisited₁, hcurrent₁⟩ := prepared hprepare₁
  have hkept₁ : ∀ initial, next₁.initial = some initial → initial.1 ≠ "https" := by
    intro initial hinitial
    rw [hinitial₁] at hinitial
    cases hinitial
    show request₁.endpoint.scheme ≠ "https"
    rw [hplain]
    decide
  obtain ⟨request₂, next₂, hprepare₂, rfl⟩ :=
    @prepare_eq_ok _ options _ 1 { next₁ with currentUrl := up } _ _ hup hkept₁ (by
      rw [hvisited₁, hurl₂]
      show up ∉ [request₁.endpoint.originalUrl]
      rw [hurl₁, List.mem_singleton]
      exact hup_ne) (hresolve 1 second)
  obtain ⟨-, -, -, -, -, hinitial₂, -, hvisited₂, hcurrent₂⟩ := prepared hprepare₂
  have hkept₂ : ∀ initial, next₂.initial = some initial → initial.1 ≠ "https" := by
    intro initial hinitial
    rw [hinitial₂, hinitial₁] at hinitial
    exact hkept₁ initial (hinitial₁.trans hinitial)
  obtain ⟨request₃, next₃, hprepare₃, rfl⟩ :=
    @prepare_eq_ok _ options _ 2 { next₂ with currentUrl := down } _ _ hdown hkept₂ (by
      rw [hvisited₂, hurl₃]
      show down ∉ next₁.visited ++ [request₂.endpoint.originalUrl]
      rw [hvisited₁, hurl₂]
      show down ∉ [request₁.endpoint.originalUrl, up]
      rw [hurl₁]
      simp [hne, hdown_ne]) (hresolve 2 third)
  have hmax := h.redirects
  have hleft : (options.maxRedirects + 1).toNat = (options.maxRedirects - 2).toNat + 3 := by omega
  have hsent : (safeHttpRequest options (misleading text up down) url).sent = request₁ ::
      request₂ :: (follow options (misleading text up down) ((options.maxRedirects - 2).toNat + 1) 2
        { next₂ with currentUrl := down }).sent := by
    rw [safeHttpRequest, h.checked, hleft]
    show (follow options _ ((options.maxRedirects - 2).toNat + 3) 0 (start options url)).sent = _
    rw [follow_redirect hprepare₁ rfl hnonempty₂ h.bytes (by omega)
        (by rw [hcurrent₁]; exact hjoin₂),
      follow_redirect hprepare₂ rfl hnonempty₃ h.bytes (by omega)
        (by rw [hcurrent₂]; exact hjoin₃)]
  refine ⟨misleading text up down, ?_⟩
  intro hkept
  have hthird' := hkept.kept 1 request₂ request₃ (by rw [hsent]; rfl)
    (by rw [hsent]; exact sent_follow hprepare₃) hsecure
  rw [hthird] at hthird'
  exact absurd hthird' (by decide)

/-- For every network the requests are guarded and none is a downgrade, unless another URL with
`https` and another one with `http` are accepted behind a first one with `http`. -/
theorem safeHttpRequest_safe_iff (options : RequestOptions) (url : String) :
    (∀ network, Safe options network (safeHttpRequest options network url).sent) ↔
      ¬ Downgradable options url := by
  constructor
  · intro h hdowngradable
    obtain ⟨network, hunsafe⟩ := hdowngradable.exists_network
    exact hunsafe (h network)
  · intro h network
    obtain ⟨hfollows, hcount⟩ := @follows_safeHttpRequest _ options network url
    refine ⟨guarded_safeHttpRequest, ?_⟩
    intro hop before after hbefore hafter hhttps
    by_contra hdown
    cases hchecked : checkOptions options with
    | error e =>
      rw [safeHttpRequest, hchecked] at hbefore
      cases hbefore
    | ok u =>
      exact h (hfollows.downgradable hchecked hcount hbefore hafter hhttps hdown)

end

/-! ### An example -/

/-- Three hosts and one address. -/
abbrev threeHosts : Internet where
  Address := Unit
  urlsplit url :=
    if url = "http://a.example/" then
      .ok ⟨"http", none, none, "", some "a.example", some none, "/", ""⟩
    else if url = "https://b.example/" then
      .ok ⟨"https", none, none, "", some "b.example", some none, "/", ""⟩
    else if url = "http://c.example/" then
      .ok ⟨"http", none, none, "", some "c.example", some none, "/", ""⟩
    else .error (valueError "Invalid URL")
  urljoin _ url := .ok url
  lower text := String.ofList (text.toList.map Char.toLower)
  upper text := String.ofList (text.toList.map Char.toUpper)
  idna text := some text
  ipAddress text := if text = "8.8.8.8" then some () else none
  ipv4Mapped _ := none
  isGlobal _ := true
  addressText _ := "8.8.8.8"
  urljoin_scheme _ _ _ _ := rfl
  lower_ascii _ := rfl
  exists_global := ⟨"8.8.8.8", (), rfl, rfl⟩

/-- Plain requests may be redirected twice. -/
def plainOptions : RequestOptions where
  method := "GET"
  headers := []
  body := none
  requireHttps := false
  allowedOrigins := none
  allowQuery := true
  maxRedirects := 2
  maxBytes := 1048576

def exampleEndpoint (scheme hostname : String) : ValidatedEndpoint where
  originalUrl := scheme ++ "://" ++ hostname ++ "/"
  scheme := scheme
  hostname := hostname
  port := if scheme = "https" then 443 else 80
  path := "/"
  query := ""
  origin := scheme ++ "://" ++ hostname

/-- A chain from `http` over `https` leads back to `http`. -/
theorem not_forall_safe : ¬ ∀ (_ : Internet) (options : RequestOptions) (url : String)
    (network : Network), Safe options network (safeHttpRequest options network url).sent := by
  intro h
  have hfirst : @validateRemoteEndpoint threeHosts plainOptions "http://a.example/" =
      .ok (exampleEndpoint "http" "a.example") := rfl
  have hup : @validateRemoteEndpoint threeHosts plainOptions "https://b.example/" =
      .ok (exampleEndpoint "https" "b.example") := rfl
  have hdown : @validateRemoteEndpoint threeHosts plainOptions "http://c.example/" =
      .ok (exampleEndpoint "http" "c.example") := rfl
  have hdowngradable : @Downgradable threeHosts plainOptions "http://a.example/" :=
    @Downgradable.mk threeHosts _ _ (by decide) (by decide) rfl ⟨_, hfirst, rfl⟩ ⟨_, _, hup, rfl⟩
      ⟨_, _, by decide, hdown, rfl⟩
  obtain ⟨network, hunsafe⟩ := @Downgradable.exists_network threeHosts _ _ hdowngradable
  exact hunsafe (h threeHosts plainOptions "http://a.example/" network)

end PowerFramework.Egress
