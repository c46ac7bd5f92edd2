import Verlet.Wasm.Http

/-!
# Wasm — What a guest can reach

A private address takes a private grant.  Three tests stand in the way: the class of the URL's host, the
grant that class asks for, and the filter of what a name resolves to.

* `reachesGranted_iff`: exactly when they cover a call.  An IPv4 host they always cover; a host that is an
  IPv6 address, and a name that resolves to the IPv6 form of an IPv4 address, they do not see.
-/

namespace Verlet.Wasm
open Support

variable {library : HttpLibrary} {lookupHost : String → Except String (List IpAddr)} {call : HttpCall}

/-! ### What is asked for -/

/-- An entry of `allowed_private_network` matches the origin and the method. -/
def PrivateGrant (attachmentConfig : WasmAttachmentConfig) (method origin : String) : Prop :=
  ∃ entry ∈ attachmentConfig.allowedPrivateNetwork, ("*" ∈ entry.2 ∨ method ∈ entry.2) ∧
    Glob 42 (Utf8.encode entry.1.toList) (Utf8.encode origin.toList)

/-- The call connects to a private address only where an entry allows it. -/
def ReachesGranted (library : HttpLibrary) (lookupHost : String → Except String (List IpAddr))
    (call : HttpCall) : Prop :=
  ∀ sent addr, executeHttpRequest library call = .ok sent →
    addr ∈ destinations lookupHost sent.url → addr.Private →
    ∃ origin, httpOrigin sent.url = some origin ∧
      PrivateGrant call.attachmentConfig sent.method origin

/-! ### What is let through -/

/-- The call asks for `url` with `method`, and nothing but the class of the host is against it: it is
well-formed, and a grant of `net.http` matches. -/
structure Admitted (library : HttpLibrary) (call : HttpCall) (method : String) (url : Url)
    (origin : String) : Prop where
  wellFormed : ∃ request mapped,
    library.parseRequest call.requestBytes = .ok request ∧ request.abi = httpAbi ∧
    applyHttpInputMapping library request call.body = .ok mapped ∧
    library.methodFromBytes mapped.1.method = some method ∧
    library.parseUrl mapped.1.url = some url ∧
    library.buildClient (min (mapped.1.timeoutMs.getD httpDefaultTimeoutMs) httpMaxTimeoutMs) = .ok () ∧
    ∃ headers, outboundHeaders library mapped.1 call.attachmentConfig.allowedSecrets call.secrets =
      .ok headers
  scheme : url.scheme = "http" ∨ url.scheme = "https"
  hasOrigin : httpOrigin url = some origin
  noCredentials : url.username = "" ∧ url.password = none
  granted : ∃ grant ∈ call.grants, httpCapabilityMatches grant "net.http" method origin = true

/-- A private address behind a host that no test takes for private: the host is that address, in IPv6; or
it is a name, and the address is the IPv6 form of an IPv4 address that it resolves to. -/
def Unseen (lookupHost : String → Except String (List IpAddr)) (url : Url) (addr : IpAddr) : Prop :=
  addr.Private ∧
    match url.host with
    | some (.ipv6 ip)     => addr = .v6 ip
    | some (.domain name) =>
      isPrivateOrSpecialUrl url = false ∧ (∃ ip, addr = .v6 (.mapped ip)) ∧
        ∃ addrs, lookupHost name = .ok addrs ∧ addr ∈ addrs
    | _ => False

/-! ### What is sent -/

theorem normalizeHttpUrl_ok {value : String} {target : NormalizedHttpUrl} :
    normalizeHttpUrl library value = .ok target ↔
      ∃ url, library.parseUrl value = some url ∧ (url.scheme = "http" ∨ url.scheme = "https") ∧
        ∃ origin, httpOrigin url = some origin ∧
          ⟨url.text, origin, isPrivateOrSpecialUrl url, url.username ≠ "" || url.password.isSome,
            url.query.isSome, url.fragment.isSome⟩ = target := by
  simp only [normalizeHttpUrl, bind_ok, orRefuse_ok, exists_unit_ok, require_ok, pure_ok]

theorem noCredentials_iff {url : Url} :
    (url.username ≠ "" || url.password.isSome) = false ↔ url.username = "" ∧ url.password = none := by
  simp

theorem ensureHttpCapability_private {grants : List String} {config : WasmAttachmentConfig}
    {method origin : String} (h : ensureHttpCapability grants config method origin true = .ok ()) :
    PrivateGrant config method origin := by
  rw [ensureHttpCapability, if_pos rfl, require_ok, List.any_eq_true] at h
  obtain ⟨entry, hentry, hallows⟩ := h
  simp only [Bool.and_eq_true, Bool.or_eq_true, List.contains_iff_mem] at hallows
  exact ⟨entry, hentry, hallows.1, globMatch_sound hallows.2⟩

theorem ensureHttpCapability_public {grants : List String} {config : WasmAttachmentConfig}
    {method origin : String} :
    ensureHttpCapability grants config method origin false = .ok () ↔
      ∃ grant ∈ grants, httpCapabilityMatches grant "net.http" method origin = true := by
  rw [ensureHttpCapability, if_neg Bool.false_ne_true, require_ok, List.any_eq_true]

theorem executeHttpRequest_ok (standard : library.Standard) {sent : Sent}
    (h : executeHttpRequest library call = .ok sent) :
    ∃ origin, httpOrigin sent.url = some origin ∧
      (isPrivateOrSpecialUrl sent.url = true ∧
          PrivateGrant call.attachmentConfig sent.method origin ∨
        isPrivateOrSpecialUrl sent.url = false ∧
          Admitted library call sent.method sent.url origin) := by
  simp only [executeHttpRequest, bind_ok, exists_unit_ok, require_ok, orRefuse_ok, orInvalid_ok,
    normalizeHttpUrl_ok] at h
  obtain ⟨request, hrequest, habi, mapped, hmapped, method, hmethod, target, ⟨url, hurl, hscheme,
    origin, horigin, rfl⟩, hcredentials, again, hagain, hensure, hbuilt⟩ := h
  -- the URL is parsed twice, with one answer
  obtain rfl : url = again := by
    rw [standard.parsesAgain _ _ hurl] at hagain
    exact Option.some.inj hagain
  split at hbuilt
  · cases hbuilt
  · next hclient =>
    simp only [bind_ok, pure_ok] at hbuilt
    obtain ⟨headers, hheaders, rfl⟩ := hbuilt
    refine ⟨origin, horigin, ?_⟩
    cases hclass : isPrivateOrSpecialUrl url with
    | true =>
      rw [hclass] at hensure
      exact .inl ⟨rfl, ensureHttpCapability_private hensure⟩
    | false =>
      rw [hclass, ensureHttpCapability_public] at hensure
      right
      refine ⟨rfl, ⟨request, mapped, hrequest, habi, hmapped, hmethod, hurl, hclient, headers, hheaders⟩,
        hscheme, horigin, noCredentials_iff.mp hcredentials, hensure⟩

theorem executeHttpRequest_of_admitted (standard : library.Standard) {method origin : String} {url : Url}
    (h : Admitted library call method url origin) (hclass : isPrivateOrSpecialUrl url = false) :
    ∃ sent, executeHttpRequest library call = .ok sent ∧ sent.method = method ∧ sent.url = url := by
  obtain ⟨request, mapped, hrequest, habi, hmapped, hmethod, hurl, hclient, headers, hheaders⟩ :=
    h.wellFormed
  refine ⟨⟨method, url, headers, mapped.2,
    min (mapped.1.timeoutMs.getD httpDefaultTimeoutMs) httpMaxTimeoutMs⟩, ?_, rfl, rfl⟩
  simp only [executeHttpRequest, bind_ok, exists_unit_ok, require_ok, orRefuse_ok, orInvalid_ok,
    normalizeHttpUrl_ok]
  refine ⟨request, hrequest, habi, mapped, hmapped, method, hmethod, _, ⟨url, hurl, h.scheme, origin,
    h.hasOrigin, rfl⟩, noCredentials_iff.mpr h.noCredentials, url, standard.parsesAgain _ _ hurl, ?_, ?_⟩
  · rw [hclass, ensureHttpCapability_public]
    exact h.granted
  · rw [hclient]
    simp only [bind_ok, pure_ok]
    exact ⟨headers, hheaders, rfl⟩

/-! ### Where it connects -/

theorem mem_filteredDnsResolve {name : String} {found : List IpAddr} {addr : IpAddr}
    (h : filteredDnsResolve lookupHost name = .ok found) :
    addr ∈ found ↔ (∃ addrs, lookupHost name = .ok addrs ∧ addr ∈ addrs) ∧
      isPrivateOrSpecialIp addr = false := by
  simp only [filteredDnsResolve, bind_ok, exists_unit_ok, require_ok, pure_ok] at h
  obtain ⟨addrs, hlookup, -, rfl⟩ := h
  simp [hlookup]

theorem class_of_brackets {url : Url} {inside : List Char}
    (h : url.hostStr = some (String.ofList ('[' :: inside))) : isPrivateOrSpecialUrl url = false := by
  have hlocal : (String.ofList ('[' :: inside)).toLower ≠ "localhost" := by
    intro heq
    have hlist := congrArg (fun text => text.toList.head?) heq
    change (String.map Char.toLower (String.ofList ('[' :: inside))).toList.head? = _ at hlist
    simp [String.toList_map] at hlist
  simpa [isPrivateOrSpecialUrl, h, parseIpAddr_bracket] using hlocal

theorem Unseen.class (standard : library.Standard) {value : String} {url : Url} {addr : IpAddr}
    (hurl : library.parseUrl value = some url) (h : Unseen lookupHost url addr) :
    isPrivateOrSpecialUrl url = false := by
  obtain ⟨-, hhost⟩ := h
  split at hhost
  · next ip hip =>
    obtain ⟨inside, hinside⟩ := standard.brackets _ _ ip hurl hip
    exact class_of_brackets hinside
  · exact hhost.1
  · exact hhost.elim

theorem Unseen.mem_destinations {url : Url} {addr : IpAddr} (h : Unseen lookupHost url addr) :
    addr ∈ destinations lookupHost url := by
  obtain ⟨-, hhost⟩ := h
  split at hhost
  · next ip hip =>
    subst hhost
    simp [destinations, hip]
  · next name hname =>
    obtain ⟨-, ⟨ip, rfl⟩, addrs, hlookup, hmem⟩ := hhost
    have hpasses : isPrivateOrSpecialIp (.v6 (.mapped ip)) = false := mapped_not_special ip
    have hresolve : filteredDnsResolve lookupHost name =
        .ok (addrs.filter fun addr => !isPrivateOrSpecialIp addr) := by
      have hne : addrs.filter (fun addr => !isPrivateOrSpecialIp addr) ≠ [] :=
        List.ne_nil_of_mem (List.mem_filter.mpr ⟨hmem, by simp [hpasses]⟩)
      simp only [filteredDnsResolve, bind_ok, exists_unit_ok, require_ok, pure_ok]
      exact ⟨addrs, hlookup, hne, rfl⟩
    simp only [destinations, hname, hresolve]
    exact List.mem_filter.mpr ⟨hmem, by simp [hpasses]⟩
  · exact hhost.elim

/-- **What the tests cover**: a private address to which the client connects, from a host that is not taken
for private, is one that no test sees. -/
theorem unseen_of_destination {url : Url} {addr : IpAddr}
    (hoctets : ∀ ip, url.host = some (.ipv4 ip) → url.hostStr = some (String.ofList ip.text))
    (hmem : addr ∈ destinations lookupHost url) (hprivate : addr.Private)
    (hclass : isPrivateOrSpecialUrl url = false) : Unseen lookupHost url addr := by
  refine ⟨hprivate, ?_⟩
  cases hhost : url.host with
  | none => simp [destinations, hhost] at hmem
  | some host =>
    cases host with
    | ipv4 ip =>
      -- the text of the host is read as the address, and that is special
      obtain rfl : addr = .v4 ip := by simpa [destinations, hhost] using hmem
      have hspecial := special_of_private hprivate
      simp [isPrivateOrSpecialUrl, hoctets ip hhost, parseIpAddr_text, isPrivateOrSpecialIp,
        hspecial] at hclass
    | ipv6 ip => simpa [destinations, hhost] using hmem
    | domain name =>
      simp only [destinations, hhost] at hmem
      split at hmem
      · next addrs hresolve =>
        rw [mem_filteredDnsResolve hresolve] at hmem
        refine ⟨hclass, ?_, hmem.1⟩
        cases addr with
        | v4 ip =>
          have hspecial := special_of_private hprivate
          exact absurd hmem.2 (by simp [isPrivateOrSpecialIp, hspecial])
        | v6 ip =>
          rcases hprivate with hprivate | ⟨v4, rfl, -⟩
          · have hspecial := special_of_private_v6 hprivate
            exact absurd hmem.2 (by simp [isPrivateOrSpecialIp, hspecial])
          · exact ⟨v4, rfl⟩
      · cases hmem

/-- **When a call reaches private addresses only with a private grant**: exactly when an entry matches
wherever the call is admitted and a private address lies behind its host unseen. -/
theorem reachesGranted_iff (standard : library.Standard) :
    ReachesGranted library lookupHost call ↔
      ∀ method url origin addr, Admitted library call method url origin →
        Unseen lookupHost url addr → PrivateGrant call.attachmentConfig method origin := by
  constructor
  · intro h method url origin addr hadmitted hunseen
    obtain ⟨_, _, _, _, _, _, hurl, _⟩ := hadmitted.wellFormed
    obtain ⟨sent, hsent, rfl, rfl⟩ :=
      executeHttpRequest_of_admitted standard hadmitted (hunseen.class standard hurl)
    obtain ⟨origin', horigin, hgrant⟩ := h sent addr hsent hunseen.mem_destinations hunseen.1
    rw [hadmitted.hasOrigin] at horigin
    cases horigin
    exact hgrant
  · intro h sent addr hsent hmem hprivate
    obtain ⟨origin, horigin, ⟨-, hgrant⟩ | ⟨hclass, hadmitted⟩⟩ := executeHttpRequest_ok standard hsent
    · exact ⟨origin, horigin, hgrant⟩
    · obtain ⟨_, _, _, _, _, _, hurl, _⟩ := hadmitted.wellFormed
      have hunseen : Unseen lookupHost sent.url addr :=
        unseen_of_destination (fun ip hip => standard.octets _ _ ip hurl hip) hmem hprivate hclass
      exact ⟨origin, horigin, h _ _ _ addr hadmitted hunseen⟩

/-! ### The loopback address of IPv6 -/

/-- A request for `http://[::1]/`. -/
def loopbackRequest : WasmHttpRequest where
  abi := httpAbi
  method := "GET"
  url := "http://[::1]/"
  headers := []
  secretHeaders := []
  secretHeaderPrefixes := []
  inputMapping := none
  responseEnvelope := false
  timeoutMs := none
  maxResponseBytes := none

def loopbackBytes : List UInt8 :=
  Utf8.encode ("\x7b\"abi\":\"cooldis.net.http/0.1\",\"method\":\"GET\"," ++
    "\"url\":\"http://[::1]/\"\x7d").toList

def loopbackUrl : Url where
  text := "http://[::1]/"
  scheme := "http"
  username := ""
  password := none
  host := some (.ipv6 ⟨0, 0, 0, 0, 0, 0, 0, 1⟩)
  hostStr := some "[::1]"
  port := none
  query := none
  fragment := none

/-- The libraries, as far as this request goes. -/
def loopbackLibrary : HttpLibrary where
  parseUrl value := if value = "http://[::1]/" then some loopbackUrl else none
  appendPairs url _ := url
  methodFromBytes method := if method = "GET" then some "GET" else none
  headerName _ := none
  isHeaderValue _ := false
  buildClient _ := .ok ()
  parseRequest bytes := if bytes = loopbackBytes then .ok loopbackRequest else .error "expected value"
  parseJson _ := .error "expected value"
  parseInputMapping _ := .error "expected value"
  jsonBytes _ := .ok []
  numberText _ := ""
  schemaText _ := ""

theorem loopbackLibrary_parseUrl {value : String} {url : Url}
    (h : loopbackLibrary.parseUrl value = some url) : url = loopbackUrl := by
  simp only [loopbackLibrary, Option.ite_none_right_eq_some, Option.some.injEq] at h
  exact h.2.symm

theorem loopbackLibrary_standard : loopbackLibrary.Standard where
  parsesAgain value url h := by
    rw [loopbackLibrary_parseUrl h]
    rfl
  octets value url ip h hip := by
    rw [loopbackLibrary_parseUrl h] at hip
    cases hip
  brackets value url ip h _ := by
    rw [loopbackLibrary_parseUrl h]
    exact ⟨[':', ':', '1', ']'], rfl⟩

/-- The call of a guest that is granted all of `net.http`, with these entries for private networks. -/
def loopbackCall (allowedPrivateNetwork : List (String × List String)) : HttpCall where
  requestBytes := loopbackBytes
  body := []
  grants := ["net.http:*"]
  attachmentConfig := ⟨[], allowedPrivateNetwork⟩
  secrets := []

/-- No name resolves. -/
def noNames : String → Except String (List IpAddr) := fun _ => .error "failed to lookup address information"

theorem reachesGranted_loopback :
    ReachesGranted loopbackLibrary noNames (loopbackCall [("http://[::1]", ["*"])]) :=
  (reachesGranted_iff loopbackLibrary_standard).mpr fun method url origin addr hadmitted _ => by
    obtain ⟨_, _, _, _, _, _, hurl, _⟩ := hadmitted.wellFormed
    have horigin := hadmitted.hasOrigin
    rw [loopbackLibrary_parseUrl hurl] at horigin
    obtain rfl : "http://[::1]" = origin := Option.some.inj horigin
    exact ⟨("http://[::1]", ["*"]), .head _, .inl (.head _), globMatch_sound (by decide)⟩

theorem loopbackCall_admitted :
    Admitted loopbackLibrary (loopbackCall []) "GET" loopbackUrl "http://[::1]" where
  wellFormed := ⟨loopbackRequest, (loopbackRequest, []), by decide, rfl, rfl, rfl, rfl, rfl, [], rfl⟩
  scheme := .inl rfl
  hasOrigin := by decide
  noCredentials := ⟨rfl, rfl⟩
  granted := ⟨"net.http:*", .head _, by decide⟩

/-- **A grant of `net.http` reaches the loopback address**, written in IPv6. -/
theorem loopback_reached : ¬ ∀ (library : HttpLibrary) (lookupHost : String → Except String (List IpAddr))
    (call : HttpCall), library.Standard → ReachesGranted library lookupHost call := by
  intro h
  have hunseen : Unseen noNames loopbackUrl (.v6 ⟨0, 0, 0, 0, 0, 0, 0, 1⟩) :=
    ⟨.inl (by decide), rfl⟩
  have hparse : loopbackLibrary.parseUrl "http://[::1]/" = some loopbackUrl := rfl
  obtain ⟨sent, hsent, -, hurl⟩ := executeHttpRequest_of_admitted loopbackLibrary_standard
    loopbackCall_admitted (hunseen.class loopbackLibrary_standard hparse)
  obtain ⟨_, _, entry, hentry, _⟩ := h loopbackLibrary noNames (loopbackCall [])
    loopbackLibrary_standard sent _ hsent (hurl ▸ hunseen.mem_destinations) hunseen.1
  cases hentry

end Verlet.Wasm
