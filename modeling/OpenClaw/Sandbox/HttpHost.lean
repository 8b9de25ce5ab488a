/-
# OpenClaw.Sandbox.HttpHost -- the requests of a sandboxed GET

`httpGet` validates the start URL and every redirect target before it sends a request there, follows at
most `maxRedirects` redirects, and reads the body under a cap.  It is a program whose requests are the
ones it sends; the answers are the servers', who choose locations and bodies.

This follows `http_host.rs` on a target of 64 bits.  The URL crate is a parameter.
-/
import OpenClaw.Logic.Traces
import OpenClaw.Sandbox.Allowlist

namespace OpenClaw.Sandbox

open OpenClaw.Data OpenClaw.Logic

/-! ## URLs and responses -/

/-- What the URL crate does. -/
structure UrlCrate (υ : Type) where
  parse : Text → Except Text υ
  join : υ → Text → Except Text υ
  scheme : υ → Text
  hostStr : υ → Option Text
  toText : υ → Text

structure SandboxPolicy where
  allowlist : Allowlist
  maxResponseBytes : Nat

/-- An error of the client. -/
inductive SendError where
  | timeout
  | other (message : Text)

/-- A header value, and the text that it is if it is one. -/
structure HeaderValue where
  text : Except Text Text

structure Response (υ : Type) where
  status : Nat
  headers : List (Text × HeaderValue)
  url : υ
  contentLength : Option Nat
  /-- What each call of `chunk` returns, up to the end of the body. -/
  chunks : List (Except SendError (List UInt8))

structure HttpResult where
  status : Nat
  headers : List (Text × Text)
  body : List UInt8
  finalUrl : Text

inductive HttpHostError where
  | denied (host : Text)
  | timeout
  | tooLarge
  | network (message : Text)
  | badUrl (message : Text)
  /-- A vector would outgrow the address space: the call panics. -/
  | capacityOverflow
  deriving DecidableEq

def SendError.hostError : SendError → HttpHostError
  | .timeout => .timeout
  | .other message => .network message

/-! ## Validation -/

variable {υ : Type} (crate : UrlCrate υ) (policy : SandboxPolicy)

def validateRequestUrl (url : υ) : Except HttpHostError Unit :=
  if crate.scheme url ≠ "https".toList then .error (.badUrl "only https is allowed".toList)
  else
    match crate.hostStr url with
    | none => .error (.badUrl "missing host".toList)
    | some host => if policy.allowlist.allowsHost host then .ok () else .error (.denied host)

theorem validateRequestUrl_ok {url : υ} : validateRequestUrl crate policy url = .ok () ↔
      crate.scheme url = "https".toList ∧
        ∃ host, crate.hostStr url = some host ∧ policy.allowlist.allowsHost host = true := by
  unfold validateRequestUrl
  split
  · rename_i hscheme
    constructor
    · intro h
      cases h
    · rintro ⟨hhttps, -⟩
      exact absurd hhttps hscheme
  · rename_i hscheme
    split
    · rename_i hhost
      simp [hhost]
    · rename_i host hhost
      rw [hhost]
      constructor
      · intro h
        refine ⟨not_not.mp hscheme, host, rfl, ?_⟩
        by_contra hdenied
        rw [if_neg hdenied] at h
        cases h
      · rintro ⟨-, found, hfound, hallows⟩
        obtain rfl := Option.some.inj hfound
        exact if_pos hallows

/-! ## Bodies -/

def usizeMax : Nat := 2 ^ 64 - 1

/-- The most bytes of one vector. -/
def isizeMax : Nat := 2 ^ 63 - 1

/-- `current_len.saturating_add(chunk_len) > max` -/
def wouldExceedBodyCap (currentLen chunkLen max : Nat) : Bool := max < min (currentLen + chunkLen) usizeMax

/-- The loop of `read_body_capped`. -/
def readBodyCapped (max : Nat) (body : List UInt8) :
    List (Except SendError (List UInt8)) → Except HttpHostError (List UInt8)
  | [] => .ok body
  | .error e :: _ => .error e.hostError
  | .ok chunk :: rest =>
    if wouldExceedBodyCap body.length chunk.length max then .error .tooLarge
    else if isizeMax < body.length + chunk.length then .error .capacityOverflow
    else readBodyCapped max (body ++ chunk) rest

/-- **A body that is read** is all of its chunks, and within the cap. -/
theorem readBodyCapped_ok {max : Nat} {chunks : List (Except SendError (List UInt8))} :
    ∀ {body result : List UInt8}, body.length ≤ max → readBodyCapped max body chunks = .ok result →
      result.length ≤ max ∧ ∃ received : List (List UInt8), chunks = received.map .ok ∧ result = body ++ received.flatten := by
  induction chunks with
  | nil =>
    intro body result hbody h
    cases h
    exact ⟨hbody, [], rfl, (List.append_nil _).symm⟩
  | cons chunk rest ih =>
    intro body result hbody h
    cases chunk with
    | error e => cases h
    | ok chunk =>
      rw [readBodyCapped] at h
      split at h
      · cases h
      · rename_i hcap
        split at h
        · cases h
        · rename_i hroom
          -- below the size of a vector the sum did not saturate
          have hlength : (body ++ chunk).length ≤ max := by
            have hcap : ¬max < min (body.length + chunk.length) usizeMax := by
              simpa [wouldExceedBodyCap] using hcap
            unfold usizeMax at hcap
            unfold isizeMax at hroom
            rw [List.length_append]
            omega
          obtain ⟨hresult, received, rfl, rfl⟩ := ih hlength h
          exact ⟨hresult, chunk :: received, rfl, by simp⟩

/-! ## Requests -/

def maxRedirects : Nat := 5

/-- `GET` on a URL is the only request. -/
abbrev SendReply (_ : υ) : Type := Except SendError (Response υ)

def isRedirection (status : Nat) : Bool := 300 ≤ status && status ≤ 399

/-- The first `Location` header. -/
def locationOf (response : Response υ) : Except HttpHostError HeaderValue :=
  match response.headers.lookup "location".toList with
  | none => .error (.badUrl "redirect missing Location".toList)
  | some value => .ok value

/-- `url.join(loc).or_else(|_| Url::parse(loc))` -/
def joinOrParse (url : υ) (loc : Text) : Except Text υ :=
  match crate.join url loc with
  | .ok next => .ok next
  | .error _ => crate.parse loc

/-- Where a redirect leads, when its target is allowed. -/
def redirectTarget (url : υ) (response : Response υ) : Except HttpHostError υ := do
  let value ← locationOf response
  let loc ← value.text.mapError fun message => HttpHostError.badUrl ("invalid Location: ".toList ++ message)
  let next ← (joinOrParse crate url loc).mapError fun message =>
    HttpHostError.badUrl ("invalid redirect target: ".toList ++ message)
  validateRequestUrl crate policy next
  return next

/-- What is returned for a response that is no redirect. -/
def finalResponse (response : Response υ) : Except HttpHostError HttpResult := do
  validateRequestUrl crate policy response.url
  if response.contentLength.any (policy.maxResponseBytes < ·) then .error .tooLarge
  else
    let body ← readBodyCapped policy.maxResponseBytes [] response.chunks
    return {
      status := response.status
      headers := response.headers.map fun (name, value) => (name, value.text.toOption.getD [])
      body
      finalUrl := crate.toText response.url }

/-- What a reply leads to: the end of the call, or the next URL. -/
inductive Turn (υ : Type) where
  | stop (outcome : Except HttpHostError HttpResult)
  | follow (next : υ)

/-- One round of the loop of `http_get` after the reply, with the number of redirects it may still follow. -/
def turn (left : Nat) (url : υ) : SendReply url → Turn υ
  | .error e => .stop (.error e.hostError)
  | .ok response =>
    if isRedirection response.status then
      if left = 0 then .stop (.error (.network "too many redirects".toList))
      else
        match redirectTarget crate policy url response with
        | .error e => .stop (.error e)
        | .ok next => .follow next
    else .stop (finalResponse crate policy response)

/-- The loop of `http_get`. -/
def httpLoop : Nat → υ → Program υ SendReply (Except HttpHostError HttpResult)
  | 0, url => .call url fun reply =>
    match turn crate policy 0 url reply with
    | .stop outcome => .done outcome
    | .follow _ => .done (.error (.network "too many redirects".toList))
  | left + 1, url => .call url fun reply =>
    match turn crate policy (left + 1) url reply with
    | .stop outcome => .done outcome
    | .follow next => httpLoop left next

attribute [grind =] httpLoop

def httpGet (urlText : Text) : Program υ SendReply (Except HttpHostError HttpResult) :=
  match crate.parse urlText with
  | .error message => .done (.error (.badUrl message))
  | .ok url =>
    match validateRequestUrl crate policy url with
    | .error e => .done (.error e)
    | .ok () => httpLoop crate policy maxRedirects url

/-! ## What is sent -/

variable {crate policy}

theorem redirectTarget_valid {url next : υ} {response : Response υ}
    (h : redirectTarget crate policy url response = .ok next) : validateRequestUrl crate policy next = .ok () := by
  simp only [redirectTarget, bind_eq_ok, pure_eq_ok] at h
  obtain ⟨value, -, loc, -, found, -, _, hvalid, rfl⟩ := h
  exact hvalid

theorem finalResponse_body {response : Response υ} {result : HttpResult}
    (h : finalResponse crate policy response = .ok result) : result.body.length ≤ policy.maxResponseBytes ∧
      ∃ received : List (List UInt8), response.chunks = received.map .ok ∧ result.body = received.flatten := by
  simp only [finalResponse, bind_eq_ok] at h
  obtain ⟨_, -, h⟩ := h
  split at h
  · cases h
  · simp only [bind_eq_ok, pure_eq_ok] at h
    obtain ⟨body, hbody, rfl⟩ := h
    exact readBodyCapped_ok (Nat.zero_le _) hbody

/-- A URL that requests may be sent to. -/
def Sendable (crate : UrlCrate υ) (policy : SandboxPolicy) (url : υ) : Prop :=
  validateRequestUrl crate policy url = .ok ()

/-- What one round leads to: a result that a response was made of, or an allowed URL. -/
theorem turn_spec {left : Nat} {url : υ} {reply : SendReply url} :
    (∀ returned, turn crate policy left url reply = .stop (.ok returned) →
      ∃ response, reply = .ok response ∧ finalResponse crate policy response = .ok returned) ∧
    (∀ next, turn crate policy left url reply = .follow next → left ≠ 0 ∧ Sendable crate policy next) := by
  unfold turn
  split
  · simp
  · rename_i response
    split
    · split
      · simp
      · rename_i hleft
        split
        · simp
        · rename_i next hnext
          simp only [reduceCtorEq, false_implies, implies_true, Turn.follow.injEq, forall_eq', true_and]
          exact ⟨hleft, redirectTarget_valid hnext⟩
    · refine ⟨fun returned hreturned => ?_, by simp⟩
      exact ⟨response, rfl, Turn.stop.inj hreturned⟩

/-- A call that sent its requests to allowed URLs, and whose result is made of the last response. -/
structure Served (crate : UrlCrate υ) (policy : SandboxPolicy) (limit : Nat)
    (trace : List (Exchange (SendReply (υ := υ)))) (result : Except HttpHostError HttpResult) : Prop where
  sendable : ∀ exchange ∈ trace, Sendable crate policy exchange.1
  count : trace.length ≤ limit
  final : ∀ returned, result = .ok returned →
    ∃ response, (∃ front url, trace = front ++ [⟨url, .ok response⟩]) ∧
      finalResponse crate policy response = .ok returned

theorem served_stop {left : Nat} {url : υ} {reply : SendReply url} {outcome : Except HttpHostError HttpResult}
    (hurl : Sendable crate policy url) (h : turn crate policy left url reply = .stop outcome) :
    Served crate policy (left + 1) [⟨url, reply⟩] outcome where
  sendable := by simpa using hurl
  count := by simp
  final returned hreturned := by
    subst hreturned
    obtain ⟨response, rfl, hfinal⟩ := turn_spec.1 returned h
    exact ⟨response, ⟨[], url, rfl⟩, hfinal⟩

/-- **The loop** sends requests to allowed URLs only, one more than the redirects it may follow. -/
theorem httpLoop_served (left : Nat) : ∀ {url : υ} {trace : List (Exchange SendReply)}
    {result : Except HttpHostError HttpResult},
    Sendable crate policy url → (httpLoop crate policy left url).Traced trace result →
    Served crate policy (left + 1) trace result := by
  induction left with
  | zero =>
    rintro url trace result hurl ⟨reply, rest, rfl, h⟩
    beta_reduce at h
    split at h
    · rename_i outcome hturn
      obtain ⟨rfl, rfl⟩ := h
      exact served_stop hurl hturn
    · rename_i next hturn
      exact absurd rfl (turn_spec.2 next hturn).1
  | succ left ih =>
    rintro url trace result hurl ⟨reply, rest, rfl, h⟩
    beta_reduce at h
    split at h
    · rename_i outcome hturn
      obtain ⟨rfl, rfl⟩ := h
      exact served_stop hurl hturn
    · rename_i next hturn
      have hrest := ih (turn_spec.2 next hturn).2 h
      constructor
      · intro exchange hmem
        rcases List.mem_cons.mp hmem with rfl | hmem
        · exact hurl
        · exact hrest.sendable exchange hmem
      · have := hrest.count
        simpa using this
      · intro returned hreturned
        obtain ⟨response, ⟨front, lastUrl, rfl⟩, hfinal⟩ := hrest.final returned hreturned
        exact ⟨response, ⟨⟨url, reply⟩ :: front, lastUrl, rfl⟩, hfinal⟩

/-- What the policy of an allowlist text promises of a URL that a request is sent to. -/
def AllowedUrl (crate : UrlCrate υ) (allowlistText : Text) (url : υ) : Prop :=
  crate.scheme url = "https".toList ∧
    ∃ host, crate.hostStr url = some host ∧ ∃ line ∈ lines allowlistText, LineAllows line host

/-- A returned body: within the cap, and all that the server sent of it. -/
def CappedBody (max : Nat) (trace : List (Exchange (SendReply (υ := υ)))) (body : List UInt8) : Prop :=
  body.length ≤ max ∧ ∃ (front : List (Exchange SendReply)) (url : υ) (response : Response υ)
    (received : List (List UInt8)), trace = front ++ [⟨url, .ok response⟩] ∧
      response.chunks = received.map .ok ∧ body = received.flatten

/-- **Sandbox egress.**  Whatever servers answer, requests go to allowed hosts over https only, there are at
most `maxRedirects + 1` of them, and the body of the result is capped. -/
theorem sandbox_egress (crate : UrlCrate υ) (allowlistText : Text) (maxResponseBytes : Nat) (urlText : Text) :
    ∀ trace result, (httpGet crate ⟨.fromText allowlistText, maxResponseBytes⟩ urlText).Traced trace result →
      (∀ exchange ∈ trace, AllowedUrl crate allowlistText exchange.1) ∧ trace.length ≤ maxRedirects + 1 ∧
        ∀ returned, result = .ok returned → CappedBody maxResponseBytes trace returned.body := by
  intro trace result h
  have hunsent : ∀ {outcome : Except HttpHostError HttpResult}, trace = [] ∧ result = outcome →
      (∀ returned, outcome ≠ .ok returned) →
      (∀ exchange ∈ trace, AllowedUrl crate allowlistText exchange.1) ∧
        trace.length ≤ maxRedirects + 1 ∧
        ∀ returned, result = .ok returned → CappedBody maxResponseBytes trace returned.body := by
    rintro outcome ⟨rfl, rfl⟩ hfails
    refine ⟨by simp, by simp, ?_⟩
    intro returned hreturned
    exact absurd hreturned (hfails returned)
  unfold httpGet at h
  split at h
  · exact hunsent h (fun returned hreturned => by cases hreturned)
  · rename_i url hparse
    split at h
    · exact hunsent h (fun returned hreturned => by cases hreturned)
    · rename_i hvalid
      obtain ⟨hsent, hcount, hfinal⟩ := httpLoop_served maxRedirects hvalid h
      refine ⟨?_, hcount, ?_⟩
      · intro exchange hmem
        obtain ⟨hscheme, host, hhost, hallows⟩ := (validateRequestUrl_ok crate _).mp (hsent exchange hmem)
        exact ⟨hscheme, host, hhost, (allowsHost_fromText allowlistText host).mp hallows⟩
      · intro returned hreturned
        obtain ⟨response, ⟨front, lastUrl, rfl⟩, hbody⟩ := hfinal returned hreturned
        obtain ⟨hlength, received, hchunks, hflatten⟩ := finalResponse_body hbody
        exact ⟨hlength, front, lastUrl, response, received, rfl, hchunks, hflatten⟩

/-- URLs that are a scheme and a host. -/
def plainCrate : UrlCrate (Text × Text) where
  parse text := .ok (text.takeWhile (· ≠ ':'), (text.dropWhile (· ≠ ':')).drop 3)
  join _ loc := .ok (loc.takeWhile (· ≠ ':'), (loc.dropWhile (· ≠ ':')).drop 3)
  scheme url := url.1
  hostStr url := some url.2
  toText url := url.1 ++ "://".toList ++ url.2

/-- The first server redirects, the second one answers in two chunks. -/
def redirectOnce (before : List (Exchange (SendReply (υ := Text × Text)))) (url : Text × Text) : SendReply url :=
  if before = [] then
    .ok ⟨302, [("location".toList, ⟨.ok "https://cdn.openai.com".toList⟩)], url, none, []⟩
  else .ok ⟨200, [], url, none, [.ok [1, 2], .ok [3]]⟩

/-- A GET that is redirected once. -/
def redirectedGet : List (Exchange (SendReply (υ := Text × Text))) × Except HttpHostError HttpResult :=
  (httpGet plainCrate ⟨.fromText ".openai.com\n".toList, 16⟩ "https://openai.com".toList).play redirectOnce []

theorem sandbox_egress_redirect : redirectedGet.1.length = 2 ∧
      (∀ exchange ∈ redirectedGet.1, AllowedUrl plainCrate ".openai.com\n".toList exchange.1) ∧
        redirectedGet.1.length ≤ maxRedirects + 1 ∧
        ∀ returned, redirectedGet.2 = .ok returned → CappedBody 16 redirectedGet.1 returned.body :=
  ⟨by decide +kernel, sandbox_egress plainCrate ".openai.com\n".toList 16 "https://openai.com".toList _ _
    (Program.traced_play redirectOnce _ [])⟩

end OpenClaw.Sandbox
