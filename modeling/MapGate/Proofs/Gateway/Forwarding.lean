import MapGate.Proofs.Gate.Transparency
import MapGate.Proofs.Gateway.Vetting
import MapGate.Proofs.Url.Query

/-!
# What the renderer receives

A request that goes on leads to one request to the renderer (`Gateway.Sends`): with
the parameters that the gate has left, among them one `MAP` that names the project's
file, and without the headers that are withheld. For any other the renderer gets
nothing, and the client the status of the error in words (`Reply.refusal`).

* `Admits.headers`: which headers are left of a request;
* `Admits.sends`: what is sent for it;
* `handle_of_admits`, `handle_of_refuses`: what comes of it for the client;
* `handle_project`: what comes of any request for a project.
-/

namespace MapGate

variable {entry : HeaderName × ByteArray}

/-! ## Headers -/

/-- The header that is sent if a request says nothing about what it accepts. -/
def Headers.acceptAll : HeaderName × ByteArray := (.accept, "*/*".toUTF8)

theorem Headers.mem_withAccept {headers : Headers} (h : entry ∈ headers.withAccept.entries) :
    entry = acceptAll ∨ entry ∈ headers.entries := by
  rw [withAccept] at h
  split at h
  · exact .inr h
  · exact (mem_append.1 h).symm

namespace RendererSettings

variable {renderer : RendererSettings}

/-- The headers that do not go from a client to the renderer. -/
def withheld (renderer : RendererSettings) : List HeaderName :=
  [.cookie, .host, renderer.identityHeader] ++ Headers.hopByHopNames

/-- An empty `User-Agent` stands in for none, so that no other one is made up. -/
theorem mem_directHeaders {headers : Headers} :
    entry ∈ (renderer.directHeaders headers).entries ↔
      (entry ∈ headers.entries ∨
        headers.contains .userAgent = false ∧ entry = (.userAgent, ByteArray.empty)) ∧
      entry.1 ≠ .cookie ∧ entry.1 ≠ .host ∧ entry.1 ≠ renderer.identityHeader := by
  simp only [directHeaders, Headers.mem_remove, and_assoc]
  refine and_congr_left' ?_
  split
  · rename_i h
    simp [h]
  · rename_i h
    rw [Headers.mem_append, eq_false_of_ne_true h]
    simp

end RendererSettings

/-! ## Refusals -/

namespace Gateway

variable {gateway : Gateway} {owner name : String} {user : User} {request left : Request}
  {project : Project} {inspection : Inspection}

/-- What the renderer is sent for a request that the gate has left as `left`. -/
structure Sends (gateway : Gateway) (location : ProjectLocation) (request left : Request)
    (sent : RendererRequest) : Prop where
  method : sent.method = request.method
  body : sent.body = left.body
  url : { sent.url with query? := gateway.renderer.url.query? } = gateway.renderer.url
  params : sent.url.params = left.params
  mapOnce : sent.url.params.count "MAP" = 1
  map : sent.url.params.get? "MAP" = some ("/".intercalate
    [Text.withoutFinal '/' gateway.renderer.mapRoot, location.owner, location.name, location.file])
  /-- The headers are the client's, but for those that are withheld. -/
  headers : ∀ entry ∈ sent.headers.entries, entry = Headers.acceptAll ∨
    entry.1 ∉ gateway.renderer.withheld ∧
      (entry ∈ request.headers.entries ∨ entry = (.userAgent, ByteArray.empty))

/-- The request to the renderer for one that the gate has left as `left`. -/
def toSend (gateway : Gateway) (inspection : Inspection) (left : Request) : RendererRequest :=
  gateway.renderer.send (askPlain inspection.operation left)

theorem mem_headers_askPlain {operation : Operation}
    (h : entry ∈ (askPlain operation request).headers.entries) : entry ∈ request.headers.entries := by
  rw [askPlain] at h
  split at h
  · exact (Headers.mem_remove.1 h).1
  · exact h

/-- Asking for a plain answer changes headers only. -/
theorem askPlain_eq (request : Request) (operation : Operation) : askPlain operation request =
    { request with headers := (askPlain operation request).headers } := by
  rw [askPlain]
  split <;> rfl

/-- The gate does not bring back headers that were taken away before: all but the
length, which is not sent, are those that it got. -/
theorem Admits.headers (h : gateway.Admits owner name user request project inspection left)
    (sent : entry ∈ (gateway.toSend inspection left).headers.entries) :
    entry = Headers.acceptAll ∨ entry.1 ∉ gateway.renderer.withheld ∧
      (entry ∈ request.headers.entries ∨ entry = (.userAgent, ByteArray.empty)) := by
  refine (Headers.mem_withAccept sent).imp_right fun given => ?_
  obtain ⟨given, length⟩ := Headers.mem_remove.1 given
  obtain ⟨asked, -, lasting⟩ := Headers.mem_withoutHopByHop.1 given
  have narrows := narrows_of_inspect h.accepted
  have kept := Headers.mem_remove.2 ⟨mem_headers_askPlain asked, length⟩
  rw [narrows.headers] at kept
  obtain ⟨origin, cookie, host, identity⟩ :=
    RendererSettings.mem_directHeaders.1 (Headers.mem_remove.1 kept).1
  refine ⟨?_, origin.imp_right And.right⟩
  simp [RendererSettings.withheld, cookie, host, identity, lasting]

/-- `MAP` is set before the gate inspects the request, and stays. -/
theorem Admits.map (h : gateway.Admits owner name user request project inspection left) :
    left.params.count "MAP" = 1 ∧
      left.params.get? "MAP" = some (gateway.renderer.mapPath project.location) := by
  have other : Text.sameName "PROPERTYNAME" "MAP" = false := by decide
  have narrows := narrows_of_inspect h.accepted
  rw [← Params.count_remove_of_ne other, ← Params.get?_remove_of_ne other, narrows.params,
    Params.count_remove_of_ne other, Params.get?_remove_of_ne other]
  exact ⟨Params.count_set_self, Params.get?_set_self⟩

/-- What is sent for a request that goes on. -/
theorem Admits.sends (h : gateway.Admits owner name user request project inspection left) :
    gateway.Sends project.location request left (gateway.toSend inspection left) := by
  have narrows := narrows_of_inspect h.accepted
  have plain := askPlain_eq left inspection.operation
  have params : (gateway.toSend inspection left).url.params = left.params := by
    rw [toSend, plain]
    exact Url.params_setQuery _ left.params
  have method : (askPlain inspection.operation left).method = left.method := by rw [plain]
  have body : (askPlain inspection.operation left).body = left.body := by rw [plain]
  obtain ⟨once, map⟩ := h.map
  exact {
    method := method.trans narrows.method
    body
    url := rfl
    params
    mapOnce := params ▸ once
    map := params ▸ map
    headers := fun _ sent => h.headers sent }

/-! ## Requests of clients -/

variable {reach reach' : RendererRequest → Except String Reply} {source : EventSource}

theorem handleProject_of_refuses {e : GateError} (h : gateway.Refuses owner name user request e) :
    gateway.handleProject reach owner name user source request = .refused source e none := by
  rw [handleProject, h.vet]

theorem handleProject_of_error {reason : String}
    (h : gateway.Admits owner name user request project inspection left)
    (fails : reach (gateway.toSend inspection left) = .error reason) :
    gateway.handleProject reach owner name user source request =
      .refused source (.rendererFailed reason) (some (gateway.toSend inspection left)) := by
  rw [toSend] at fails
  simp only [handleProject, h.vet, fails, toSend]

theorem handleProject_of_ok {reply : Reply}
    (h : gateway.Admits owner name user request project inspection left)
    (answers : reach (gateway.toSend inspection left) = .ok reply) :
    gateway.handleProject reach owner name user source request =
      .passed gateway source ⟨inspection, askPlain inspection.operation left⟩
        (gateway.toSend inspection left) reply := by
  rw [toSend] at answers
  simp only [handleProject, h.vet, answers, toSend]

/-- The user of a request. -/
def caller (gateway : Gateway) (request : Request) : User :=
  request.headers.caller gateway.renderer.identityHeader

variable (reach) (peer : SocketAddress) (id : Uuid)

theorem handle_of_route (route : Route.ofPath request.publicPath = .project owner name) :
    gateway.handle reach peer id request =
      (gateway.handleProject reach owner name (gateway.caller request)
        (eventSource owner name (gateway.caller request) peer id) request).seenBy request.method := by
  rw [handle, route]
  rfl

/-- Files with one project, which is for everyone. -/
def cityStore : ProjectStore where
  root := "/srv"
  files := ⟨[(["alice", "city", "access.yaml"],
    .file "project_file: city.qgs\naccess: \x7bmode: public\x7d\n".toUTF8)]⟩

/-- A gateway to the project. -/
def cityGateway : Gateway where
  load := cityStore.load
  renderer := {
    url := ⟨"http", some ⟨[], [], .name "renderer".toList, some 8080⟩, .segments ["ows".toList],
      none, none⟩
    mapRoot := "/srv/projects/"
    identityHeader := .user }
  publicBase? := none
  maxBodyBytes := 100

/-- A request with a session and a `map` of its own. -/
def cityRequest : Request where
  method := .get
  params := ⟨[("SERVICE", "WMS"), ("map", "/etc/passwd"), ("REQUEST", "GetMap")]⟩
  headers := ⟨[(.cookie, "session=abc".toUTF8), (.user, "bob".toUTF8)]⟩
  body := ByteArray.empty
  publicPath := "/ows/alice/city"

/-- Whether a project from the given place is there for everyone. -/
def isPublic (location : ProjectLocation) : Except StoreError Project → Bool
  | .ok project => project.location = location && project.settings.roles.isEmpty &&
      project.settings.access.mode = .everyone
  | .error _ => false

theorem load_city : ∃ project, cityGateway.load "alice" "city" = .ok project ∧
    project.location = ⟨"alice", "city", "city.qgs"⟩ ∧ project.settings.roles = [] ∧
    project.settings.access.mode = .everyone := by
  have read : isPublic ⟨"alice", "city", "city.qgs"⟩ (cityGateway.load "alice" "city") = true := by
    decide +kernel
  cases h : cityGateway.load "alice" "city" with
  | error e => rw [h] at read; cases read
  | ok project =>
    rw [h] at read
    simp only [isPublic, Bool.and_eq_true, decide_eq_true_eq, List.isEmpty_iff] at read
    exact ⟨project, rfl, read.1.1, read.1.2, read.2⟩

/-- The parameters of the request, with `MAP` in the place of the client's. -/
def cityParams : Params :=
  ⟨[("SERVICE", "WMS"), ("MAP", "/srv/projects/alice/city/city.qgs"), ("REQUEST", "GetMap")]⟩

theorem admits_city : ∃ project left, cityGateway.Admits "alice" "city"
    (cityGateway.caller cityRequest) cityRequest project
      ⟨Operation.classify .get cityParams, false⟩ left ∧ left.params = cityParams := by
  obtain ⟨project, loads, location, roles, mode⟩ := load_city
  have access : project.settings.accessOf (cityGateway.caller cityRequest) = .unchecked := by
    rw [ProjectSettings.accessOf, roles, ProjectAccess.admits, mode]
    rfl
  have params : (cityGateway.renderer.direct project.location cityRequest).params =
      cityParams := by
    rw [location]
    decide +kernel
  have unrepeated : Unrepeated
      (cityGateway.renderer.direct project.location cityRequest).params := by
    rw [params, ← repeated?_eq_none_iff]
    decide +kernel
  refine ⟨project, _, ⟨loads, ?_, by decide, ?_⟩, params⟩
  · rw [access]; rfl
  · rw [access, ← params]
    exact inspect_none_eq_ok_iff.2 ⟨unrepeated, rfl⟩

end Gateway

end MapGate
