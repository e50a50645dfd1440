import InstanceResize.Proofs.Account.Listing
import InstanceResize.Proofs.Run.Playing

/-!
# What a server says of the instances of an account

A server asks its provider and passes on what it is told. So its list of the instances, and what it
says of a single one, agree in the same way as the answers of the account. An instance that has no
row in the list is not found.

* `answered`: what the server makes of an answer.
* `Scene.Responds`: what comes of a request to a server with a simulated account.
* `responds_of_route`: a request that asks the provider.
* `Agreeing`, `agreeing_of_calls`: the list and what is said of single instances.
-/

namespace InstanceResize

open Account Server

/-! ## Asking the provider -/

namespace Server

/-- What the server makes of an answer of the provider. -/
def answered {c : Call} (response : c.Result → Response) : c.Reply → Response
  | .ok x => response x
  | .error e => errorResponse e

/-- Asking is one call, whose answer is responded with. -/
theorem asking_eq (c : Call) (response : c.Result → Response) :
    asking c response = .call c fun r => .done (answered response r) := by
  unfold asking
  congr 1
  funext r
  cases r <;> rfl

end Server

namespace Scene

/-- What comes of a request in a scene: a response, and the account that is left. -/
def Responds (scene : Scene) (r : HttpRequest) (response : Response) (left : Account) : Prop :=
  (scene.request r).1 = some response ∧ (scene.request r).2.world.provider = .simulated left

variable {scene : Scene} {a : Account}

/-- A program that asks the account once. -/
theorem performQuietly_asking (simulated : scene.world.provider = .simulated a) (c : Call)
    (response : c.Result → Response) :
    (scene.performQuietly (asking c response)).1 = some (answered response (a.answer c).1) ∧
      (scene.performQuietly (asking c response)).2.world.provider =
        .simulated (a.answer c).2 := by
  have runs : (asking c response).Runs false (exchange c (a.answer c).1 false)
      (answered response (a.answer c).1) := by
    rw [asking_eq, ← List.append_nil (exchange c (a.answer c).1 false)]
    exact .call false nofun (.done _ _)
  have replies : scene.world.provider.Replies
      (exchanges (exchange c (a.answer c).1 false)) (.simulated (a.answer c).2) := by
    rw [simulated, exchanges_exchange]
    exact ⟨rfl, rfl⟩
  obtain ⟨world, performed, left, -⟩ :=
    scene.perform_of_runs runs (by simp) replies false
  unfold performQuietly
  rw [performed]
  exact ⟨rfl, left⟩

/-- A request to read what the provider is asked for. -/
theorem responds_of_route {r : HttpRequest} {route : Route} {c : Call}
    {response : c.Result → Response} (simulated : scene.world.provider = .simulated a)
    (get : r.method = "GET") (path : Route.ofPath? r.path = some route)
    (asks : ∀ provider, read provider r route = asking c response) :
    scene.Responds r (answered response (a.answer c).1) (a.answer c).2 := by
  have program : respond scene.world.provider.name r = asking c response := by
    unfold respond
    rw [path, get]
    exact asks _
  unfold Responds request
  rw [program]
  exact performQuietly_asking simulated c response

end Scene

/-! ## The list and single instances -/

/-- What the rows of a list say of an account that was set up in a certain way and took certain
calls, and what a server says of it. -/
structure Agreeing (s : Setup) (cs : List Call) (rows : List Summary) : Prop where
  listed : Listed s cs rows
  /-- A request for the list is answered with the rows. -/
  list : ∀ (scene : Scene) r, scene.world.provider = .simulated ((ofSetup s).after cs) →
    r.method = "GET" → Route.ofPath? r.path = some .instances →
    scene.Responds r (.document 200 ((Schema.list Summary.schema).document rows))
      ((ofSetup s).after cs)
  /-- A request for an instance that has a row is answered with the state in the row. -/
  status : ∀ (scene : Scene) r encoded, scene.world.provider = .simulated ((ofSetup s).after cs) →
    r.method = "GET" → Route.ofPath? r.path = some (.status encoded) →
    ∀ row ∈ rows, Route.decodeId encoded = .ok row.instanceId →
      scene.Responds r
        (.document 200 (statusSchema.document (.of row.instanceId row.state, row.state)))
        ((ofSetup s).after (cs ++ [.status row.instanceId]))
  /-- An instance without a row is not found, and nothing is done. -/
  missing : ∀ (scene : Scene) r encoded id,
    scene.world.provider = .simulated ((ofSetup s).after cs) →
    r.method = "GET" → Route.ofPath? r.path = some (.status encoded) →
    Route.decodeId encoded = .ok id → (∀ row ∈ rows, row.instanceId ≠ id) →
      scene.Responds r
        (.document 404 (errorDocument "not_found" ("Instance not found: " ++ id)))
        ((ofSetup s).after cs)

/-- What a request for the status of an instance asks. -/
theorem Server.read_status {encoded : List Char} {id : String} (r : HttpRequest)
    (decoded : Route.decodeId encoded = .ok id) (provider : String) :
    read provider r (.status encoded) =
      asking (.status id) fun s => .value statusSchema (s, s.state) := by
  simp only [read, decoded]

/-- Whatever calls an account has taken, there are rows for which the list and the readings agree,
both of the account and of a server. -/
theorem agreeing_of_calls (s : Setup) (cs : List Call) : ∃ rows, Agreeing s cs rows := by
  have listed := listed_of_calls s cs
  refine ⟨_, listed, ?_, ?_, ?_⟩
  · intro scene r simulated get path
    exact Scene.responds_of_route (c := .instances) simulated get path fun _ => rfl
  · intro scene r encoded simulated get path row member decoded
    have responds := Scene.responds_of_route simulated get path (read_status r decoded)
    rw [listed.status row member] at responds
    simp only [answered, Status.state_of] at responds
    rw [after_append]
    exact responds
  · intro scene r encoded id simulated get path decoded missing
    have responds := Scene.responds_of_route simulated get path (read_status r decoded)
    have refused := listed.missing (.status id) id rfl missing
    rw [answer_of_error refused, refused] at responds
    exact responds

/-- An identifier may be written with percent signs in a path. -/
example : Route.ofPath? (HttpRequest.path ⟨"GET", "/api/instances/i%2D1/status?now", []⟩) =
    some (.status "i%2D1".toList) ∧ Route.decodeId "i%2D1".toList = .ok "i-1" := by
  decide +kernel

end InstanceResize
