/-
Endpoints that speak the chat protocol.

An endpoint connects on its first use and keeps the connection.  One on this machine needs no
key; any other is available only with one, and only if it answers.  What goes over the wire is a
matter of the world outside, a state that every use of the wire may change; beside it stand the
endpoints that have connected.
-/
import PhpMigration.Incident
import PhpMigration.Remote.Chat

namespace PhpMigration

/-- An endpoint. -/
structure Endpoint where
  label : Value := .text "openai"
  key : Value := .text ""
  address : Value := .text "https://api.openai.com/v1"
  timeout : Value := .number (.double (.ofInt 60))
  deriving Repr, Inhabited

/-- What comes back over the wire: the choices, each a text and why it ended, and the tokens that
went in and came out. -/
structure Completion where
  choices : List (Option String × Value)
  usage : Option (Value × Value)
  deriving Repr, Inhabited

/-- A step that may fail and may change the world outside. -/
abbrev Effect (ω α : Type) := ω → Except Incident α × ω

/-- The wire to the endpoints. -/
structure Wire (ω : Type) where
  /-- The seconds on the clock. -/
  clock : ω → Numeral
  /-- A connection is made. -/
  connect : Endpoint → ω → ω
  /-- The endpoint is asked which models it has. -/
  listModels : Endpoint → Effect ω Unit
  /-- The endpoint is asked for a completion. -/
  create : Endpoint → Table Value → Effect ω Completion

/-- The world outside, and the endpoints that have connected, by label. -/
structure Lines (ω : Type) where
  connected : List Value := []
  world : ω

namespace Endpoint

/-- The names of what can be said of an endpoint. -/
def parameters : List String := ["provider_label", "api_key", "base_url", "timeout"]

/-- The endpoint that a table describes, unless the table says anything else. -/
def ofTable? (t : Table Value) : Option Endpoint :=
  let usual : Endpoint := {}
  if t.isWithin parameters then
    some
      { label := (t.find? "provider_label").getD usual.label
        key := (t.find? "api_key").getD usual.key
        address := (t.find? "base_url").getD usual.address
        timeout := (t.find? "timeout").getD usual.timeout }
  else none

/-- The hosts that are this machine. -/
def localHosts : List String := ["localhost", "127.0.0.1"]

/-- An address names a host. -/
def addressNames (address : Value) (host : String) : Except Misfit Bool :=
  match address with
  | .text s => pure (Text.contains s host)
  | .list items => pure (items.any fun item => item.text? = some host)
  | .object members => pure (Table.has members host)
  | _ => throw .wrongKind

/-- The endpoint is on this machine. -/
def isLocal (e : Endpoint) : Except Misfit Bool := localHosts.anyM (addressNames e.address)

/-- What is sent where there is no key. -/
def noKey : Value := .text "not-needed"

/-- The key that is sent. -/
def sentKey (e : Endpoint) : Value := e.key.orElse noKey

variable {ω : Type}

/-- Connect, unless the endpoint has connected before. -/
def connect (wire : Wire ω) (e : Endpoint) (l : Lines ω) : Lines ω :=
  if l.connected.contains e.label then l
  else { connected := e.label :: l.connected, world := wire.connect e l.world }

/-- What the endpoint replied in some seconds; the first choice counts. -/
def replyOf (e : Endpoint) (modelId : Value) (seconds : Numeral) (c : Completion) :
    Except Misfit Chat.Reply := do
  let (content, finish) := c.choices.headD (none, .null)
  let (input, output) := c.usage.getD (.null, .null)
  let duration ← Value.integerOfNumeral (seconds.mul 1000)
  pure
    { content := some (content.getD "")
      model := modelId
      service := e.label
      inputTokens := input.orElse (.int 0)
      outputTokens := output.orElse (.int 0)
      duration
      finish := finish.orElse (.text "") }

/-- Ask the endpoint. -/
def ask (wire : Wire ω) (r : Chat.Request) (modelId settings : Value) (e : Endpoint) :
    Effect (Lines ω) Chat.Reply := fun l =>
  let started := wire.clock l.world
  let l := e.connect wire l
  match r.order modelId settings with
  | .error misfit => (.error (.misfit misfit), l)
  | .ok order =>
    let (result, world) := wire.create e order l.world
    let seconds := (wire.clock world).sub started
    (result >>= fun c => (e.replyOf modelId seconds c).mapError .misfit, { l with world })

/-- An endpoint that is refused an answer is not available; anything else that goes wrong is
passed on. -/
def verdict : Except Incident Unit → Except Incident Bool
  | .ok () => .ok true
  | .error (.refusal _) => .ok false
  | .error incident => .error incident

/-- Whether the endpoint can be asked now. -/
def check (wire : Wire ω) (e : Endpoint) : Effect (Lines ω) Bool := fun l =>
  match if e.key.isGiven then pure true else e.isLocal with
  | .error misfit => (.error (.misfit misfit), l)
  | .ok false => (.ok false, l)
  | .ok true =>
    let l := e.connect wire l
    let (result, world) := wire.listModels e l.world
    (verdict result, { l with world })

end Endpoint

end PhpMigration
