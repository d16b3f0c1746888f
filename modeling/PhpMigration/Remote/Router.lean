/-
Which model answers.

A configuration names services, models, and for each purpose a chain of models.  The models of
a chain whose service can be reached at all are its candidates; the first candidate that is
available is chosen, and if none is, the first candidate, so that a failing check never turns
off what might work.  A verdict on a model is kept for a while, and all are dropped together
when the time is up or a service is set up by hand.

A service that needs a key from the environment is reachable only if the key is there.
-/
import PhpMigration.Environment
import PhpMigration.Remote.Endpoint

namespace PhpMigration

/-- What a router asks of the world outside: the wire, and the services that were set up by hand,
by name. -/
structure Outside (ω : Type) extends Wire ω where
  /-- Whether a service has the model. -/
  check : String → Value → Effect ω Bool
  /-- Ask a model of a service, whose settings are given. -/
  ask : String → Chat.Request → Value → Value → Effect ω Chat.Reply

/-- Who serves a model. -/
inductive Server where
  /-- A service that was set up by hand. -/
  | byHand (name : String)
  | endpoint (endpoint : Endpoint)
  deriving Repr, Inhabited

/-- The name of a server. -/
def Server.name : Server → Value
  | .byHand name => .text name
  | .endpoint e => e.label

/-- A model of a chain with who serves it. -/
structure Model where
  server : Server
  name : String
  id : Value
  settings : Value
  deriving Repr, Inhabited

/-- What does not change when models are chosen. -/
structure Routes where
  document : Value
  environment : Environment
  /-- The seconds for which a verdict is kept. -/
  patience : Double
  /-- Models are checked before they are chosen. -/
  checks : Bool
  deriving Repr, Inhabited

namespace Routes

/-- Verdicts are kept for half an hour unless something else is said. -/
def defaultPatience : Value := .int 1800

/-- The routes of a document; its three lists must be countable. -/
def ofDocument (document : Value) (environment : Environment) : Except Misfit Routes := do
  let settings := (← document.needMember "settings" (.object [])).orElse (.object [])
  let patience ← (← settings.needMember "availability_cache_ttl_seconds" defaultPatience).needDouble
  let checks ← settings.needMember "check_availability" (.flag true)
  for name in ["providers", "models", "routing"] do
    let _ ← (← document.needMember name (.object [])).needItems
  pure { document, environment, patience, checks := checks.isGiven }

/-- The types of services that are endpoints. -/
def endpointTypes : List String := ["openai", "openai_compatible"]

/-- What is set under a name that a document gives. -/
def setting (env : Environment) (name : Value) : Except Misfit String :=
  return (Table.find? env (← name.needText)).getD ""

/-- The key of a service: its own, or the one in the variable that it names.  A service that names
a variable without a value has no key and cannot be reached. -/
def keyOf (env : Environment) (settings : Value) : Except Misfit (Option Value) := do
  let own := (← settings.needMember "api_key" .null).orElse (.text "")
  let source ← settings.needMember "api_key_env" (.text "")
  if !own.isGiven && source.isGiven then
    let key ← setting env source
    pure (if key.isEmpty then none else some (.text key))
  else pure (some own)

/-- The text of an address with the variables in it replaced; anything else stays as it is. -/
def expandAddress (env : Environment) : Value → Value
  | .text s => .text (env.expand s)
  | v => v

/-- The endpoint that the settings of a service describe. -/
def endpointOf (env : Environment) (label : String) (settings : Value) :
    Except Misfit (Option Endpoint) := do
  let type ← settings.needMember "type" (.text "")
  if !(type.text?.any endpointTypes.contains) then pure none
  else match ← keyOf env settings with
    | none => pure none
    | some key =>
      let plain : Endpoint := {}
      let address ← settings.needMember "base_url" plain.address
      let timeout ← (← settings.needMember "timeout_seconds" (.int 60)).needDouble
      pure (some
        { label := .text label
          key
          address := expandAddress env address
          timeout := .number (.double timeout) })

/-- A name under which something may be filed; lists and objects are no names. -/
def nameOf : Value → Except Misfit (Option String)
  | .text name => pure (some name)
  | .list _ | .object _ => throw .wrongKind
  | _ => pure none

/-- Who serves a name: a service set up by hand, or the endpoint of that name. -/
def server? (r : Routes) (byHand : List String) (name : Value) : Except Misfit (Option Server) := do
  let known ← nameOf name
  if known.any byHand.contains then pure (known.map .byHand)
  else
    let services ← (← r.document.needMember "providers" (.object [])).needMembers
    match known with
    | none => pure none
    | some name =>
      let settings := (Table.find? services name).getD .null
      if !settings.isGiven then pure none
      else return (← endpointOf r.environment name settings).map .endpoint

/-- The model of a name, if it can be reached. -/
def model? (r : Routes) (byHand : List String) (name : Value) : Except Misfit (Option Model) := do
  let models ← (← r.document.needMember "models" (.object [])).needMembers
  match ← nameOf name with
  | none => pure none
  | some name =>
    let settings := (Table.find? models name).getD .null
    if !settings.isGiven then pure none
    else
      let server ← r.server? byHand (← settings.needMember "provider" (.text ""))
      let id ← settings.needMember "model_id" (.text "")
      pure (server.map fun server => { server, name, id, settings })

/-- The chain of a purpose, or the default chain. -/
def chain (r : Routes) (purpose : String) : Except Misfit (List Value) := do
  let routing ← r.document.needMember "routing" (.object [])
  let default ← routing.needMember "default" (.object [])
  let chain ← (← routing.needMember purpose default).needMember "chain" (.list [])
  if chain.isGiven then chain.needItems else pure []

/-- The models of a purpose that can be reached, in the order of the chain. -/
def candidates (r : Routes) (byHand : List String) (purpose : String) :
    Except Misfit (List Model) := do
  (← r.chain purpose).filterMapM (r.model? byHand)

end Routes

/-- A router at work. -/
structure Router (ω : Type) where
  routes : Routes
  /-- The services that were set up by hand. -/
  byHand : List String := []
  /-- What is known about the models that have been checked. -/
  verdicts : Table Bool := []
  /-- When the verdicts were last dropped because their time was up. -/
  droppedAt : Numeral := .double (.ofInt 0)
  lines : Lines ω

namespace Router

variable {ω : Type}

/-- Set up a service by hand. -/
def register (name : String) (r : Router ω) : Router ω :=
  { r with
    byHand := if r.byHand.contains name then r.byHand else r.byHand ++ [name]
    verdicts := [] }

/-- The time of the verdicts is up. -/
def isStale (r : Router ω) (now : Numeral) : Bool :=
  (Numeral.double r.routes.patience).lt (now.sub r.droppedAt)

/-- The router without verdicts whose time is up. -/
def refresh (now : Numeral) (r : Router ω) : Router ω :=
  if r.isStale now then { r with verdicts := [], droppedAt := now } else r

/-- Whether the server of a model has it. -/
def checkServer (outside : Outside ω) (m : Model) (r : Router ω) :
    Except Incident Bool × Router ω :=
  match m.server with
  | .byHand name =>
    let (result, world) := outside.check name m.id r.lines.world
    (result, { r with lines := { r.lines with world } })
  | .endpoint e =>
    let (result, lines) := e.check outside.toWire r.lines
    (result, { r with lines })

/-- The verdict on a model that has none yet. -/
def judge (outside : Outside ω) (m : Model) (r : Router ω) : Except Incident Bool × Router ω :=
  if r.routes.checks then r.checkServer outside m else (.ok true, r)

/-- Whether a model is available, as far as is known or can be found out. -/
def isAvailable (outside : Outside ω) (m : Model) (r : Router ω) :
    Except Incident Bool × Router ω :=
  let r := r.refresh (outside.clock r.lines.world)
  match Table.find? r.verdicts m.name with
  | some verdict => (.ok verdict, r)
  | none =>
    match r.judge outside m with
    | (.ok verdict, r) => (.ok verdict, { r with verdicts := Table.set m.name verdict r.verdicts })
    | (.error incident, r) => (.error incident, r)

/-- The first model that is available. -/
def firstAvailable (outside : Outside ω) : List Model → Router ω →
    Except Incident (Option Model) × Router ω
  | [], r => (.ok none, r)
  | m :: rest, r =>
    match r.isAvailable outside m with
    | (.ok true, r) => (.ok (some m), r)
    | (.ok false, r) => firstAvailable outside rest r
    | (.error incident, r) => (.error incident, r)

/-- The model that is chosen for a purpose. -/
def choose (outside : Outside ω) (purpose : String) (r : Router ω) :
    Except Incident (Option Model) × Router ω :=
  match r.routes.candidates r.byHand purpose with
  | .error misfit => (.error (.misfit misfit), r)
  | .ok candidates =>
    let (chosen, r) := r.firstAvailable outside candidates
    (chosen.map fun m => m.or candidates.head?, r)

/-- What is said of a purpose that no model can serve. -/
def noModel (purpose : String) : Failure :=
  .configuration (s!"No LLM provider available for function '{purpose}'. " ++
    "Check args/llm_config.yaml and provider credentials.") ("routing." ++ purpose)

/-- Ask the model that is chosen for a purpose. -/
def ask (outside : Outside ω) (purpose : String) (request : Chat.Request) (r : Router ω) :
    Except Incident Chat.Reply × Router ω :=
  match r.choose outside purpose with
  | (.error incident, r) => (.error incident, r)
  | (.ok none, r) => (.error (.failure (noModel purpose)), r)
  | (.ok (some m), r) =>
    match m.server with
    | .byHand name =>
      let (result, world) := outside.ask name request m.id m.settings r.lines.world
      (result, { r with lines := { r.lines with world } })
    | .endpoint e =>
      let (result, lines) := e.ask outside.toWire request m.id m.settings r.lines
      (result, { r with lines })

end Router

end PhpMigration
