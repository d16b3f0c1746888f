/-
Requests to chat models, and their replies.

A request is a conversation so far, under instructions that come before it.  It is written down
as documents, since whoever asks may leave out any part of a turn; what a model is sent has all
of them.
-/
import PhpMigration.Document.Need
import PhpMigration.Document.Shown

namespace PhpMigration.Chat

/-- What a model is asked. -/
structure Request where
  /-- The turns of the conversation. -/
  turns : Value := .list []
  /-- The instructions before them. -/
  instructions : Value := .text ""
  /-- The longest reply that is wanted. -/
  maxTokens : Value := .int 4000
  /-- How freely the model speaks; the model's own default if nothing is said. -/
  temperature : Value := .null
  deriving Repr, Inhabited

/-- The names of what can be said of a request. -/
def Request.parameters : List String := ["messages", "system_prompt", "max_tokens", "temperature"]

/-- The request that a table describes, unless the table says anything else. -/
def Request.ofTable? (t : Table Value) : Option Request :=
  let usual : Request := {}
  if t.isWithin parameters then
    some
      { turns := (t.find? "messages").getD usual.turns
        instructions := (t.find? "system_prompt").getD usual.instructions
        maxTokens := (t.find? "max_tokens").getD usual.maxTokens
        temperature := (t.find? "temperature").getD usual.temperature }
  else none

/-- What a model is asked in a single turn. -/
def Request.ofPrompt (instructions prompt : String) : Request :=
  { turns := .list [.object [("role", .text "user"), ("content", .text prompt)]]
    instructions := .text instructions }

/-- A message as it is sent. -/
def message (role content : Value) : Value := .object [("role", role), ("content", content)]

/-- A turn as it is sent: it is the user's unless it says otherwise, and its content is text. -/
def ofTurn (turn : Value) : Except Misfit Value := do
  let members ← turn.needMembers
  let part := fun name (default : String) => (Table.find? members name).getD (.text default)
  pure (message (part "role" "user") (.text (part "content" "").shown))

/-- The messages of a request: the instructions, if there are any, and the turns. -/
def Request.messages (r : Request) : Except Misfit (List Value) := do
  let opening := if r.instructions.isGiven then [message (.text "system") r.instructions] else []
  return opening ++ (← (← r.turns.needItems).mapM ofTurn)

/-- A model may bound its replies by itself. -/
def defaultMaxTokens : Value := .int 4000

/-- What is asked of a model with the given settings.  The reply is no longer than both sides
allow, and the request's own temperature comes first. -/
def Request.order (r : Request) (modelId settings : Value) : Except Misfit (Table Value) := do
  let messages ← r.messages
  let longest ← r.maxTokens.lesser (← settings.needMember "max_output_tokens" defaultMaxTokens)
  let temperature ← match r.temperature with
    | .null => settings.needMember "temperature" .null
    | given => pure given
  let order := [("model", modelId), ("messages", .list messages),
    ("max_tokens", longest)]
  pure (match temperature with
    | .null => order
    | given => order ++ [("temperature", given)])

/-- What a model replies. -/
structure Reply where
  content : Option String
  model : Value
  service : Value
  inputTokens : Value := .int 0
  outputTokens : Value := .int 0
  /-- How long the reply took, in thousandths of a second. -/
  duration : Int := 0
  /-- Why the reply ended. -/
  finish : Value := .text ""
  deriving Repr, Inhabited

end PhpMigration.Chat
