/-
Failures of a conversion.

Every failure is of a kind, and the kinds form a tree below the most general one: those of the
moment, which may pass when the same call is made again, and those that stay.  Whether to call
again is asked of the failure itself, since a caller may know better than its kind.  Whoever reports
a failure may say anything of it, so what it says besides its message is kept as it was given.
-/
import PhpMigration.Document.Shown

namespace PhpMigration

/-- The kinds of failures. -/
inductive FailureKind where
  /-- Any failure of a conversion. -/
  | general
  /-- A failure of the moment. -/
  | transient
  /-- A failure that stays. -/
  | permanent
  /-- The service is not asked at present. -/
  | unavailable
  /-- The service asks to be called less often. -/
  | rateLimited
  /-- The remote conversion service failed or returned nothing of use. -/
  | delegate
  /-- The remote conversion service rejected the credentials. -/
  | delegateAuth
  /-- Something is not configured, or not in a valid way. -/
  | configuration
  /-- A source file could not be parsed. -/
  | parse
  /-- A whole project could not be converted. -/
  | project
  /-- The project is being converted already. -/
  | inProgress
  deriving DecidableEq, Repr, Inhabited

namespace FailureKind

/-- All kinds. -/
def all : List FailureKind :=
  [.general, .transient, .permanent, .unavailable, .rateLimited, .delegate, .delegateAuth,
    .configuration, .parse, .project, .inProgress]

/-- The name by which messages and reports call a kind. -/
def name : FailureKind → String
  | .general => "Php2NodeError"
  | .transient => "TransientError"
  | .permanent => "PermanentError"
  | .unavailable => "ServiceUnavailableError"
  | .rateLimited => "RateLimitedError"
  | .delegate => "DelegateError"
  | .delegateAuth => "DelegateAuthError"
  | .configuration => "ConfigurationError"
  | .parse => "PhpParseError"
  | .project => "ProjectError"
  | .inProgress => "ConversionInProgressError"

/-- The kind of a name. -/
def ofName? (name : String) : Option FailureKind := all.find? fun kind => kind.name = name

/-- The kind itself and the more general ones, up to the most general. -/
def lineage : FailureKind → List FailureKind
  | .general => [.general]
  | .transient => [.transient, .general]
  | .permanent => [.permanent, .general]
  | .unavailable => [.unavailable, .transient, .general]
  | .rateLimited => [.rateLimited, .transient, .general]
  | .delegate => [.delegate, .transient, .general]
  | .delegateAuth => [.delegateAuth, .permanent, .general]
  | .configuration => [.configuration, .permanent, .general]
  | .parse => [.parse, .permanent, .general]
  | .project => [.project, .permanent, .general]
  | .inProgress => [.inProgress, .project, .permanent, .general]

/-- A failure of a kind may pass unless it is said to stay. -/
def mayPass (kind : FailureKind) : Bool := kind.lineage.contains .transient

/-- The component that failures of a kind are laid to where no other is named. -/
def component : FailureKind → String
  | .configuration => "config"
  | .parse => "php_parser"
  | .project | .inProgress => "converter"
  | _ => ""

end FailureKind

/-- What a failure of some kinds says besides its message. -/
inductive FailureDetail where
  | none
  /-- The seconds to wait before calling again, if known. -/
  | retryAfter (seconds : Value)
  | configKey (key : Value)
  | source (fileName line : Value)
  | project (id : Value)
  deriving DecidableEq, Repr, Inhabited

/-- A failure. -/
structure Failure where
  kind : FailureKind
  message : String
  /-- The component that failed. -/
  service : Value
  /-- The same call may succeed when it is made again. -/
  retryable : Value
  detail : FailureDetail
  deriving DecidableEq, Repr, Inhabited

namespace Failure

/-- The detail of a kind where nothing is known. -/
def emptyDetail : FailureKind → FailureDetail
  | .rateLimited => .retryAfter (.int 0)
  | .configuration => .configKey (.text "")
  | .parse => .source (.text "") (.int 0)
  | .project | .inProgress => .project (.text "")
  | _ => .none

/-- The message that is given is shown; an unavailable service needs none of its own. -/
def messageOf (kind : FailureKind) (message service : Value) : String :=
  if kind = .unavailable && !message.isGiven then
    s!"Service '{service.shown}' is unavailable (circuit breaker open)"
  else message.shown

/-- A failure from what is given as its message and service, of which nothing more is known. -/
def ofValues (kind : FailureKind) (message service : Value) : Failure :=
  { kind, message := messageOf kind message service, service, retryable := .flag kind.mayPass,
    detail := emptyDetail kind }

/-- A failure of a service, of which nothing more is known. -/
def ofService (kind : FailureKind) (message service : String) : Failure :=
  ofValues kind (.text message) (.text service)

/-- A failure with nothing but its message. -/
def ofMessage (kind : FailureKind) (message : String) : Failure :=
  ofService kind message kind.component

/-- A service that is not asked at present. -/
def unavailable (service : String) : Failure := ofService .unavailable "" service

/-- A service that asks to be called less often. -/
def rateLimited (message service : String) (seconds : Int) : Failure :=
  { ofService .rateLimited message service with detail := .retryAfter (.int seconds) }

/-- Something is not configured. -/
def configuration (message key : String) : Failure :=
  { ofMessage .configuration message with detail := .configKey (.text key) }

/-- A source file could not be parsed. -/
def parse (message fileName : String) (line : Value) : Failure :=
  { ofMessage .parse message with detail := .source (.text fileName) line }

/-- A whole project could not be converted. -/
def project (message id : String) : Failure :=
  { ofMessage .project message with detail := .project (.text id) }

/-- The project is being converted already. -/
def inProgress (message id : String) : Failure :=
  { ofMessage .inProgress message with detail := .project (.text id) }

end Failure

end PhpMigration
