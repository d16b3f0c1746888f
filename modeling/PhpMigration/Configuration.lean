/-
Configurations: what is shipped, what holds without a file, and how a file is read.

A file that cannot be read as a document, or is not there, leaves the defaults as they are.  A
file gives sections by name; what a section says replaces the defaults member by member.
-/
import PhpMigration.Document.Block
import PhpMigration.Document.Need

namespace PhpMigration.Configuration

/-- The settings of a conversion where no file says otherwise. -/
def conversionDefaults : Table Value := [
  ("use_ai", .flag true),
  ("chunk_size", .int 5),
  ("max_retries", .int 3),
  ("retry_base_delay_seconds", .number (.double (.ofInt 1))),
  ("upload_dir", .text "uploads"),
  ("output_dir_name", .text "converted"),
  ("source_extensions", .list [.text ".php"]),
  ("exclude_dirs", .list [.text "vendor", .text "node_modules", .text ".git", .text "converted"])]

/-- The shipped file for conversions. -/
def shippedConversion : Value := .object [("conversion", .object conversionDefaults)]

/-- The shipped file for circuit breakers. -/
def shippedResilience : Value := .object [
  ("circuit_breaker", .object [
    ("default", .object [
      ("failure_threshold", .int 5),
      ("recovery_timeout_seconds", .int 30),
      ("half_open_max_calls", .int 1)]),
    ("services", .object [
      ("conversion_delegate", .object [
        ("failure_threshold", .int 3),
        ("recovery_timeout_seconds", .int 60)])])])]

/-- The shipped file for model services. -/
def shippedModels : Value := .object [
  ("providers", .object [
    ("groq", .object [
      ("type", .text "openai_compatible"),
      ("base_url", .text "$\x7bGROQ_BASE_URL:-https://api.groq.com/openai/v1\x7d"),
      ("api_key_env", .text "GROQ_API_KEY"),
      ("timeout_seconds", .int 60)]),
    ("ollama", .object [
      ("type", .text "openai_compatible"),
      ("base_url", .text "$\x7bOLLAMA_BASE_URL:-http://localhost:11434/v1\x7d"),
      ("timeout_seconds", .int 120)])]),
  ("models", .object [
    ("groq-llama3-70b", .object [
      ("provider", .text "groq"),
      ("model_id", .text "llama3-70b-8192"),
      ("max_output_tokens", .int 4000),
      ("temperature", .number (.double (.ofRatio false 1 10)))]),
    ("ollama-llama3", .object [
      ("provider", .text "ollama"),
      ("model_id", .text "llama3"),
      ("max_output_tokens", .int 4000),
      ("temperature", .number (.double (.ofRatio false 1 10)))])]),
  ("routing", .object [
    ("php_conversion", .object [("chain", .list [.text "groq-llama3-70b"])]),
    ("default", .object [("chain", .list [.text "groq-llama3-70b"])])]),
  ("settings", .object [
    ("availability_cache_ttl_seconds", .int 1800),
    ("check_availability", .flag false)])]

/-- The document that a file holds; a missing, broken or empty one is an object without members. -/
def ofFile (text : Option String) : Value :=
  match text.bind Block.read? with
  | some v => if v.isGiven then v else .object []
  | none => .object []

/-- A section of a document; one that is not given is an object without members. -/
def section? (document : Value) (name : String) : Except Misfit Value :=
  return (← document.needMember name .null).orElse (.object [])

/-- The settings of a conversion that a document gives, over the defaults. -/
def conversion (document : Value) : Except Misfit (Table Value) :=
  return conversionDefaults.update (← (← section? document "conversion").needTable)

/-- The settings of all breakers that a document gives. -/
def breakers (document : Value) : Except Misfit Value := section? document "circuit_breaker"

end PhpMigration.Configuration
