/-
Converting the text of one source file.

Where a remote service may be asked it is asked first, and the code in its reply is taken.  If it
fails, or replies without code, the text is converted here: it is parsed, lowered and printed.
So a failure of the service never sinks a file; only a text that cannot be parsed does, or a gap
of the conversion itself.

The service is a function that may change a state, and nothing else of that state is looked at.
-/
import PhpMigration.Conversion.Plausible
import PhpMigration.Incident
import PhpMigration.Php.Parser
import PhpMigration.Remote.Fence

namespace PhpMigration

/-! ### The prompt -/

/-- What a service is asked before it is given the code. -/
def promptLead : String :=
  "Convert the following PHP code to idiomatic Node.js/Express.js code.\n" ++
  "Include proper error handling, async/await patterns, and modern JavaScript practices.\n\n" ++
  "PHP code:\n"

/-- What a service is asked. -/
def buildPrompt (code : String) : String := promptLead ++ code

/-! ### Warnings -/

/-- Something worth a warning; the label names the file. -/
inductive Warning where
  | delegateFailed (label : String) (failure : Failure)
  | noCode (label : String)
  | doubtful (label code : String)
  | unparsable (fileName message : String)
  deriving DecidableEq, Repr, Inhabited

/-- So much of a doubtful result is shown. -/
def shownLength : Nat := 200

/-- The wording of a warning. -/
def Warning.message : Warning → String
  | .delegateFailed label f =>
    s!"Delegate conversion failed for {label} ({f.kind.name}: {f.message}); falling back to AST transformation"
  | .noCode label => s!"Delegate returned no code for {label}; falling back to AST transformation"
  | .doubtful label code =>
    s!"Converted content for {label} may not be valid code: " ++
      String.ofList (code.toList.take shownLength)
  | .unparsable fileName message => s!"Failed to parse PHP file {fileName}: {message}"

/-- The name that a value gives a file, if it gives one. -/
def fileNameOf (name : Value) : String := (name.orElse (.text "")).shown

/-- How a file is called that has no name. -/
def labelOf (fileName : String) : String := if fileName.isEmpty then "<snippet>" else fileName

/-- The warning that a result calls for. -/
def doubts (fileName code : String) : List Warning :=
  if Plausible.looksLikeCode code then [] else [.doubtful (labelOf fileName) code]

/-! ### One text -/

/-- Why a parser gives no tree. -/
inductive ParserStop where
  /-- It cannot read the text. -/
  | report (report : Php.Report)
  /-- It is told to end, with the whole program. -/
  | interruption (name text : String)
  deriving DecidableEq, Repr

/-- A parser of source texts. -/
abbrev SourceParser := String → Except ParserStop (List Php.Node)

/-- The parser for the language itself. -/
def parseSource : SourceParser := fun code => (Php.parse code).mapError .report

/-- A remote service that answers prompts. -/
abbrev Service (σ : Type) := String → σ → Except Incident String × σ

/-- What it takes to convert a text. -/
structure TextConverter (σ : Type) where
  /-- A service may be asked. -/
  useAi : Bool
  service : Option (Service σ)
  parser : SourceParser := parseSource

/-- A result with the warnings on the way to it. -/
structure Outcome (α : Type) where
  result : Except Incident α
  warnings : List Warning

/-- The code of a program. -/
def codeOf (program : Core.Node) : Except Incident String := do
  let target ← (Lowering.lower program).mapError .lowering
  target.source.mapError .printing

namespace TextConverter

variable {σ : Type}

/-- The program that a text is; a failure to parse says which file it was. -/
def read (t : TextConverter σ) (code fileName : String) : Except Incident Core.Node :=
  match t.parser code with
  | .error (.report r) => .error (.failure (.parse r.message fileName r.line))
  | .error (.interruption name text) => .error (.other name text)
  | .ok nodes => (Php.programToCore nodes).mapError .tree

/-- The code of a text, by parsing, lowering and printing. -/
def convertLocally (t : TextConverter σ) (code fileName : String) : Except Incident String := do
  codeOf (← t.read code fileName)

/-- The local result, with the warnings that came before it. -/
def fallBack (t : TextConverter σ) (code fileName : String) (before : List Warning) :
    Outcome String :=
  match t.convertLocally code fileName with
  | .ok converted => ⟨.ok converted, before ++ doubts fileName converted⟩
  | .error incident => ⟨.error incident, before⟩

/-- What becomes of the text when the service has answered. -/
def afterReply (t : TextConverter σ) (code fileName : String) :
    Except Incident String → Outcome String
  | .ok reply =>
    let converted := Fence.extract reply
    if converted.isEmpty then t.fallBack code fileName [.noCode (labelOf fileName)]
    else ⟨.ok converted, doubts fileName converted⟩
  | .error (.failure f) => t.fallBack code fileName [.delegateFailed (labelOf fileName) f]
  | .error incident => ⟨.error incident, []⟩

/-- The code of a text, from the service if it has any to give. -/
def convert (t : TextConverter σ) (code fileName : String) (s : σ) : Outcome String × σ :=
  match t.useAi, t.service with
  | true, some service =>
    let (reply, s) := service (buildPrompt code) s
    (t.afterReply code fileName reply, s)
  | _, _ => (t.fallBack code fileName [], s)

end TextConverter

/-! ### Snippets -/

/-- What stands at the beginning of every source file. -/
def openTag : String := "<?php"

/-- The mark that some editors put before a text. -/
def byteOrderMark : Char := Char.ofNat 0xFEFF

/-- The text without the marks before it. -/
def withoutMarks (s : String) : String := String.ofList (s.toList.dropWhile (· = byteOrderMark))

/-- The result of converting a snippet: its code, or what is wrong with it.  The name that the
snippet was given may be anything, and is given back. -/
structure SnippetResult where
  name : Value
  success : Bool
  result : String
  deriving DecidableEq, Repr

/-- The result as it is shown. -/
def SnippetResult.toDocument (r : SnippetResult) : Table Value :=
  [("file", r.name), ("success", .flag r.success), ("result", .text r.result)]

/-- What is said of a snippet that does not begin with a tag. -/
def missingTagMessage : String := "PHP file must start with <?php"

/-- The result for a snippet that cannot be parsed. -/
def unparsedSnippet (name : Value) (message : String) : Outcome SnippetResult :=
  ⟨.ok ⟨name, false, "Failed to parse PHP file: " ++ message⟩, [.unparsable name.shown message]⟩

/-- The outcome for a snippet: a failure to parse becomes a result. -/
def snippetOutcome (name : Value) (o : Outcome String) : Outcome SnippetResult :=
  match o.result with
  | .ok code => ⟨.ok ⟨name, true, code⟩, o.warnings⟩
  | .error incident =>
    match incident.failure? with
    | some f =>
      if f.kind = .parse then
        let last := unparsedSnippet name f.message
        ⟨last.result, o.warnings ++ last.warnings⟩
      else ⟨.error incident, o.warnings⟩
    | none => ⟨.error incident, o.warnings⟩

/-- Convert a snippet by itself.  It must begin with a tag and be parsed, even if a service
would take it. -/
def TextConverter.convertSnippet {σ : Type} (t : TextConverter σ) (code : String) (name : Value)
    (s : σ) : Outcome SnippetResult × σ :=
  let clean := Text.strip (withoutMarks code)
  let fileName := fileNameOf name
  if !openTag.toList.isPrefixOf clean.toList then (unparsedSnippet name missingTagMessage, s)
  else match t.read clean fileName with
    | .error incident => (snippetOutcome name ⟨.error incident, []⟩, s)
    | .ok _ =>
      let (outcome, s) := t.convert clean fileName s
      (snippetOutcome name outcome, s)

end PhpMigration
