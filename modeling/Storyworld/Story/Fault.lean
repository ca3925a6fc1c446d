import Storyworld.Diagnostic
import Storyworld.ModelError
import Storyworld.Story.Lexeme

/-!
# Faults

A fault is something in a story that stops the compilation.  The compiler stops
at the first it comes to.  With its place it becomes an error for the author
(`CompileError`), which also says the line and the column.

Two errors have no place: a declaration that the universe refused, and a story
that could not be read at all.
-/

namespace Storyworld

/-! ## Faults -/

/-- What is wrong at a place of a story. -/
inductive Fault where
  /-- Something else should have stood there. -/
  | unexpected (expected found : String)
  /-- A factor that is not declared, and the name perhaps meant. -/
  | undefinedFactor (name : String) (suggestion : Option String)
  /-- A factor that is declared already. -/
  | duplicateFactor (name : String)
  /-- A factor without values. -/
  | emptyFactor (name : String)
deriving DecidableEq, Repr

/-- The fault of characters that are no token. -/
def LexicalFault.fault (f : LexicalFault) : Fault := .unexpected f.expected f.found

namespace Fault

/-- The headline of a fault. -/
def message : Fault → String
  | .unexpected expected found => s!"expected {expected}, found {found}"
  | .undefinedFactor name _ => s!"undefined factor `{name}`"
  | .duplicateFactor name => s!"factor `{name}` is already declared"
  | .emptyFactor name => s!"factor `{name}` has no values"

/-- What stands at the place of a fault. -/
def label? : Fault → Option String
  | .unexpected _ found => some s!"unexpected {found}"
  | .undefinedFactor .. => some "factors must be declared before they are used"
  | .duplicateFactor _ => some "second declaration here"
  | .emptyFactor _ => none

/-- The name perhaps meant. -/
def suggestion? : Fault → Option String
  | .undefinedFactor _ suggestion => suggestion
  | _ => none

end Fault

/-! ## Errors -/

/-- Why a story does not compile. -/
inductive CompileError where
  /-- A fault, where it is, and where that place begins. -/
  | story (fault : Spanned Fault) (position : Position)
  /-- A declaration that the universe refused. -/
  | model (cause : ModelError)
  /-- The story could not be read. -/
  | unreadable (reason : String)
deriving DecidableEq, Repr

namespace CompileError

/-- The error of a fault in a source. -/
def ofFault (source : String) (fault : Spanned Fault) : CompileError :=
  .story fault (.locate source fault.span.start)

/-- Where the error is. -/
def span? : CompileError → Option Span
  | .story fault _ => some fault.span
  | _ => none

/-- The line and column where the error begins. -/
def position? : CompileError → Option Position
  | .story _ position => some position
  | _ => none

/-- An error on one line. -/
def message : CompileError → String
  | .story fault position =>
      let hint := (fault.node.suggestion?.map fun s => s!" (did you mean `{s}`?)").getD ""
      s!"{position.display}: {fault.node.message}{hint}"
  | .model cause => s!"invalid story model: {cause.message}"
  | .unreadable reason => s!"cannot read story file: {reason}"

/-- The diagnostic that shows an error.  It does not repeat the position, which a
report shows by itself. -/
def diagnostic (e : CompileError) : Diagnostic :=
  match e with
  | .story fault _ =>
      { severity := .error
        span := fault.span
        message := fault.node.message
        label := fault.node.label?
        note := fault.node.suggestion?.map fun s => s!"did you mean `{s}`?" }
  | _ => { severity := .error, span := ⟨0, 0⟩, message := e.message }

end CompileError

/-- The tokens of a story, or the error of its first fault. -/
def tokenize (source : String) : Except CompileError (List (Spanned Token)) :=
  (tokens source).mapError fun f => .ofFault source (f.map LexicalFault.fault)

end Storyworld
