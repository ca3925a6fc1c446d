import Storyworld.Story.Grammar

/-!
# Compiling a story

`compile` reads a whole story and gives what it declares, or the first error.
All that is allowed but suspicious is found on the way and given with the result.
-/

namespace Storyworld

/-- A compiled story. -/
structure Compilation where
  /-- What the story declares. -/
  world : Universe
  /-- What looks like a mistake, in the order of the story. -/
  findings : List (Spanned Finding)
  /-- The description blocks, in the order of the story. -/
  descriptions : List Description

/-- The findings as warnings. -/
def Compilation.warnings (c : Compilation) : List Diagnostic := c.findings.map Finding.diagnostic

/-- Read the blocks of lexemes. -/
def compileLexemes (ls : List Lexeme) : Except Refusal Compilation := do
  let start ← Reader.start ls
  let ((), r) ← (Reading.blocks ls.length).run start
  return ⟨r.world, r.findings, r.descriptions⟩

/-- The error that a refusal is for the author of a source. -/
def Refusal.error (source : String) : Refusal → CompileError
  | .fault f => .ofFault source f
  | .model cause => .model cause

/-- Compile a story. -/
def compile (source : String) : Except CompileError Compilation :=
  (compileLexemes (lexemes source)).mapError (Refusal.error source)

/-- Compile a story that was read, if it could be. -/
def compileRead (contents : Except String String) : Except CompileError Compilation :=
  (contents.mapError .unreadable).bind compile

/-! ## Tests -/

example : ((compile "factor a : (x, 07, 7)").toOption.map fun c =>
    (c.world.factors, c.findings)) =
    some ([⟨⟨0⟩, "a", ⟨"x"⟩, [⟨"7"⟩]⟩], [⟨.repeatedValue ⟨"7"⟩ "a", ⟨19, 20⟩⟩]) := by
  decide +kernel

end Storyworld
